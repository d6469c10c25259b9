import SystemsLang.Proofs.Parsing.Moved
import SystemsLang.Proofs.Scanning.Respaced

/-!
# Layout never changes the program

Tokens with the same kinds and texts in the same order spell the same program, apart from positions:
the same tree, or an error with the same cause at the token with the same number
(`sameApart_ofTokens`). A text whose lexemes are kept and whose gaps are replaced has such tokens,
so it spells the same program (`sameApart_respaced`).

The two lists of tokens are both compared with a third, in which every token stands where its number
says. Each of the two is the third one moved, and with moved tokens parsing goes the same way.
-/

namespace SystemsLang

open Syntax

namespace Token

/-- The kinds and the texts of tokens, in order. -/
def contents (tokens : List Token) : List (Kind × String) :=
  tokens.map fun token => (token.kind, token.text)

/-- Tokens of which each stands where its number in the list says. -/
def numbered (tokens : List Token) : List Token :=
  tokens.mapIdx fun number token => token.moved fun _ => ⟨number, 0⟩

/-- The position of the token whose number the line of the given position is. -/
def placeOf (tokens : List Token) (position : Position) : Position :=
  (tokens[position.line]?.map Token.position).getD Position.start

/-- Tokens have their own positions again if each of the numbered ones is moved to its place. -/
theorem map_numbered (tokens : List Token) :
    (numbered tokens).map (Token.moved (placeOf tokens)) = tokens := by
  refine List.ext_getElem (by simp [numbered]) fun number _ bound => ?_
  simp [numbered, moved, placeOf, bound]

/-- Numbered tokens are made from contents and numbers. -/
theorem numbered_eq_mapIdx (tokens : List Token) : numbered tokens =
    (contents tokens).mapIdx fun number content => ⟨content.1, content.2, ⟨number, 0⟩⟩ := by
  refine List.ext_getElem (by simp [numbered, contents]) fun number _ _ => ?_
  simp [numbered, contents, moved]

/-- Numbering leaves nothing of tokens but their contents. -/
theorem numbered_eq {tokens others : List Token} (same : contents others = contents tokens) :
    numbered others = numbered tokens := by
  rw [numbered_eq_mapIdx, numbered_eq_mapIdx, same]

/-- Nor does moving all tokens to one place. -/
theorem map_toStart {tokens others : List Token} (same : contents others = contents tokens) :
    others.map (Token.moved fun _ => Position.start) =
      tokens.map (Token.moved fun _ => Position.start) := by
  have ofContents (tokens : List Token) : tokens.map (Token.moved fun _ => Position.start) =
      (contents tokens).map fun content => ⟨content.1, content.2, Position.start⟩ := by
    rw [contents, List.map_map]
    rfl
  rw [ofContents, ofContents, same]

/-- The end marker that belongs to a list moves with the tokens, if there are any. -/
theorem endingOf_moved {tokens : List Token} (nonempty : tokens ≠ [])
    (place : Position → Position) :
    endingOf (tokens.map (Token.moved place)) = (endingOf tokens).moved place := by
  rw [endingOf, endingOf, List.getLast?_map, List.getLast?_eq_some_getLast nonempty]
  rfl

/-- The last token of a list is an end marker. -/
def Closed (tokens : List Token) : Prop :=
  ∃ position, tokens.getLast? = some ⟨.ending, "", position⟩

/-- A scan ends in an end marker. -/
theorem closed_scan (source : String) : Closed (scan source) := by
  obtain ⟨position, same⟩ := scan_eq source
  exact ⟨position, by rw [same, List.getLast?_concat]⟩

/-- The last token of a closed list is the end marker that belongs to the list. -/
theorem Closed.endingOf_mem {tokens : List Token} (closed : Closed tokens) :
    endingOf tokens ∈ tokens := by
  obtain ⟨position, last⟩ := closed
  have same : endingOf tokens = ⟨.ending, "", position⟩ := by
    rw [endingOf, last]
    rfl
  exact same ▸ List.mem_of_getLast? last

/-- There is a token in a closed list. -/
theorem Closed.ne_nil {tokens : List Token} (closed : Closed tokens) : tokens ≠ [] := by
  rintro rfl
  obtain ⟨position, last⟩ := closed
  cases last

/-- Numbered tokens are closed if the tokens are. -/
theorem Closed.numbered {tokens : List Token} (closed : Closed tokens) :
    Closed (numbered tokens) := by
  obtain ⟨position, last⟩ := closed
  exact ⟨_, by rw [Token.numbered, List.getLast?_mapIdx, last]; rfl⟩

end Token

namespace Syntax

open Token (contents numbered placeOf Closed)

/-- With its tokens moved a program has the tree with its positions moved, or the same error at the
moved token. The token of an error belongs to any pool that the tokens and the end marker come
from. -/
theorem Program.ofTokens_moved_of_pool (place : Position → Position) (pool : Token → Prop)
    {tokens : List Token} (nonempty : tokens ≠ []) (marker : pool (Token.endingOf tokens))
    (members : ∀ token ∈ tokens, pool token) :
    (∃ program, Program.ofTokens tokens = .ok program ∧
      Program.ofTokens (tokens.map (Token.moved place)) =
        .ok ((Typing.Relabeling.moving place).program program)) ∨
    ∃ cause, ∃ token, pool token ∧ Program.ofTokens tokens = .error ⟨cause, token⟩ ∧
      Program.ofTokens (tokens.map (Token.moved place)) = .error ⟨cause, token.moved place⟩ := by
  have alike := @Parser.lockstep_program place pool maxDepth (Token.endingOf tokens) tokens marker
    members
  rw [← Token.endingOf_moved nonempty place] at alike
  unfold Program.ofTokens Parser.parse
  generalize Parser.run _ _ tokens = outcome, Parser.run _ _ (tokens.map _) = outcome' at alike ⊢
  cases alike with
  | ok values _ =>
    obtain ⟨⟩ := values
    exact .inl ⟨_, rfl, rfl⟩
  | error member => exact .inr ⟨_, _, member, rfl, rfl⟩

/-- In a closed list the error is at one of the tokens. -/
theorem Program.ofTokens_moved (place : Position → Position) {tokens : List Token}
    (closed : Closed tokens) :
    (∃ program, Program.ofTokens tokens = .ok program ∧
      Program.ofTokens (tokens.map (Token.moved place)) =
        .ok ((Typing.Relabeling.moving place).program program)) ∨
    ∃ cause, ∃ token ∈ tokens, Program.ofTokens tokens = .error ⟨cause, token⟩ ∧
      Program.ofTokens (tokens.map (Token.moved place)) = .error ⟨cause, token.moved place⟩ :=
  Program.ofTokens_moved_of_pool place (· ∈ tokens) closed.ne_nil closed.endingOf_mem
    fun _ member => member

/-- Two outcomes of parsing, each with the tokens that were parsed: the same tree, or an error with
the same cause at the token with the same number. -/
inductive SameApart (tokens others : List Token) :
    Except ParseError Program → Except ParseError Program → Prop
  | tree {program other : Program} (same : program.unplaced = other.unplaced) :
    SameApart tokens others (.ok program) (.ok other)
  | error {cause : ParseError.Cause} {number : Nat} {token other : Token}
      (stands : tokens[number]? = some token) (standsToo : others[number]? = some other) :
    SameApart tokens others (.error ⟨cause, token⟩) (.error ⟨cause, other⟩)

/-- Tokens all moved to one place spell the tree without positions. -/
theorem unplaced_of_ofTokens {tokens : List Token} {program : Program} (closed : Closed tokens)
    (parsed : Program.ofTokens tokens = .ok program) :
    Program.ofTokens (tokens.map (Token.moved fun _ => Position.start)) = .ok program.unplaced := by
  obtain ⟨again, parsedAgain, moved⟩ | ⟨cause, token, -, failed, -⟩ :=
    Program.ofTokens_moved (fun _ => Position.start) closed
  · cases parsed.symm.trans parsedAgain
    exact moved.trans (congrArg Except.ok (Typing.Relabeling.program_unplacing program))
  · cases parsed.symm.trans failed

/-- Tokens with the same kinds and texts spell the same program apart from positions. -/
theorem sameApart_ofTokens {tokens others : List Token} (same : contents others = contents tokens)
    (closed : Closed tokens) (closedToo : Closed others) :
    SameApart tokens others (Program.ofTokens tokens) (Program.ofTokens others) := by
  have first := Program.ofTokens_moved (placeOf tokens) closed.numbered
  have second := Program.ofTokens_moved (placeOf others) closed.numbered
  rw [Token.map_numbered] at first
  rw [← Token.numbered_eq same, Token.map_numbered, Token.numbered_eq same] at second
  rcases first with ⟨tree, parsed, program⟩ | ⟨cause, token, member, failed, error⟩
  · rcases second with ⟨_, parsedToo, other⟩ | ⟨_, _, -, failed, -⟩
    · rw [program, other]
      refine .tree ?_
      have trees := unplaced_of_ofTokens closedToo other
      rw [Token.map_toStart same, unplaced_of_ofTokens closed program] at trees
      exact Except.ok.inj trees
    · cases parsed.symm.trans failed
  · rcases second with ⟨_, parsed, -⟩ | ⟨_, _, -, failedToo, errorToo⟩
    · cases failed.symm.trans parsed
    · cases failed.symm.trans failedToo
      rw [error, errorToo]
      obtain ⟨number, found⟩ := List.getElem?_of_mem member
      have stands := congrArg (Option.map (Token.moved (placeOf tokens))) found
      have standsToo := congrArg (Option.map (Token.moved (placeOf others))) found
      rw [← List.getElem?_map, Token.map_numbered] at stands
      rw [← List.getElem?_map, ← Token.numbered_eq same, Token.map_numbered] at standsToo
      exact .error stands standsToo

/-- A text whose lexemes are kept and whose gaps are replaced has tokens with the same kinds and
texts, and it spells the same program apart from positions. -/
theorem sameApart_respaced {source other : String}
    (spaced : Token.Spaced (Token.sourcesOf source) other.toList) :
    contents (Token.scan other) = contents (Token.scan source) ∧
      SameApart (Token.scan source) (Token.scan other) (Program.ofSource source)
        (Program.ofSource other) := by
  have same : contents (Token.scan other) = contents (Token.scan source) := by
    rw [contents, contents, Token.scan, Token.scan, Token.map_tokensOf, Token.map_tokensOf]
    exact congrArg (· ++ _) (Token.cut_of_spaced spaced)
  exact ⟨same, sameApart_ofTokens same (Token.closed_scan source) (Token.closed_scan other)⟩

/-- Other gaps between the lexemes of a declaration, with a comment in one of them. -/
theorem sameApart_respaced_declaration :
    Token.Spaced (Token.sourcesOf "var x=1;//end") "var x\t= // one\n1 ;".toList ∧
      contents (Token.scan "var x\t= // one\n1 ;") = contents (Token.scan "var x=1;//end") ∧
      SameApart (Token.scan "var x=1;//end") (Token.scan "var x\t= // one\n1 ;")
        (Program.ofSource "var x=1;//end") (Program.ofSource "var x\t= // one\n1 ;") := by
  have space : Token.Separator [' '] := .mk (by decide) .nil
  have tab : Token.Separator ['\t'] := .mk (by decide) .nil
  have comment : Token.Separator (' ' :: '/' :: '/' :: ([' ', 'o', 'n', 'e'] ++ ['\n'])) :=
    .mk (by decide) (.comment (by decide) .nil)
  have lexemes : Token.sourcesOf "var x=1;//end" =
      [['v', 'a', 'r'], ['x'], ['='], ['1'], [';']] := by decide +kernel
  have spaced : Token.Spaced (Token.sourcesOf "var x=1;//end") "var x\t= // one\n1 ;".toList := by
    rw [lexemes]
    exact .cons space <| .cons tab <| .cons comment <| .cons space <| .last [';']
  exact ⟨spaced, sameApart_respaced spaced⟩

end Syntax

end SystemsLang
