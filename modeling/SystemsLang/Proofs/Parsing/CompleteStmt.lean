import SystemsLang.Parser.Stmt
import SystemsLang.Proofs.Grammar.Program
import SystemsLang.Proofs.Parsing.CompleteExpr

/-!
# What spells a statement is read

The parser tells statements apart by their first token, so the module first says with which tokens
the phrases of statements begin. Then every derivation is read back as the phrase that it derives,
by induction on the derivation. What may follow a phrase is free but for two cases: behind a
statement no `else` may stand, because it would be taken for its own, and behind the statements of a
block the closing brace has to stand.
-/

namespace SystemsLang.Parser

open Token (Kind Failure)
open Syntax (ParseError Extension Expr Ident TypeExpr VarDecl Stmt Block)
open Grammar

variable {ending token : Token} {tokens rest : List Token} {levels room : Nat} {α : Type}

/-- What a mark announces is read if the mark is there. If it is not, some other token has to stand
there. -/
theorem Reads.optionalAfter {kind : Kind} {Item : List Token → α → Nat → Prop} {item : Parser α}
    {value : Option α} (derived : OptionalAfter kind Item tokens value levels)
    (reads : ∀ tokens value levels, Item tokens value levels →
      Reads item ending levels room (tokens ++ rest) value rest)
    (other : (next ending rest).kind ≠ kind) :
    Reads (optionalAfter kind item) ending levels room (tokens ++ rest) value rest := by
  cases derived with
  | absent => exact .step (run_take_other other) .pure
  | present same derived => exact .step (run_take_same same) (reads _ _ _ derived).map

/-- An expression that may be left out is read up to the token that shows that it is. -/
theorem Reads.exprUnless {kind : Kind} {value : Option Expr}
    (derived : Possibly DerivesExpr tokens value levels) (closes : (next ending rest).kind = kind)
    (notStarts : startsExpr kind = false) (notBrace : kind ≠ .leftBrace)
    (none : Extension.ofKind? kind = none) :
    Reads (exprUnless room kind) ending levels room (tokens ++ rest) value rest := by
  cases derived with
  | absent =>
    refine .step run_nextIs ?_
    simp only [List.nil_append, closes, beq_self_eq_true, if_true]
    exact .pure
  | present derived =>
    obtain ⟨first, later, rfl, starts⟩ := derived.choose_spec.starts
    have other : ((next ending (first :: later ++ rest)).kind == kind) = false :=
      beq_eq_false_iff_ne.mpr (kind_ne_of_startsExpr starts notStarts)
    refine .step run_nextIs ?_
    simp only [other, Bool.false_eq_true, if_false]
    exact (reads_expr derived room (by rwa [closes]) (by rwa [closes])).map

/-- A variable is read from its first word to its semicolon. -/
theorem reads_varDecl {isPub : Bool} {position : Position} {declared : VarDecl}
    (derived : DerivesVar isPub position tokens declared levels) :
    Reads (varDecl room isPub position) ending levels room (tokens ++ rest) declared rest := by
  cases derived with
  | @intro word name closing typeTokens initTokens isConst type init typeLevels initLevels
      begins named typed assigned ends =>
    simp only [List.cons_append, List.append_assoc, List.nil_append]
    have listed : word.kind ∈ [Token.Kind.constWord, .varWord] := by
      rw [begins]
      cases isConst <;> decide
    refine .step (run_expectAny listed) (.step (run_ident named) ?_)
    have divided : (next ending (initTokens ++ closing :: rest)).kind ≠ .colon := by
      cases assigned with
      | absent => exact fun same => nomatch ends.symm.trans same
      | present same => exact fun other => nomatch same.symm.trans other
    refine (Reads.optionalAfter typed ?_ divided).bind ?_
    · intro tokens type levels derived
      exact reads_typeExpr derived room _
    · have isConstWord : (word.kind == .constWord) = isConst := by
        rw [begins]
        cases isConst <;> rfl
      rw [isConstWord]
      refine .closed ends (.optionalAfter assigned ?_ ?_)
      · intro tokens value levels derived
        refine reads_expr derived room ?_ (congrArg Extension.ofKind? ends)
        exact fun same => nomatch ends.symm.trans same
      · exact fun same => nomatch ends.symm.trans same

/-- A condition in parentheses. -/
theorem reads_condition {opening closing : Token} {value : Expr} (opens : opening.kind = .leftParen)
    (derived : DerivesExpr tokens value levels) (closes : closing.kind = .rightParen) :
    Reads (condition room) ending levels room (opening :: (tokens ++ closing :: rest)) value
      rest := by
  refine .step (run_discard (run_expect opens)) ?_
  refine .closed closes (reads_expr derived room ?_ (congrArg Extension.ofKind? closes))
  exact fun same => nomatch closes.symm.trans same

/-- An expression with its semicolon. -/
theorem reads_exprStmt {closing : Token} {position : Position} {value : Expr}
    (derived : DerivesExpr tokens value levels) (ends : closing.kind = .semicolon) :
    Reads (exprStmt room position) ending levels room (tokens ++ closing :: rest)
      (.expr position value) rest := by
  refine .closed ends (reads_expr derived room ?_ (congrArg Extension.ofKind? ends))
  exact fun same => nomatch ends.symm.trans same

/-- The first part in the header of a `for`, semicolon included. -/
theorem reads_forInit {init : Option Stmt} (derived : ForStart false tokens init levels) :
    Reads (forInit room) ending levels room (tokens ++ rest) init rest := by
  cases derived with
  | empty ends =>
    refine .step run_peek ?_
    simp only [List.cons_append, next_cons, ends]
    exact .step (run_discard run_advance) .pure
  | omitted allowed => cases allowed
  | declare derived =>
    have whole : Reads (varDecl room false _) ending levels room (_ ++ rest) _ rest :=
      reads_varDecl derived
    cases derived with
    | @intro _ _ _ _ _ isConst _ _ _ _ begins =>
      refine .step run_peek ?_
      simp only [List.cons_append, next_cons, begins]
      cases isConst <;> exact whole.map
  | @expr first closing later value _ derived ends =>
    obtain ⟨_, _, same, starts⟩ := derived.choose_spec.starts
    obtain ⟨rfl, rfl⟩ := List.cons.inj same
    have item : Reads (exprStmt room first.position) ending levels room
        (first :: later ++ closing :: rest) (.expr first.position value) rest :=
      reads_exprStmt derived ends
    have whole : Reads (exprStmt room first.position >>= fun value => pure (some value)) ending
        levels room (first :: later ++ closing :: rest) (some (.expr first.position value)) rest :=
      item.map
    simp only [List.cons_append, List.append_assoc, List.nil_append] at whole ⊢
    refine .step run_peek ?_
    rw [next_cons]
    generalize first.kind = kind at starts
    cases kind <;> first | exact whole | cases starts

/-- What is shown of the phrases of a derivation. Behind a statement no `else` may stand, and the
statements of a block are read up to its closing brace. -/
def CompletesStmt (tokens : List Token) (levels : Nat) : Grammar.StmtPhrase → Prop
  | .stmt value => ∀ ending rest room, (next ending rest).kind ≠ .elseWord →
    Reads (stmt room) ending levels room (tokens ++ rest) value rest
  | .branch value => ∀ ending rest room, (next ending rest).kind ≠ .elseWord →
    Reads (branch room) ending levels room (tokens ++ rest) value rest
  | .block position body => ∀ ending rest room,
    Reads (block room) ending levels room (tokens ++ rest) body rest ∧
      ((next ending (tokens ++ rest)).kind = .leftBrace ∧
        position = (next ending (tokens ++ rest)).position)
  | .body statements => ∀ ending rest room, (next ending rest).kind = .rightBrace →
    Reads (manyUntil [.rightBrace] (stmt room)) ending levels room (tokens ++ rest) statements rest

namespace CompletesStmt

variable {before after block : List Token} {first word opening closing : Token} {value : Expr}
  {position : Position} {body : Block} {more : Nat}

/-- A block is read with its braces, on a level of its own. -/
theorem braces (opens : opening.kind = .leftBrace)
    (inner : CompletesStmt tokens levels (.body body))
    (closes : closing.kind = .rightBrace) :
    CompletesStmt (opening :: (tokens ++ [closing])) (levels + 1)
      (.block opening.position body) := by
  intro ending rest room
  refine ⟨?_, opens, rfl⟩
  simp only [List.cons_append, List.append_assoc, List.nil_append]
  refine .descend (by rw [block]) (by rw [next_cons, Failure.of?, opens]) (fun room => ?_) room
  rw [block]
  refine .step (run_discard (run_expect opens)) ?_
  exact .closed closes (inner ending (closing :: rest) room closes)

/-- A statement is read in front of others, and the room is that of the one that nests deeper. -/
theorem cons {head : Stmt} {later : List Stmt}
    (derived : DerivesStmt false before (.stmt head) levels)
    (item : CompletesStmt before levels (.stmt head))
    (behind : DerivesStmt false after (.body later) more)
    (rest : CompletesStmt after more (.body later)) :
    CompletesStmt (before ++ after) (max levels more) (.body (head :: later)) := by
  intro ending rest' room closes
  obtain ⟨first, others, rfl, starts, -⟩ := derived.begins
  rw [List.append_assoc]
  refine .manyUntil_step ?_ (item ending (after ++ rest') room ?_) ?_
    (rest ending rest' room closes)
  · refine ⟨fun same => ?_, fun member => ?_⟩
    · rw [List.cons_append, next_cons] at same
      rw [same] at starts
      cases starts
    · rw [List.mem_singleton, List.cons_append, next_cons] at member
      rw [member] at starts
      cases starts
  · cases behind with
    | empty =>
      rw [List.nil_append, closes]
      decide
    | cons head =>
      obtain ⟨next, _, rfl, begins, -⟩ := head.begins
      intro same
      rw [List.cons_append, List.cons_append, next_cons] at same
      rw [same] at begins
      cases begins
  · simp only [List.cons_append, List.length_cons, List.length_append]
    omega

/-- An `if`, whatever the parser makes of the tokens behind its block. -/
theorem branch {test other : List Token} {last : Option Stmt} {most : Nat}
    (begins : word.kind = .ifWord) (opens : opening.kind = .leftParen)
    (tested : DerivesExpr test value levels) (closes : closing.kind = .rightParen)
    (taken : CompletesStmt block more (.block position body))
    (reads : ∀ ending rest room, (next ending rest).kind ≠ .elseWord →
      Reads (optionalAfter .elseWord (afterElse (Parser.block room) (Parser.branch room))) ending
        most room (other ++ rest) last rest) :
    CompletesStmt (word :: opening :: (test ++ closing :: (block ++ other)))
      (max levels (max more most) + 1) (.branch (.branch word.position value body last)) := by
  intro ending rest room noElse
  simp only [List.cons_append, List.append_assoc]
  refine .descend (by rw [Parser.branch]) (by rw [next_cons, Failure.of?, begins])
    (fun room => ?_) room
  rw [Parser.branch]
  refine .step (run_expect begins) ((reads_condition opens tested closes).bind ?_)
  exact (taken ending (other ++ rest) room).1.bind (reads ending rest room noElse).map

end CompletesStmt

/-- Whatever the grammar derives a phrase of statements from is read as that phrase. -/
theorem completesStmt {phrase : StmtPhrase} (derived : DerivesStmt false tokens phrase levels) :
    CompletesStmt tokens levels phrase := by
  induction derived with
  | braces opens _ closes inner => exact .braces opens inner closes
  | empty =>
    -- Only a closing brace may follow the statements of a block, and there the repetition ends.
    intro ending rest room closes
    refine .manyUntil_stop ?_
    simp [GoesOn, closes]
  | cons head tail headCompletes tailCompletes => exact .cons head headCompletes tail tailCompletes
  | @branchOnly _ _ _ test block _ _ _ levels more begins opens tested closes _ taken =>
    have whole : CompletesStmt (_ :: _ :: (test ++ _ :: (block ++ [])))
        (max levels (max more 0) + 1) (.branch (.branch _ _ _ none)) :=
      .branch begins opens tested closes taken
        fun ending rest room noElse => .step (run_take_other noElse) .pure
    rwa [List.append_nil, Nat.max_zero] at whole
  -- A block begins with a brace, so the parser does not take it for a conditional in the chain.
  | branchElse begins opens tested closes _ divides _ taken last =>
    refine .branch begins opens tested closes taken ?_
    intro ending rest room _
    obtain ⟨reads, brace, position⟩ := last ending rest room
    rw [List.cons_append]
    refine .step (run_take_same divides) (.map (.step run_nextIs ?_))
    rw [brace]
    refine .step run_peek ?_
    rw [← position]
    exact reads.map
  | branchChain begins opens tested closes _ divides derived taken chained =>
    refine .branch begins opens tested closes taken ?_
    intro ending rest room noElse
    obtain ⟨first, later, rfl, word, -⟩ := derived.begins
    rw [List.cons_append, List.cons_append]
    refine .step (run_take_same divides) (.map (.step run_nextIs ?_))
    rw [next_cons, word]
    exact chained ending rest room noElse
  | branch derived inner =>
    intro ending rest room noElse
    obtain ⟨first, later, rfl, word, -⟩ := derived.begins
    refine .step run_peek ?_
    simp only [List.cons_append, next_cons, word]
    exact inner ending rest room noElse
  | block derived inner =>
    intro ending rest room noElse
    obtain ⟨reads, brace, position⟩ := inner ending rest room
    refine .step run_peek ?_
    simp only [brace]
    rw [← position]
    exact reads.map
  | returns begins given ends =>
    intro ending rest room _
    simp only [List.cons_append, List.append_assoc, List.nil_append]
    refine .step run_peek ?_
    simp only [next_cons, begins]
    refine .step (run_discard run_advance) ?_
    exact .closed ends (.exprUnless given ends rfl (by decide) rfl)
  | whileLoop begins opens tested closes _ inner =>
    intro ending rest room _
    simp only [List.cons_append, List.append_assoc]
    refine .step run_peek ?_
    simp only [next_cons, begins]
    refine .step (run_discard run_advance) ((reads_condition opens tested closes).bind ?_)
    exact (inner ending rest room).1.map
  | forLoop begins opens starts tested divides stepped closes _ inner =>
    intro ending rest room _
    simp only [List.cons_append, List.append_assoc]
    refine .step run_peek ?_
    simp only [next_cons, begins]
    refine .step (run_expect begins) (.step (run_discard (run_expect opens)) ?_)
    refine (reads_forInit starts).bind ?_
    refine .bind (.exprUnless tested divides rfl (by decide) rfl) ?_
    refine .step (run_discard (run_expect divides)) ?_
    refine .bind (.exprUnless stepped closes rfl (by decide) rfl) ?_
    refine .step (run_discard (run_expect closes)) ?_
    exact (inner ending rest room).1.map
  | breakLoop begins ends =>
    intro ending rest room _
    refine .step run_peek ?_
    simp only [List.cons_append, next_cons, begins]
    exact .step (run_discard run_advance) (.step (run_discard (run_expect ends)) .pure)
  | continueLoop begins ends =>
    intro ending rest room _
    refine .step run_peek ?_
    simp only [List.cons_append, next_cons, begins]
    exact .step (run_discard run_advance) (.step (run_discard (run_expect ends)) .pure)
  | comptime begins _ inner =>
    intro ending rest room _
    refine .step run_peek ?_
    simp only [List.cons_append, next_cons, begins]
    exact .step (run_discard run_advance) (inner ending rest room).1.map
  | declare derived =>
    intro ending rest room _
    have whole : Reads (varDecl room false _) ending _ room (_ ++ rest) _ rest :=
      reads_varDecl derived
    obtain ⟨_, _, same, word⟩ := derived.starts
    obtain ⟨rfl, rfl⟩ := List.cons.inj same
    refine .step run_peek ?_
    rw [List.cons_append] at whole ⊢
    rcases word with word | word
    · simp only [next_cons, word]
      exact whole.map
    · simp only [next_cons, word]
      exact whole.map
  | @expr first closing later value levels derived ends =>
    intro ending rest room _
    obtain ⟨_, _, same, starts⟩ := derived.choose_spec.starts
    obtain ⟨rfl, rfl⟩ := List.cons.inj same
    have item : Reads (exprStmt room first.position) ending levels room
        (first :: later ++ closing :: rest) (.expr first.position value) rest :=
      reads_exprStmt derived ends
    simp only [List.cons_append, List.append_assoc, List.nil_append] at item ⊢
    refine .step run_peek ?_
    rw [next_cons]
    generalize first.kind = kind at starts
    cases kind <;> first | exact item | cases starts

end SystemsLang.Parser
