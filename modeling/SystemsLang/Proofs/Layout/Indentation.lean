import SystemsLang.Proofs.Layout.Braces
import SystemsLang.Proofs.Outline.Labels

/-!
# Indentation shows how deep braces are nested

Each line of a layout that is not empty begins with a number of units of indentation, and then comes
a character that is not blank. The number is that of the braces that the lines before it leave open,
less one if the line begins with a closing brace. Braces in string literals do not count, and a
literal never runs over its line, so a text can be read for its braces from its beginning without
any knowledge of the language but that of quotes (`bareBraces`).

The unit is all that the options decide. Without the blanks at the beginning of each line the
layouts of a program are the same text (`indentation_format`).
-/

namespace SystemsLang

namespace Text

/-- The brace that opens a block. -/
def openBrace : Char := '{'

/-- The brace that closes a block. -/
def closeBrace : Char := '}'

/-- The braces of a text that stand in no string literal, in order. The first argument is the quote
of the literal that the text begins in, if it begins in one. -/
def bareBraces : Option Char → List Char → List Char
  | _, [] => []
  | none, character :: rest =>
    if character = '"' ∨ character = '\'' then bareBraces (some character) rest
    else if character = openBrace ∨ character = closeBrace then character :: bareBraces none rest
    else bareBraces none rest
  | some quote, '\\' :: _ :: rest => bareBraces (some quote) rest
  | some quote, character :: rest =>
    if character = quote then bareBraces none rest else bareBraces (some quote) rest

/-- A text without the blanks at the beginning of its lines. The first argument tells whether the
text begins at the beginning of a line. -/
def unindented : Bool → List Char → List Char
  | _, [] => []
  | atStart, character :: rest =>
    if character = '\n' then '\n' :: unindented true rest
    else if atStart = true ∧ isBlank character = true then unindented true rest
    else character :: unindented false rest

/-- A line of a text, what stands before it, and what stands behind it, line breaks included. -/
structure IsLine (text before line after : List Char) : Prop where
  whole : text = before ++ (line ++ after)
  begins : before = [] ∨ ∃ earlier, before = earlier ++ ['\n']
  single : '\n' ∉ line
  ends : after = [] ∨ ∃ later, after = '\n' :: later

variable {text first tail before line after : List Char}

/-- A line of a text is its first line or one of those behind the first line break. -/
theorem IsLine.cases (isLine : IsLine (first ++ '\n' :: tail) before line after)
    (single : '\n' ∉ first) :
    (before = [] ∧ line = first) ∨
      ∃ between, before = first ++ '\n' :: between ∧ IsLine tail between line after := by
  obtain ⟨whole, begins, lineSingle, ends⟩ := isLine
  rcases begins with rfl | ⟨earlier, rfl⟩
  · rcases ends with rfl | ⟨later, rfl⟩
    · rw [List.nil_append, List.append_nil] at whole
      rw [← whole] at lineSingle
      exact absurd (List.mem_append_right _ List.mem_cons_self) lineSingle
    · exact .inl ⟨rfl, (Layout.Outline.append_mark_inj single lineSingle whole).1.symm⟩
  · rw [List.append_assoc, List.singleton_append] at whole
    -- There is no line break in the first line, so it is no longer than what stands before the
    -- line.
    rcases List.append_eq_append_iff.mp whole with ⟨more, same, behind⟩ | ⟨more, same, behind⟩
    · cases more with
      | nil =>
        rw [List.append_nil] at same
        exact .inr ⟨[], by rw [same], (List.cons.inj behind).2, .inl rfl, lineSingle, ends⟩
      | cons character more =>
        obtain ⟨rfl, sameTail⟩ := List.cons.inj behind
        refine .inr ⟨more ++ ['\n'], by simp [same], ?_, .inr ⟨more, rfl⟩, lineSingle, ends⟩
        simpa using sameTail
    · cases more with
      | nil =>
        rw [List.append_nil] at same
        exact .inr ⟨[], by rw [same], (List.cons.inj behind).2.symm, .inl rfl, lineSingle, ends⟩
      | cons character more =>
        obtain ⟨rfl, -⟩ := List.cons.inj behind
        rw [same] at single
        exact absurd (List.mem_append_right _ List.mem_cons_self) single

/-- Whether a character is a quote or a brace. -/
def isSpecial (character : Char) : Bool :=
  ['"', '\'', openBrace, closeBrace].contains character

/-- A text without quotes and braces is passed. -/
theorem bareBraces_append (plain : ∀ character ∈ first, isSpecial character = false)
    (rest : List Char) : bareBraces none (first ++ rest) = bareBraces none rest := by
  induction first with
  | nil => rfl
  | cons character later inductionHypothesis =>
    obtain ⟨isPlain, laterPlain⟩ := List.forall_mem_cons.mp plain
    simp only [isSpecial, List.contains_cons, List.contains_nil, Bool.or_eq_false_iff,
      beq_eq_false_iff_ne] at isPlain
    obtain ⟨notDouble, notSingle, notOpen, notClose, -⟩ := isPlain
    rw [List.cons_append, bareBraces, if_neg (not_or.mpr ⟨notDouble, notSingle⟩),
      if_neg (not_or.mpr ⟨notOpen, notClose⟩), inductionHypothesis laterPlain]

/-- What is escaped ends where its quote stands. -/
theorem bareBraces_escape (value rest : List Char) :
    bareBraces (some '"') (escape value ++ '"' :: rest) = bareBraces none rest := by
  induction value with
  | nil => rfl
  | cons character later inductionHypothesis =>
    have split : escape (character :: later) = escapeChar character ++ escape later := by
      simp [escape]
    rw [split, List.append_assoc]
    unfold escapeChar
    split
    case h_7 notNewline notTab notReturn notBackslash notDouble notSingle =>
      rw [List.singleton_append, bareBraces, if_neg notDouble, inductionHypothesis]
      exact fun _ _ backslash => absurd backslash notBackslash
    all_goals exact inductionHypothesis

/-- Spaces and tabs at the beginning of a line are left out. -/
theorem unindented_append
    (indents : ∀ character ∈ first, character = ' ' ∨ character = '\t') (rest : List Char) :
    unindented true (first ++ rest) = unindented true rest := by
  induction first with
  | nil => rfl
  | cons character later inductionHypothesis =>
    obtain ⟨isIndent, laterIndents⟩ := List.forall_mem_cons.mp indents
    have skipped : unindented true (character :: (later ++ rest)) =
        unindented true (later ++ rest) := by
      rcases isIndent with rfl | rfl <;> rfl
    rw [List.cons_append, skipped, inductionHypothesis laterIndents]

/-- What follows on a line stays, and indentation is taken away again behind its end. -/
theorem unindented_line (single : '\n' ∉ first) (rest : List Char) :
    unindented false (first ++ '\n' :: rest) = first ++ '\n' :: unindented true rest := by
  induction first with
  | nil => rfl
  | cons character later inductionHypothesis =>
    obtain ⟨notNewline, laterSingle⟩ := not_or.mp (mt List.mem_cons.mpr single)
    rw [List.cons_append, unindented, if_neg (Ne.symm notNewline), if_neg (by simp),
      inductionHypothesis laterSingle]
    rfl

/-- A line that begins with what is not blank stays as it is. -/
theorem unindented_start (solid : ∀ character ∈ first.head?, isBlank character = false)
    (single : '\n' ∉ first) (rest : List Char) :
    unindented true (first ++ '\n' :: rest) = first ++ '\n' :: unindented true rest := by
  cases first with
  | nil => rfl
  | cons character later =>
    obtain ⟨notNewline, laterSingle⟩ := not_or.mp (mt List.mem_cons.mpr single)
    have isSolid : ¬ (true = true ∧ isBlank character = true) := by
      rw [solid character rfl]
      simp
    rw [List.cons_append, unindented, if_neg (Ne.symm notNewline), if_neg isSolid,
      unindented_line laterSingle]
    rfl

end Text

namespace Piece

open Text (openBrace closeBrace bareBraces)

/-- The brace of a piece, if it is one. -/
def braces : Piece → List Char
  | mark .leftBrace => [openBrace]
  | mark .rightBrace => [closeBrace]
  | _ => []

/-- The characters of words are no quotes, no braces and not blank. -/
theorem plain_of_continuesWord {character : Char}
    (continues : Token.continuesWord character = true) :
    Text.isSpecial character = false ∧ Text.isBlank character = false := by
  have range := Token.toNat_of_continuesWord continues
  refine ⟨Bool.eq_false_iff.mpr fun special => ?_, (Token.not_gap_of_continuesWord continues).1⟩
  simp only [Text.isSpecial, List.contains_iff_mem, List.mem_cons, List.not_mem_nil,
    or_false] at special
  rcases special with rfl | rfl | rfl | rfl <;> exact absurd range (by decide)

/-- Characters of a word are neither blank nor special. -/
theorem plain_of_all {part : List Char} (continues : part.all Token.continuesWord = true) :
    ∀ character ∈ part, Text.isSpecial character = false ∧ Text.isBlank character = false :=
  fun character member => plain_of_continuesWord (List.all_eq_true.mp continues character member)

/-- Digits are neither blank nor special. -/
theorem plain_of_isDigits {part : List Char} (digits : Token.IsDigits part) :
    ∀ character ∈ part, Text.isSpecial character = false ∧ Text.isBlank character = false :=
  fun character member => plain_of_continuesWord
    (Token.digit_of_isDigit (List.all_eq_true.mp digits.2 character member)).1

/-- Nor is any character of a name. -/
theorem plain_name {text : String} (proper : (name text).Proper) :
    ∀ character ∈ text.toList,
      Text.isSpecial character = false ∧ Text.isBlank character = false := by
  obtain ⟨first, rest, whole, begins, continues⟩ := Token.exists_cons_of_isWord proper
  rw [whole]
  refine List.forall_mem_cons.mpr ⟨?_, plain_of_all continues⟩
  rcases begins with starts | rfl
  · exact plain_of_continuesWord (Token.continuesWord_of_startsWord starts)
  · decide

/-- Nor of a number. -/
theorem plain_number {text : String} (proper : (number text).Proper) :
    ∀ character ∈ text.toList,
      Text.isSpecial character = false ∧ Text.isBlank character = false := by
  rcases proper with digits | ⟨whole, fraction, same, digits, more⟩
  · exact plain_of_isDigits digits
  · rw [same]
    exact List.forall_mem_append.mpr
      ⟨plain_of_isDigits digits, List.forall_mem_cons.mpr ⟨by decide, plain_of_isDigits more⟩⟩

/-- A piece that can be scanned is passed with its brace, if it is one. -/
theorem bareBraces_piece {piece : Piece} (proper : piece.Proper) (rest : List Char) :
    bareBraces none (piece.text.toList ++ rest) = piece.braces ++ bareBraces none rest := by
  cases piece with
  | mark kind => cases kind <;> rfl
  | name name =>
    exact Text.bareBraces_append (fun character member => (plain_name proper _ member).1) rest
  | number number =>
    exact Text.bareBraces_append (fun character member => (plain_number proper _ member).1) rest
  | string value =>
    rw [toList_text_string, List.cons_append, List.append_assoc]
    exact Text.bareBraces_escape value.toList rest
  | blank => rfl

/-- A piece that can be scanned and is no blank begins with a character that is not blank, and with
a closing brace only if it is one. -/
theorem exists_first {piece : Piece} (proper : piece.Proper) (notBlank : piece ≠ blank) :
    ∃ first rest, piece.text.toList = first :: rest ∧ Text.isBlank first = false ∧
      (first = closeBrace ↔ piece = mark .rightBrace) := by
  obtain ⟨first, rest, whole, -⟩ := leads proper
  have plain (other : ∀ kind, piece ≠ mark kind)
      (isPlain : Text.isSpecial first = false ∧ Text.isBlank first = false) :
      Text.isBlank first = false ∧ (first = closeBrace ↔ piece = mark .rightBrace) := by
    refine ⟨isPlain.2, fun isBrace => ?_, fun same => absurd same (other _)⟩
    rw [isBrace] at isPlain
    exact absurd isPlain.1 (by decide)
  refine ⟨first, rest, whole, ?_⟩
  have isFirst : first ∈ piece.text.toList := whole ▸ List.mem_cons_self
  cases piece with
  | mark kind =>
    cases kind <;>
    · obtain ⟨rfl, -⟩ := List.cons.inj whole
      decide
  | name name => exact plain (fun _ => by simp) (plain_name proper first isFirst)
  | number number => exact plain (fun _ => by simp) (plain_number proper first isFirst)
  | string value =>
    rw [toList_text_string] at whole
    obtain ⟨rfl, -⟩ := List.cons.inj whole
    exact ⟨by decide, fun isBrace => absurd isBrace (by decide), fun same => nomatch same⟩
  | blank => exact absurd rfl notBlank

/-- As many braces are written as there are pieces that are braces. -/
theorem count_braces (pieces : List Piece) :
    (pieces.flatMap braces).count openBrace = pieces.count (mark .leftBrace) ∧
      (pieces.flatMap braces).count closeBrace = pieces.count (mark .rightBrace) := by
  have one (piece : Piece) : piece.braces.count openBrace = [piece].count (mark .leftBrace) ∧
      piece.braces.count closeBrace = [piece].count (mark .rightBrace) := by
    cases piece with
    | mark kind => cases kind <;> decide
    | name | number | string => simp [braces]
    | blank => decide
  induction pieces with
  | nil => exact ⟨rfl, rfl⟩
  | cons piece rest inductionHypothesis =>
    rw [List.flatMap_cons, ← List.singleton_append, List.count_append, List.count_append,
      List.count_append, List.count_append, (one piece).1, (one piece).2, inductionHypothesis.1,
      inductionHypothesis.2]
    exact ⟨rfl, rfl⟩

end Piece

namespace Layout

open Syntax
open Piece (Joined textOf mark blank)
open Text (openBrace closeBrace bareBraces unindented IsLine)
open Text.Line (renderAll indentation)

/-- The characters of a number of units of indentation: spaces by the width, or tabs. -/
def Options.indents (options : Options) (level : Nat) : List Char :=
  if options.useTabs then List.replicate level '\t' else List.replicate (level * options.width) ' '

/-- The characters in front of an indented line. -/
theorem toList_indentation (options : Options) (level : Nat) :
    (indentation options.unit level).toList = options.indents level := by
  rw [indentation, String.toList_join, Options.indents, Options.unit]
  induction level with
  | zero => simp
  | succ level inductionHypothesis =>
    rw [List.replicate_succ, List.flatMap_cons, inductionHypothesis]
    split
    · rfl
    · rw [String.toList_ofList, List.replicate_append_replicate, Nat.succ_mul, Nat.add_comm]

variable {pieces : List Piece} {lines earlier later : List Line} {depth last : Nat}

/-- Pieces that may stand together are proper ones. -/
theorem proper_of_joined (joined : Joined pieces) : ∀ piece ∈ pieces, piece.Proper := by
  induction pieces with
  | nil => exact fun _ impossible => nomatch impossible
  | cons piece rest inductionHypothesis =>
    exact List.forall_mem_cons.mpr ⟨joined.1, inductionHypothesis joined.2.2⟩

/-- The text of pieces is passed with their braces. -/
theorem bareBraces_textOf (proper : ∀ piece ∈ pieces, piece.Proper) (rest : List Char) :
    bareBraces none ((textOf pieces).toList ++ rest) =
      pieces.flatMap Piece.braces ++ bareBraces none rest := by
  induction pieces with
  | nil => rfl
  | cons piece others inductionHypothesis =>
    obtain ⟨head, tail⟩ := List.forall_mem_cons.mp proper
    rw [Piece.toList_textOf_cons, List.append_assoc, Piece.bareBraces_piece head,
      inductionHypothesis tail, List.flatMap_cons, List.append_assoc]

/-- The braces of the text of lines are those of their pieces. -/
theorem bareBraces_renderAll (options : Options) (joined : AllJoined lines) :
    bareBraces none (renderAll options.unit (lines.map Line.toText)).toList =
      (piecesOf lines).flatMap Piece.braces := by
  induction lines with
  | nil => rfl
  | cons line rest inductionHypothesis =>
    have indents : ∀ character ∈ (indentation options.unit line.level).toList,
        Text.isSpecial character = false := by
      intro character member
      rcases mem_indentation member with rfl | rfl <;> decide
    have newline : bareBraces none
          ('\n' :: (renderAll options.unit (rest.map Line.toText)).toList) =
        bareBraces none (renderAll options.unit (rest.map Line.toText)).toList := rfl
    rw [toList_renderAll_cons, Text.bareBraces_append indents,
      bareBraces_textOf (proper_of_joined (joined line List.mem_cons_self)), newline,
      inductionHypothesis fun other member => joined other (List.mem_cons_of_mem _ member),
      piecesOf_cons, List.flatMap_append]

/-- Nested lines lead from one number of open braces to another. -/
theorem Nested.count_eq (nested : Nested depth lines last) :
    last + (piecesOf lines).count (mark .rightBrace) =
      depth + (piecesOf lines).count (mark .leftBrace) := by
  induction nested with
  | nil => rfl
  | cons empty begins turns later inductionHypothesis =>
    rw [piecesOf_cons, List.count_append, List.count_append]
    omega

/-- A line among nested lines is nested in those before it. -/
theorem Nested.split {line : Line} (nested : Nested depth (earlier ++ line :: later) last) :
    ∃ next, Nested depth earlier next ∧ (line.pieces = [] → line.level = 0) ∧
      ∀ first ∈ line.pieces.head?, first ≠ blank ∧ line.level + line.closing = next := by
  induction earlier generalizing depth with
  | nil =>
    cases nested with
    | cons empty begins turns later => exact ⟨depth, .nil, empty, begins⟩
  | cons other rest inductionHypothesis =>
    cases nested with
    | cons empty begins turns later =>
      obtain ⟨next, before, here⟩ := inductionHypothesis later
      exact ⟨next, .cons empty begins turns before, here⟩

/-- A line of a layout is empty, or it is a line of pieces, and what stands before it is the lines
before that one. -/
theorem exists_line (options : Options) (joined : AllJoined lines)
    {before line after : List Char}
    (isLine : IsLine (renderAll options.unit (lines.map Line.toText)).toList before line after) :
    line = [] ∨ ∃ earlier this later, lines = earlier ++ this :: later ∧
      before = (renderAll options.unit (earlier.map Line.toText)).toList ∧
      line = (indentation options.unit this.level).toList ++ (textOf this.pieces).toList := by
  induction lines generalizing before with
  | nil =>
    have empty := isLine.whole
    have none := List.append_eq_nil_iff.mp empty.symm
    exact .inl (List.append_eq_nil_iff.mp none.2).1
  | cons first rest inductionHypothesis =>
    have single : '\n' ∉
        (indentation options.unit first.level).toList ++ (textOf first.pieces).toList := by
      rw [List.mem_append]
      rintro (inIndentation | inText)
      · rcases mem_indentation inIndentation with same | same <;> exact absurd same (by decide)
      · exact Piece.newline_notMem_textOf (joined first List.mem_cons_self) inText
    rw [toList_renderAll_cons, ← List.append_assoc] at isLine
    rcases isLine.cases single with ⟨rfl, rfl⟩ | ⟨between, rfl, further⟩
    · exact .inr ⟨[], first, rest, rfl, rfl, rfl⟩
    · rcases inductionHypothesis (fun other member => joined other (List.mem_cons_of_mem _ member))
        further with empty | ⟨earlier, this, later, rfl, rfl, same⟩
      · exact .inl empty
      · refine .inr ⟨first :: earlier, this, later, rfl, ?_, same⟩
        rw [toList_renderAll_cons, List.append_assoc]

/-- A line of pieces that is not empty begins with a character that is not blank. -/
theorem exists_first_textOf (proper : ∀ piece ∈ pieces, piece.Proper) {first : Piece}
    (isFirst : first ∈ pieces.head?) (notBlank : first ≠ blank) :
    ∃ character rest, (textOf pieces).toList = character :: rest ∧
      Text.isBlank character = false ∧ (character = closeBrace ↔ first = mark .rightBrace) := by
  obtain ⟨others, rfl⟩ := List.head?_eq_some_iff.mp isFirst
  obtain ⟨character, rest, same, solid, closes⟩ :=
    Piece.exists_first (proper first List.mem_cons_self) notBlank
  refine ⟨character, rest ++ (textOf others).toList, ?_, solid, closes⟩
  rw [Piece.toList_textOf_cons, same, List.cons_append]

/-- A line of the layout of a program is empty, or it begins with as many units of indentation as
there are braces open in front of it, less one if it begins by closing one. -/
theorem indented_line {program : Program} (spellable : program.Spellable) (options : Options)
    {before line after : List Char}
    (isLine : IsLine (program.format options).toList before line after) :
    line = [] ∨ ∃ level first rest,
      line = options.indents level ++ first :: rest ∧ Text.isBlank first = false ∧
      level + (if first = closeBrace then 1 else 0) + (bareBraces none before).count closeBrace =
        (bareBraces none before).count openBrace := by
  have joined := allJoined_program spellable
  rcases exists_line options joined isLine with empty | ⟨earlier, this, later, split, rfl, rfl⟩
  · exact .inl empty
  obtain ⟨next, nested, empty, fits⟩ := (split ▸ nested_program program).split
  have earlierJoined : AllJoined earlier := fun line member =>
    joined line (split ▸ List.mem_append_left _ member)
  have thisJoined := joined this (split ▸ List.mem_append_right _ List.mem_cons_self)
  cases begins : this.pieces with
  | nil =>
    rw [empty begins]
    exact .inl rfl
  | cons first others =>
    have isFirst : first ∈ this.pieces.head? := by
      rw [begins]
      rfl
    obtain ⟨notBlank, level⟩ := fits first isFirst
    obtain ⟨character, rest, same, solid, closes⟩ :=
      exists_first_textOf (proper_of_joined thisJoined) isFirst notBlank
    have closing : (if character = closeBrace then 1 else 0) = this.closing := by
      rw [Line.closing, begins]
      simp [closes]
    -- The level is the number of braces that the lines before leave open, and what is read of them
    -- are the braces of their pieces.
    have counted := nested.count_eq
    refine .inr ⟨this.level, character, rest, by rw [toList_indentation, ← begins, same], solid, ?_⟩
    rw [bareBraces_renderAll options earlierJoined, (Piece.count_braces _).1,
      (Piece.count_braces _).2, closing, level]
    omega

/-- Without indentation the text of nested lines does not depend on the unit. -/
theorem unindented_renderAll (options : Options) (joined : AllJoined lines)
    (nested : Nested depth lines last) :
    unindented true (renderAll options.unit (lines.map Line.toText)).toList =
      lines.flatMap fun line => (textOf line.pieces).toList ++ ['\n'] := by
  induction nested with
  | nil => rfl
  | @cons depth next last line rest empty begins turns later inductionHypothesis =>
    have lineJoined := joined line List.mem_cons_self
    have solid : ∀ character ∈ (textOf line.pieces).toList.head?,
        Text.isBlank character = false := by
      intro character isFirst
      cases pieces : line.pieces with
      | nil =>
        rw [pieces] at isFirst
        cases isFirst
      | cons first others =>
        have isHead : first ∈ line.pieces.head? := by
          rw [pieces]
          rfl
        obtain ⟨other, rest, same, isSolid, -⟩ := exists_first_textOf (proper_of_joined lineJoined)
          isHead (begins first isHead).1
        rw [same] at isFirst
        obtain rfl := Option.some.inj isFirst
        exact isSolid
    rw [toList_renderAll_cons, Text.unindented_append fun character => mem_indentation,
      Text.unindented_start solid (Piece.newline_notMem_textOf lineJoined), List.flatMap_cons,
      List.append_assoc,
      inductionHypothesis fun other member => joined other (List.mem_cons_of_mem _ member)]
    rfl

/-- Each line of the layout of a program that is not empty begins with a number of units of
indentation, a width of spaces or a tab each, and then comes a character that is not blank. The
number is that of the braces that are opened before the line and not closed there, apart from braces
in string literals, less one if the line begins with a closing brace. Without the blanks at the
beginning of their lines the layouts for any two options are the same. -/
theorem indentation_format {source : String} {program : Program}
    (parsed : Program.ofSource source = .ok program) :
    (∀ (options : Options) (before line after : List Char),
      IsLine (program.format options).toList before line after →
        line = [] ∨ ∃ level first rest,
          line = options.indents level ++ first :: rest ∧ Text.isBlank first = false ∧
          level + (if first = closeBrace then 1 else 0) +
              (bareBraces none before).count closeBrace =
            (bareBraces none before).count openBrace) ∧
      ∀ options other : Options, unindented true (program.format options).toList =
        unindented true (program.format other).toList := by
  have spellable := spellable_of_ofSource parsed
  constructor
  · intro options before line after isLine
    exact indented_line spellable options isLine
  · intro options other
    have joined := allJoined_program spellable
    have nested := nested_program program
    rw [Program.format, Program.format, unindented_renderAll options joined nested,
      unindented_renderAll other joined nested]

/-- A function with a loop in it, and in that a string literal with a brace. -/
def looping : Program :=
  [.fn ⟨false, none, ⟨"f", ⟨1, 4⟩⟩, [], .primitive ⟨1, 8⟩ "void",
    [.whileLoop ⟨1, 15⟩ (.bool ⟨1, 22⟩ true)
      [.expr ⟨1, 30⟩ (.call ⟨1, 30⟩ (.ident ⟨1, 30⟩ "g") [.string ⟨1, 32⟩ r"}"])]], ⟨1, 1⟩⟩]

/-- The call in the loop stands two units to the right. -/
theorem indentation_format_looping :
    Program.ofSource r#"fn f() void { while (true) { g("}"); } }"# = .ok looping ∧
      IsLine (looping.format ⟨2, false⟩).toList
        (r"fn f() void {" ++ "\n" ++ r"  while (true) {" ++ "\n").toList r#"    g("}");"#.toList
        ("\n" ++ r"  }" ++ "\n" ++ r"}" ++ "\n").toList ∧
      (∃ level first rest, r#"    g("}");"#.toList =
          Options.indents ⟨2, false⟩ level ++ first :: rest ∧ Text.isBlank first = false ∧
        level + (if first = closeBrace then 1 else 0) + 0 = 2) ∧
      unindented true (looping.format ⟨2, false⟩).toList =
        unindented true (looping.format ⟨0, true⟩).toList := by
  have parsed : Program.ofSource r#"fn f() void { while (true) { g("}"); } }"# =
      .ok looping := by
    decide +kernel
  have isLine : IsLine (looping.format ⟨2, false⟩).toList
      (r"fn f() void {" ++ "\n" ++ r"  while (true) {" ++ "\n").toList r#"    g("}");"#.toList
      ("\n" ++ r"  }" ++ "\n" ++ r"}" ++ "\n").toList :=
    ⟨by decide +kernel, .inr ⟨(r"fn f() void {" ++ "\n" ++ r"  while (true) {").toList, by decide⟩,
      by decide, .inr ⟨(r"  }" ++ "\n" ++ r"}" ++ "\n").toList, by decide⟩⟩
  obtain ⟨indented, same⟩ := indentation_format parsed
  have counted := (indented _ _ _ _ isLine).resolve_left (by decide)
  exact ⟨parsed, isLine, counted, same _ _⟩

end Layout

end SystemsLang
