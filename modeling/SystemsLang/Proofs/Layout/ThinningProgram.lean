import SystemsLang.Proofs.Layout.RoundTrip
import SystemsLang.Proofs.Layout.ThinningStmt

/-!
# Formatting neither adds tokens nor moves them

The layout of a program has the tokens of the source it was read from, in the same order, except for
parentheses around expressions and commas behind the last items of lists, which it may lack, and
for the commas behind the last fields of structs, which it always has. That a layout may nest too
deep to be read again makes no difference to this.

Main statement: the source can be thinned out to the tokens of its layout
(`lexemes_formatSource`).
-/

namespace SystemsLang.Layout

open Token (Kind lexemes)
open Grammar
open Syntax
open Piece (mark blank commas commas_cons commas_single)

variable {tokens : List Token} {levels : Nat}

/-- The tokens of a list reduce to its layout, with commas only between the items, if the tokens of
every item do. The bracket that closes the list is taken along. -/
theorem reduces_commas {α : Type} {Item : List Token → α → Nat → Prop} {forget : α → α}
    {layout : α → List Piece} {values : List α} {closing : Token} {pieces : List Piece}
    (derived : CommaList Item tokens values levels)
    (closes : closing.kind = .rightParen ∨ closing.kind = .rightBrace)
    (spells : Spells [closing] pieces) (regular : ∀ token ∈ tokens, Regular token)
    (item : ∀ tokens value levels, Item tokens value levels → (∀ token ∈ tokens, Regular token) →
      Reduces (SpellsUpTo Item forget value) tokens (layout value)) :
    Reduces (Then (SpellsUpTo (CommaList Item) (List.map forget) values) (Only closing))
      (tokens ++ [closing]) (commas (values.map layout) ++ pieces) := by
  have single (value : α) (tokens : List Token) (spells : SpellsUpTo Item forget value tokens) :
      SpellsUpTo (CommaList Item) (List.map forget) [value] tokens := by
    obtain ⟨result, levels, derived, same⟩ := spells
    exact ⟨[result], levels, .last derived, congrArg ([·]) same⟩
  induction derived with
  | nil => exact Reduces.both (.same ⟨[], _, .nil, rfl⟩ rfl) (.only spells)
  | @last _ value _ derived =>
    rw [List.map_singleton, commas_single]
    exact ((item _ _ _ derived regular).imp (single value)).both (.only spells)
  | @cons before after comma value values _ _ derived separates later inductionHypothesis =>
    have head := item _ _ _ derived fun token member =>
      regular token (List.mem_append_left _ member)
    have joins (before after : List Token) (head : SpellsUpTo Item forget value before)
        (tail : SpellsUpTo (CommaList Item) (List.map forget) values after) :
        SpellsUpTo (CommaList Item) (List.map forget) (value :: values)
          (before ++ comma :: after) := by
      obtain ⟨result, _, derived, same⟩ := head
      obtain ⟨results, _, listed, agree⟩ := tail
      exact ⟨result :: results, _, .cons derived separates listed,
        List.cons_eq_cons.mpr ⟨same, agree⟩⟩
    have comma := (regular _ (by simp)).mark separates rfl
    have behind := inductionHypothesis fun token member => regular token (by simp [member])
    refine Reduces.listed separates comma closes ?_ joins head spells behind
    intro none
    cases later with
    | nil => exact ⟨rfl, ⟨[], _, .nil, rfl⟩, single value⟩
    | last | cons => cases none

/-- The tokens of a name with its type. -/
theorem reduces_typedName {name colon : Token} {typeTokens : List Token} {type : TypeExpr}
    (named : name.kind = .identifier) (divides : colon.kind = .colon)
    (typed : DerivesType typeTokens type levels)
    (regular : ∀ token ∈ name :: colon :: typeTokens, Regular token) :
    Reduces (Then (Only name) (Then (Only colon) (SpellsType type))) (name :: colon :: typeTokens)
      (typedName ⟨name.text, name.position⟩ type) := by
  have first := (regular _ List.mem_cons_self).name named
  have second := (regular _ (by simp)).mark divides rfl
  have third := reduces_type typed fun token member => regular token (by simp [member])
  exact (first.both (second.both third)).respell rfl

/-- The tokens of a parameter reduce to its layout. -/
theorem reduces_param {param : Param} (derived : DerivesParam tokens param levels)
    (regular : ∀ token ∈ tokens, Regular token) :
    Reduces (SpellsUpTo DerivesParam Param.unplaced param) tokens param.pieces := by
  cases derived with
  | @intro _ name colon _ _ _ _ _ _ word named divides typed whole =>
    rw [← whole] at regular ⊢
    have comptime := reduces_word word rfl fun token member => regular token (by simp [member])
    have typedName := reduces_typedName named divides typed fun token member =>
      regular token (List.mem_append_right _ member)
    refine (comptime.both typedName).imp ?_
    rintro _ ⟨words, _, rfl, word, _, _, rfl, rfl, _, types, rfl, rfl, result, levels, typed, same⟩
    obtain ⟨first, rest, whole⟩ := exists_first words name (colon :: types)
    have derived := DerivesParam.intro word named divides typed whole
    rw [← whole] at derived
    exact ⟨_, _, derived, by simp only [Param.unplaced, same]⟩

/-- The tokens of a field reduce to its layout. -/
theorem reduces_field {field : Field} (derived : DerivesField tokens field levels)
    (regular : ∀ token ∈ tokens, Regular token) :
    Reduces (SpellsUpTo DerivesField Field.unplaced field) tokens
      (typedName field.name field.type) := by
  cases derived with
  | intro named divides typed =>
    refine (reduces_typedName named divides typed regular).imp ?_
    rintro _ ⟨_, _, rfl, rfl, _, _, rfl, rfl, result, levels, typed, same⟩
    exact ⟨_, _, .intro named divides typed, by simp only [Field.unplaced, same]⟩

/-- The pieces of a struct up to its fields. -/
def structHead (declared : StructDecl) : List Piece :=
  pubMark declared.isPub ++ [mark .constWord, blank, .name declared.name.name, blank,
    mark .assign, blank, mark .structWord, blank, mark .leftBrace]

/-- The pieces of a declaration without the comma behind the last field of a struct. -/
def barePieces : Decl → List Piece
  | .fn declared => piecesOf (declLines (.fn declared))
  | .var declared => piecesOf (declLines (.var declared))
  | .struct declared =>
    structHead declared ++
      (commas (declared.fields.map fun field => typedName field.name field.type) ++
        [mark .rightBrace, mark .semicolon])

/-- The tokens spell the declaration, up to positions. -/
abbrev SpellsDecl (declared : Decl) : List Token → Prop :=
  SpellsUpTo (DerivesDecl false) Decl.unplaced declared

/-- The word before `fn`, if there is one, is not touched. -/
theorem reduces_modifier {modifier : Option FnModifier} (derived : DerivesModifier tokens modifier)
    (regular : ∀ token ∈ tokens, Regular token) :
    Reduces (DerivesModifier · modifier) tokens ((modifier.map FnModifier.pieces).getD []) := by
  cases derived with
  | none => exact .same .none rfl
  | inlined kind =>
    have word := (regular _ List.mem_cons_self).spells kind rfl
    exact .same (.inlined kind) word
  | comptime kind =>
    have word := (regular _ List.mem_cons_self).spells kind rfl
    exact .same (.comptime kind) word

/-- The tokens of a declaration reduce to its layout, but for the comma behind the last field of a
struct. -/
theorem reduces_decl {declared : Decl} (derived : DerivesDecl false tokens declared levels)
    (regular : ∀ token ∈ tokens, Regular token) :
    Reduces (SpellsDecl declared) tokens (barePieces declared) := by
  cases derived with
  | @fn _ word name opening closing _ _ _ _ _ _ _ _ _ _ _ _ _ _ _ pub modified begins named opens
      listed closes typed inner whole =>
    rw [← whole] at regular ⊢
    have pubWord := reduces_word pub rfl fun token member => regular token (by simp [member])
    have modifier := reduces_modifier modified fun token member => regular token (by simp [member])
    have fnWord := (regular word (by simp)).mark begins rfl
    have fnName := (regular name (by simp)).name named
    have bracket := (regular opening (by simp)).mark opens rfl
    have params := reduces_commas listed (.inl closes)
      ((regular closing (by simp)).spells closes rfl)
      (fun token member => regular token (by simp [member])) fun _ _ _ => reduces_param
    have type := reduces_type typed fun token member => regular token (by simp [member])
    have block := stmtReduces inner (fun token member => regular token (by simp [member])) 1
    have reduces := pubWord.both (modifier.both (fnWord.both (fnName.both (bracket.both
      (params.both (type.both block))))))
    rw [List.append_assoc] at reduces
    refine (reduces.imp ?_).respell ?_
    · rintro _ ⟨pubTokens, _, rfl, pub, modifierTokens, _, rfl, modified, _, _, rfl, rfl, _, _, rfl,
        rfl, _, _, rfl, rfl, _, _, rfl,
        ⟨params, _, rfl, ⟨paramResults, _, listed, paramsSame⟩, rfl⟩, types, block, rfl,
        ⟨typeResult, _, typed, typeSame⟩, position, results, _, derived, same⟩
      obtain ⟨first, rest, whole⟩ := exists_first (pubTokens ++ modifierTokens) word
        (name :: opening :: (params ++ closing :: (types ++ block)))
      rw [List.append_assoc] at whole
      have spelled :=
        DerivesDecl.fn pub modified begins named opens listed closes typed derived whole
      rw [← whole] at spelled
      rw [List.append_assoc params]
      exact ⟨_, _, spelled, by simp only [Decl.unplaced, paramsSame, typeSame, same]⟩
    · rw [barePieces, declLines, piecesOf_enclosed]
      simp [FnDecl.headPieces, pubMark, List.filterMap_cons, Piece.lexeme?]
  | @var _ _ _ _ isPub declared _ mark inner whole =>
    rw [← whole] at regular ⊢
    have pubWord := reduces_word mark rfl fun token member => regular token (by simp [member])
    have var := reduces_var inner fun token member => regular token (by simp [member])
    refine ((pubWord.both var).imp ?_).respell ?_
    · rintro _ ⟨pub, tokens, rfl, mark, spells⟩
      obtain ⟨_, _, some, -⟩ := spells Position.start
      obtain ⟨word, later, rfl, -⟩ := some.starts
      obtain ⟨first, rest, whole⟩ := exists_first pub word later
      obtain ⟨result, levels, derived, same⟩ := spells first.position
      have spelled : DerivesDecl false _ _ _ := .var mark derived whole
      rw [← whole] at spelled
      exact ⟨_, _, spelled, by rw [Decl.unplaced, same, Decl.unplaced]⟩
    · have isPub : declared.isPub = isPub := by
        cases inner
        rfl
      rw [barePieces, declLines, piecesOf_cons, piecesOf_nil, pieces_sentence, VarDecl.pieces_eq,
        isPub]
      simp [pubMark]
  | @struct _ word name equals struct opening closing semicolon _ _ _ _ _ _ mark begins named
      assigned structured opens listed closes ends whole =>
    rw [← whole] at regular ⊢
    have pubWord := reduces_word mark rfl fun token member => regular token (by simp [member])
    have constWord := (regular word (by simp)).mark begins rfl
    have structName := (regular name (by simp)).name named
    have sign := (regular equals (by simp)).mark assigned rfl
    have structWord := (regular struct (by simp)).mark structured rfl
    have bracket := (regular opening (by simp)).mark opens rfl
    have fields := reduces_commas listed (.inr closes)
      ((regular closing (by simp)).spells closes rfl)
      (fun token member => regular token (by simp [member])) fun _ _ _ => reduces_field
    have last := (regular semicolon (by simp)).mark ends rfl
    have reduces := pubWord.both (constWord.both (structName.both (sign.both (structWord.both
      (bracket.both (fields.both last))))))
    rw [List.append_assoc] at reduces
    refine (reduces.imp ?_).respell ?_
    · rintro _ ⟨pub, _, rfl, mark, _, _, rfl, rfl, _, _, rfl, rfl, _, _, rfl, rfl, _, _, rfl, rfl,
        _, _, rfl, rfl, _, _, rfl, ⟨fields, _, rfl, ⟨results, _, listed, same⟩, rfl⟩, rfl⟩
      obtain ⟨first, rest, whole⟩ := exists_first pub word
        (name :: equals :: struct :: opening :: (fields ++ [closing, semicolon]))
      have spelled : DerivesDecl false _ _ _ :=
        .struct mark begins named assigned structured opens listed closes ends whole
      rw [← whole] at spelled
      rw [List.append_assoc fields]
      exact ⟨_, _, spelled, by simp only [Decl.unplaced, same]⟩
    · simp [barePieces, structHead, pubMark, List.filterMap_cons, Piece.lexeme?]

/-- The tokens spell the program, up to positions. -/
abbrev SpellsProgram (program : Program) : List Token → Prop :=
  SpellsUpTo (DerivesProgram false) Program.unplaced program

/-- The tokens of a program reduce to its layout, but for the commas behind the last fields of
structs. -/
theorem reduces_program {program : Program} (derived : DerivesProgram false tokens program levels)
    (regular : ∀ token ∈ tokens, Regular token) :
    Reduces (SpellsProgram program) tokens (program.flatMap barePieces) := by
  induction derived with
  | nil => exact .same ⟨[], _, .nil, rfl⟩ rfl
  | cons head _ inductionHypothesis =>
    have first := reduces_decl head fun token member =>
      regular token (List.mem_append_left _ member)
    have later := inductionHypothesis fun token member =>
      regular token (List.mem_append_right _ member)
    refine (first.both later).imp ?_
    rintro _ ⟨_, _, rfl, ⟨result, _, derived, same⟩, results, _, laterDerived, agree⟩
    exact ⟨result :: results, _, .cons derived laterDerived, List.cons_eq_cons.mpr ⟨same, agree⟩⟩

/-- The tokens of a declaration, and what is left of them without the comma behind the last field if
the declaration is a struct with fields. -/
inductive OmitsTail : Decl → List Token → List Token → Prop
  | fn {declared : FnDecl} {tokens : List Token} : OmitsTail (.fn declared) tokens tokens
  | var {declared : VarDecl} {tokens : List Token} : OmitsTail (.var declared) tokens tokens
  | emptyStruct {declared : StructDecl} {tokens : List Token} (none : declared.fields = []) :
    OmitsTail (.struct declared) tokens tokens
  | struct {declared : StructDecl} {before : List Token} {comma closing semicolon : Token}
      (some : declared.fields ≠ []) (separates : comma.kind = .comma)
      (closes : closing.kind = .rightBrace) (ends : semicolon.kind = .semicolon) :
    OmitsTail (.struct declared) (before ++ [comma, closing, semicolon])
      (before ++ [closing, semicolon])

/-- The tokens of a program, and what is left of them without those commas. -/
inductive OmitsTails : Program → List Token → List Token → Prop
  | nil : OmitsTails [] [] []
  | cons {first : Decl} {later : Program} {before bare after others : List Token}
      (head : SpellsDecl first before) (omits : OmitsTail first before bare)
      (tail : OmitsTails later after others) :
    OmitsTails (first :: later) (before ++ after) (bare ++ others)

/-- A comma behind each of several groups is commas between them and one more. -/
theorem lexemes_each {α : Type} (layout : α → List Piece) {values : List α} (some : values ≠ []) :
    (values.flatMap fun value => layout value ++ [mark .comma]).filterMap Piece.lexeme? =
      (commas (values.map layout) ++ [mark .comma]).filterMap Piece.lexeme? := by
  induction values with
  | nil => exact absurd rfl some
  | cons first rest inductionHypothesis =>
    cases rest with
    | nil => simp [commas_single]
    | cons second rest =>
      rw [List.flatMap_cons, List.filterMap_append, inductionHypothesis (List.cons_ne_nil _ _)]
      simp only [List.map_cons, commas_cons]
      simp [List.filterMap_cons, Piece.lexeme?]

/-- The layout of a struct with fields has one comma more than there are between the fields. -/
theorem lexemes_structLines {declared : StructDecl} (some : declared.fields ≠ []) :
    (piecesOf (declLines (.struct declared))).filterMap Piece.lexeme? =
      (structHead declared ++
        commas (declared.fields.map fun field => typedName field.name field.type) ++
          [mark .comma, mark .rightBrace, mark .semicolon]).filterMap Piece.lexeme? := by
  have each := lexemes_each (fun field : Field => typedName field.name field.type) some
  have lines : piecesOf (declLines (.struct declared)) = structHead declared ++
      (declared.fields.flatMap (fun field => typedName field.name field.type ++ [mark .comma]) ++
        [mark .rightBrace, mark .semicolon]) := by
    simp [declLines, structLines, some, piecesOf, List.flatMap_map, structHead]
  rw [lines, List.filterMap_append, List.filterMap_append, each]
  simp [Piece.lexeme?]

/-- What is left of the layout of a declaration without the comma behind the last field. -/
theorem omitsTail_of_spells {declared : Decl}
    (spells : Spells tokens (piecesOf (declLines declared))) :
    ∃ bare, OmitsTail declared tokens bare ∧ Spells bare (barePieces declared) := by
  cases declared with
  | fn declared => exact ⟨tokens, .fn, spells⟩
  | var declared => exact ⟨tokens, .var, spells⟩
  | struct declared =>
    by_cases none : declared.fields = []
    · refine ⟨tokens, .emptyStruct none, ?_⟩
      rw [declLines, structLines, if_pos (List.isEmpty_iff.mpr none)] at spells
      rw [barePieces, none]
      simpa [structHead, commas] using spells
    · have split := lexemes_structLines none
      have spelled : Spells tokens (structHead declared ++
          commas (declared.fields.map fun field => typedName field.name field.type) ++
            [mark .comma, mark .rightBrace, mark .semicolon]) := spells.trans split
      obtain ⟨before, after, rfl, front, behind⟩ := spelled.append
      obtain ⟨comma, later, rfl, separates, behind⟩ := behind.mark
      obtain ⟨closing, later, rfl, closes, last⟩ := Spells.mark behind
      obtain ⟨semicolon, later, rfl, ends, nothing⟩ := last.mark
      obtain rfl := nothing.nil
      refine ⟨before ++ [closing, semicolon], .struct none separates closes ends, ?_⟩
      rw [barePieces, ← List.append_assoc]
      exact spells_append front behind

/-- What is left of the layout of a program without the commas behind the last fields of structs. -/
theorem omitsTails_of_spells {program : Program} (spellable : program.Spellable)
    (spells : Spells tokens (piecesOf (programLines program))) :
    ∃ bare, OmitsTails program tokens bare ∧ Spells bare (program.flatMap barePieces) := by
  rw [piecesOf_programLines] at spells
  induction program generalizing tokens with
  | nil =>
    rw [Spells.nil spells]
    exact ⟨[], .nil, rfl⟩
  | cons first rest inductionHypothesis =>
    rw [List.flatMap_cons, piecesOf_append] at spells
    obtain ⟨before, after, rfl, firstSpelled, restSpelled⟩ := spells.append
    obtain ⟨result, derived, same⟩ := forms_decl (spellable first List.mem_cons_self) firstSpelled
    obtain ⟨bare, omits, bareSpelled⟩ := omitsTail_of_spells firstSpelled
    obtain ⟨others, tail, othersSpelled⟩ :=
      inductionHypothesis
        (fun declared member => spellable declared (List.mem_cons_of_mem _ member)) restSpelled
    exact ⟨bare ++ others, .cons ⟨result, _, derived, same⟩ omits tail,
      spells_append bareSpelled othersSpelled⟩

/-- Only commas are left out there. -/
theorem OmitsTails.countP_kind {program : Program} {bare : List Token}
    (omits : OmitsTails program tokens bare) {kind : Kind} (other : kind ≠ .comma) :
    bare.countP (·.kind = kind) = tokens.countP (·.kind = kind) := by
  induction omits with
  | nil => rfl
  | cons _ omits _ inductionHypothesis =>
    rw [List.countP_append, List.countP_append, inductionHypothesis]
    cases omits with
    | fn | var | emptyStruct => rfl
    | struct _ separates =>
      have ne : ¬ Kind.comma = kind := fun same => other same.symm
      simp [List.countP_cons, separates, ne]

/-- Tokens of which each says the same as one of the others have no more of any kind. -/
theorem Subsequence.countP_kind_le {kept tokens : List Token} (some : Subsequence kept tokens)
    (kind : Kind) : kept.countP (·.kind = kind) ≤ tokens.countP (·.kind = kind) := by
  induction some with
  | nil => exact Nat.zero_le _
  | cons same _ inductionHypothesis =>
    rw [List.countP_cons, List.countP_cons, same.1]
    exact Nat.add_le_add_right inductionHypothesis _
  | cons_right _ inductionHypothesis =>
    rw [List.countP_cons]
    exact Nat.le_add_right_of_le inductionHypothesis

/-- Tokens that stand for the same pieces say the same. -/
theorem Subsequence.of_spells {bare kept : List Token} {pieces : List Piece}
    (bareSpelled : Spells bare pieces) (spelled : Spells kept pieces) : Subsequence bare kept := by
  have same : List.Forall₂ Eq (bare.map fun token => (token.kind, token.text))
      (kept.map fun token => (token.kind, token.text)) := by
    rw [List.forall₂_eq_eq_eq]
    exact bareSpelled.trans spelled.symm
  rw [List.forall₂_map_left_iff, List.forall₂_map_right_iff] at same
  have lexemes : List.Forall₂ SameLexeme bare kept := same.imp fun first second agree =>
    ⟨(Prod.mk.inj agree).1, .inl (Prod.mk.inj agree).2⟩
  exact List.sublistForall₂_iff.mpr ⟨kept, lexemes, List.Sublist.refl kept⟩

/-- What a layout retains of the tokens of the source. Both are compared after the tokens that may
differ are left out of them: what can be thinned out of the source, and the commas behind the last
fields of structs in the layout. -/
structure Retains (program : Program) (source text kept bare : List Token) : Prop where
  thins : Thins (SpellsProgram program) source kept
  omits : OmitsTails program text bare
  same : (bare.map fun token => (token.kind, token.text)) =
    kept.map fun token => (token.kind, token.text)
  subsequence : Subsequence bare source
  noMore : ∀ kind, kind ≠ .comma → text.countP (·.kind = kind) ≤ source.countP (·.kind = kind)

/-- Formatting neither loses tokens nor adds or moves any. If a source has a layout, then its tokens
can be thinned out, spelling the program all the time, to what is left of the tokens of the layout
without the comma behind the last field of each struct. What is left there are some of the tokens of
the source in the same order, and of no kind but the comma does the layout have more tokens than the
source, so it has no parenthesis that was not there. -/
theorem lexemes_formatSource {source text : String} {options : Options}
    (formatted : formatSource source options = .ok text) :
    ∃ program kept bare, Program.ofSource source = .ok program ∧
      Retains program (lexemes source) (lexemes text) kept bare := by
  obtain ⟨program, parsed, rfl⟩ := parsed_of_formatSource formatted
  obtain ⟨levels, -, derived⟩ := derives_of_ofSource parsed
  obtain ⟨kept, thins, keptSpelled⟩ :=
    reduces_program derived fun token member => regular_of_mem_lexemes member
  have spellable := spellable_of_ofSource parsed
  obtain ⟨bare, omits, bareSpelled⟩ :=
    omitsTails_of_spells spellable (spells_format spellable options)
  have some : Subsequence bare (lexemes source) :=
    IsTrans.trans _ _ _ (Subsequence.of_spells bareSpelled keptSpelled) thins.subsequence
  refine ⟨program, kept, bare, parsed, thins, omits, bareSpelled.trans keptSpelled.symm, some, ?_⟩
  intro kind other
  rw [← omits.countP_kind other]
  exact some.countP_kind_le kind

/-- An argument in parentheses, with a comma behind it, and the layout without either. -/
theorem lexemes_formatSource_call :
    formatSource "const x=f((1),);" {} = .ok "const x = f(1);\n" ∧
      ∃ program kept bare, Program.ofSource "const x=f((1),);" = .ok program ∧
        Retains program (lexemes "const x=f((1),);") (lexemes "const x = f(1);\n") kept bare := by
  have formatted : formatSource "const x=f((1),);" {} = .ok "const x = f(1);\n" := by decide +kernel
  exact ⟨formatted, lexemes_formatSource formatted⟩

end SystemsLang.Layout
