import SystemsLang.Proofs.Layout.DerivesStmt

/-!
# The layout of declarations spells them

Parameters stand between commas and every field has a comma behind it, which are two ways of writing
one kind of list. The empty lines between declarations spell nothing, so a program is spelled by the
declarations one after the other.
-/

namespace SystemsLang.Layout

open Token (Kind)
open Syntax Grammar
open Piece (mark blank commas commas_cons commas_single)

variable {tokens : List Token}

/-- What stands between commas is spelled as a list if every item is spelled as an item. The levels
of the list are the most that an item takes. -/
theorem forms_commas {α : Type} {Item : List Token → α → Nat → Prop} {pieces : α → List Piece}
    {levels : α → Nat} {unplaced : α → α} {values : List α}
    (item : ∀ value ∈ values, ∀ tokens, Spells tokens (pieces value) →
      ∃ result, Item tokens result (levels value) ∧ unplaced result = unplaced value)
    (spells : Spells tokens (commas (values.map pieces))) :
    ∃ results, CommaList Item tokens results ((values.map levels).foldr max 0) ∧
      results.map unplaced = values.map unplaced := by
  induction values generalizing tokens with
  | nil =>
    rw [Spells.nil spells]
    exact ⟨[], .nil, rfl⟩
  | cons first rest inductionHypothesis =>
    cases rest with
    | nil =>
      rw [List.map_singleton, commas_single] at spells
      obtain ⟨result, derived, same⟩ := item first List.mem_cons_self tokens spells
      refine ⟨[result], ?_, by rw [List.map_singleton, same, List.map_singleton]⟩
      rw [List.map_singleton, List.foldr_cons, List.foldr_nil, Nat.max_zero]
      exact .last derived
    | cons second rest =>
      rw [List.map_cons, List.map_cons, commas_cons] at spells
      obtain ⟨before, after, rfl, firstSpelled, behind⟩ := spells.append
      obtain ⟨comma, later, rfl, separates, behind⟩ := behind.mark
      obtain ⟨result, derived, same⟩ := item first List.mem_cons_self before firstSpelled
      obtain ⟨results, laterDerived, laterSame⟩ :=
        inductionHypothesis (fun value member => item value (List.mem_cons_of_mem _ member))
          behind.blank
      exact ⟨result :: results, .cons derived separates laterDerived,
        List.cons_eq_cons.mpr ⟨same, laterSame⟩⟩

/-- So is what has a comma behind each item. -/
theorem forms_each {α : Type} {Item : List Token → α → Nat → Prop} {pieces : α → List Piece}
    {levels : α → Nat} {unplaced : α → α} {values : List α}
    (item : ∀ value ∈ values, ∀ tokens, Spells tokens (pieces value) →
      ∃ result, Item tokens result (levels value) ∧ unplaced result = unplaced value)
    (spells : Spells tokens (values.flatMap fun value => pieces value ++ [mark .comma])) :
    ∃ results, CommaList Item tokens results ((values.map levels).foldr max 0) ∧
      results.map unplaced = values.map unplaced := by
  induction values generalizing tokens with
  | nil =>
    rw [Spells.nil spells]
    exact ⟨[], .nil, rfl⟩
  | cons first rest inductionHypothesis =>
    rw [List.flatMap_cons, List.append_assoc] at spells
    obtain ⟨before, after, rfl, firstSpelled, behind⟩ := spells.append
    obtain ⟨comma, later, rfl, separates, behind⟩ := behind.mark
    obtain ⟨result, derived, same⟩ := item first List.mem_cons_self before firstSpelled
    obtain ⟨results, laterDerived, laterSame⟩ :=
      inductionHypothesis (fun value member => item value (List.mem_cons_of_mem _ member)) behind
    exact ⟨result :: results, .cons derived separates laterDerived,
      List.cons_eq_cons.mpr ⟨same, laterSame⟩⟩

/-- The tokens of the layout of a parameter spell it. -/
theorem forms_param {param : Param} (spellable : param.Spellable) (tokens : List Token)
    (spells : Spells tokens param.pieces) :
    ∃ result, DerivesParam tokens result param.type.levels ∧ result.unplaced = param.unplaced := by
  obtain ⟨isComptime, name, type, place⟩ := param
  obtain ⟨comptime, later, rfl, marked, rest⟩ := mark_of_word spells
  obtain ⟨token, later, rfl, named, text, rest⟩ := Spells.ident rest spellable.1
  obtain ⟨colon, later, rfl, divides, behind⟩ := rest.mark
  obtain ⟨result, typed, same⟩ := derives_type spellable.2 behind.blank
  obtain ⟨first, others, whole⟩ : ∃ first others,
      comptime ++ token :: colon :: later = first :: others := by
    cases marked with
    | absent => exact ⟨_, _, rfl⟩
    | present => exact ⟨_, _, rfl⟩
  rw [whole]
  refine ⟨_, .intro marked named divides typed whole, ?_⟩
  simp only [Param.unplaced, Ident.unplaced, text, same]

/-- The tokens of the layout of a field spell it. -/
theorem forms_field {field : Field} (spellable : field.Spellable) (tokens : List Token)
    (spells : Spells tokens (typedName field.name field.type)) :
    ∃ result, DerivesField tokens result field.type.levels ∧ result.unplaced = field.unplaced := by
  obtain ⟨token, later, rfl, named, text, rest⟩ := Spells.ident spells spellable.1
  obtain ⟨colon, later, rfl, divides, behind⟩ := rest.mark
  obtain ⟨result, typed, same⟩ := derives_type spellable.2 behind.blank
  refine ⟨_, .intro named divides typed, ?_⟩
  simp only [Field.unplaced, Ident.unplaced, text, same]

/-- The word before `fn`, if there is one. -/
theorem mark_of_modifier {modifier : Option FnModifier} {pieces : List Piece}
    (spells : Spells tokens ((modifier.map FnModifier.pieces).getD [] ++ pieces)) :
    ∃ words later, tokens = words ++ later ∧ DerivesModifier words modifier ∧
      Spells later pieces := by
  match modifier with
  | none => exact ⟨[], tokens, rfl, .none, spells⟩
  | some .inlined =>
    obtain ⟨word, later, rfl, kind, rest⟩ := Spells.mark spells
    exact ⟨[word], later, rfl, .inlined kind, rest.blank⟩
  | some .comptime =>
    obtain ⟨word, later, rfl, kind, rest⟩ := Spells.mark spells
    exact ⟨[word], later, rfl, .comptime kind, rest.blank⟩

/-- The tokens spell a declaration. -/
def FormsDecl (declared : Decl) (tokens : List Token) : Prop :=
  ∃ result, DerivesDecl false tokens result declared.levels ∧
    result.unplaced = declared.unplaced

/-- What stands behind a mark and words that may be left out has a first token. -/
theorem exists_first (front : List Token) (token : Token) (later : List Token) :
    ∃ first rest, front ++ token :: later = first :: rest :=
  List.exists_cons_of_ne_nil (List.append_ne_nil_of_right_ne_nil front (List.cons_ne_nil _ _))

/-- The tokens of the layout of a function spell it. -/
theorem forms_fn {declared : FnDecl} (spellable : (Decl.fn declared).Spellable)
    (spells : Spells tokens (piecesOf (declLines (.fn declared)))) :
    FormsDecl (.fn declared) tokens := by
  obtain ⟨isPub, modifier, name, params, returnType, body, place⟩ := declared
  obtain ⟨nameSpellable, paramsSpellable, typeSpellable, bodySpellable⟩ := spellable
  rw [declLines, piecesOf_enclosed] at spells
  simp only [FnDecl.headPieces, List.append_assoc, List.cons_append, List.nil_append] at spells
  obtain ⟨pub, later, rfl, marked, rest⟩ := mark_of_word spells
  obtain ⟨modifierTokens, later, rfl, modified, rest⟩ := mark_of_modifier rest
  obtain ⟨word, later, rfl, begins, rest⟩ := rest.mark
  obtain ⟨token, later, rfl, named, text, rest⟩ := rest.blank.ident nameSpellable
  obtain ⟨opening, later, rfl, opens, behindOpening⟩ := rest.mark
  obtain ⟨paramTokens, after, rfl, paramsSpelled, behindParams⟩ := behindOpening.append
  obtain ⟨closing, later, rfl, closes, behindClosing⟩ := behindParams.mark
  obtain ⟨typeTokens, block, rfl, typeSpelled, behindType⟩ := behindClosing.blank.append
  obtain ⟨results, listed, agree⟩ :=
    forms_commas (fun param member => forms_param (paramsSpellable param member)) paramsSpelled
  obtain ⟨typeResult, typed, typeSame⟩ := derives_type typeSpellable typeSpelled
  obtain ⟨first, others, bodyResults, rfl, derived, bodySame⟩ :=
    forms_block (forms_body body 1 bodySpellable) behindType.blank
  obtain ⟨start, following, whole⟩ := exists_first (pub ++ modifierTokens) word
    (token :: opening :: (paramTokens ++ closing :: (typeTokens ++ first :: others)))
  rw [List.append_assoc] at whole
  rw [whole]
  refine ⟨_, .fn marked modified begins named opens listed closes typed derived whole, ?_⟩
  simp only [Decl.unplaced, Ident.unplaced, text, agree, typeSame, bodySame]

/-- The tokens of the layout of a struct spell it. -/
theorem forms_struct {declared : StructDecl} (spellable : (Decl.struct declared).Spellable)
    (spells : Spells tokens (piecesOf (structLines declared))) :
    FormsDecl (.struct declared) tokens := by
  obtain ⟨isPub, name, fields, place⟩ := declared
  have spelled : Spells tokens (pubMark isPub ++ (mark .constWord :: blank :: .name name.name ::
      blank :: mark .assign :: blank :: mark .structWord :: blank :: mark .leftBrace ::
        (fields.flatMap (fun field => typedName field.name field.type ++ [mark .comma]) ++
          [mark .rightBrace, mark .semicolon]))) := by
    cases fields with
    | nil => simpa [structLines] using spells
    | cons first rest =>
      simpa [structLines, piecesOf, List.flatMap_map] using spells
  obtain ⟨pub, later, rfl, marked, rest⟩ := mark_of_word spelled
  obtain ⟨word, later, rfl, begins, rest⟩ := rest.mark
  obtain ⟨token, later, rfl, named, text, rest⟩ := rest.blank.ident spellable.1
  obtain ⟨equals, later, rfl, assigned, rest⟩ := rest.blank.mark
  obtain ⟨struct, later, rfl, structured, rest⟩ := rest.blank.mark
  obtain ⟨opening, later, rfl, opens, behindOpening⟩ := rest.blank.mark
  obtain ⟨inner, after, rfl, fieldsSpelled, behindFields⟩ := behindOpening.append
  obtain ⟨closing, later, rfl, closes, behindClosing⟩ := behindFields.mark
  obtain ⟨semicolon, rfl, ends⟩ := behindClosing.lastMark
  obtain ⟨results, listed, agree⟩ :=
    forms_each (fun field member => forms_field (spellable.2 field member)) fieldsSpelled
  obtain ⟨start, following, whole⟩ := exists_first pub word
    (token :: equals :: struct :: opening :: (inner ++ [closing, semicolon]))
  rw [whole]
  refine ⟨_, .struct marked begins named assigned structured opens listed closes ends whole, ?_⟩
  simp only [Decl.unplaced, Ident.unplaced, text, agree]

/-- The tokens of the layout of a declaration spell it. -/
theorem forms_decl {declared : Decl} (spellable : declared.Spellable)
    (spells : Spells tokens (piecesOf (declLines declared))) : FormsDecl declared tokens := by
  cases declared with
  | fn declared => exact forms_fn spellable spells
  | var declared =>
    rw [declLines, piecesOf_cons, pieces_sentence, piecesOf_nil, List.append_nil] at spells
    obtain ⟨pub, rest, rfl, marked, derived⟩ := forms_var spellable spells
    obtain ⟨_, someVar, -⟩ := derived Position.start
    obtain ⟨word, later, rfl, -⟩ := someVar.starts
    obtain ⟨first, following, whole⟩ := exists_first pub word later
    obtain ⟨result, var, same⟩ := derived first.position
    rw [whole]
    exact ⟨_, .var marked var whole, by rw [Decl.unplaced, same, Decl.unplaced]⟩
  | struct declared => exact forms_struct spellable spells

/-- The empty lines between declarations make no difference to the tokens. -/
theorem piecesOf_programLines (program : Program) :
    piecesOf (programLines program) = piecesOf (program.flatMap declLines) := by
  unfold programLines
  induction program with
  | nil => rfl
  | cons first rest inductionHypothesis =>
    cases rest with
    | nil => simp [List.intercalate]
    | cons second rest =>
      have split : [(⟨0, []⟩ : Line)].intercalate ((first :: second :: rest).map declLines) =
          declLines first ++ (⟨0, []⟩ :: [(⟨0, []⟩ : Line)].intercalate
            ((second :: rest).map declLines)) := by
        simp [List.intercalate]
      rw [split, piecesOf_append, piecesOf_cons, inductionHypothesis, List.nil_append,
        ← piecesOf_append, ← List.flatMap_cons]

/-- The tokens of the layout of a program spell it, up to positions, on as many levels as its
measure says. -/
theorem derives_program {program : Program} (spellable : program.Spellable)
    (spells : Spells tokens (piecesOf (programLines program))) :
    ∃ result, DerivesProgram false tokens result program.levels ∧
      result.unplaced = program.unplaced := by
  rw [piecesOf_programLines] at spells
  induction program generalizing tokens with
  | nil =>
    rw [Spells.nil spells]
    exact ⟨[], .nil, rfl⟩
  | cons first rest inductionHypothesis =>
    rw [List.flatMap_cons, piecesOf_append] at spells
    obtain ⟨before, after, rfl, firstSpelled, restSpelled⟩ := spells.append
    obtain ⟨result, derived, same⟩ := forms_decl (spellable first List.mem_cons_self) firstSpelled
    obtain ⟨results, laterDerived, laterSame⟩ :=
      inductionHypothesis
        (fun declared member => spellable declared (List.mem_cons_of_mem _ member)) restSpelled
    refine ⟨result :: results, .cons derived laterDerived, ?_⟩
    unfold Program.unplaced at laterSame ⊢
    rw [List.map_cons, same, laterSame, List.map_cons]

end SystemsLang.Layout
