import SystemsLang.Parser.Program
import SystemsLang.Proofs.Parsing.SoundStmt

/-!
# What is read as a program spells it

Parameters, fields and declarations are read token by token, so their soundness follows the order of
the parser. The repetition that makes up a program stops only at an end marker.
-/

namespace SystemsLang.Parser

open Token (Kind Failure)
open Syntax (Ident TypeExpr VarDecl Param Field FnModifier FnDecl StructDecl Decl Program Block)
open Grammar

variable {ending token : Token} {tokens rest : List Token} {room : Nat}

/-- The position of the first token taken is that of the token seen next. -/
theorem next_eq_first {taken : List Token} {first : Token} {later : List Token}
    (stands : tokens = taken ++ rest) (same : taken = first :: later) :
    next ending tokens = first := by
  rw [stands, same]
  rfl

/-- What is read as a parameter spells it. -/
theorem sound_param :
    Sound (param room) fun tokens value => ∃ levels, DerivesParam tokens value levels := by
  intro ending tokens value rest isEnding ran
  obtain ⟨first, middle, looked, behind⟩ := run_bind_eq_ok.mp ran
  obtain ⟨rfl, rfl⟩ := run_peek_eq_ok looked
  obtain ⟨isComptime, later, asked, behindMark⟩ := run_bind_eq_ok.mp behind
  obtain ⟨comptime, rfl, mark⟩ := sound_take (by decide) _ _ _ _ isEnding asked
  obtain ⟨name, later, nameRan, behindName⟩ := run_bind_eq_ok.mp behindMark
  obtain ⟨token, named, rfl, rfl⟩ := run_ident_eq_ok isEnding nameRan
  obtain ⟨colon, later, divides, rfl, behindColon⟩ :=
    run_skip_eq_ok isEnding (by decide) behindName
  obtain ⟨type, typeRan, rfl⟩ := run_map_eq_ok.mp behindColon
  obtain ⟨taken, rfl, levels, typed⟩ := sound_typeExpr room _ _ _ _ isEnding typeRan
  obtain ⟨first, others, whole⟩ : ∃ first others, comptime ++ token :: colon :: taken =
      first :: others := by
    cases comptime <;> exact ⟨_, _, rfl⟩
  have stands : comptime ++ token :: colon :: (taken ++ rest) =
      (comptime ++ token :: colon :: taken) ++ rest := by simp
  refine ⟨comptime ++ token :: colon :: taken, stands, levels, ?_⟩
  rw [next_eq_first stands whole, whole]
  exact .intro mark named divides typed whole

/-- What is read as a field spells it. -/
theorem sound_field :
    Sound (field room) fun tokens value => ∃ levels, DerivesField tokens value levels := by
  intro ending tokens value rest isEnding ran
  obtain ⟨first, middle, looked, behind⟩ := run_bind_eq_ok.mp ran
  obtain ⟨rfl, rfl⟩ := run_peek_eq_ok looked
  obtain ⟨name, later, nameRan, behindName⟩ := run_bind_eq_ok.mp behind
  obtain ⟨token, named, rfl, rfl⟩ := run_ident_eq_ok isEnding nameRan
  obtain ⟨colon, later, divides, rfl, behindColon⟩ :=
    run_skip_eq_ok isEnding (by decide) behindName
  obtain ⟨type, typeRan, rfl⟩ := run_map_eq_ok.mp behindColon
  obtain ⟨taken, rfl, levels, typed⟩ := sound_typeExpr room _ _ _ _ isEnding typeRan
  exact ⟨token :: colon :: taken, rfl, levels, .intro named divides typed⟩

/-- Parameters and fields with commas between them. -/
theorem sound_items {α : Type} {close : Kind} {item : Parser α} {Item : List Token → α → Nat → Prop}
    (sound : Sound item fun tokens value => ∃ levels, Item tokens value levels)
    (nonempty : ∀ value levels, ¬ Item [] value levels) :
    Sound (commaList close item) fun tokens values =>
      ∃ levels, CommaList Item tokens values levels := by
  refine sound_commaList sound ?_ ⟨0, .nil⟩ ?_ ?_
  · rintro value ⟨levels, impossible⟩
    exact nonempty value levels impossible
  · rintro tokens value ⟨levels, derived⟩
    exact ⟨levels, .last derived⟩
  · rintro before comma after value values ⟨levels, derived⟩ separates ⟨more, later⟩
    exact ⟨_, .cons derived separates later⟩

/-- What is read in front of `fn` spells the modifier. -/
theorem sound_fnModifier : Sound fnModifier DerivesModifier := by
  intro ending tokens modifier rest isEnding ran
  obtain ⟨first, middle, looked, behind⟩ := run_bind_eq_ok.mp ran
  obtain ⟨rfl, rfl⟩ := run_peek_eq_ok looked
  split at behind
  · rename_i kind
    obtain ⟨later, stands, finished⟩ := run_skip_peeked isEnding kind (by decide) behind
    obtain ⟨rfl, rfl⟩ := run_pure_eq_ok.mp finished
    exact ⟨[_], stands, .inlined kind⟩
  · rename_i kind
    obtain ⟨later, stands, finished⟩ := run_skip_peeked isEnding kind (by decide) behind
    obtain ⟨rfl, rfl⟩ := run_pure_eq_ok.mp finished
    exact ⟨[_], stands, .comptime kind⟩
  · obtain ⟨rfl, rfl⟩ := run_pure_eq_ok.mp behind
    exact ⟨[], rfl, .none⟩

/-- What was read behind `pub` as a function declares it. -/
theorem run_fnDecl_eq_ok {isPub : Bool} {pub : List Token} {declared : FnDecl}
    (isEnding : ending.kind = .ending) (mark : Mark .pubWord pub isPub)
    (ran : (fnDecl room isPub (next ending (pub ++ tokens)).position).run ending tokens =
      .ok (declared, rest)) :
    ∃ taken levels, pub ++ tokens = taken ++ rest ∧
      DerivesDecl false taken (.fn declared) levels := by
  obtain ⟨modifier, later, modifierRan, behindModifier⟩ := run_bind_eq_ok.mp ran
  obtain ⟨modifierTokens, rfl, modified⟩ := sound_fnModifier _ _ _ _ isEnding modifierRan
  obtain ⟨word, later, begins, rfl, behindWord⟩ :=
    run_skip_eq_ok isEnding (by decide) behindModifier
  obtain ⟨name, later, nameRan, behindName⟩ := run_bind_eq_ok.mp behindWord
  obtain ⟨token, named, rfl, rfl⟩ := run_ident_eq_ok isEnding nameRan
  obtain ⟨opening, later, opens, rfl, behindParen⟩ :=
    run_skip_eq_ok isEnding (by decide) behindName
  obtain ⟨params, later, paramsRan, behindParams⟩ := run_bind_eq_ok.mp behindParen
  obtain ⟨paramTokens, rfl, levels, listed⟩ := sound_items sound_param
    (fun _ _ impossible => nomatch impossible) _ _ _ _ isEnding paramsRan
  obtain ⟨closing, later, closes, rfl, behindClosing⟩ :=
    run_skip_eq_ok isEnding (by decide) behindParams
  obtain ⟨returnType, later, typeRan, behindType⟩ := run_bind_eq_ok.mp behindClosing
  obtain ⟨typeTokens, rfl, typeLevels, typed⟩ := sound_typeExpr room _ _ _ _ isEnding typeRan
  obtain ⟨body, bodyRan, rfl⟩ := run_map_eq_ok.mp behindType
  obtain ⟨taken, rfl, brace, inside, bodyLevels, -, derived⟩ :=
    (sound_block_branch room).1 _ _ _ _ isEnding bodyRan
  have stands : pub ++ (modifierTokens ++ word :: token :: opening ::
      (paramTokens ++ closing :: (typeTokens ++ (taken ++ rest)))) =
      (pub ++ (modifierTokens ++ word :: token :: opening ::
        (paramTokens ++ closing :: (typeTokens ++ taken)))) ++ rest := by simp
  obtain ⟨first, others, whole⟩ : ∃ first others, pub ++ (modifierTokens ++ word :: token ::
      opening :: (paramTokens ++ closing :: (typeTokens ++ taken))) = first :: others := by
    cases pub <;> cases modifierTokens <;> exact ⟨_, _, rfl⟩
  refine ⟨_, max levels (max typeLevels bodyLevels), stands, ?_⟩
  rw [next_eq_first stands whole, whole]
  exact .fn mark modified begins named opens listed closes typed derived whole

/-- What was read behind `pub` as a struct declares it. -/
theorem run_structDecl_eq_ok {isPub : Bool} {pub : List Token} {declared : StructDecl}
    (isEnding : ending.kind = .ending) (mark : Mark .pubWord pub isPub)
    (ran : (structDecl room isPub (next ending (pub ++ tokens)).position).run ending tokens =
      .ok (declared, rest)) :
    ∃ taken levels, pub ++ tokens = taken ++ rest ∧
      DerivesDecl false taken (.struct declared) levels := by
  obtain ⟨word, later, begins, rfl, behindWord⟩ := run_skip_eq_ok isEnding (by decide) ran
  obtain ⟨name, later, nameRan, behindName⟩ := run_bind_eq_ok.mp behindWord
  obtain ⟨token, named, rfl, rfl⟩ := run_ident_eq_ok isEnding nameRan
  obtain ⟨equals, later, assigned, rfl, behindEquals⟩ :=
    run_skip_eq_ok isEnding (by decide) behindName
  obtain ⟨struct, later, structured, rfl, behindStruct⟩ :=
    run_skip_eq_ok isEnding (by decide) behindEquals
  obtain ⟨opening, later, opens, rfl, behindBrace⟩ :=
    run_skip_eq_ok isEnding (by decide) behindStruct
  obtain ⟨fields, later, fieldsRan, behindFields⟩ := run_bind_eq_ok.mp behindBrace
  obtain ⟨taken, rfl, levels, listed⟩ := sound_items sound_field
    (fun _ _ impossible => nomatch impossible) _ _ _ _ isEnding fieldsRan
  obtain ⟨closing, later, closes, rfl, behindClosing⟩ :=
    run_skip_eq_ok isEnding (by decide) behindFields
  obtain ⟨semicolon, later, ends, rfl, finished⟩ :=
    run_skip_eq_ok isEnding (by decide) behindClosing
  obtain ⟨rfl, rfl⟩ := run_pure_eq_ok.mp finished
  have stands : pub ++ word :: token :: equals :: struct :: opening ::
      (taken ++ closing :: semicolon :: later) =
      (pub ++ word :: token :: equals :: struct :: opening :: (taken ++ [closing, semicolon])) ++
        later := by simp
  obtain ⟨first, others, whole⟩ : ∃ first others, pub ++ word :: token :: equals :: struct ::
      opening :: (taken ++ [closing, semicolon]) = first :: others := by
    cases pub <;> exact ⟨_, _, rfl⟩
  refine ⟨_, levels, stands, ?_⟩
  rw [next_eq_first stands whole, whole]
  exact .struct mark begins named assigned structured opens listed closes ends whole

/-- What was read behind `pub` as a variable declares it. -/
theorem run_varDecl_eq_ok {isPub : Bool} {pub : List Token} {declared : VarDecl}
    (isEnding : ending.kind = .ending) (mark : Mark .pubWord pub isPub)
    (ran : (varDecl room isPub (next ending (pub ++ tokens)).position).run ending tokens =
      .ok (declared, rest)) :
    ∃ taken levels, pub ++ tokens = taken ++ rest ∧
      DerivesDecl false taken (.var declared) levels := by
  obtain ⟨taken, levels, rfl, derived⟩ := sound_varDecl isEnding ran
  have stands : pub ++ (taken ++ rest) = (pub ++ taken) ++ rest := (List.append_assoc ..).symm
  obtain ⟨first, others, whole⟩ : ∃ first others, pub ++ taken = first :: others := by
    obtain ⟨first, later, rfl, -⟩ := derived.starts
    cases pub <;> exact ⟨_, _, rfl⟩
  refine ⟨pub ++ taken, levels, stands, ?_⟩
  rw [next_eq_first stands whole] at derived
  rw [whole]
  exact .var mark derived whole

/-- The tokens that were read as a declaration spell it. -/
theorem sound_decl :
    Sound (decl room) fun tokens value => ∃ levels, DerivesDecl false tokens value levels := by
  intro ending tokens value rest isEnding ran
  obtain ⟨first, middle, looked, behind⟩ := run_bind_eq_ok.mp ran
  obtain ⟨rfl, rfl⟩ := run_peek_eq_ok looked
  obtain ⟨isPub, later, asked, behindPub⟩ := run_bind_eq_ok.mp behind
  obtain ⟨pub, rfl, mark⟩ := sound_take (by decide) _ _ _ _ isEnding asked
  obtain ⟨word, middle, peeked, within⟩ := run_bind_eq_ok.mp behindPub
  obtain ⟨rfl, rfl⟩ := run_peek_eq_ok peeked
  have rearranged {shape : Decl} (found : ∃ taken levels, pub ++ middle = taken ++ rest ∧
      DerivesDecl false taken shape levels) :
      ∃ taken, pub ++ middle = taken ++ rest ∧ ∃ levels, DerivesDecl false taken shape levels := by
    obtain ⟨taken, levels, stands, derived⟩ := found
    exact ⟨taken, stands, levels, derived⟩
  split at within
  · obtain ⟨declared, fnRan, rfl⟩ := run_map_eq_ok.mp within
    exact rearranged (run_fnDecl_eq_ok isEnding mark fnRan)
  · obtain ⟨declared, fnRan, rfl⟩ := run_map_eq_ok.mp within
    exact rearranged (run_fnDecl_eq_ok isEnding mark fnRan)
  · obtain ⟨declared, fnRan, rfl⟩ := run_map_eq_ok.mp within
    exact rearranged (run_fnDecl_eq_ok isEnding mark fnRan)
  · rename_i word
    obtain ⟨isStruct, later, foreseen, chosen⟩ := run_bind_eq_ok.mp within
    have same : later = middle := by
      unfold opensStruct at foreseen
      rw [run_bind_ok (run_peekAt 1), run_bind_ok (run_peekAt 2), run_bind_ok (run_peekAt 3),
        run_pure, Except.ok.injEq, Prod.mk.injEq] at foreseen
      exact foreseen.2.symm
    subst same
    split at chosen
    · obtain ⟨declared, structRan, rfl⟩ := run_map_eq_ok.mp chosen
      exact rearranged (run_structDecl_eq_ok isEnding mark structRan)
    · obtain ⟨declared, varRan, rfl⟩ := run_map_eq_ok.mp chosen
      exact rearranged (run_varDecl_eq_ok isEnding mark varRan)
  · rename_i word
    obtain ⟨declared, varRan, rfl⟩ := run_map_eq_ok.mp within
    exact rearranged (run_varDecl_eq_ok isEnding mark varRan)
  · exact absurd within fail_ne_ok

/-- The kinds of token that a declaration ends in. -/
def EndsDecl (kind : Kind) : Prop :=
  kind = .semicolon ∨ kind = .rightBrace

/-- A declaration has a last token, a semicolon or a brace. -/
theorem ends_decl {value : Decl} {levels : Nat} (derived : DerivesDecl false tokens value levels) :
    ∃ last, tokens.getLast? = some last ∧ EndsDecl last.kind := by
  cases derived with
  | fn _ _ _ _ _ _ _ _ inner whole =>
    cases inner with
    | @braces _ closing _ _ _ _ _ closes =>
      refine ⟨closing, ?_, .inr closes⟩
      rw [← whole]
      simp [List.getLast?_cons]
  | var _ inner whole =>
    cases inner with
    | @intro _ _ closing _ _ _ _ _ _ _ _ _ _ _ ends =>
      refine ⟨closing, ?_, .inl ends⟩
      rw [← whole]
      simp [List.getLast?_cons]
  | struct _ _ _ _ _ _ _ _ ends whole =>
    refine ⟨_, ?_, .inl ends⟩
    rw [← whole]
    simp [List.getLast?_cons]

/-- No tokens spell no declaration. -/
theorem not_derivesDecl_nil (value : Decl) : ¬ ∃ levels, DerivesDecl false [] value levels := by
  rintro ⟨levels, impossible⟩
  obtain ⟨last, none, -⟩ := ends_decl impossible
  cases none

/-- The tokens that were read as a program spell it. -/
theorem sound_program :
    Sound (program room) fun tokens value =>
      ∃ levels, DerivesProgram false tokens value levels := by
  refine sound_manyUntil sound_decl not_derivesDecl_nil ⟨0, .nil⟩ ?_
  rintro before after value values ⟨levels, head⟩ ⟨more, tail⟩
  exact ⟨_, .cons head tail⟩

/-- A program is read up to an end marker. -/
theorem stops_program {value : Program} (isEnding : ending.kind = .ending)
    (ran : (program room).run ending tokens = .ok (value, rest)) :
    (next ending rest).kind = .ending := by
  have stops : ¬ GoesOn [] (next ending rest) :=
    stops_manyUntil sound_decl not_derivesDecl_nil isEnding ran
  simpa [GoesOn] using stops

/-- The last token of a program is that of its last declaration. -/
theorem ends_program {value : Program} {levels : Nat}
    (derived : DerivesProgram false tokens value levels) {last : Token}
    (ends : tokens.getLast? = some last) : EndsDecl last.kind := by
  induction derived with
  | nil => cases ends
  | cons head _ inductionHypothesis =>
    rw [List.getLast?_append] at ends
    rcases Option.or_eq_some_iff.mp ends with later | ⟨-, here⟩
    · exact inductionHypothesis later
    · obtain ⟨other, same, endsDecl⟩ := ends_decl head
      rw [here, Option.some.injEq] at same
      rwa [same]

end SystemsLang.Parser
