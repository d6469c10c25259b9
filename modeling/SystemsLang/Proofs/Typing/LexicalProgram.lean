import SystemsLang.Proofs.Typing.LexicalDecl

/-!
# Names in the two passes

The first pass enters all global names before any is declared, and what it reports of a lexical kind
are the fields that repeat a name in the first struct of theirs. The second pass then finds every
name entered, and declared exactly if a declaration of it was reached before (`Midway`).
-/

namespace SystemsLang.Typing

open Syntax Checker

variable {registry : Registry} {scopes : Scopes} {program : Program} {names : List String}
  {global after : Scope}

/-- A struct is not defined if there is one of its name. -/
theorem define?_eq_none {name : String} :
    registry.define? name = none ↔ registry.has name = true := by
  unfold Registry.define?
  cases registry.has name <;> simp

/-- No scope is open, the given names are entered in the global one, and none is declared yet. -/
structure Ahead (names : List String) (scopes : Scopes) : Prop where
  opened : scopes.opened = []
  entered : ∀ name ∈ names, (scopes.global.lookup name).isSome = true
  undeclared : ∀ name, ∀ symbol ∈ scopes.global.lookup name, symbol.declared = false

namespace Ahead

/-- Fewer names are still ahead. -/
theorem of_subset {fewer : List String} (ahead : Ahead names scopes) (subset : fewer ⊆ names) :
    Ahead fewer scopes :=
  ⟨ahead.opened, fun name member => ahead.entered name (subset member), ahead.undeclared⟩

/-- A name that is entered is there then, besides those that were there before. -/
theorem enter (ahead : Ahead names scopes) (name : Ident) (type : Ty) (role : Role)
    (isConst : Bool) : Ahead (name.name :: names) (scopes.enter name type role isConst) := by
  obtain ⟨opened, global⟩ := scopes
  obtain ⟨isEmpty, entered, undeclared⟩ := ahead
  obtain rfl : opened = [] := isEmpty
  dsimp only at entered undeclared
  have looked : Scopes.lookup? ⟨[], global⟩ name.name = global.lookup name.name :=
    List.findSome?_singleton
  unfold Scopes.enter
  rw [looked]
  split
  · rename_i already
    exact ⟨rfl, List.forall_mem_cons.mpr ⟨already, entered⟩, undeclared⟩
  · refine ⟨rfl, fun other member => ?_, fun other symbol found => ?_⟩
    · dsimp only [Scopes.insert]
      rw [List.lookup_cons]
      split
      · rfl
      · rename_i differs
        refine entered other ((List.mem_cons.mp member).resolve_left fun same => ?_)
        rw [same, beq_self_eq_true] at differs
        cases differs
    · dsimp only [Scopes.insert] at found
      rw [List.lookup_cons] at found
      split at found
      · exact Option.some.inj found ▸ rfl
      · exact undeclared other symbol found

/-- Every struct is entered. A second one of its name is not, but then the name is there. -/
theorem defineStructs (ahead : Ahead names scopes)
    (defined : ∀ name, registry.has name = true → name ∈ names) :
    Ahead (names ++ (structDecls program).map fun declared => declared.name.name)
      (defineStructs registry scopes program).2.1 := by
  induction program generalizing registry scopes names with
  | nil => exact ahead.of_subset (by simp [structDecls])
  | cons first rest inductionHypothesis =>
    cases first with
    | fn declared | var declared => exact inductionHypothesis ahead defined
    | struct declared =>
      rw [Typing.defineStructs]
      dsimp only
      cases defines : registry.define? declared.name.name with
      | some extended =>
        have stillDefined (name : String) (has : extended.has name = true) :
            name ∈ declared.name.name :: names := by
          rcases (has_of_define? defines).mp has with rfl | before
          · exact List.mem_cons_self
          · exact List.mem_cons_of_mem _ (defined name before)
        refine (inductionHypothesis (ahead.enter declared.name _ _ _) stillDefined).of_subset ?_
        exact List.perm_middle.subset
      | none =>
        have already : declared.name.name ∈ names := defined _ (define?_eq_none.mp defines)
        refine (inductionHypothesis ahead defined).of_subset (List.append_subset.mpr ⟨?_, ?_⟩)
        · exact List.subset_append_left _ _
        · exact List.cons_subset.mpr
            ⟨List.mem_append_left _ already, List.subset_append_right _ _⟩

/-- So is everything else. -/
theorem enterDecls (ahead : Ahead names scopes) :
    Ahead (names ++ (otherDecls program).map fun declared => declared.name.name)
      (enterDecls registry scopes program).value.1 := by
  induction program generalizing scopes names with
  | nil => exact ahead.of_subset (by simp [otherDecls])
  | cons first rest inductionHypothesis =>
    cases first with
    | struct declared => exact inductionHypothesis ahead
    | fn declared | var declared =>
      refine (inductionHypothesis (ahead.enter declared.name _ _ _)).of_subset ?_
      exact List.perm_middle.subset

end Ahead

/-- Before the second pass, the global scope has all names of a program and declares none. -/
theorem ahead_program (registry : Registry) (program : Program) :
    Ahead (program.map fun declared => declared.name.name)
      (enterDecls registry (defineStructs Registry.empty Scopes.empty program).2.1
        program).value.1 := by
  have nothing : Ahead [] Scopes.empty := ⟨rfl, nofun, nofun⟩
  have structs : Ahead _ (defineStructs Registry.empty Scopes.empty program).2.1 :=
    nothing.defineStructs nofun
  refine structs.enterDecls.of_subset fun name member => ?_
  have found : name ∈ ((otherDecls program).map fun declared => declared.name.name).reverse ++
      ((structDecls program).map fun declared => declared.name.name).reverse :=
    mem_entries.mpr (List.mem_map.mp member)
  rw [List.mem_append, List.mem_reverse, List.mem_reverse] at found
  exact List.mem_append.mpr found.symm

/-- Something is found under the names of the entries. -/
theorem isSome_lookup_iff {α : Type} {entries : List (String × α)} {name : String} :
    (entries.lookup name).isSome = true ↔ name ∈ entries.map Prod.fst := by
  rw [List.lookup_isSome_iff, List.mem_map]
  exact exists_congr fun entry => and_congr_right fun _ => beq_iff_eq.trans eq_comm

/-- Of the fields of a struct, those that repeat a name are reported. -/
theorem lexical_fieldTypes (registry : Registry) (earlier : Fields) (fields : List Field) :
    lexical (fieldTypes registry earlier fields).reports =
      (repeated (earlier.map Prod.fst) (fields.map Field.name)).map duplicateAt := by
  induction fields generalizing earlier with
  | nil => rfl
  | cons field rest inductionHypothesis =>
    rw [fieldTypes, List.map_cons, repeated]
    simp only [← isSome_lookup_iff]
    split <;> simp [lexical_resolve, inductionHypothesis, duplicateAt]

/-- So it is in every struct that is given its fields. -/
theorem lexical_defineFields {defined : List StructDecl} {final : Registry}
    {reports : List Diagnostic} (defines : defineFields registry defined = .ok (final, reports)) :
    lexical reports = defined.flatMap fun declared =>
      (repeated [] (declared.fields.map Field.name)).map duplicateAt := by
  induction defined generalizing registry reports with
  | nil =>
    cases defines
    rfl
  | cons declared rest inductionHypothesis =>
    rw [defineFields] at defines
    simp only [bind, Except.bind] at defines
    split at defines
    · cases defines
    · split at defines
      · cases defines
      · rename_i later ran
        cases defines
        rw [lexical_append, lexical_fieldTypes, List.flatMap_cons, inductionHypothesis ran]
        rfl

/-- The structs that are given fields are the first ones of their names. -/
theorem defineStructs_eq_firstStructs (defined : ∀ name, registry.has name = true ↔ name ∈ names) :
    (defineStructs registry scopes program).2.2 = firstStructs names program := by
  induction program generalizing registry scopes names with
  | nil => rfl
  | cons first rest inductionHypothesis =>
    cases first with
    | fn declared | var declared => exact inductionHypothesis defined
    | struct declared =>
      rw [defineStructs, firstStructs]
      dsimp only
      cases defines : registry.define? declared.name.name with
      | none =>
        rw [if_pos ((defined _).mp (define?_eq_none.mp defines))]
        exact inductionHypothesis defined
      | some extended =>
        have fresh : declared.name.name ∉ names := by
          rw [← defined, ← define?_eq_none, defines]
          exact Option.some_ne_none extended
        have grown (name : String) :
            extended.has name = true ↔ name ∈ names ++ [declared.name.name] := by
          rw [has_of_define? defines, defined, List.mem_append, List.mem_singleton, or_comm]
        rw [if_neg fresh]
        exact congrArg _ (inductionHypothesis grown)

/-- Resolving the types of parameters raises nothing lexical. -/
theorem lexical_paramTypes (registry : Registry) (params : List Param) :
    lexical (paramTypes registry params).reports = [] := by
  unfold paramTypes
  induction params with
  | nil => rfl
  | cons param rest inductionHypothesis =>
    simp [List.mapM_cons, lexical_resolve, inductionHypothesis]

/-- What declarations are declared with is only resolved. -/
theorem lexical_enterDecls (registry : Registry) (scopes : Scopes) (program : Program) :
    lexical (enterDecls registry scopes program).reports = [] := by
  induction program generalizing scopes with
  | nil => rfl
  | cons first rest inductionHypothesis =>
    cases first with
    | struct declared => simpa [enterDecls] using inductionHypothesis scopes
    | var declared => simp [enterDecls, lexical_mapM_resolve, inductionHypothesis]
    | fn declared =>
      simp [enterDecls, lexical_paramTypes, lexical_resolve, inductionHypothesis]

/-- The global scope while declarations are still to be reached: their names are there, and those
are declared that were reached before. -/
def Midway (program : Program) (earlier : List String) (global : Scope) : Prop :=
  ∀ declared ∈ program, ∃ symbol, global.lookup declared.name.name = some symbol ∧
    (symbol.declared = true ↔ declared.name.name ∈ earlier)

/-- Before the second pass no declaration was reached. -/
theorem Ahead.midway (ahead : Ahead (program.map fun declared => declared.name.name) scopes) :
    Midway program [] scopes.global := by
  intro declared member
  have entered := ahead.entered _ (List.mem_map.mpr ⟨declared, member, rfl⟩)
  obtain ⟨symbol, found⟩ := Option.isSome_iff_exists.mp entered
  refine ⟨symbol, found, ?_⟩
  simp [ahead.undeclared _ symbol found]

/-- With the declaration that is reached its name is one of those that were. -/
theorem Midway.reached {first : Decl} {rest : Program} {earlier seen : List String}
    (midway : Midway (first :: rest) earlier global) (reached : Reached first global after)
    (sees : ∀ name, name ∈ seen ↔ name ∈ earlier ∨ name = first.name.name) :
    Midway rest seen after := by
  intro declared member
  obtain ⟨symbol, found, known⟩ := midway declared (List.mem_cons_of_mem _ member)
  by_cases same : declared.name.name = first.name.name
  · rw [same, sees]
    have marked := reached.marked
    cases now : after.lookup first.name.name with
    | none =>
      rw [now] at marked
      cases marked
    | some symbol =>
      rw [now] at marked
      exact ⟨symbol, rfl, iff_of_true marked (.inr rfl)⟩
  · refine ⟨symbol, (reached.others _ same).trans found, ?_⟩
    rw [known, sees]
    simp [same]

/-- The first of several names is repeated if it was declared before; the others are if they were
declared before or by the first. -/
theorem repeated_cons {earlier : List String} {first : Ident} {symbol : Symbol}
    (known : symbol.declared = true ↔ first.name ∈ earlier) (rest : List Ident) :
    ∃ seen, (∀ name, name ∈ seen ↔ name ∈ earlier ∨ name = first.name) ∧
      (repeated earlier (first :: rest)).map duplicateAt =
        alreadyDeclared first symbol ++ (repeated seen rest).map duplicateAt := by
  unfold alreadyDeclared
  rw [repeated]
  by_cases before : first.name ∈ earlier
  · refine ⟨earlier, fun name => (or_iff_left_of_imp ?_).symm, ?_⟩
    · rintro rfl
      exact before
    · rw [if_pos before, if_pos (known.mpr before)]
      rfl
  · refine ⟨earlier ++ [first.name], fun name => ?_, ?_⟩
    · rw [List.mem_append, List.mem_singleton]
    · rw [if_neg before, if_neg (mt known.mp before)]
      rfl

end SystemsLang.Typing
