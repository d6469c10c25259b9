import SystemsLang.Proofs.Typing.FirstPass

/-!
# What the first pass finds out about known types

What the first pass finds out about a declaration raises no diagnostic exactly if the types in it
are known, and is then what the declaration says. If all types in a program are known, the registry
and the global scope in the end hold what the rules say that structs and global names are.
-/

namespace SystemsLang.Typing

open Syntax Checked

/-- Which names are those of structs decides which type expressions are known. -/
theorem known_congr {first second : String → Option Fields}
    (same : ∀ name, (first name).isSome = (second name).isSome) (type : TypeExpr) :
    Known first type ↔ Known second type := by
  induction type with
  | primitive position name => exact Iff.rfl
  | named position name => rw [Known, Known, same]
  | pointer _ _ _ inductionHypothesis | array _ _ _ inductionHypothesis
  | slice _ _ _ inductionHypothesis | optional _ _ inductionHypothesis
  | errorUnion _ _ inductionHypothesis => exact inductionHypothesis

/-- The types in a list are resolved without a diagnostic if each is. -/
theorem reports_mapM {α β : Type} {step : α → Checked β} {items : List α} :
    (items.mapM step).reports = [] ↔ ∀ item ∈ items, (step item).reports = [] := by
  induction items with
  | nil => simp
  | cons first rest inductionHypothesis => simp [List.mapM_cons, inductionHypothesis]

/-- What is found for a list is what is found for each item. -/
theorem value_mapM {α β : Type} {step : α → Checked β} {items : List α} :
    (items.mapM step).value = items.map fun item => (step item).value := by
  induction items with
  | nil => rfl
  | cons first rest inductionHypothesis => simp [List.mapM_cons, inductionHypothesis]

/-- What a declaration is declared with is known. The fields of a struct do not count. -/
def Stated (structs : String → Option Fields) : Decl → Prop
  | .fn declared =>
    (∀ param ∈ declared.params, Known structs param.type) ∧ Known structs declared.returnType
  | .var declared => ∀ stated ∈ declared.type, Known structs stated
  | .struct _ => True

/-- Parameters are resolved to what their types denote. -/
theorem paramTypes_eq {registry : Registry} {params : List Param}
    (known : ∀ param ∈ params, Known registry.get? param.type) :
    paramTypes registry params = pure (params.map fun param => denoted param.type) := by
  apply Checked.ext
  · rw [paramTypes, value_mapM]
    exact List.map_congr_left fun param member => resolve_eq (known param member)
  · rw [paramTypes, Checked.reports_pure, reports_mapM]
    exact fun param member => resolve_iff.mpr (known param member)

/-- A known type is resolved to what it denotes, without a diagnostic. -/
theorem resolve_of_known {registry : Registry} {type : TypeExpr}
    (known : Known registry.get? type) : registry.resolve type = pure (denoted type) :=
  Checked.ext (resolve_eq known) (resolve_iff.mpr known)

/-- A known written type is resolved to what it denotes, without a diagnostic. -/
theorem mapM_resolve_of_known {registry : Registry} {written : Option TypeExpr}
    (known : ∀ stated ∈ written, Known registry.get? stated) :
    written.mapM registry.resolve = (pure (written.map denoted) : Checked (Option Ty)) :=
  Checked.ext (value_mapM_resolve known) (reports_mapM_resolve.mpr known)

/-- The fields of a struct are resolved without a diagnostic if their types are known and no name
comes up again. -/
theorem reports_fieldTypes {registry : Registry} {earlier : Fields} {fields : List Field} :
    (fieldTypes registry earlier fields).reports = [] ↔
      (∀ field ∈ fields, Known registry.get? field.type) ∧
        (fields.map fun field => field.name.name).Nodup ∧
        ∀ field ∈ fields, earlier.lookup field.name.name = none := by
  induction fields generalizing earlier with
  | nil => simp [fieldTypes]
  | cons field rest inductionHypothesis =>
    rw [fieldTypes, Checked.reports_bind, List.append_eq_nil_iff, resolve_iff, List.forall_mem_cons,
      List.forall_mem_cons, List.map_cons, List.nodup_cons]
    cases found : earlier.lookup field.name.name with
    | some type =>
      constructor
      · rintro ⟨-, reported⟩
        simp [Checked.report] at reported
      · rintro ⟨-, -, absent, -⟩
        cases absent
    | none =>
      have later (type : Ty) : (∀ other ∈ rest,
          (earlier ++ [(field.name.name, type)]).lookup other.name.name = none) ↔
            (∀ other ∈ rest, earlier.lookup other.name.name = none) ∧
              field.name.name ∉ rest.map fun other => other.name.name := by
        constructor
        · intro absent
          refine ⟨fun other member => (lookup_append_eq_none.mp (absent other member)).1, ?_⟩
          intro again
          obtain ⟨other, member, same⟩ := List.mem_map.mp again
          exact (lookup_append_eq_none.mp (absent other member)).2 same
        · rintro ⟨absent, fresh⟩ other member
          have differs : other.name.name ≠ field.name.name := fun same =>
            fresh (List.mem_map.mpr ⟨other, member, same⟩)
          exact lookup_append_eq_none.mpr ⟨absent other member, differs⟩
      have notThere : ¬ (none : Option Ty).isSome = true := Bool.false_ne_true
      rw [if_neg notThere, inductionHypothesis, later]
      constructor
      · rintro ⟨known, restKnown, restDistinct, restFresh, fresh⟩
        exact ⟨⟨known, restKnown⟩, ⟨fresh, restDistinct⟩, rfl, restFresh⟩
      · rintro ⟨⟨known, restKnown⟩, ⟨fresh, restDistinct⟩, -, restFresh⟩
        exact ⟨known, restKnown, restDistinct, restFresh, fresh⟩

/-- Fields that raise no diagnostic are found with the types that they are declared with. -/
theorem value_fieldTypes {registry : Registry} {earlier : Fields} {fields : List Field}
    (quiet : (fieldTypes registry earlier fields).reports = []) :
    (fieldTypes registry earlier fields).value =
      earlier ++ fields.map fun field => (field.name.name, denoted field.type) := by
  induction fields generalizing earlier with
  | nil => simp [fieldTypes]
  | cons field rest inductionHypothesis =>
    obtain ⟨known, -, fresh⟩ := reports_fieldTypes.mp quiet
    have absent : ¬ (earlier.lookup field.name.name).isSome = true := by
      rw [fresh field List.mem_cons_self]
      exact Bool.false_ne_true
    have follows : fieldTypes registry earlier (field :: rest) =
        fieldTypes registry (earlier ++ [(field.name.name, denoted field.type)]) rest := by
      rw [fieldTypes, resolve_of_known (known field List.mem_cons_self), pure_bind, if_neg absent]
    rw [follows] at quiet ⊢
    rw [inductionHypothesis quiet]
    simp

/-- A struct is in order if its fields are resolved without a diagnostic. -/
theorem structOk_iff {registry : Registry} {declared : StructDecl} :
    StructOk registry.get? declared ↔ (fieldTypes registry [] declared.fields).reports = [] := by
  rw [reports_fieldTypes]
  constructor
  · rintro ⟨known, distinct⟩
    exact ⟨known, distinct, fun _ _ => rfl⟩
  · rintro ⟨known, distinct, -⟩
    exact ⟨known, distinct⟩

/-- Which names are those of structs decides which structs are in order. -/
theorem structOk_congr {first second : String → Option Fields}
    (same : ∀ name, (first name).isSome = (second name).isSome) (declared : StructDecl) :
    StructOk first declared ↔ StructOk second declared := by
  constructor
  · rintro ⟨known, distinct⟩
    exact ⟨fun field member => (known_congr same _).mp (known field member), distinct⟩
  · rintro ⟨known, distinct⟩
    exact ⟨fun field member => (known_congr same _).mpr (known field member), distinct⟩

/-- What the second pass is given for a declaration whose types are known. -/
def enteredOf : Decl → Entered
  | .fn declared =>
    .fn declared (declared.params.map fun param => denoted param.type) (denoted declared.returnType)
  | .var declared => .var declared (declared.type.map denoted)
  | .struct declared => .struct declared

/-- What is found out about a declaration raises no diagnostic if what it is declared with is
known. -/
theorem reports_entered {registry : Registry} {declared : Decl} :
    (registry.entered declared).reports = [] ↔ Stated registry.get? declared := by
  cases declared with
  | fn declared =>
    simp [Registry.entered, paramTypes, reports_mapM, resolve_iff, Stated]
  | var declared => simp [Registry.entered, reports_mapM_resolve, Stated]
  | struct declared => simp [Registry.entered, Stated]

/-- It is then what the declaration says. -/
theorem value_entered {registry : Registry} {declared : Decl}
    (stated : Stated registry.get? declared) :
    (registry.entered declared).value = enteredOf declared := by
  cases declared with
  | fn declared =>
    rw [Registry.entered, paramTypes_eq stated.1, resolve_of_known stated.2]
    rfl
  | var declared =>
    rw [Registry.entered, mapM_resolve_of_known stated]
    rfl
  | struct declared => rfl

/-- The registry with the structs of a program and their fields. What was entered first is still
there behind it. -/
def registryOf (program : Program) : Registry :=
  ⟨((structDecls program).map fun declared =>
      (declared.name.name, declaredFields declared)).reverse ++
    ((structDecls program).map fun declared => (declared.name.name, [])).reverse⟩

/-- The global scope with the names of a program: the functions and variables, and behind them the
structs. -/
def globalOf (program : Program) : Scope :=
  ((otherDecls program).map entryOf).reverse ++
    ((structDecls program).map fun declared => entryOf (.struct declared)).reverse

/-- If the structs are in order, the registry has what they are declared with. -/
theorem resolvedOf_eq {program : Program}
    (structs : ∀ declared ∈ structDecls program, StructOk (namedOf program).get? declared) :
    resolvedOf program = registryOf program := by
  unfold resolvedOf registryOf
  congr 2
  refine congrArg List.reverse (List.map_congr_left fun declared member => ?_)
  have quiet := structOk_iff.mp (structs declared member)
  rw [value_fieldTypes quiet]
  rfl

/-- If what the declarations are declared with is known, what is entered is what they say. -/
theorem scopeOf_eq {program : Program}
    (stated : ∀ declared ∈ program, Stated (resolvedOf program).get? declared) :
    scopeOf program = globalOf program := by
  unfold scopeOf globalOf
  congr 2
  refine List.map_congr_left fun declared member => ?_
  have known := stated declared (List.mem_filter.mp member).1
  rw [foundIn, value_entered known]
  cases declared <;> rfl

/-- A declaration is the struct of a name if it declares that struct. -/
theorem structOf?_eq_some {name : String} {declared : Decl} {struct : StructDecl} :
    structOf? name declared = some struct ↔
      declared = .struct struct ∧ struct.name.name = name := by
  cases declared with
  | struct other =>
    unfold structOf?
    by_cases same : other.name.name = name
    · simp only [if_pos same, Option.some.injEq, Decl.struct.injEq]
      constructor
      · rintro rfl
        exact ⟨rfl, same⟩
      · exact And.left
    · simp only [if_neg same, Decl.struct.injEq]
      constructor
      · intro impossible
        cases impossible
      · rintro ⟨rfl, named⟩
        exact absurd named same
  | fn other | var other => simp [structOf?]

/-- A struct that a program declares has the fields that it is declared with. -/
theorem structsOf_of_mem {program : Program} {declared : StructDecl}
    (distinct : (program.map fun declared => declared.name.name).Nodup)
    (member : declared ∈ structDecls program) :
    structsOf program declared.name.name = some (declaredFields declared) := by
  have here : Decl.struct declared ∈ program := mem_structDecls.mp member
  unfold structsOf
  cases found : program.findSome? (structOf? declared.name.name) with
  | none =>
    have missed := List.findSome?_eq_none_iff.mp found _ here
    rw [structOf?_eq_some.mpr ⟨rfl, rfl⟩] at missed
    cases missed
  | some other =>
    obtain ⟨head, there, isOther⟩ := List.exists_of_findSome?_eq_some found
    obtain ⟨rfl, same⟩ := structOf?_eq_some.mp isOther
    obtain rfl := eq_of_same_struct distinct (mem_structDecls.mpr there) member same
    rfl

/-- What no struct of a program is named is not the name of a struct. -/
theorem structsOf_of_absent {program : Program} {name : String}
    (absent : ∀ declared ∈ structDecls program, declared.name.name ≠ name) :
    structsOf program name = none := by
  unfold structsOf
  cases found : program.findSome? (structOf? name) with
  | none => rfl
  | some declared =>
    obtain ⟨head, there, isStruct⟩ := List.exists_of_findSome?_eq_some found
    obtain ⟨rfl, same⟩ := structOf?_eq_some.mp isStruct
    exact absurd same (absent declared (mem_structDecls.mpr there))

/-- The registry in the end holds the structs of the program. -/
theorem get?_registryOf {program : Program}
    (distinct : (program.map fun declared => declared.name.name).Nodup) :
    (registryOf program).get? = structsOf program := by
  funext name
  unfold registryOf Registry.get?
  rw [List.lookup_append]
  by_cases named : ∃ declared ∈ structDecls program, declared.name.name = name
  · obtain ⟨declared, member, rfl⟩ := named
    have found : (((structDecls program).map fun declared =>
        (declared.name.name, declaredFields declared)).reverse).lookup declared.name.name =
          some (declaredFields declared) := by
      apply lookup_of_unique
      · rw [List.mem_reverse]
        exact List.mem_map.mpr ⟨declared, member, rfl⟩
      · intro fields there
        obtain ⟨other, otherMember, same⟩ := List.mem_map.mp (List.mem_reverse.mp there)
        have sameName : other.name.name = declared.name.name := congrArg Prod.fst same
        obtain rfl := eq_of_same_struct distinct otherMember member sameName
        exact (congrArg Prod.snd same).symm
    rw [found, structsOf_of_mem distinct member]
    rfl
  · have absent : ∀ declared ∈ structDecls program, declared.name.name ≠ name :=
      fun declared member same => named ⟨declared, member, same⟩
    rw [structsOf_of_absent absent, lookup_of_absent, lookup_of_absent]
    · rfl
    · intro entry member
      obtain ⟨declared, there, rfl⟩ := List.mem_map.mp (List.mem_reverse.mp member)
      exact absent declared there
    · intro entry member
      obtain ⟨declared, there, rfl⟩ := List.mem_map.mp (List.mem_reverse.mp member)
      exact absent declared there

/-- The global scope in the end holds one entry for each declaration. -/
theorem mem_globalOf {program : Program} {entry : String × Symbol} :
    entry ∈ globalOf program ↔ ∃ declared ∈ program, entryOf declared = entry :=
  mem_entries

/-- The global scope in the end holds a symbol for each declaration, which is not declared yet. -/
theorem lookup_globalOf {program : Program} {declared : Decl}
    (distinct : (program.map fun declared => declared.name.name).Nodup)
    (member : declared ∈ program) :
    (globalOf program).lookup declared.name.name = some (entryOf declared).2 :=
  lookup_entries distinct (fun _ => rfl) member

/-- The global scope in the end stands for what the rules bind the global names to. -/
theorem frameOf_globalOf {program : Program}
    (distinct : (program.map fun declared => declared.name.name).Nodup) :
    frameOf (globalOf program) = globalsOf program := by
  funext name
  unfold frameOf globalsOf
  cases found : program.find? fun declared => declared.name.name = name with
  | none =>
    have absent : ∀ entry ∈ globalOf program, entry.1 ≠ name := by
      intro entry member same
      obtain ⟨declared, there, rfl⟩ := mem_globalOf.mp member
      exact List.find?_eq_none.mp found declared there (decide_eq_true same)
    rw [lookup_of_absent absent]
    rfl
  | some declared =>
    have member : declared ∈ program := List.mem_of_find?_eq_some found
    have named := List.find?_some found
    obtain rfl : declared.name.name = name := of_decide_eq_true named
    rw [lookup_globalOf distinct member]
    rfl

end SystemsLang.Typing
