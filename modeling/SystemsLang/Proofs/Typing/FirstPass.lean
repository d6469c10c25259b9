import Mathlib.Data.List.Nodup
import SystemsLang.Proofs.Typing.Frames
import SystemsLang.Proofs.Typing.Views

/-!
# What the first pass finds out

The first pass fills the registry and the global scope in stages: the structs by name, then their
fields, then the functions and variables with what they are declared with. If the names of a program
are distinct, no declaration gets in the way of another. Then every stage is given in closed form
whatever it reports: what it finds out about a declaration depends only on that declaration and on
the names of the structs, and its diagnostics are those of the single declarations one after the
other (`raised_eq`).
-/

namespace SystemsLang.Typing

open Syntax Checked

variable {first second : Registry}

/-- An entry of another name is passed over. -/
theorem lookup_cons_of_ne {α : Type} {name other : String} (differs : other ≠ name) (value : α)
    (entries : List (String × α)) :
    ((name, value) :: entries).lookup other = entries.lookup other := by
  rw [List.lookup_cons, beq_false_of_ne differs]

/-- Nothing is found under a name if nothing is before the last entry and that has another name. -/
theorem lookup_append_eq_none {α : Type} {entries : List (String × α)} {name other : String}
    {value : α} :
    (entries ++ [(name, value)]).lookup other = none ↔
      entries.lookup other = none ∧ other ≠ name := by
  rw [List.lookup_append, Option.or_eq_none_iff]
  refine and_congr_right fun _ => ?_
  by_cases same : other = name
  · simp [same]
  · simp [lookup_cons_of_ne same, same]

/-- What is there under a name and nothing else is there under it is found. -/
theorem lookup_of_unique {α : Type} {entries : List (String × α)} {name : String} {value : α}
    (member : (name, value) ∈ entries)
    (unique : ∀ other, (name, other) ∈ entries → other = value) :
    entries.lookup name = some value := by
  cases found : entries.lookup name with
  | none =>
    have absent := List.lookup_eq_none_iff.mp found (name, value) member
    simp at absent
  | some other => rw [unique other (mem_of_lookup found)]

/-- Nothing is found under a name that no entry has. -/
theorem lookup_of_absent {α : Type} {entries : List (String × α)} {name : String}
    (absent : ∀ entry ∈ entries, entry.1 ≠ name) : entries.lookup name = none := by
  rw [List.lookup_eq_none_iff]
  intro entry member
  exact bne_iff_ne.mpr fun same => absent entry member same.symm

/-- What is found among several entries is there under a name that one of them has. -/
theorem isSome_lookup_reverse {α β : Type} {items : List α} {key : α → String} {value : α → β}
    {name : String} :
    ((items.map fun item => (key item, value item)).reverse.lookup name).isSome = true ↔
      ∃ item ∈ items, key item = name := by
  constructor
  · intro found
    obtain ⟨result, isFound⟩ := Option.isSome_iff_exists.mp found
    obtain ⟨item, member, same⟩ := List.mem_map.mp (List.mem_reverse.mp (mem_of_lookup isFound))
    exact ⟨item, member, congrArg Prod.fst same⟩
  · rintro ⟨item, member, named⟩
    rw [Option.isSome_iff_ne_none]
    intro missed
    have entry : (key item, value item) ∈
        (items.map fun item => (key item, value item)).reverse :=
      List.mem_reverse.mpr (List.mem_map.mpr ⟨item, member, rfl⟩)
    have differs := List.lookup_eq_none_iff.mp missed _ entry
    simp [named] at differs

/-- What a declaration is declared with, resolved. -/
def Registry.entered (registry : Registry) : Decl → Checked Entered
  | .fn declared => do
    let params ← paramTypes registry declared.params
    let result ← registry.resolve declared.returnType
    return .fn declared params result
  | .var declared => do
    let stated ← declared.type.mapM registry.resolve
    return .var declared stated
  | .struct declared => return .struct declared

/-- The name of a declaration that the second pass is given. -/
def Entered.name : Entered → Ident
  | .fn declared _ _ => declared.name
  | .var declared _ => declared.name
  | .struct declared => declared.name

/-- What is entered for a declaration ahead of it. -/
def Entered.symbol : Entered → Symbol
  | .fn declared params result =>
    ⟨.function params result, .function, true, false, declared.name.position⟩
  | .var declared stated =>
    ⟨stated.getD .unknown, .var, declared.isConst, false, declared.name.position⟩
  | .struct declared =>
    ⟨.struct declared.name.name, .struct, true, false, declared.name.position⟩

/-- The entry of a declaration in the global scope. -/
def Entered.entry (entered : Entered) : String × Symbol :=
  (entered.name.name, entered.symbol)

/-- A declaration keeps its name. -/
@[simp] theorem name_entered (registry : Registry) (declared : Decl) :
    (registry.entered declared).value.name = declared.name := by
  cases declared <;> rfl

/-- The name of a declaration is entered with what was found out about it, if nothing else has that
name. -/
theorem enter_entry {global : Scope} (entered : Entered)
    (absent : global.lookup entered.name.name = none) :
    Scopes.enter ⟨[], global⟩ entered.name entered.symbol.type entered.symbol.role
      entered.symbol.isConst = ⟨[], entered.entry :: global⟩ := by
  have notThere : Scopes.lookup? ⟨[], global⟩ entered.name.name = none := by
    simp [Scopes.lookup?, absent]
  rw [Scopes.enter, notThere]
  cases entered <;> rfl

/-- Which structs are defined decides what is found out about a declaration. -/
theorem entered_congr (same : ∀ name, first.has name = second.has name) (declared : Decl) :
    first.entered declared = second.entered declared := by
  have resolved : first.resolve = second.resolve := funext fun type => resolve_congr same type
  cases declared with
  | fn declared => rw [Registry.entered, Registry.entered, paramTypes, paramTypes, resolved]
  | var declared => rw [Registry.entered, Registry.entered, resolved]
  | struct declared => rfl

/-- It decides what the types of fields are as well. -/
theorem fieldTypes_congr (same : ∀ name, first.has name = second.has name) (earlier : Fields)
    (fields : List Field) : fieldTypes first earlier fields = fieldTypes second earlier fields := by
  induction fields generalizing earlier with
  | nil => rfl
  | cons field rest inductionHypothesis =>
    rw [fieldTypes, fieldTypes, resolve_congr same]
    simp only [inductionHypothesis]

/-- The struct that a declaration declares, if it declares one. -/
def structDecl? : Decl → Option StructDecl
  | .struct declared => some declared
  | _ => none

/-- The structs that a program declares, in order. -/
def structDecls (program : Program) : List StructDecl :=
  program.filterMap structDecl?

/-- The other declarations of a program, in order. -/
def otherDecls (program : Program) : List Decl :=
  program.filter fun declared => (structDecl? declared).isNone

/-- The role of the name of a declaration. -/
def roleOf : Decl → Role
  | .fn _ => .function
  | .var _ => .var
  | .struct _ => .struct

/-- What is entered for a declaration ahead of it. -/
def entryOf (declared : Decl) : String × Symbol :=
  (declared.name.name, ⟨(bindingOf declared).type, roleOf declared, (bindingOf declared).isConst,
    false, declared.name.position⟩)

/-- The structs of a program are those whose declarations are in it. -/
theorem mem_structDecls {program : Program} {declared : StructDecl} :
    declared ∈ structDecls program ↔ .struct declared ∈ program := by
  unfold structDecls
  rw [List.mem_filterMap]
  constructor
  · rintro ⟨head, member, same⟩
    cases head with
    | struct other =>
      obtain rfl := Option.some.inj same
      exact member
    | fn other | var other => cases same
  · intro member
    exact ⟨_, member, rfl⟩

/-- Two structs of one name in a program are the same if the names are distinct. -/
theorem eq_of_same_struct {program : Program}
    (distinct : (program.map fun declared => declared.name.name).Nodup) {first second : StructDecl}
    (here : first ∈ structDecls program) (there : second ∈ structDecls program)
    (same : first.name.name = second.name.name) : first = second :=
  Decl.struct.inj (List.inj_on_of_nodup_map distinct (mem_structDecls.mp here)
    (mem_structDecls.mp there) same)

/-- The first stage defines the structs of a program without fields and enters their names, if
nothing else has these names. -/
theorem defineStructs_eq {structs : List (String × Fields)} {global : Scope} {program : Program}
    (distinct : (program.map fun declared => declared.name.name).Nodup)
    (undefined : ∀ declared ∈ program, structs.lookup declared.name.name = none)
    (unused : ∀ declared ∈ program, global.lookup declared.name.name = none) :
    defineStructs ⟨structs⟩ ⟨[], global⟩ program =
      (⟨((structDecls program).map fun declared => (declared.name.name, [])).reverse ++ structs⟩,
        ⟨[], ((structDecls program).map fun declared => entryOf (.struct declared)).reverse ++
          global⟩, structDecls program) := by
  induction program generalizing structs global with
  | nil => rfl
  | cons head rest inductionHypothesis =>
    rw [List.map_cons, List.nodup_cons] at distinct
    obtain ⟨notAgain, distinct⟩ := distinct
    obtain ⟨headUndefined, restUndefined⟩ := List.forall_mem_cons.mp undefined
    obtain ⟨headUnused, restUnused⟩ := List.forall_mem_cons.mp unused
    cases head with
    | fn declared | var declared => exact inductionHypothesis distinct restUndefined restUnused
    | struct declared =>
      have defined : Registry.define? ⟨structs⟩ declared.name.name =
          some ⟨(declared.name.name, []) :: structs⟩ := by
        have absent : structs.lookup declared.name.name = none := headUndefined
        simp [Registry.define?, Registry.has, Registry.get?, absent]
      have entered : Scopes.enter ⟨[], global⟩ declared.name (.struct declared.name.name) .struct
          true = ⟨[], entryOf (.struct declared) :: global⟩ :=
        enter_entry (.struct declared) headUnused
      have differs : ∀ other ∈ rest, other.name.name ≠ declared.name.name :=
        fun other member same => notAgain (List.mem_map.mpr ⟨other, member, same⟩)
      have stillUndefined : ∀ other ∈ rest,
          ((declared.name.name, []) :: structs).lookup other.name.name = none := by
        intro other member
        rw [lookup_cons_of_ne (differs other member)]
        exact restUndefined other member
      have stillUnused : ∀ other ∈ rest,
          (entryOf (.struct declared) :: global).lookup other.name.name = none := by
        intro other member
        have passed :=
          lookup_cons_of_ne (differs other member) (entryOf (.struct declared)).2 global
        exact passed.trans (restUnused other member)
      rw [defineStructs]
      simp only [defined, entered, inductionHypothesis distinct stillUndefined stillUnused]
      simp [structDecls, structDecl?]

/-- In the first stage nothing has the names yet. -/
theorem defineStructs_of_distinct {program : Program}
    (distinct : (program.map fun declared => declared.name.name).Nodup) :
    defineStructs Registry.empty Scopes.empty program =
      (⟨((structDecls program).map fun declared => (declared.name.name, [])).reverse⟩,
        ⟨[], ((structDecls program).map fun declared => entryOf (.struct declared)).reverse⟩,
        structDecls program) := by
  have fromNothing := defineStructs_eq distinct
    (fun declared _ => (rfl : ([] : List (String × Fields)).lookup declared.name.name = none))
    (fun declared _ => (rfl : ([] : Scope).lookup declared.name.name = none))
  rwa [List.append_nil, List.append_nil] at fromNothing

/-- No struct has the name of a function or variable. -/
theorem lookup_structs_of_other {program : Program}
    (distinct : (program.map fun declared => declared.name.name).Nodup) :
    ∀ declared ∈ otherDecls program,
      ((structDecls program).map fun declared => entryOf (.struct declared)).reverse.lookup
        declared.name.name = none := by
  intro declared member
  obtain ⟨there, other⟩ := List.mem_filter.mp member
  apply lookup_of_absent
  intro entry isEntry same
  obtain ⟨struct, isStruct, rfl⟩ := List.mem_map.mp (List.mem_reverse.mp isEntry)
  have equal := List.inj_on_of_nodup_map distinct (mem_structDecls.mp isStruct) there same
  rw [← equal] at other
  cases other

/-- Among entries for the functions and variables of a program and for its structs, there is one for
each declaration. -/
theorem mem_entries {α : Type} {program : Program} {entry : Decl → α} {value : α} :
    value ∈ ((otherDecls program).map entry).reverse ++
        ((structDecls program).map fun declared => entry (.struct declared)).reverse ↔
      ∃ declared ∈ program, entry declared = value := by
  rw [List.mem_append, List.mem_reverse, List.mem_reverse, List.mem_map, List.mem_map]
  constructor
  · rintro (⟨declared, member, same⟩ | ⟨declared, member, same⟩)
    · exact ⟨declared, (List.mem_filter.mp member).1, same⟩
    · exact ⟨.struct declared, mem_structDecls.mp member, same⟩
  · rintro ⟨declared, member, same⟩
    cases declared with
    | struct declared => exact .inr ⟨declared, mem_structDecls.mpr member, same⟩
    | fn declared | var declared => exact .inl ⟨_, List.mem_filter.mpr ⟨member, rfl⟩, same⟩

/-- With distinct names the entry of a declaration is found under its name. -/
theorem lookup_entries {α : Type} {program : Program} {entry : Decl → String × α} {declared : Decl}
    (distinct : (program.map fun declared => declared.name.name).Nodup)
    (named : ∀ declared, (entry declared).1 = declared.name.name) (member : declared ∈ program) :
    (((otherDecls program).map entry).reverse ++
        ((structDecls program).map fun declared => entry (.struct declared)).reverse).lookup
      declared.name.name = some (entry declared).2 := by
  apply lookup_of_unique
  · exact mem_entries.mpr ⟨declared, member, by rw [← named]⟩
  · intro value there
    obtain ⟨other, otherMember, same⟩ := mem_entries.mp there
    have sameName : other.name.name = declared.name.name :=
      (named other).symm.trans (congrArg Prod.fst same)
    obtain rfl := List.inj_on_of_nodup_map distinct otherMember member sameName
    exact (congrArg Prod.snd same).symm

/-- Fields that a defined struct is given make no further name that of a struct. -/
theorem isSome_get?_of_defined {structs : List (String × Fields)} {struct : String}
    (defined : (structs.lookup struct).isSome = true) (fields : Fields) (name : String) :
    (Registry.get? ⟨(struct, fields) :: structs⟩ name).isSome =
      (Registry.get? ⟨structs⟩ name).isSome := by
  unfold Registry.get?
  by_cases same : name = struct
  · simp [same, defined]
  · rw [lookup_cons_of_ne same]

/-- Structs that are defined are given their fields, whatever is reported of them. The types of the
fields are those that they have in any registry with the same structs. -/
theorem defineFields_eq {structs : List (String × Fields)} {declarations : List StructDecl}
    (same : ∀ name, Registry.has ⟨structs⟩ name = first.has name)
    (defined : ∀ declared ∈ declarations, first.has declared.name.name = true) :
    defineFields ⟨structs⟩ declarations =
      .ok (⟨(declarations.map fun declared =>
          (declared.name.name, (fieldTypes first [] declared.fields).value)).reverse ++ structs⟩,
        declarations.flatMap fun declared => (fieldTypes first [] declared.fields).reports) := by
  induction declarations generalizing structs with
  | nil => rfl
  | cons declared rest inductionHypothesis =>
    obtain ⟨headDefined, restDefined⟩ := List.forall_mem_cons.mp defined
    have here : (structs.lookup declared.name.name).isSome = true :=
      (same declared.name.name).trans headDefined
    have set (fields : Fields) : Registry.setFields ⟨structs⟩ declared.name.name fields =
        .ok ⟨(declared.name.name, fields) :: structs⟩ := if_pos here
    have still (fields : Fields) (name : String) :
        Registry.has ⟨(declared.name.name, fields) :: structs⟩ name = first.has name :=
      (isSome_get?_of_defined here fields name).trans (same name)
    rw [defineFields]
    simp only [set, bind, Except.bind, inductionHypothesis (still _) restDefined,
      fieldTypes_congr same]
    simp [pure, Except.pure]

/-- The second pass is given every declaration of the program, whatever the first pass reports. -/
theorem names_enterDecls (registry : Registry) (scopes : Scopes) (program : Program) :
    ((enterDecls registry scopes program).value.2.map fun entered => entered.name.name) =
      program.map fun declared => declared.name.name := by
  induction program generalizing scopes with
  | nil => rfl
  | cons head rest inductionHypothesis =>
    cases head <;> rw [enterDecls] <;> simp [inductionHypothesis] <;> rfl

/-- A function or variable is resolved, entered, and handed on. -/
theorem enterDecls_cons {registry : Registry} {scopes : Scopes} {declared : Decl} {rest : Program}
    (isOther : (structDecl? declared).isNone = true) :
    enterDecls registry scopes (declared :: rest) = (do
      let found ← registry.entered declared
      let symbol := found.symbol
      let (final, later) ← enterDecls registry
        (scopes.enter declared.name symbol.type symbol.role symbol.isConst) rest
      return (final, found :: later)) := by
  cases declared with
  | fn declared => simp [enterDecls, Registry.entered, Entered.symbol, Decl.name]
  | var declared => simp [enterDecls, Registry.entered, Entered.symbol, Decl.name]
  | struct declared => cases isOther

/-- Every function and variable is entered, if nothing else has its name. -/
theorem enterDecls_found {registry : Registry} {global : Scope} {program : Program}
    (distinct : (program.map fun declared => declared.name.name).Nodup)
    (unused : ∀ declared ∈ otherDecls program, global.lookup declared.name.name = none) :
    enterDecls registry ⟨[], global⟩ program =
      ⟨(⟨[], ((otherDecls program).map fun declared =>
          (registry.entered declared).value.entry).reverse ++ global⟩,
        program.map fun declared => (registry.entered declared).value),
        program.flatMap fun declared => (registry.entered declared).reports⟩ := by
  induction program generalizing global with
  | nil => rfl
  | cons head rest inductionHypothesis =>
    rw [List.map_cons, List.nodup_cons] at distinct
    obtain ⟨notAgain, distinct⟩ := distinct
    cases isOther : (structDecl? head).isNone with
    | false =>
      have others : otherDecls (head :: rest) = otherDecls rest := by
        rw [otherDecls, List.filter_cons, isOther]
        rfl
      rw [others] at unused ⊢
      cases head with
      | fn declared | var declared => cases isOther
      | struct declared =>
        rw [enterDecls, inductionHypothesis distinct unused]
        apply Checked.ext <;> simp [Registry.entered]
    | true =>
      have others : otherDecls (head :: rest) = head :: otherDecls rest := by
        rw [otherDecls, List.filter_cons, isOther]
        rfl
      rw [others] at unused ⊢
      obtain ⟨headUnused, restUnused⟩ := List.forall_mem_cons.mp unused
      let found := (registry.entered head).value
      have name : found.name = head.name := name_entered registry head
      have entered : Scopes.enter ⟨[], global⟩ head.name found.symbol.type found.symbol.role
          found.symbol.isConst = ⟨[], found.entry :: global⟩ := by
        rw [← name]
        exact enter_entry found (by rw [name]; exact headUnused)
      -- The entry hides no name of a later declaration, for names are distinct.
      have stillUnused :
          ∀ other ∈ otherDecls rest, (found.entry :: global).lookup other.name.name = none := by
        intro other member
        have differs : other.name.name ≠ found.name.name := by
          rw [name]
          exact fun same =>
            notAgain (List.mem_map.mpr ⟨other, (List.mem_filter.mp member).1, same⟩)
        rw [Entered.entry, lookup_cons_of_ne differs]
        exact restUnused other member
      have later := inductionHypothesis distinct stillUnused
      rw [enterDecls_cons isOther]
      apply Checked.ext
      · simp [entered, later, found]
      · simp [entered, later, found]

/-- The structs of a program by name, still without fields. -/
def namedOf (program : Program) : Registry :=
  ⟨((structDecls program).map fun declared => (declared.name.name, [])).reverse⟩

/-- The structs of a program with their fields. What was entered first is still there behind it. -/
def resolvedOf (program : Program) : Registry :=
  ⟨((structDecls program).map fun declared =>
      (declared.name.name, (fieldTypes (namedOf program) [] declared.fields).value)).reverse ++
    (namedOf program).structs⟩

/-- What is found out about a declaration of a program. -/
def foundIn (program : Program) (declared : Decl) : Entered :=
  ((resolvedOf program).entered declared).value

/-- The global scope before the second pass: the functions and variables, and behind them the
structs. -/
def scopeOf (program : Program) : Scope :=
  ((otherDecls program).map fun declared => (foundIn program declared).entry).reverse ++
    ((structDecls program).map fun declared => entryOf (.struct declared)).reverse

/-- The global scope before the second pass holds one entry for each declaration. -/
theorem mem_scopeOf {program : Program} {entry : String × Symbol} :
    entry ∈ scopeOf program ↔
      ∃ declared ∈ program, (foundIn program declared).entry = entry :=
  mem_entries

/-- The name of a declaration stands for what was found out about it. -/
theorem lookup_scopeOf {program : Program} {declared : Decl}
    (distinct : (program.map fun declared => declared.name.name).Nodup)
    (member : declared ∈ program) :
    (scopeOf program).lookup declared.name.name = some (foundIn program declared).symbol :=
  have named (declared : Decl) : (foundIn program declared).entry.1 = declared.name.name :=
    congrArg Ident.name (name_entered _ declared)
  lookup_entries distinct named member

/-- If the names of a program are distinct, its diagnostics are those of the fields of the structs,
those of what the declarations are declared with, and those of the second pass. -/
theorem raised_eq {program : Program}
    (distinct : (program.map fun declared => declared.name.name).Nodup) :
    raised program =
      ((decls (resolvedOf program) (program.map (foundIn program))).run
        ⟨[], scopeOf program⟩).map fun outcome =>
          ((structDecls program).flatMap fun declared =>
            (fieldTypes (namedOf program) [] declared.fields).reports) ++
          (program.flatMap fun declared => ((resolvedOf program).entered declared).reports) ++
          outcome.reports := by
  have defined : ∀ declared ∈ structDecls program,
      (namedOf program).has declared.name.name = true :=
    fun declared member => isSome_lookup_reverse.mpr ⟨declared, member, rfl⟩
  have entered : enterDecls (resolvedOf program)
      ⟨[], ((structDecls program).map fun declared => entryOf (.struct declared)).reverse⟩ program =
        ⟨(⟨[], scopeOf program⟩, program.map (foundIn program)),
          program.flatMap fun declared => ((resolvedOf program).entered declared).reports⟩ :=
    enterDecls_found distinct (lookup_structs_of_other distinct)
  have fields : defineFields (namedOf program) (structDecls program) =
      .ok (resolvedOf program, (structDecls program).flatMap fun declared =>
        (fieldTypes (namedOf program) [] declared.fields).reports) :=
    defineFields_eq (fun _ => rfl) defined
  rw [raised, defineStructs_of_distinct distinct]
  simp only [bind, Except.bind]
  rw [← namedOf, fields]
  simp only [entered]
  cases (decls (resolvedOf program) (program.map (foundIn program))).run ⟨[], scopeOf program⟩ <;>
    rfl

end SystemsLang.Typing
