import SystemsLang.Proofs.Typing.SecondPassReports

/-!
# Diagnostics do not depend on the order of declarations

If the names of a program are distinct and its global variables state their types, the diagnostics
are those of the single declarations, and none of these depends on where the others stand: what the
first pass finds out about a declaration depends on the names of the structs, and what the second
pass reports of it on what the global names are bound to. Both are the same in every order, since
names are looked up and no name is there twice. So a program in another order has the same
diagnostics, each as often (`check_reordered`).
-/

namespace SystemsLang.Typing

open Syntax Checked

variable {program other : Program}

/-- The same is found among the same entries if no two of them have one name. -/
theorem lookup_congr {α : Type} {first second : List (String × α)}
    (same : ∀ entry, entry ∈ first ↔ entry ∈ second)
    (unique : ∀ name value other, (name, value) ∈ first → (name, other) ∈ first → other = value)
    (name : String) : first.lookup name = second.lookup name := by
  cases found : first.lookup name with
  | none =>
    refine (lookup_of_absent fun entry member named => ?_).symm
    have differs := List.lookup_eq_none_iff.mp found entry ((same entry).mpr member)
    simp [named] at differs
  | some value =>
    have member := mem_of_lookup found
    exact (lookup_of_unique ((same _).mp member) fun other there =>
      unique name value other member ((same _).mpr there)).symm

section Reordered

variable (distinct : (program.map fun declared => declared.name.name).Nodup)
  (reordered : other.Perm program)

include reordered in
/-- A program in another order declares the same structs. -/
theorem structDecls_perm : (structDecls other).Perm (structDecls program) :=
  reordered.filterMap structDecl?

include distinct reordered in
/-- What is entered for every struct is found in the same way in every order. -/
theorem lookup_structs_perm {α : Type} (value : StructDecl → α) (name : String) :
    ((structDecls other).map fun declared =>
      (declared.name.name, value declared)).reverse.lookup name =
        ((structDecls program).map fun declared =>
          (declared.name.name, value declared)).reverse.lookup name := by
  refine (lookup_congr ?_ ?_ name).symm
  · intro entry
    simp only [List.mem_reverse, List.mem_map, (structDecls_perm reordered).mem_iff]
  · intro name value other here there
    obtain ⟨first, isFirst, same⟩ := List.mem_map.mp (List.mem_reverse.mp here)
    obtain ⟨second, isSecond, sameToo⟩ := List.mem_map.mp (List.mem_reverse.mp there)
    have names : second.name.name = first.name.name :=
      (congrArg Prod.fst sameToo).trans (congrArg Prod.fst same).symm
    obtain rfl := eq_of_same_struct distinct isSecond isFirst names
    exact (congrArg Prod.snd sameToo).symm.trans (congrArg Prod.snd same)

include distinct reordered in
/-- The same structs are named in every order. -/
theorem namedOf_perm : (namedOf other).get? = (namedOf program).get? :=
  funext fun name => lookup_structs_perm distinct reordered (fun _ => []) name

include distinct reordered in
/-- The structs have the same fields in every order. -/
theorem resolvedOf_perm : (resolvedOf other).get? = (resolvedOf program).get? := by
  have named := namedOf_perm distinct reordered
  funext name
  unfold resolvedOf Registry.get?
  rw [List.lookup_append, List.lookup_append]
  have fields := lookup_structs_perm distinct reordered
    (fun declared => (fieldTypes (namedOf program) [] declared.fields).value) name
  have same : fieldTypes (namedOf other) = fieldTypes (namedOf program) :=
    funext fun earlier => funext fun fields => fieldTypes_congr (has_congr named) earlier fields
  rw [same, fields]
  exact congrArg _ (congrFun named name)

include distinct reordered in
/-- The same is found out about a declaration in every order. -/
theorem entered_perm (declared : Decl) :
    (resolvedOf other).entered declared = (resolvedOf program).entered declared :=
  entered_congr (has_congr (resolvedOf_perm distinct reordered)) declared

include distinct reordered in
/-- A global name stands for the same in every order. -/
theorem lookup_scopeOf_perm (name : String) :
    (scopeOf other).lookup name = (scopeOf program).lookup name := by
  have found : foundIn other = foundIn program :=
    funext fun declared => congrArg Checked.value (entered_perm distinct reordered declared)
  refine (lookup_congr ?_ ?_ name).symm
  · intro entry
    simp only [mem_scopeOf, found, reordered.mem_iff]
  · intro name value other here there
    have atName {symbol : Symbol} (member : (name, symbol) ∈ scopeOf program) :
        (scopeOf program).lookup name = some symbol := by
      obtain ⟨declared, isThere, same⟩ := mem_scopeOf.mp member
      have named : (foundIn program declared).name.name = name := congrArg Prod.fst same
      rw [foundIn, name_entered] at named
      rw [← named, lookup_scopeOf distinct isThere]
      exact congrArg (some ∘ Prod.snd) same
    exact Option.some.inj ((atName there).symm.trans (atName here))

end Reordered

/-- Every global variable of a program states its type. -/
def Annotated (program : Program) : Prop :=
  ∀ declared, Decl.var declared ∈ program → declared.type ≠ none

/-- What a declaration of a program reports in the second pass. -/
def reportsOf (program : Program) (declared : Decl) : List Diagnostic :=
  reportsIn (resolvedOf program) (scopeOf program) (foundIn program declared)

/-- What is found out about a variable that states its type is what type it states. -/
theorem annotated_foundIn (annotated : Annotated program) {declared : Decl}
    (member : declared ∈ program) : (foundIn program declared).Annotated := by
  intro given stated same
  cases declared with
  | fn declared | struct declared => cases same
  | var declared =>
    cases written : declared.type with
    | none => exact absurd written (annotated declared member)
    | some type =>
      have found : (foundIn program (.var declared)) =
          .var declared (some ((resolvedOf program).resolve type).value) := by
        simp [foundIn, Registry.entered, written]
      rw [found] at same
      cases same
      rfl

/-- The symbol that the first pass enters for a declaration is there before the second pass. -/
theorem awaited_foundIn (distinct : (program.map fun declared => declared.name.name).Nodup)
    {declared : Decl} (member : declared ∈ program) :
    Awaited (scopeOf program) (foundIn program declared) := by
  have named : (foundIn program declared).name = declared.name := name_entered _ declared
  rw [Awaited, named]
  exact lookup_scopeOf distinct member

/-- The diagnostics of a program are those of its single declarations: of the fields of the structs,
of what is declared, and of the second pass. -/
theorem raised_eq_flatMap (distinct : (program.map fun declared => declared.name.name).Nodup)
    (annotated : Annotated program) :
    raised program = .ok
      (((structDecls program).flatMap fun declared =>
          (fieldTypes (namedOf program) [] declared.fields).reports) ++
        (program.flatMap fun declared => ((resolvedOf program).entered declared).reports) ++
        program.flatMap (reportsOf program)) := by
  have names : ((program.map (foundIn program)).map fun entered => entered.name.name).Nodup := by
    simpa [List.map_map, Function.comp_def, foundIn] using distinct
  have awaited : ∀ entered ∈ program.map (foundIn program), Awaited (scopeOf program) entered :=
    List.forall_mem_map.mpr fun declared member => awaited_foundIn distinct member
  have stated : ∀ entered ∈ program.map (foundIn program), entered.Annotated :=
    List.forall_mem_map.mpr fun declared member => annotated_foundIn annotated member
  obtain ⟨last, ran⟩ := @run_decls (resolvedOf program) _ _ _ names stated awaited rfl awaited
  rw [raised_eq distinct, ran, List.flatMap_map]
  rfl

/-- What a declaration reports does not depend on the order of the program. -/
theorem reportsOf_perm (distinct : (program.map fun declared => declared.name.name).Nodup)
    (annotated : Annotated program) (reordered : other.Perm program) {declared : Decl}
    (member : declared ∈ program) : reportsOf other declared = reportsOf program declared := by
  have distinctToo : (other.map fun declared => declared.name.name).Nodup :=
    (reordered.map _).nodup_iff.mpr distinct
  have found : foundIn other declared = foundIn program declared :=
    congrArg Checked.value (entered_perm distinct reordered declared)
  have frames : frameOf (scopeOf other) = frameOf (scopeOf program) :=
    funext fun name =>
      congrArg (Option.map Symbol.binding) (lookup_scopeOf_perm distinct reordered name)
  have awaited := awaited_foundIn distinctToo (reordered.mem_iff.mpr member)
  rw [found] at awaited
  rw [reportsOf, reportsOf, found]
  exact reportsIn_congr (resolvedOf_perm distinct reordered) frames
    (annotated_foundIn annotated member) awaited (awaited_foundIn distinct member)

/-- A program whose names are distinct and whose global variables state their types has the same
diagnostics in every order of its declarations, each as often. -/
theorem check_reordered (distinct : (program.map fun declared => declared.name.name).Nodup)
    (annotated : Annotated program) (reordered : other.Perm program) :
    ∃ reports others, program.check = .ok reports ∧ other.check = .ok others ∧
      others.Perm reports := by
  have distinctToo : (other.map fun declared => declared.name.name).Nodup :=
    (reordered.map _).nodup_iff.mpr distinct
  have annotatedToo : Annotated other :=
    fun declared member => annotated declared (reordered.mem_iff.mp member)
  have fields := (structDecls_perm reordered).flatMap_right fun declared =>
    (fieldTypes (namedOf program) [] declared.fields).reports
  have stated := reordered.flatMap_right fun declared =>
    ((resolvedOf program).entered declared).reports
  have second := reordered.flatMap_right (reportsOf program)
  have sameFields : fieldTypes (namedOf other) = fieldTypes (namedOf program) :=
    funext fun earlier => funext fun fields =>
      fieldTypes_congr (has_congr (namedOf_perm distinct reordered)) earlier fields
  have sameSecond : other.flatMap (reportsOf other) = other.flatMap (reportsOf program) := by
    rw [List.flatMap_def, List.flatMap_def]
    exact congrArg List.flatten (List.map_congr_left fun declared member =>
      reportsOf_perm distinct annotated reordered (reordered.mem_iff.mp member))
  have raisedOther := raised_eq_flatMap distinctToo annotatedToo
  simp only [sameFields, entered_perm distinct reordered, sameSecond] at raisedOther
  refine ⟨_, _, by rw [Program.check, raised_eq_flatMap distinct annotated]; rfl,
    by rw [Program.check, raisedOther]; rfl, ?_⟩
  exact (List.mergeSort_perm _ _).trans
    (((fields.append stated).append second).trans (List.mergeSort_perm _ _).symm)

/-- A variable of a struct that is declared behind it, with a value of another type. -/
def usedBeforeDeclared : Program :=
  [.var ⟨false, false, ⟨"origin", ⟨1, 5⟩⟩, some (.named ⟨1, 13⟩ "Point"),
      some (.bool ⟨1, 21⟩ true), ⟨1, 1⟩⟩,
    .struct ⟨false, ⟨"Point", ⟨2, 7⟩⟩, [], ⟨2, 1⟩⟩]

/-- The struct may stand before the variable as well. -/
theorem check_reordered_reverse :
    (usedBeforeDeclared.map fun declared => declared.name.name).Nodup ∧
      Annotated usedBeforeDeclared ∧ usedBeforeDeclared.reverse.Perm usedBeforeDeclared ∧
      ∃ reports others, usedBeforeDeclared.check = .ok reports ∧
        Program.check usedBeforeDeclared.reverse = .ok others ∧ others.Perm reports := by
  have distinct : (usedBeforeDeclared.map fun declared => declared.name.name).Nodup := by decide
  have annotated : Annotated usedBeforeDeclared := by
    intro declared member
    simp only [usedBeforeDeclared, List.mem_cons, Decl.var.injEq, reduceCtorEq, List.not_mem_nil,
      or_false] at member
    rw [member]
    exact fun impossible => nomatch impossible
  have reordered := List.reverse_perm usedBeforeDeclared
  exact ⟨distinct, annotated, reordered, check_reordered distinct annotated reordered⟩

end SystemsLang.Typing
