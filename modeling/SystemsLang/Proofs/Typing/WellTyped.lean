import SystemsLang.Proofs.Typing.SecondPass

/-!
# Which programs the checker accepts

The checker decides the typing rules in which types are the same only if they are formed alike: it
accepts a program exactly if the program is well typed by those (`check_eq_nil_iff_eq`).

A program that raises no diagnostic has distinct names, since all declarations pass in the second
pass. With distinct names the first pass is known in closed form. It is silent exactly if all types
are known, which is part of the declarations being in order, and then the second pass runs in what
the rules say that the structs and the global names are.
-/

namespace SystemsLang.Typing

open Syntax Checker

variable {Same : Ty → Ty → Prop} {program : Program}

/-- What a mapped result ends in comes from what the result ends in. -/
theorem of_map_eq_ok {α β : Type} {function : α → β} {result : Except Fault α} {value : β}
    (ends : result.map function = .ok value) :
    ∃ source, result = .ok source ∧ function source = value := by
  cases result with
  | error fault => cases ends
  | ok source => exact ⟨source, rfl, Except.ok.inj ends⟩

/-- If a program raises no diagnostic, no stage raises one and the declarations pass. -/
theorem stages_of_raised {named : Registry} {structScopes : Scopes} {defined : List StructDecl}
    (defines : defineStructs Registry.empty Scopes.empty program = (named, structScopes, defined))
    (quiet : raised program = .ok []) : ∃ registry,
      defineFields named defined = .ok (registry, []) ∧
      (enterDecls registry structScopes program).reports = [] ∧
      ∃ after, Passes (decls registry (enterDecls registry structScopes program).value.2)
        (enterDecls registry structScopes program).value.1 after := by
  unfold raised at quiet
  rw [defines] at quiet
  simp only [bind, Except.bind, pure, Except.pure] at quiet
  split at quiet
  · cases quiet
  · rename_i given ran
    obtain ⟨registry, fieldReports⟩ := given
    dsimp only at quiet
    split at quiet
    · cases quiet
    · rename_i outcome ends
      obtain ⟨⟨⟩, after, reports⟩ := outcome
      obtain ⟨first, rfl⟩ := List.append_eq_nil_iff.mp (Except.ok.inj quiet)
      obtain ⟨rfl, entered⟩ := List.append_eq_nil_iff.mp first
      exact ⟨registry, ran, entered, after, ends⟩

/-- The names of a program that raises no diagnostic are distinct. -/
theorem distinct_of_raised (quiet : raised program = .ok []) :
    (program.map fun declared => declared.name.name).Nodup := by
  obtain ⟨registry, -, -, after, passes⟩ := stages_of_raised rfl quiet
  have distinct := (distinct_of_passes passes).1
  rwa [names_enterDecls] at distinct

/-- The structs have their names in the first stage already. -/
theorem isSome_registryOf (name : String) :
    ((namedOf program).get? name).isSome = ((registryOf program).get? name).isSome := by
  rw [Bool.eq_iff_iff]
  unfold namedOf registryOf Registry.get?
  rw [List.lookup_append, Option.isSome_or, Bool.or_eq_true, isSome_lookup_reverse,
    isSome_lookup_reverse, or_self]

section Distinct

variable (distinct : (program.map fun declared => declared.name.name).Nodup)

include distinct in
/-- With distinct names the types in a program that raises no diagnostic are known. -/
theorem known_of_raised (quiet : raised program = .ok []) :
    (∀ declared ∈ structDecls program, StructOk (registryOf program).get? declared) ∧
      ∀ declared ∈ program, Stated (registryOf program).get? declared := by
  rw [raised_eq distinct] at quiet
  obtain ⟨outcome, -, silent⟩ := of_map_eq_ok quiet
  obtain ⟨first, -⟩ := List.append_eq_nil_iff.mp silent
  obtain ⟨fields, entered⟩ := List.append_eq_nil_iff.mp first
  have structs : ∀ declared ∈ structDecls program, StructOk (namedOf program).get? declared :=
    fun declared member => structOk_iff.mpr (List.flatMap_eq_nil_iff.mp fields declared member)
  rw [resolvedOf_eq structs] at entered
  exact ⟨fun declared member =>
      (structOk_congr isSome_registryOf declared).mp (structs declared member),
    fun declared member => reports_entered.mp (List.flatMap_eq_nil_iff.mp entered declared member)⟩

include distinct in
/-- With distinct names and known types a program raises what the second pass reports. -/
theorem raised_of_known
    (structs : ∀ declared ∈ structDecls program, StructOk (registryOf program).get? declared)
    (stated : ∀ declared ∈ program, Stated (registryOf program).get? declared) :
    raised program = ((decls (registryOf program) (program.map enteredOf)).run
      ⟨[], globalOf program⟩).map fun outcome => outcome.reports := by
  have named : ∀ declared ∈ structDecls program, StructOk (namedOf program).get? declared :=
    fun declared member =>
      (structOk_congr isSome_registryOf declared).mpr (structs declared member)
  have resolved := resolvedOf_eq named
  have found : program.map (foundIn program) = program.map enteredOf := by
    refine List.map_congr_left fun declared member => ?_
    rw [foundIn, resolved, value_entered (stated declared member)]
  have fields : ((structDecls program).flatMap fun declared =>
      (fieldTypes (namedOf program) [] declared.fields).reports) = [] :=
    List.flatMap_eq_nil_iff.mpr fun declared member => structOk_iff.mp (named declared member)
  have entered : (program.flatMap fun declared =>
      ((registryOf program).entered declared).reports) = [] :=
    List.flatMap_eq_nil_iff.mpr fun declared member => reports_entered.mpr (stated declared member)
  rw [raised_eq distinct, scopeOf_eq (by rwa [resolved]), resolved, found, fields, entered]
  rfl

include distinct in
/-- With distinct names a program raises no diagnostic if the structs are in order, everything is
declared with known types, and the declarations pass. -/
theorem raised_eq_nil_iff :
    raised program = .ok [] ↔
      (∀ declared ∈ structDecls program, StructOk (registryOf program).get? declared) ∧
        (∀ declared ∈ program, Stated (registryOf program).get? declared) ∧
        ∃ after, Passes (decls (registryOf program) (program.map enteredOf))
          ⟨[], globalOf program⟩ after := by
  constructor
  · intro quiet
    obtain ⟨structs, stated⟩ := known_of_raised distinct quiet
    rw [raised_of_known distinct structs stated] at quiet
    obtain ⟨⟨⟨⟩, after, reports⟩, ends, rfl⟩ := of_map_eq_ok quiet
    exact ⟨structs, stated, after, ends⟩
  · rintro ⟨structs, stated, after, passes⟩
    rw [raised_of_known distinct structs stated, passes]
    rfl

end Distinct

/-- Declarations that are in order are declared with known types. -/
theorem DeclsOk.stated {structs : String → Option Fields} {globals : Frame}
    (ok : DeclsOk Same structs globals program) :
    ∀ declared ∈ program, Stated structs declared := by
  induction ok with
  | nil => exact fun _ impossible => nomatch impossible
  | fn head tail inductionHypothesis =>
    exact List.forall_mem_cons.mpr ⟨⟨head.params, head.result⟩, inductionHypothesis⟩
  | var typed tail inductionHypothesis =>
    exact List.forall_mem_cons.mpr ⟨typed.known, inductionHypothesis⟩
  | struct head tail inductionHypothesis =>
    exact List.forall_mem_cons.mpr ⟨trivial, inductionHypothesis⟩

/-- Structs among declarations that are in order are in order. -/
theorem DeclsOk.structs {structs : String → Option Fields} {globals : Frame}
    (ok : DeclsOk Same structs globals program) :
    ∀ declared ∈ structDecls program, StructOk structs declared := by
  induction ok with
  | nil => exact fun _ impossible => nomatch impossible
  | fn head tail inductionHypothesis => exact inductionHypothesis
  | var typed tail inductionHypothesis => exact inductionHypothesis
  | struct head tail inductionHypothesis =>
    exact List.forall_mem_cons.mpr ⟨head, inductionHypothesis⟩

/-- What the global names of a program are bound to has its structs there, if all is declared with
known types. -/
theorem sound_of_stated (distinct : (program.map fun declared => declared.name.name).Nodup)
    (structs : ∀ declared ∈ structDecls program, StructOk (registryOf program).get? declared)
    (stated : ∀ declared ∈ program, Stated (registryOf program).get? declared) :
    (outside (registryOf program) (globalOf program)).Sound where
  fields := by
    intro name fields found field member
    have isThere : structsOf program name = some fields := by
      rw [← get?_registryOf distinct]
      exact found
    obtain ⟨declared, isDeclared, rfl⟩ := Option.map_eq_some_iff.mp isThere
    obtain ⟨head, there, isStruct⟩ := List.exists_of_findSome?_eq_some isDeclared
    obtain ⟨rfl, -⟩ := structOf?_eq_some.mp isStruct
    obtain ⟨source, isField, rfl⟩ := List.mem_map.mp member
    exact closed_denoted ((structs declared (mem_structDecls.mpr there)).fields source isField)
  bindings := by
    intro frame member name binding found
    obtain rfl : frame = frameOf (globalOf program) := List.mem_singleton.mp member
    obtain ⟨symbol, isSymbol, rfl⟩ := Option.map_eq_some_iff.mp found
    obtain ⟨declared, there, same⟩ := mem_globalOf.mp (mem_of_lookup isSymbol)
    obtain rfl : (entryOf declared).2 = symbol := congrArg Prod.snd same
    have known := stated declared there
    cases declared with
    | fn declared => exact closed_denoted known.2
    | var declared =>
      cases written : declared.type with
      | none => simp [entryOf, bindingOf, Symbol.binding, written, Closed]
      | some type =>
        have closed : Closed (outside (registryOf program) (globalOf program)).structs
            (denoted type) := closed_denoted (known type written)
        simpa [entryOf, bindingOf, Symbol.binding, written] using closed
    | struct declared =>
      have isThere := structsOf_of_mem distinct (mem_structDecls.mpr there)
      have closed : ((registryOf program).get? declared.name.name).isSome = true := by
        rw [get?_registryOf distinct, isThere]
        rfl
      exact closed

/-- Before the second pass all names are there, and none of them is declared. -/
theorem awaiting_program (distinct : (program.map fun declared => declared.name.name).Nodup)
    (structs : ∀ declared ∈ structDecls program, StructOk (registryOf program).get? declared)
    (stated : ∀ declared ∈ program, Stated (registryOf program).get? declared) :
    Awaiting (registryOf program) (globalOf program) program where
  sound := sound_of_stated distinct structs stated
  entered := fun _ member => ⟨_, lookup_globalOf distinct member, rfl⟩

/-- A program raises no diagnostic if it is well typed. -/
theorem raised_eq_nil_iff_wellTyped : raised program = .ok [] ↔ WellTyped Eq program := by
  constructor
  · intro quiet
    have distinct := distinct_of_raised quiet
    obtain ⟨structs, stated, passes⟩ := (raised_eq_nil_iff distinct).mp quiet
    have awaiting := awaiting_program distinct structs stated
    have ok := (passes_decls_iff distinct awaiting stated structs).mp passes
    rw [get?_registryOf distinct, frameOf_globalOf distinct] at ok
    exact ⟨distinct, ok⟩
  · rintro ⟨distinct, ok⟩
    rw [← get?_registryOf distinct, ← frameOf_globalOf distinct] at ok
    have awaiting := awaiting_program distinct ok.structs ok.stated
    have passes := (passes_decls_iff distinct awaiting ok.stated ok.structs).mpr ok
    exact (raised_eq_nil_iff distinct).mpr ⟨ok.structs, ok.stated, passes⟩

/-- Nothing is reported in reading order exactly if nothing is raised. -/
theorem check_eq_nil_iff_raised : program.check = .ok [] ↔ raised program = .ok [] := by
  rw [Program.check]
  cases raised program with
  | error fault => simp [Except.map]
  | ok reports =>
    have length : (Diagnostic.inOrder reports).length = reports.length :=
      List.length_mergeSort reports
    have empty : Diagnostic.inOrder reports = [] ↔ reports = [] := by
      rw [← List.length_eq_zero_iff, length, List.length_eq_zero_iff]
    simp [Except.map, empty]

/-- The checker ends without a fault and without a diagnostic exactly for the programs that are well
typed where types are the same if they are formed alike. -/
theorem check_eq_nil_iff_eq : program.check = .ok [] ↔ WellTyped Eq program :=
  check_eq_nil_iff_raised.trans raised_eq_nil_iff_wellTyped

end SystemsLang.Typing
