import SystemsLang.Proofs.Typing.LexicalProgram

/-!
# What is reported of names and jumps

The checker reports every name that is used where nothing binds it, every assignment to what must
not be assigned to, every name that is declared again, and every jump that has no loop around it:
each once and at its place, and no others. What these are is read off the sites of a program.

Repeated declarations and jumps are so in all programs. What a name stands for is clear from the
text alone if the global names are distinct; otherwise it depends on how far the checker is.
-/

namespace SystemsLang.Syntax.Site

open Typing

/-- The diagnostics of one kind that a site shows. -/
def shows (globals : Layer) (kind : LexicalKind) (site : Site) : List Diagnostic :=
  match kind with
  | .unbound => site.uses.filterMap (undefinedUse? (site.bound globals))
  | .constTarget => site.uses.filterMap (constUse? (site.bound globals))
  | .redeclared => site.redeclared?.toList
  | .strayJump => site.strayJump?.toList

end SystemsLang.Syntax.Site

namespace SystemsLang.Typing

open Syntax Checker

variable {kind : LexicalKind} {registry : Registry} {program : Program} {earlier : List String}
  {global after : Scope} {globals : Layer}

/-- Of a use that is at fault, the diagnostics of one kind. -/
theorem filter_faultOf? (kind : LexicalKind) (bound : String → Option Bool) (use : Use) :
    (faultOf? bound use).filter (Diagnostic.isOf kind) =
      match kind with
      | .unbound => undefinedUse? bound use
      | .constTarget => constUse? bound use
      | .redeclared | .strayJump => none := by
  cases use with
  | value position name =>
    by_cases unbound : bound name = none <;> cases kind <;>
      simp [faultOf?, undefinedUse?, constUse?, unbound, Diagnostic.isOf]
  | target position name =>
    by_cases isConst : bound name = some true <;> cases kind <;>
      simp [faultOf?, undefinedUse?, constUse?, isConst, Diagnostic.isOf]

/-- Of a site that declares a name again, the diagnostics of one kind. -/
theorem filter_redeclared? (kind : LexicalKind) (site : Site) :
    site.redeclared?.toList.filter (Diagnostic.isOf kind) =
      if kind = .redeclared then site.redeclared?.toList else [] := by
  obtain ⟨layers, loops, item⟩ := site
  cases item with
  | declared name =>
    unfold Site.redeclared?
    dsimp only
    split <;> cases kind <;> simp [duplicateAt, Diagnostic.isOf]
  | value | breaks | continues => cases kind <;> rfl

/-- Of a site that jumps outside of loops, the diagnostics of one kind. -/
theorem filter_strayJump? (kind : LexicalKind) (site : Site) :
    site.strayJump?.toList.filter (Diagnostic.isOf kind) =
      if kind = .strayJump then site.strayJump?.toList else [] := by
  obtain ⟨layers, loops, item⟩ := site
  cases item with
  | breaks position | continues position =>
    by_cases outside : loops = 0 <;> cases kind <;>
      simp [Site.strayJump?, outside, Diagnostic.isOf]
  | value | declared => cases kind <;> rfl

/-- Of the lexical diagnostics of a site, those of one kind are the ones it shows. -/
theorem filter_faults (kind : LexicalKind) (globals : Layer) (site : Site) :
    (site.faults globals).filter (Diagnostic.isOf kind) = site.shows globals kind := by
  rw [Site.faults, List.filter_append, List.filter_append, List.filter_filterMap,
    filter_redeclared?, filter_strayJump?]
  cases kind <;> simp [Site.shows, filter_faultOf?]

/-- Whether the diagnostics of a kind depend on what the global names stand for. -/
def LexicalKind.isOfUse : LexicalKind → Bool
  | unbound | constTarget => true
  | redeclared | strayJump => false

/-- A global scope binds the names of a program as its declarations do, if that is of importance for
diagnostics of the kind. -/
def Fits (program : Program) (kind : LexicalKind) (global : Scope) : Prop :=
  kind.isOfUse = true → Binds global program.layer

/-- Every scope binds its names as some layer does. -/
theorem binds_self (scope : Scope) :
    Binds scope (scope.map fun entry => (entry.1, entry.2.isConst)) := by
  intro name
  induction scope with
  | nil => rfl
  | cons entry rest inductionHypothesis =>
    rw [List.map_cons, List.lookup_cons, List.lookup_cons]
    split
    · rfl
    · exact inductionHypothesis

/-- In such a scope the sites show what they do where the global names are those of the program. -/
theorem Fits.shows (fits : Fits program kind global) :
    ∃ globals, Binds global globals ∧
      ∀ site : Site, site.shows globals kind = site.shows program.layer kind := by
  cases matters : kind.isOfUse with
  | true => exact ⟨program.layer, fits matters, fun _ => rfl⟩
  | false =>
    refine ⟨_, binds_self global, fun site => ?_⟩
    cases kind with
    | unbound | constTarget => cases matters
    | redeclared | strayJump => rfl

/-- With distinct names, what a name stands for is what its declaration says. -/
theorem lookup_layer (distinct : (program.map fun declared => declared.name.name).Nodup)
    {declared : Decl} (member : declared ∈ program) :
    program.layer.lookup declared.name.name = some declared.isConst := by
  refine lookup_of_unique (List.mem_map.mpr ⟨declared, member, rfl⟩) fun other isEntry => ?_
  obtain ⟨second, secondMember, same⟩ := List.mem_map.mp isEntry
  obtain ⟨sameName, rfl⟩ := Prod.mk.inj same
  rw [List.inj_on_of_nodup_map distinct secondMember member sameName]

/-- A scope in which the names of a program are bound as its declarations say still is one when a
declaration was reached. -/
theorem Binds.reached (distinct : (program.map fun declared => declared.name.name).Nodup)
    {declared : Decl} (member : declared ∈ program) (reached : Reached declared global after)
    (binds : Binds global program.layer) : Binds after program.layer := by
  intro name
  by_cases same : name = declared.name.name
  · have named := lookup_layer distinct member
    rw [same, named]
    exact reached.isConst ((binds _).trans named)
  · rw [reached.others name same]
    exact binds name

/-- The first pass enters the names of a program as its declarations say. -/
theorem binds_enterDecls (distinct : (program.map fun declared => declared.name.name).Nodup)
    (registry : Registry) :
    Binds (enterDecls registry (defineStructs Registry.empty Scopes.empty program).2.1
      program).value.1.global program.layer := by
  have named (declared : Decl) :
      ((registry.entered declared).value.entry).1 = declared.name.name :=
    congrArg Ident.name (name_entered registry declared)
  rw [defineStructs_of_distinct distinct, enterDecls_found distinct
    (lookup_structs_of_other distinct)]
  intro name
  by_cases known : ∃ declared ∈ program, declared.name.name = name
  · obtain ⟨declared, member, rfl⟩ := known
    have isConst : (registry.entered declared).value.symbol.isConst = declared.isConst := by
      cases declared <;> rfl
    rw [lookup_layer distinct member, ← isConst]
    exact congrArg (Option.map Symbol.isConst) (lookup_entries distinct named member)
  · have inLayer : program.layer.lookup name = none := by
      refine lookup_of_absent fun entry isEntry same => known ?_
      obtain ⟨declared, member, rfl⟩ := List.mem_map.mp isEntry
      exact ⟨declared, member, same⟩
    rw [inLayer, Option.map_eq_none_iff]
    refine lookup_of_absent fun entry isEntry same => known ?_
    obtain ⟨declared, member, rfl⟩ := mem_entries.mp isEntry
    exact ⟨declared, member, (named declared).symm.trans same⟩

/-- In two pairs of lists the second part of one and the first of the other change places. -/
theorem perm_append_exchange {α : Type} (first second third fourth : List α) :
    ((first ++ second) ++ (third ++ fourth)).Perm ((first ++ third) ++ (second ++ fourth)) := by
  rw [List.append_assoc, List.append_assoc]
  exact (List.perm_append_comm_assoc second third fourth).append_left first

/-- The second pass raises the diagnostics of a kind that the sites of the declarations show, and
those for names that were declared before. -/
theorem filter_decls {whole : Program} (part : program ⊆ whole)
    (distinct : kind.isOfUse = true → (whole.map fun declared => declared.name.name).Nodup)
    (registry : Registry) (midway : Midway program earlier global)
    (fits : Fits whole kind global) :
    ∃ outcome,
      (decls registry (program.map fun declared => (registry.entered declared).value)).run
          ⟨[], global⟩ = .ok outcome ∧
        ((lexical outcome.reports).filter (Diagnostic.isOf kind)).Perm
          (((repeated earlier (program.map Decl.name)).map duplicateAt).filter
              (Diagnostic.isOf kind) ++
            program.sites.flatMap (Site.shows whole.layer kind)) := by
  induction program generalizing earlier global with
  | nil => exact ⟨_, rfl, .refl _⟩
  | cons first rest inductionHypothesis =>
    obtain ⟨isFirst, areRest⟩ := List.cons_subset.mp part
    obtain ⟨symbol, found, known⟩ := midway first List.mem_cons_self
    -- Where names may be bound otherwise than in the whole program, the kind does not depend on it.
    obtain ⟨globals, binds, same⟩ := fits.shows
    obtain ⟨after, reports, ran, reached, told⟩ := checks_declared registry first binds found
    obtain ⟨seen, sees, names⟩ := repeated_cons known (rest.map Decl.name)
    obtain ⟨outcome, ranOn, toldOn⟩ := inductionHypothesis areRest (midway.reached reached sees)
      fun matters => (fits matters).reached (distinct matters) isFirst reached
    have here : (first.sites.flatMap (Site.faults globals)).filter (Diagnostic.isOf kind) =
        first.sites.flatMap (Site.shows whole.layer kind) := by
      rw [List.filter_flatMap]
      exact List.flatMap_congr fun site _ => (filter_faults kind globals site).trans (same site)
    refine ⟨⟨outcome.value, outcome.scopes, reports ++ outcome.reports⟩, ?_, ?_⟩
    · rw [List.map_cons, decls_cons]
      exact run_bind_ok ran ranOn
    · rw [lexical_append, List.filter_append, List.map_cons, names, List.filter_append,
        Program.sites, List.flatMap_cons, List.flatMap_append, ← here]
      have told := told.filter (Diagnostic.isOf kind)
      rw [List.filter_append] at told
      exact (told.append toldOn).trans (perm_append_exchange _ _ _ _)

/-- Diagnostics of a kind are among the lexical ones. -/
theorem filter_lexical (kind : LexicalKind) (reports : List Diagnostic) :
    (lexical reports).filter (Diagnostic.isOf kind) = reports.filter (Diagnostic.isOf kind) := by
  rw [lexical, List.filter_filter]
  refine List.filter_congr fun diagnostic _ => ?_
  rw [Bool.and_eq_left_iff_imp]
  intro isOf
  rw [Diagnostic.Cause.isLexical, eq_of_beq isOf]
  rfl

/-- The diagnostics of a program that are of one kind are those that its sites show, and those for
global names and fields that are repeated. -/
theorem filter_check (program : Program) (kind : LexicalKind)
    (distinct : kind.isOfUse = true → (program.map fun declared => declared.name.name).Nodup) :
    ∃ reports, program.check = .ok reports ∧
      (reports.filter (Diagnostic.isOf kind)).Perm
        ((program.repeatedNames ++ program.repeatedFields).filter (Diagnostic.isOf kind) ++
          program.sites.flatMap (Site.shows program.layer kind)) := by
  obtain ⟨⟨registry, fieldReports⟩, defines⟩ := defineFields_defineStructs program
  let entered := enterDecls registry (defineStructs Registry.empty Scopes.empty program).2.1 program
  have ahead : Ahead _ entered.value.1 := ahead_program registry program
  have onlyGlobal : entered.value.1 = ⟨[], entered.value.1.global⟩ := by
    rw [← ahead.opened]
  obtain ⟨outcome, ran, told⟩ := filter_decls (List.Subset.refl _) distinct registry ahead.midway
    fun matters => binds_enterDecls (distinct matters) registry
  rw [← value_enterDecls registry _ program, ← onlyGlobal] at ran
  have checked : program.check =
      .ok (Diagnostic.inOrder (fieldReports ++ entered.reports ++ outcome.reports)) := by
    rw [Program.check, raised_of_passes defines ran]
    rfl
  have fields : lexical fieldReports = program.repeatedFields := by
    rw [lexical_defineFields defines, Program.repeatedFields, defineStructs_eq_firstStructs]
    exact fun name => iff_of_false Bool.false_ne_true List.not_mem_nil
  have all : lexical (fieldReports ++ entered.reports ++ outcome.reports) =
      program.repeatedFields ++ lexical outcome.reports := by
    rw [lexical_append, lexical_append, fields, lexical_enterDecls, List.append_nil]
  refine ⟨_, checked, ((List.mergeSort_perm _ _).filter _).trans ?_⟩
  rw [← filter_lexical, all, List.filter_append, List.filter_append, List.append_assoc]
  exact (told.append_left _).trans (List.perm_append_comm_assoc _ _ _)

/-- Global names and fields that are repeated are declared again, and nothing else. -/
theorem filter_repeated (kind : LexicalKind) (program : Program) :
    (program.repeatedNames ++ program.repeatedFields).filter (Diagnostic.isOf kind) =
      if kind = .redeclared then program.repeatedNames ++ program.repeatedFields else [] := by
  have duplicates : ∀ diagnostic ∈ program.repeatedNames ++ program.repeatedFields,
      diagnostic.isOf kind = decide (kind = .redeclared) := by
    intro diagnostic member
    have isDuplicate : ∃ name, duplicateAt name = diagnostic := by
      rcases List.mem_append.mp member with isName | isField
      · obtain ⟨name, -, same⟩ := List.mem_map.mp isName
        exact ⟨name, same⟩
      · obtain ⟨declared, -, inStruct⟩ := List.mem_flatMap.mp isField
        obtain ⟨name, -, same⟩ := List.mem_map.mp inStruct
        exact ⟨name, same⟩
    obtain ⟨name, rfl⟩ := isDuplicate
    cases kind <;> rfl
  split
  · rename_i redeclared
    refine List.filter_eq_self.mpr fun diagnostic member => ?_
    rw [duplicates diagnostic member, decide_eq_true redeclared]
  · rename_i other
    refine List.filter_eq_nil_iff.mpr fun diagnostic member => ?_
    rw [duplicates diagnostic member, decide_eq_false other]
    exact Bool.false_ne_true

/-- If the global names of a program are distinct, the checker reports the names that are used where
nothing binds them, and those that are assigned to where they are bound to what must not be. -/
theorem check_uses (distinct : (program.map fun declared => declared.name.name).Nodup) :
    ∃ reports, program.check = .ok reports ∧
      (reports.filter (Diagnostic.isOf .unbound)).Perm program.undefinedUses ∧
      (reports.filter (Diagnostic.isOf .constTarget)).Perm program.constUses := by
  obtain ⟨reports, checked, undefined⟩ := filter_check program .unbound fun _ => distinct
  obtain ⟨others, checkedToo, assigned⟩ := filter_check program .constTarget fun _ => distinct
  obtain rfl := Except.ok.inj (checked.symm.trans checkedToo)
  rw [filter_repeated] at undefined assigned
  exact ⟨reports, checked, undefined, assigned⟩

/-- A function in which names are used inside and outside of the scopes that declare them, between a
constant of which one variable has the name and a variable that stands behind the function. -/
def shadowing : Program :=
  let use (line column : Nat) (name : String) : Expr := .ident ⟨line, column⟩ name
  let set (line column : Nat) (name : String) (value : Expr) : Stmt :=
    .expr ⟨line, column⟩ (.assign ⟨line, column⟩ none (use line column name) value)
  let var (line column : Nat) (name : String) (value : Expr) : VarDecl :=
    ⟨false, false, ⟨name, ⟨line, column + 4⟩⟩, none, some value, ⟨line, column⟩⟩
  let one (line column : Nat) : Expr := .number ⟨line, column⟩ "1"
  [.var ⟨false, true, ⟨"limit", ⟨1, 7⟩⟩, none, some (one 1 15), ⟨1, 1⟩⟩,
    .fn ⟨false, none, ⟨"count", ⟨2, 4⟩⟩,
      [⟨false, ⟨"flag", ⟨2, 10⟩⟩, .primitive ⟨2, 16⟩ "bool", ⟨2, 10⟩⟩], .primitive ⟨2, 22⟩ "void",
      [set 3 3 "limit" (use 3 11 "missing"),
        .block ⟨4, 3⟩ [.declare ⟨4, 5⟩ (var 4 5 "limit" (use 4 17 "limit")),
          set 4 24 "limit" (one 4 32)],
        .forLoop ⟨5, 3⟩ (some (.declare ⟨5, 8⟩ (var 5 8 "i" (one 5 16)))) (some (use 5 19 "flag"))
          none [set 5 27 "i" (one 5 31)],
        set 6 3 "i" (one 6 7),
        set 7 3 "flag" (use 7 10 "later")], ⟨2, 1⟩⟩,
    .var (var 8 1 "later" (.bool ⟨8, 13⟩ true))]

/-- The name behind the loop is as unbound as the one that is nowhere declared. The assignments to
the constant and to the parameter are reported, that to the variable with the name of the constant
is not. -/
theorem check_uses_shadowing :
    (shadowing.map fun declared => declared.name.name).Nodup ∧
      ∃ reports, shadowing.check = .ok reports ∧
        (reports.filter (Diagnostic.isOf .unbound)).Perm
          [⟨.undefinedVariable "missing", ⟨3, 11⟩⟩, ⟨.undefinedVariable "i", ⟨6, 3⟩⟩] ∧
        (reports.filter (Diagnostic.isOf .constTarget)).Perm
          [⟨.assignToConst "limit", ⟨3, 3⟩⟩, ⟨.assignToConst "flag", ⟨7, 3⟩⟩] := by
  have distinct : (shadowing.map fun declared => declared.name.name).Nodup := by decide
  exact ⟨distinct, check_uses distinct⟩

/-- In every program the checker reports the names that are declared again: global names of any
kind, parameters and local variables in their own scope, and fields of the first struct of each
name. -/
theorem check_redeclarations (program : Program) :
    ∃ reports, program.check = .ok reports ∧
      (reports.filter (Diagnostic.isOf .redeclared)).Perm program.redeclarations := by
  obtain ⟨reports, checked, redeclared⟩ := filter_check program .redeclared nofun
  rw [filter_repeated, if_pos rfl] at redeclared
  refine ⟨reports, checked, redeclared.trans ?_⟩
  have shown : program.sites.flatMap (Site.shows program.layer .redeclared) =
      program.sites.filterMap Site.redeclared? :=
    (List.filterMap_eq_flatMap_toList _ _).symm
  rw [shown, Program.redeclarations, List.append_assoc, List.append_assoc]
  exact List.perm_append_comm.append_left _

/-- Three declarations of one name, of different kinds: a struct is entered before a variable that
stands in front of it, but it is reported and the variable is not. In the function, the body repeats
a parameter, and the block inside of it does not. -/
example :
    let void : TypeExpr := .primitive ⟨9, 1⟩ "void"
    let var (line column : Nat) : VarDecl :=
      ⟨false, false, ⟨"x", ⟨line, column⟩⟩, some void, none, ⟨line, column⟩⟩
    Program.redeclarations [.var (var 1 5),
      .struct ⟨false, ⟨"x", ⟨2, 8⟩⟩, [⟨⟨"a", ⟨2, 12⟩⟩, void, ⟨2, 12⟩⟩,
        ⟨⟨"a", ⟨2, 20⟩⟩, void, ⟨2, 20⟩⟩], ⟨2, 1⟩⟩,
      .fn ⟨false, none, ⟨"x", ⟨3, 4⟩⟩, [⟨false, ⟨"x", ⟨3, 6⟩⟩, void, ⟨3, 6⟩⟩], void,
        [.declare ⟨4, 3⟩ (var 4 7), .block ⟨5, 3⟩ [.declare ⟨5, 5⟩ (var 5 9)]], ⟨3, 1⟩⟩] =
      [⟨.duplicateDeclaration "x", ⟨2, 8⟩⟩, ⟨.duplicateDeclaration "x", ⟨3, 4⟩⟩,
        ⟨.duplicateDeclaration "x", ⟨4, 7⟩⟩, ⟨.duplicateDeclaration "a", ⟨2, 20⟩⟩] := by
  decide

/-- In every program the checker reports the `break` and `continue` statements that have no loop of
their function around them. -/
theorem check_strayJumps (program : Program) :
    ∃ reports, program.check = .ok reports ∧
      (reports.filter (Diagnostic.isOf .strayJump)).Perm program.strayJumps := by
  obtain ⟨reports, checked, jumps⟩ := filter_check program .strayJump nofun
  rw [filter_repeated, if_neg nofun, List.nil_append] at jumps
  refine ⟨reports, checked, ?_⟩
  rwa [Program.strayJumps, List.filterMap_eq_flatMap_toList]

end SystemsLang.Typing
