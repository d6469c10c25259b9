import SystemsLang.Parser.Program
import SystemsLang.Proofs.Typing.Components
import SystemsLang.Proofs.Typing.Evaluations

/-!
# Struct literals

In a program that is checked without diagnostics every struct literal, wherever it stands, names a
struct of the program and has values for just the fields of that struct, each with a type that may
stand for that of its field (`structLit_of_check_nil`). What is not checked is that it has no more
than one value for a field: the initialized names are the fields in some order only if no name is
repeated, and a literal that repeats one is accepted (`repeated_field_accepted`).
-/

namespace SystemsLang.Typing

open Syntax

variable {Same : Ty → Ty → Prop} {env : Env}

/-- Each of several expressions with types has one. -/
theorem HasTypes.hasType {expressions : List Expr} {types : List Ty}
    (given : HasTypes Same env expressions types) {part : Expr} (member : part ∈ expressions) :
    ∃ type, HasType Same env part type := by
  induction expressions generalizing types with
  | nil => cases member
  | cons first rest inductionHypothesis =>
    cases given with
    | cons head tail =>
      rcases List.mem_cons.mp member with rfl | later
      · exact ⟨_, head⟩
      · exact inductionHypothesis tail later

/-- What an expression with a type is made of has a type, but for the name `_` of an assignment that
only discards a value. -/
theorem HasType.component {whole part : Expr} {type : Ty} (typed : HasType Same env whole type)
    (member : part ∈ whole.components) :
    (∃ type, HasType Same env part type) ∨ ∃ position, part = .ident position "_" := by
  cases typed with
  | integer | fraction | string | bool | null | undefined | ident => cases member
  | binary leftTyped rightTyped =>
    rcases List.mem_pair.mp member with rfl | rfl
    · exact .inl ⟨_, leftTyped⟩
    · exact .inl ⟨_, rightTyped⟩
  | unary typed | member typed | deref typed | unwrap typed =>
    obtain rfl := List.mem_singleton.mp member
    exact .inl ⟨_, typed⟩
  | call typed given =>
    rcases List.mem_cons.mp member with rfl | isArgument
    · exact .inl ⟨_, typed⟩
    · exact .inl (given.hasType isArgument)
  | index typed subscripted =>
    rcases List.mem_pair.mp member with rfl | rfl
    · exact .inl ⟨_, typed⟩
    · exact .inl ⟨_, subscripted⟩
  | discard discards typed =>
    rcases List.mem_pair.mp member with rfl | rfl
    · exact .inr discards.2
    · exact .inl ⟨_, typed⟩
  | assign _ _ targetTyped typed =>
    rcases List.mem_pair.mp member with rfl | rfl
    · exact .inl ⟨_, targetTyped⟩
    · exact .inl ⟨_, typed⟩
  | structLit _ given | arrayLit _ given => exact .inl (given.hasType member)

/-- So does what stands in it at any depth. -/
theorem HasType.of_within {whole part : Expr} (within : Within Expr.components part whole)
    {type : Ty} (typed : HasType Same env whole type) :
    (∃ type, HasType Same env part type) ∨ ∃ position, part = .ident position "_" := by
  induction within generalizing type with
  | self => exact .inl ⟨type, typed⟩
  | inner member within inductionHypothesis =>
    rcases typed.component member with ⟨inner, innerTyped⟩ | ⟨position, rfl⟩
    · exact inductionHypothesis innerTyped
    · cases within with
      | self => exact .inr ⟨position, rfl⟩
      | inner impossible => cases impossible

/-- The values of several fields have types, each its own. -/
theorem HasTypes.field {values : List (Ident × Expr)} {types : List Ty}
    (given : HasTypes Same env (values.map Prod.snd) types) {entry : Ident × Expr}
    (member : entry ∈ values) :
    ∃ type, HasType Same env entry.2 type ∧ (entry.1, type) ∈ (values.map Prod.fst).zip types := by
  induction values generalizing types with
  | nil => cases member
  | cons first rest inductionHypothesis =>
    cases given with
    | cons head tail =>
      rcases List.mem_cons.mp member with rfl | later
      · exact ⟨_, head, List.mem_cons_self⟩
      · obtain ⟨type, typed, there⟩ := inductionHypothesis tail later
        exact ⟨type, typed, List.mem_cons_of_mem _ there⟩

/-- The names of the fields of a struct, in order. -/
def fieldNames (declared : StructDecl) : List String :=
  declared.fields.map fun field => field.name.name

/-- The names that a struct literal has values for, in order. -/
def givenNames (values : List (Ident × Expr)) : List String :=
  values.map fun entry => entry.1.name

/-- The values of a struct literal fill the fields of a struct: each field has a value, and each
value has a type, which may stand for that of the field it is given to. -/
structure Fills (Same : Ty → Ty → Prop) (env : Env) (declared : StructDecl)
    (values : List (Ident × Expr)) : Prop where
  complete : ∀ field ∈ declared.fields, ∃ entry ∈ values, entry.1.name = field.name.name
  fits : ∀ entry ∈ values, ∃ field ∈ declared.fields, field.name.name = entry.1.name ∧
    (∃ type, HasType Same env entry.2 type) ∧
    ∀ type, HasType Same env entry.2 type → Coerces Same type (denoted field.type)

/-- The names that values fill fields with are those of the fields. -/
theorem Fills.mem_iff {declared : StructDecl} {values : List (Ident × Expr)}
    (fills : Fills Same env declared values) (name : String) :
    name ∈ givenNames values ↔ name ∈ fieldNames declared := by
  constructor
  · intro member
    obtain ⟨entry, isEntry, rfl⟩ := List.mem_map.mp member
    obtain ⟨field, isField, named, -⟩ := fills.fits entry isEntry
    exact List.mem_map.mpr ⟨field, isField, named⟩
  · intro member
    obtain ⟨field, isField, rfl⟩ := List.mem_map.mp member
    obtain ⟨entry, isEntry, named⟩ := fills.complete field isField
    exact List.mem_map.mpr ⟨entry, isEntry, named⟩

/-- They are the fields in some order if and only if none of them is repeated. -/
theorem Fills.perm_iff {declared : StructDecl} {values : List (Ident × Expr)}
    (fills : Fills Same env declared values) (distinct : (fieldNames declared).Nodup) :
    (givenNames values).Perm (fieldNames declared) ↔ (givenNames values).Nodup := by
  constructor
  · intro same
    exact same.nodup_iff.mpr distinct
  · intro once
    exact (List.perm_ext_iff_of_nodup once distinct).mpr fills.mem_iff

/-- A struct literal with a type fills the fields of the struct that it names. -/
theorem fills_of_hasType {position : Position} {name : Ident} {values : List (Ident × Expr)}
    {declared : StructDecl} {type : Ty}
    (typed : HasType Same env (.structLit position name values) type)
    (isDeclared : env.structs name.name = some (declaredFields declared)) :
    Fills Same env declared values := by
  cases typed with
  | structLit looked given fit complete =>
    obtain rfl := Option.some.inj (looked.symm.trans isDeclared)
    refine ⟨fun field member => ?_, fun entry member => ?_⟩
    · obtain ⟨name, isName, same⟩ := complete _ (List.mem_map_of_mem member)
      obtain ⟨entry, isEntry, rfl⟩ := List.mem_map.mp isName
      exact ⟨entry, isEntry, same⟩
    · obtain ⟨actual, hasType, there⟩ := given.field member
      obtain ⟨expected, found, coerces⟩ := fit _ there
      obtain ⟨field, isField, same⟩ := List.mem_map.mp (mem_of_lookup found)
      obtain ⟨named, rfl⟩ := Prod.mk.inj same
      refine ⟨field, isField, named, ⟨actual, hasType⟩, fun other otherTyped => ?_⟩
      rw [HasType.unique entry.2 otherTyped hasType]
      exact coerces

/-- In a program of which nothing is reported, a struct literal anywhere in an expression at any
site names a struct of the program. Where the expression is judged, the values of the literal fill
the fields of the struct, no two of which have the same name. The initialized names are the fields
in some order if and only if the literal has no name twice. -/
theorem structLit_of_check_nil {program : Program} (quiet : program.check = .ok []) {site : Site}
    (member : site ∈ program.sites) {whole : Expr} (here : site.item = .value whole)
    {position : Position} {name : Ident} {values : List (Ident × Expr)}
    (within : Within Expr.components (.structLit position name values) whole) :
    ∃ declared, .struct declared ∈ program ∧ declared.name.name = name.name ∧
      (fieldNames declared).Nodup ∧
      (∃ place, DeclsEvaluate Eq (structsOf program) (globalsOf program) program place whole ∧
        Fills Eq place declared values) ∧
      ((givenNames values).Perm (fieldNames declared) ↔ (givenNames values).Nodup) := by
  have wellTyped := check_eq_nil_iff_eq.mp quiet
  obtain ⟨place, type, evaluates, typed⟩ := exists_evaluates wellTyped.decls member here
  -- What stands within an expression with a type has one in the same environment.
  rcases typed.of_within within with ⟨inner, literalTyped⟩ | ⟨_, impossible⟩
  · have looked : ∃ fields, place.structs name.name = some fields := by
      cases literalTyped with
      | structLit looked => exact ⟨_, looked⟩
    obtain ⟨fields, looked⟩ := looked
    have isDeclared := looked
    rw [evaluates.structs] at isDeclared
    obtain ⟨declared, found, rfl⟩ := Option.map_eq_some_iff.mp isDeclared
    obtain ⟨head, there, isStruct⟩ := List.exists_of_findSome?_eq_some found
    obtain ⟨rfl, named⟩ := structOf?_eq_some.mp isStruct
    have distinct := (wellTyped.decls.structs declared (mem_structDecls.mpr there)).distinct
    have fills := fills_of_hasType literalTyped looked
    exact ⟨declared, there, named, distinct, ⟨place, evaluates, fills⟩, fills.perm_iff distinct⟩
  · cases impossible

/-- A struct with two fields. -/
def point : StructDecl :=
  ⟨false, ⟨"Point", ⟨1, 7⟩⟩, [⟨⟨"x", ⟨1, 24⟩⟩, .primitive ⟨1, 27⟩ "i32", ⟨1, 24⟩⟩,
    ⟨⟨"y", ⟨1, 32⟩⟩, .optional ⟨1, 35⟩ (.primitive ⟨1, 36⟩ "i32"), ⟨1, 32⟩⟩], ⟨1, 1⟩⟩

/-- A literal for it. -/
def pointLiteral : Expr :=
  .structLit ⟨2, 34⟩ ⟨"Point", ⟨2, 34⟩⟩
    [(⟨"y", ⟨2, 42⟩⟩, .null ⟨2, 46⟩), (⟨"x", ⟨2, 53⟩⟩, .number ⟨2, 57⟩ "1")]

/-- A function that reads a field of the literal in a loop. -/
def reading : FnDecl :=
  ⟨false, none, ⟨"read", ⟨2, 4⟩⟩, [], .primitive ⟨2, 11⟩ "void",
    [.whileLoop ⟨2, 18⟩ (.bool ⟨2, 25⟩ true)
      [.expr ⟨2, 34⟩ (.member ⟨2, 60⟩ pointLiteral ⟨"x", ⟨2, 61⟩⟩)]], ⟨2, 1⟩⟩

/-- The literal is found below the member, and fills the fields in another order. -/
theorem structLit_of_check_nil_reading :
    Program.check [.struct point, .fn reading] = .ok [] ∧
      ∃ declared, .struct declared ∈ [Decl.struct point, .fn reading] ∧
        declared.name.name = "Point" ∧ (fieldNames declared).Nodup ∧
        (["y", "x"] : List String).Perm (fieldNames declared) := by
  have quiet : Program.check [.struct point, .fn reading] = .ok [] := by decide +kernel
  have member : valueAt [[], []] 1 (.member ⟨2, 60⟩ pointLiteral ⟨"x", ⟨2, 61⟩⟩) ∈
      Program.sites [.struct point, .fn reading] := by
    simp [Program.sites, Decl.sites, reading, Stmt.sitesOfAll, Stmt.sites, paramSites, paramLayer]
  obtain ⟨declared, there, named, distinct, -, order⟩ := structLit_of_check_nil quiet member rfl
    (.inner (List.mem_singleton.mpr rfl) .self)
  exact ⟨quiet, declared, there, named, distinct, order.mpr (by decide)⟩

/-- A struct and a literal for it that has two values for the one field. -/
def repeating : Program :=
  [.struct ⟨false, ⟨"P", ⟨1, 7⟩⟩, [⟨⟨"x", ⟨1, 20⟩⟩, .primitive ⟨1, 23⟩ "i32", ⟨1, 20⟩⟩], ⟨1, 1⟩⟩,
    .var ⟨false, true, ⟨"p", ⟨1, 36⟩⟩, none, some (.structLit ⟨1, 40⟩ ⟨"P", ⟨1, 40⟩⟩
      [(⟨"x", ⟨1, 44⟩⟩, .number ⟨1, 48⟩ "1"), (⟨"x", ⟨1, 52⟩⟩, .number ⟨1, 56⟩ "2")]), ⟨1, 30⟩⟩]

/-- The names in a struct literal that is accepted need not be the fields in some order. -/
theorem repeated_field_accepted :
    ¬ ∀ (source : String) (program : Program), Program.ofSource source = .ok program →
      program.check = .ok [] → ∀ site ∈ program.sites, ∀ whole, site.item = .value whole →
      ∀ position name values, Within Expr.components (.structLit position name values) whole →
        ∃ declared, .struct declared ∈ program ∧ declared.name.name = name.name ∧
          (givenNames values).Perm (fieldNames declared) := by
  intro complete
  have parsed : Program.ofSource "const P = struct { x: i32 }; const p = P{ .x = 1, .x = 2 };" =
      .ok repeating := by
    decide +kernel
  have quiet : repeating.check = .ok [] := by decide +kernel
  obtain ⟨declared, member, -, same⟩ := complete _ _ parsed quiet _ List.mem_cons_self _ rfl _ _ _
    .self
  have once : (fieldNames declared).length = 1 := by
    rcases List.mem_pair.mp member with isStruct | isVar
    · cases isStruct
      rfl
    · cases isVar
  have twice := same.length_eq
  rw [once] at twice
  exact absurd twice (by decide)

end SystemsLang.Typing
