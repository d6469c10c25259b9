import SystemsLang.Proofs.Typing.Faultless
import SystemsLang.Proofs.Typing.SecondPassReports

/-!
# Function bodies are checked independently

All declarations of a program are checked in one global scope, one after the other. A function
leaves in it nothing but the mark that its own declaration was reached, whatever its body is and
whatever the body reports. So another body changes neither what entering the declarations reports
nor what any other declaration reports (`attributed_withBody`).

To say so, the diagnostics of a program are parted by what raised them. A declaration without its
body stands for all that the rest of the program sees of it; two programs whose declarations are the
same without their bodies are checked side by side.
-/

namespace SystemsLang.Typing

open Syntax Checker

variable {registry : Registry} {scopes : Scopes} {program other : Program}

/-- The diagnostics of a program, parted by what raised them: entering the declarations in the first
pass, or the check of one of them in the second. -/
structure Attribution where
  entering : List Diagnostic
  checking : List (List Diagnostic)

/-- All diagnostics in the order in which they are raised. -/
def Attribution.all (attribution : Attribution) : List Diagnostic :=
  attribution.entering ++ attribution.checking.flatten

/-- What the second pass reports of each declaration. -/
def reportsOfEach (registry : Registry) :
    List Entered → Scopes → Except Fault (List (List Diagnostic))
  | [], _ => .ok []
  | first :: rest, scopes => do
    let outcome ← (checkEntered registry first).run scopes
    let later ← reportsOfEach registry rest outcome.scopes
    return outcome.reports :: later

/-- The diagnostics of a program with what raises them. -/
def attributed (program : Program) : Except Fault Attribution := do
  let (named, structScopes, defined) := defineStructs Registry.empty Scopes.empty program
  let (registry, fieldReports) ← defineFields named defined
  let entered := enterDecls registry structScopes program
  let each ← reportsOfEach registry entered.value.2 entered.value.1
  return ⟨fieldReports ++ entered.reports, each⟩

/-- An attribution is that of a program: it has one part for each declaration, and the diagnostics
of the program are its parts in reading order. -/
structure Attribution.AccountsFor (attribution : Attribution) (program : Program) : Prop where
  found : attributed program = .ok attribution
  length : attribution.checking.length = program.length
  check : program.check = .ok (Diagnostic.inOrder attribution.all)

/-- Two attributions are the same but for the check of the declaration at one place. -/
structure Attribution.SameBut (index : Nat) (before after : Attribution) : Prop where
  entering : after.entering = before.entering
  checking : ∀ place, place ≠ index → after.checking[place]? = before.checking[place]?

/-- The check of a declaration ends. -/
theorem ends_checkEntered (registry : Registry) (entered : Entered) :
    Ends (checkEntered registry entered) := by
  cases entered with
  | fn declared params result => exact ends_fnDecl registry declared params result
  | var declared stated => exact ends_bind (ends_check _) fun _ => ends_declare _ _ _
  | struct declared => exact ends_reach _ _

/-- The reports of a declaration stand before those of the declarations behind it. -/
theorem reportsOfEach_cons {first : Entered} {rest : List Entered} {outcome : Outcome Unit}
    {later : List (List Diagnostic)}
    (ran : (checkEntered registry first).run scopes = .ok outcome)
    (ranOn : reportsOfEach registry rest outcome.scopes = .ok later) :
    reportsOfEach registry (first :: rest) scopes = .ok (outcome.reports :: later) := by
  rw [reportsOfEach, ran]
  dsimp only [bind, Except.bind]
  rw [ranOn]
  rfl

/-- The second pass reports what each declaration reports, one after the other. -/
theorem reportsOfEach_eq_decls (registry : Registry) (entered : List Entered) (scopes : Scopes) :
    ∃ each last, reportsOfEach registry entered scopes = .ok each ∧
      each.length = entered.length ∧
      (decls registry entered).run scopes = .ok ⟨(), last, each.flatten⟩ := by
  induction entered generalizing scopes with
  | nil => exact ⟨[], scopes, rfl, rfl, rfl⟩
  | cons first rest inductionHypothesis =>
    obtain ⟨outcome, ran⟩ := ends_checkEntered registry first scopes
    obtain ⟨later, last, ranOn, sameLength, ranDecls⟩ := inductionHypothesis outcome.scopes
    refine ⟨outcome.reports :: later, last, reportsOfEach_cons ran ranOn, ?_, ?_⟩
    · rw [List.length_cons, List.length_cons, sameLength]
    · rw [decls_cons, run_bind_ok ran ranDecls, List.flatten_cons]

/-- The second pass is given what was found out about each declaration. -/
theorem value_enterDecls (registry : Registry) (scopes : Scopes) (program : Program) :
    (enterDecls registry scopes program).value.2 =
      program.map fun declared => (registry.entered declared).value := by
  induction program generalizing scopes with
  | nil => rfl
  | cons first rest inductionHypothesis =>
    cases first <;> simp [enterDecls, inductionHypothesis, Registry.entered]

/-- The attribution of a program, from what either pass ends in. -/
theorem attributed_of_passes {fieldReports : List Diagnostic} {each : List (List Diagnostic)}
    (defines : defineFields (defineStructs Registry.empty Scopes.empty program).1
      (defineStructs Registry.empty Scopes.empty program).2.2 = .ok (registry, fieldReports))
    (ran : reportsOfEach registry
      (enterDecls registry (defineStructs Registry.empty Scopes.empty program).2.1 program).value.2
      (enterDecls registry (defineStructs Registry.empty Scopes.empty program).2.1
        program).value.1 = .ok each) :
    attributed program = .ok ⟨fieldReports ++
      (enterDecls registry (defineStructs Registry.empty Scopes.empty program).2.1 program).reports,
      each⟩ := by
  unfold attributed
  dsimp only [bind, Except.bind]
  rw [defines]
  dsimp only
  rw [ran]
  rfl

/-- Every program has an attribution. -/
theorem exists_accountsFor (program : Program) :
    ∃ attribution : Attribution, attribution.AccountsFor program := by
  obtain ⟨⟨registry, fieldReports⟩, defines⟩ := defineFields_defineStructs program
  let entered := enterDecls registry (defineStructs Registry.empty Scopes.empty program).2.1 program
  obtain ⟨each, last, ran, sameLength, ranDecls⟩ :=
    reportsOfEach_eq_decls registry entered.value.2 entered.value.1
  refine ⟨_, attributed_of_passes defines ran, ?_, ?_⟩
  · rw [sameLength, value_enterDecls, List.length_map]
  · rw [Program.check, raised_of_passes defines ranDecls]
    rfl

/-- A declaration without its body, if it is a function. -/
def bodiless : Decl → Decl
  | .fn declared => .fn { declared with body := [] }
  | .var declared => .var declared
  | .struct declared => .struct declared

/-- The same of a declaration that was entered. -/
def Entered.bodiless : Entered → Entered
  | .fn declared params result => .fn { declared with body := [] } params result
  | .var declared stated => .var declared stated
  | .struct declared => .struct declared

/-- Bodies have no part in which structs are defined. -/
theorem defineStructs_bodiless (registry : Registry) (scopes : Scopes) (program : Program) :
    defineStructs registry scopes (program.map bodiless) =
      defineStructs registry scopes program := by
  induction program generalizing registry scopes with
  | nil => rfl
  | cons first rest inductionHypothesis =>
    cases first with
    | fn declared | var declared => exact inductionHypothesis registry scopes
    | struct declared =>
      rw [List.map_cons, bodiless, defineStructs, defineStructs]
      dsimp only
      split <;> simp only [inductionHypothesis]

/-- Nor in what is found out about the declarations, which are handed on with their bodies. -/
theorem enterDecls_bodiless (registry : Registry) (scopes : Scopes) (program : Program) :
    (enterDecls registry scopes (program.map bodiless)).reports =
        (enterDecls registry scopes program).reports ∧
      (enterDecls registry scopes (program.map bodiless)).value =
        ((enterDecls registry scopes program).value.1,
          (enterDecls registry scopes program).value.2.map Entered.bodiless) := by
  induction program generalizing scopes with
  | nil => exact ⟨rfl, rfl⟩
  | cons first rest inductionHypothesis =>
    cases first with
    | fn declared | var declared | struct declared =>
      simp [bodiless, enterDecls, inductionHypothesis, Entered.bodiless]

/-- The check of a function ends in the scopes in which its declaration is reached. -/
theorem scopes_fnDecl (registry : Registry) (declared : FnDecl) (params : List Ty) (result : Ty)
    {reached : Outcome Unit}
    (ran : (reach declared.name.name declared.name.position).run scopes = .ok reached) :
    ∃ reports, (fnDecl registry declared params result).run scopes =
      .ok ⟨(), reached.scopes, reports⟩ := by
  have body : Confined (do
      declareParams declared.params params
      stmts ⟨registry, ⟨declared.name.name, result⟩⟩ false declared.body) :=
    confined_bind (confined_declareParams declared.params params) fun _ =>
      confined_stmts _ false declared.body
  obtain ⟨inner, ranBody⟩ := run_inScope body reached.scopes
  have last : ∃ reports, (if needsValue result && !anyReturns declared.body then
      report (.missingReturn declared.name.name) declared.position else pure ()).run
        reached.scopes = .ok ⟨(), reached.scopes, reports⟩ := by
    split <;> exact ⟨_, rfl⟩
  obtain ⟨missing, ranLast⟩ := last
  exact ⟨_, by rw [fnDecl, run_bind_ok ran (run_bind_ok ranBody ranLast)]⟩

/-- Declarations that are the same without their bodies leave the same scopes. -/
theorem scopes_checkEntered {first second : Entered} (alike : first.bodiless = second.bodiless)
    (registry : Registry) (scopes : Scopes) :
    ∃ after reports others,
      (checkEntered registry first).run scopes = .ok ⟨(), after, reports⟩ ∧
        (checkEntered registry second).run scopes = .ok ⟨(), after, others⟩ := by
  cases first with
  | var declared stated | struct declared =>
    cases second <;> cases alike
    obtain ⟨outcome, ran⟩ := ends_checkEntered registry _ scopes
    exact ⟨_, _, _, ran, ran⟩
  | fn declared params result =>
    cases second with
    | var | struct => cases alike
    | fn declared' params' result' =>
      obtain ⟨same, rfl, rfl⟩ := Entered.fn.inj alike
      have named : declared.name = declared'.name := (FnDecl.mk.inj same).2.2.1
      obtain ⟨reached, ran⟩ := ends_reach declared.name.name declared.name.position scopes
      obtain ⟨reports, ranFirst⟩ := scopes_fnDecl registry declared params result ran
      rw [named] at ran
      obtain ⟨others, ranSecond⟩ := scopes_fnDecl registry declared' params result ran
      exact ⟨_, _, _, ranFirst, ranSecond⟩

/-- In two programs whose declarations are the same without their bodies, those that are the same
with their bodies report the same. -/
theorem reportsOfEach_bodiless {first second : List Entered}
    (alike : first.map Entered.bodiless = second.map Entered.bodiless) (registry : Registry)
    (scopes : Scopes) :
    ∃ each others, reportsOfEach registry first scopes = .ok each ∧
      reportsOfEach registry second scopes = .ok others ∧
      ∀ index : Nat, first[index]? = second[index]? → each[index]? = others[index]? := by
  induction first generalizing second scopes with
  | nil =>
    obtain rfl := List.map_eq_nil_iff.mp alike.symm
    exact ⟨[], [], rfl, rfl, fun _ _ => rfl⟩
  | cons head rest inductionHypothesis =>
    obtain ⟨head', rest', rfl, alikeHead, alikeRest⟩ := List.map_eq_cons_iff.mp alike.symm
    obtain ⟨after, reports, reports', ran, ran'⟩ :=
      scopes_checkEntered alikeHead.symm registry scopes
    obtain ⟨later, later', ranOn, ranOn', same⟩ := inductionHypothesis alikeRest.symm after
    refine ⟨_, _, reportsOfEach_cons ran ranOn, reportsOfEach_cons ran' ranOn', ?_⟩
    intro index sameEntered
    cases index with
    | succ index => exact same index sameEntered
    | zero =>
      obtain rfl := Option.some.inj sameEntered
      rw [ran] at ran'
      cases ran'
      rfl

/-- Programs whose declarations are the same without their bodies report the same when they are
entered, and so do those of their declarations that are the same with their bodies. -/
theorem attributed_bodiless (alike : program.map bodiless = other.map bodiless) :
    ∃ attribution others, attributed program = .ok attribution ∧
      attributed other = .ok others ∧ others.entering = attribution.entering ∧
      ∀ index : Nat, program[index]? = other[index]? →
        others.checking[index]? = attribution.checking[index]? := by
  have structs : defineStructs Registry.empty Scopes.empty other =
      defineStructs Registry.empty Scopes.empty program := by
    rw [← defineStructs_bodiless, ← defineStructs_bodiless _ _ program, alike]
  obtain ⟨⟨registry, fieldReports⟩, defines⟩ := defineFields_defineStructs program
  have definesToo := defines
  rw [← structs] at definesToo
  let named := (defineStructs Registry.empty Scopes.empty program).2.1
  obtain ⟨reports, values⟩ := enterDecls_bodiless registry named program
  obtain ⟨reports', values'⟩ := enterDecls_bodiless registry named other
  rw [alike] at reports values
  obtain ⟨scopesToo, enteredToo⟩ := Prod.mk.inj (values'.symm.trans values)
  obtain ⟨each, others, ran, ran', same⟩ := reportsOfEach_bodiless enteredToo.symm registry
    (enterDecls registry named program).value.1
  rw [← scopesToo] at ran'
  refine ⟨_, ⟨_, others⟩, attributed_of_passes defines ran, attributed_of_passes definesToo ?_,
    ?_, ?_⟩
  · rw [structs]
    exact ran'
  · rw [structs]
    exact congrArg (fieldReports ++ ·) (reports'.symm.trans reports)
  · intro index sameDecl
    refine (same index ?_).symm
    rw [value_enterDecls, value_enterDecls, List.getElem?_map, List.getElem?_map, sameDecl]

/-- Another body for one function of a program: what entering the declarations reports and what the
check of every other declaration reports stays as it was. -/
theorem attributed_withBody {index : Nat} {declared : FnDecl}
    (found : program[index]? = some (.fn declared)) (body : Block) :
    ∃ before after : Attribution, before.AccountsFor program ∧
      after.AccountsFor (program.set index (.fn { declared with body })) ∧
      before.SameBut index after := by
  have alike : program.map bodiless =
      (program.set index (.fn { declared with body })).map bodiless := by
    refine List.ext_getElem? fun place => ?_
    rw [List.getElem?_map, List.getElem?_map, List.getElem?_set]
    split
    · rename_i same
      obtain ⟨inside, -⟩ := List.getElem?_eq_some_iff.mp found
      rw [if_pos inside, ← same, found]
      rfl
    · rfl
  obtain ⟨before, after, ran, ran', entering, checking⟩ := attributed_bodiless alike
  obtain ⟨_, accounts⟩ := exists_accountsFor program
  obtain ⟨_, accounts'⟩ := exists_accountsFor (program.set index (.fn { declared with body }))
  obtain rfl := Except.ok.inj (ran.symm.trans accounts.found)
  obtain rfl := Except.ok.inj (ran'.symm.trans accounts'.found)
  refine ⟨before, after, accounts, accounts', entering, fun place differs => ?_⟩
  exact checking place (List.getElem?_set_ne (Ne.symm differs)).symm

/-- A function that uses a name that nothing declares. -/
def usesMissing (name : String) (line : Nat) : FnDecl :=
  ⟨false, none, ⟨name, ⟨line, 4⟩⟩, [], .primitive ⟨line, 9⟩ "void",
    [.expr ⟨line, 16⟩ (.ident ⟨line, 16⟩ "missing")], ⟨line, 1⟩⟩

/-- Two functions of one name, both of which use a name that nothing declares. -/
def twins : Program := [.fn (usesMissing "f" 1), .fn (usesMissing "f" 2)]

/-- The second function reports the same if the first is emptied. -/
theorem attributed_withBody_twins :
    twins[0]? = some (.fn (usesMissing "f" 1)) ∧
      ∃ before after : Attribution, before.AccountsFor twins ∧
        after.AccountsFor (twins.set 0 (.fn { usesMissing "f" 1 with body := [] })) ∧
        before.SameBut 0 after :=
  ⟨rfl, attributed_withBody rfl []⟩

end SystemsLang.Typing
