import SystemsLang.Proofs.Typing.Session

/-!
# Expressions in a session

To check an expression in a session is to look at the session and to raise diagnostics: the type is
the one that the expression has in the context of the session, and nothing else of the session
changes (`expr_eq_reading`). So the parts of an expression are all checked in the same context,
although each of them runs in the session that the one before left behind.
-/

namespace SystemsLang.Typing.Session

open Syntax Checked

variable {α β : Type}

/-- A session in which nothing more is raised is the same. -/
theorem raising_nil (session : Session) : session.raising [] = session := by
  rw [raising, List.append_nil]

/-- Diagnostics are raised one behind another. -/
theorem raising_raising (session : Session) (reports more : List Diagnostic) :
    (session.raising reports).raising more = session.raising (reports ++ more) := by
  rw [raising, raising, raising, List.append_assoc]

/-- Looking something up never fails, and raises what is found. -/
theorem run_reading (found : Context → Checked α) (session : Session) :
    reading found session =
      .ok ((found session.context).value, session.raising (found session.context).reports) := rfl

/-- To raise diagnostics is to look something up that the session has no part in. -/
theorem raise_eq_reading (found : Checked α) : raise found = reading fun _ => found := rfl

/-- To do nothing is to look something up that raises nothing. -/
theorem pure_eq_reading (value : α) : (pure value : Run α) = reading fun _ => pure value := by
  funext session
  rw [run_reading]
  exact congrArg (fun same => Except.ok (value, same)) (raising_nil session).symm

/-- Two steps that only raise diagnostics are such a step together: the second still sees what the
first saw. -/
theorem reading_bind (first : Context → Checked α) (second : α → Context → Checked β) :
    (reading first >>= fun value => reading (second value)) =
      reading fun context => first context >>= fun value => second value context := by
  funext session
  refine Eq.trans ?_ (run_reading _ session).symm
  rw [reports_bind, ← raising_raising]
  rfl

/-- A step that raises diagnostics for each member of a list. -/
theorem forM_reading (step : α → Checked Unit) (values : List α) :
    (values.forM fun value => reading fun _ => step value) =
      reading fun _ => Checked.sequence (values.map step) := by
  induction values with
  | nil => exact pure_eq_reading ()
  | cons first rest inductionHypothesis =>
    have behind := reading_bind (fun _ => step first) fun _ _ => Checked.sequence (rest.map step)
    rw [← inductionHypothesis] at behind
    exact behind

/-- Looking something up changes nothing for the step that it is looked up for. -/
theorem run_asking_bind (found : Context → α) (step : α → Run β) (session : Session) :
    (asking found >>= step) session = step (found session.context) session := by
  have same : (asking found >>= step) session = step (found session.context)
      (session.raising []) := rfl
  rw [same, raising_nil]

/-- Parts, the type of each against a rule. -/
def partsFit (rule : Position → Ty → Checked Unit) : List Part → Checked Unit
  | [] => pure ()
  | part :: rest => do
    let type ← part.checked
    rule part.position type
    partsFit rule rest

/-- Where nothing is asked of the parts they are checked for their effect. -/
theorem partsFit_ignore (parts : List Part) :
    partsFit (fun _ _ => pure ()) parts = ignoreAll parts := by
  induction parts with
  | nil => rfl
  | cons part rest inductionHypothesis =>
    rw [partsFit, inductionHypothesis]
    rfl

/-- Parts that have to fit an element type are the elements of an array literal. -/
theorem partsFit_element (element : Ty) (parts : List Part) :
    partsFit (fun position actual => expectCoercible position element actual) parts =
      elementsFit element parts := by
  induction parts with
  | nil => rfl
  | cons part rest inductionHypothesis => rw [partsFit, inductionHypothesis, elementsFit]

/-- Values of fields, each against a rule for the field. -/
def valuesFit (rule : Ident → Position → Ty → Checked Unit) :
    List (Ident × Part) → Checked Unit
  | [] => pure ()
  | (name, part) :: rest => do
    let type ← part.checked
    rule name part.position type
    valuesFit rule rest

/-- Where nothing is asked of the values they are checked for their effect. -/
theorem valuesFit_ignore (values : List (Ident × Part)) :
    valuesFit (fun _ _ _ => pure ()) values = ignoreAll (values.map Prod.snd) := by
  induction values with
  | nil => rfl
  | cons value rest inductionHypothesis =>
    rw [valuesFit, inductionHypothesis]
    rfl

/-- Values that have to fit their fields are those of a struct literal. -/
theorem valuesFit_field (struct : String) (fields : Fields) (values : List (Ident × Part)) :
    valuesFit (fieldFits struct fields) values = fieldsFit struct fields values := by
  induction values with
  | nil => rfl
  | cons value rest inductionHypothesis => rw [valuesFit, inductionHypothesis, fieldsFit]

/-- There are as many parts as expressions. -/
theorem length_parts (context : Context) (values : List Expr) :
    (parts context values).length = values.length := by
  induction values with
  | nil => rfl
  | cons first rest inductionHypothesis =>
    rw [parts, List.length_cons, inductionHypothesis, List.length_cons]

/-- The fields that are given values are those that the values are written for. -/
theorem any_fieldParts (context : Context) (values : List (Ident × Expr)) (name : String) :
    ((fieldParts context values).any fun value => value.1.name == name) =
      values.any fun value => value.1.name == name := by
  induction values with
  | nil => rfl
  | cons value rest inductionHypothesis =>
    rw [fieldParts, List.any_cons, List.any_cons, inductionHypothesis]

mutual

/-- Checking an expression only raises the diagnostics that its type comes with. -/
theorem expr_eq_reading (value : Expr) :
    expr value = reading fun context => exprType context value := by
  cases value with
  | number position text | string position text | bool position value | null position
  | undefined position =>
    rw [expr, pure_eq_reading]
    simp only [exprType]
  | ident position name =>
    rw [expr]
    simp only [exprType]
  | binary position operator left right =>
    rw [expr]
    simp only [expr_eq_reading left, expr_eq_reading right, raise_eq_reading, reading_bind,
      exprType]
  | unary position operator operand =>
    rw [expr]
    simp only [expr_eq_reading operand, reading_bind, exprType]
  | call position callee arguments =>
    rw [expr]
    simp only [expr_eq_reading callee, exprs_eq_reading, exprsAgainst_eq_reading,
      raise_eq_reading, exprType]
    rw [← reading_bind]
    -- What the arguments are checked against depends on the type that is found for the callee.
    refine bind_congr fun type => ?_
    cases type with
    | function params result =>
      simp only [callType, callFits, length_parts]
      split <;> simp only [partsFit_ignore, pure_eq_reading, reading_bind, bind_assoc]
    | _ => simp only [partsFit_ignore, pure_eq_reading, reading_bind, callType]
  | member position object field =>
    rw [expr]
    simp only [expr_eq_reading object, reading_bind, exprType]
  | index position object subscript =>
    rw [expr]
    simp only [expr_eq_reading object, expr_eq_reading subscript, raise_eq_reading, reading_bind,
      exprType]
  | deref position object | unwrap position object =>
    rw [expr]
    simp only [expr_eq_reading object, raise_eq_reading, reading_bind, exprType]
  | assign position operator target value =>
    rw [expr]
    simp only [expr_eq_reading target, expr_eq_reading value, raise_eq_reading, exprType,
      assignType, pure_eq_reading]
    split
    · simp only [reading_bind]
      rfl
    · simp only [reading_bind]
  | structLit position name values =>
    rw [expr]
    simp only [fieldValues_eq_reading, raise_eq_reading, exprType]
    funext session
    rw [run_asking_bind, reading, structLitType]
    -- Without the struct there is nothing to check the values against, and no field can be missing.
    cases session.context.registry.get? name.name with
    | none => simp only [valuesFit_ignore, pure_eq_reading, reading_bind, reading]
    | some fields =>
      simp only [valuesFit_field, forM_reading, pure_eq_reading, reading_bind, reading,
        fieldsPresent, any_fieldParts]
  | arrayLit position length elementExpr elements =>
    rw [expr]
    simp only [exprs_eq_reading, raise_eq_reading, pure_eq_reading, reading_bind, exprType,
      arrayLitType, partsFit_element, length_parts]

/-- Checking several expressions only raises diagnostics. -/
theorem exprs_eq_reading (rule : Position → Ty → Checked Unit) (values : List Expr) :
    exprs rule values = reading fun context => partsFit rule (parts context values) := by
  match values with
  | [] =>
    rw [exprs, pure_eq_reading]
    rfl
  | first :: rest =>
    rw [exprs]
    simp only [expr_eq_reading first, exprs_eq_reading rule rest, raise_eq_reading, reading_bind,
      parts, partsFit]

/-- So does checking arguments. -/
theorem exprsAgainst_eq_reading (place : Nat) (values : List Expr) (params : List Ty) :
    exprsAgainst place values params =
      reading fun context => argumentsFit place (parts context values) params := by
  match values, params with
  | [], _ | _ :: _, [] =>
    rw [exprsAgainst, pure_eq_reading]
    · rfl
    · simp
  | first :: rest, expected :: params =>
    rw [exprsAgainst]
    simp only [expr_eq_reading first, exprsAgainst_eq_reading (place + 1) rest params,
      raise_eq_reading, reading_bind, parts, argumentsFit]

/-- So does checking the values of fields. -/
theorem fieldValues_eq_reading (rule : Ident → Position → Ty → Checked Unit)
    (values : List (Ident × Expr)) :
    fieldValues rule values =
      reading fun context => valuesFit rule (fieldParts context values) := by
  match values with
  | [] =>
    rw [fieldValues, pure_eq_reading]
    rfl
  | (name, value) :: rest =>
    rw [fieldValues]
    simp only [expr_eq_reading value, fieldValues_eq_reading rule rest, raise_eq_reading,
      reading_bind, fieldParts, valuesFit]

end

end SystemsLang.Typing.Session
