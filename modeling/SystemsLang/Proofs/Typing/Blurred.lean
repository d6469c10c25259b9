import Mathlib.Data.List.Forall2
import SystemsLang.Typing.Expr

/-!
# Checking with less known types

An undefined name is reported once and has the unknown type from then on, which goes with
everything, so that the one mistake is not reported again wherever the value is used. This holds of
every rule but those that look into a pointer: the address of something of the unknown type is a
pointer to the unknown type, and such a pointer does not go with other pointers.

To say so, two checks are compared. In the one all types are known and no diagnostic is raised; in
the other some of the types are blurred, which means that the unknown type stands in their place or
in the place of what they point to. Each rule of the checker then raises in the second check no
diagnostic at all or one about a pointer to the unknown type, and finds a type that is a blurred
form of what it finds in the first.
-/

namespace SystemsLang.Typing

open Syntax Checked

/-- Whether a type is a pointer to the unknown type, or one to such a pointer. -/
def Ty.pointsToUnknown : Ty → Bool
  | .pointer _ pointee => pointee.isUnknown || pointee.pointsToUnknown
  | _ => false

/-- Whether a cause is about a pointer to the unknown type. -/
def Diagnostic.Cause.blamesUnknownPointer : Diagnostic.Cause → Bool
  | .typeMismatch first second | .argumentMismatch _ first second | .incomparable first second =>
    first.pointsToUnknown || second.pointsToUnknown
  | .noMembers object | .notIndexable object => object.pointsToUnknown
  | _ => false

/-- The second type is the first, or less is known of it: the unknown type stands in its place or in
the place of what it points to. Only where addresses are taken can something point to the unknown
type, and whether that may be written to is not known either. -/
inductive Blurred (addressed : Bool) : Ty → Ty → Prop
  | same (type : Ty) : Blurred addressed type type
  | unknown (type : Ty) : Blurred addressed type .unknown
  | pointer {isConst : Bool} {pointee blurred : Ty} (taken : addressed = true)
      (inner : Blurred addressed pointee blurred) :
    Blurred addressed (.pointer isConst pointee) (.pointer isConst blurred)
  | address {isConst isConst' : Bool} {pointee : Ty} (taken : addressed = true) :
    Blurred addressed (.pointer isConst pointee) (.pointer isConst' .unknown)

/-- What is raised when names at some positions are not defined: one diagnostic for each of them in
order, and between these, if addresses are taken, diagnostics about pointers to the unknown type. -/
inductive Cascade (new : String) (addressed : Bool) : List Position → List Diagnostic → Prop
  | nil : Cascade new addressed [] []
  | undefined {hits : List Position} {reports : List Diagnostic} (position : Position)
      (rest : Cascade new addressed hits reports) :
    Cascade new addressed (position :: hits) (⟨.undefinedVariable new, position⟩ :: reports)
  | consequence {hits : List Position} {reports : List Diagnostic} {diagnostic : Diagnostic}
      (taken : addressed = true) (blames : diagnostic.cause.blamesUnknownPointer = true)
      (rest : Cascade new addressed hits reports) :
    Cascade new addressed hits (diagnostic :: reports)

variable {new : String} {addressed : Bool} {type type' first first' second second' : Ty}
  {hits more : List Position} {reports others : List Diagnostic}

namespace Blurred

/-- A blurred type is the type itself, or unknown, or it points to something unknown. -/
theorem kept_or_unknown (blurred : Blurred addressed type type') :
    type' = type ∨ type' = .unknown ∨ addressed = true ∧ type'.pointsToUnknown = true := by
  induction blurred with
  | same => exact .inl rfl
  | unknown => exact .inr (.inl rfl)
  | address taken => exact .inr (.inr ⟨taken, rfl⟩)
  | pointer taken inner inductionHypothesis =>
    rcases inductionHypothesis with rfl | rfl | ⟨-, unknown⟩
    · exact .inl rfl
    · exact .inr (.inr ⟨taken, rfl⟩)
    · exact .inr (.inr ⟨taken, by simp [Ty.pointsToUnknown, unknown]⟩)

/-- What holds of a type that is no pointer holds of a blurred form of it, if it holds of the
unknown type. -/
theorem keeps {holds : Ty → Bool} (blurred : Blurred addressed type type')
    (ofUnknown : holds .unknown = true)
    (ofPointer : ∀ isConst pointee, holds (.pointer isConst pointee) = false)
    (known : holds type = true) : holds type' = true := by
  cases blurred with
  | same => exact known
  | unknown => exact ofUnknown
  | pointer taken inner | address taken =>
    rw [ofPointer] at known
    cases known

/-- What may be a number may still be one. -/
theorem mayBeNumeric (blurred : Blurred addressed type type')
    (known : mayBeNumeric type = true) : Typing.mayBeNumeric type' = true :=
  blurred.keeps rfl (fun _ _ => rfl) known

/-- What may be a truth value may still be one. -/
theorem mayBeBool (blurred : Blurred addressed type type') (known : mayBeBool type = true) :
    Typing.mayBeBool type' = true :=
  blurred.keeps rfl (fun _ _ => rfl) known

/-- What may be an integer may still be one. -/
theorem mayBeInteger (blurred : Blurred addressed type type')
    (known : (type.isUnknown || type.isInteger) = true) :
    (type'.isUnknown || type'.isInteger) = true := by
  let holds (type : Ty) : Bool := type.isUnknown || type.isInteger
  have kept : holds type' = true := blurred.keeps rfl (fun _ _ => rfl) known
  exact kept

/-- What goes with a type still does after both are blurred, unless one of them points to something
unknown then. -/
theorem coercesTo (actual : Blurred addressed first first')
    (expected : Blurred addressed second second') (fits : first.coercesTo second = true) :
    first'.coercesTo second' = true ∨
      addressed = true ∧ (second'.pointsToUnknown || first'.pointsToUnknown) = true := by
  have fromUnknown (type : Ty) : Ty.unknown.coercesTo type = true := by
    cases type <;> simp [Ty.coercesTo, Ty.isUnknown]
  have toUnknown (type : Ty) : type.coercesTo .unknown = true := by
    simp [Ty.coercesTo, Ty.isUnknown]
  rcases actual.kept_or_unknown with rfl | rfl | ⟨taken, points⟩
  · rcases expected.kept_or_unknown with rfl | rfl | ⟨taken, points⟩
    · exact .inl fits
    · exact .inl (toUnknown _)
    · exact .inr ⟨taken, by simp [points]⟩
  · exact .inl (fromUnknown _)
  · exact .inr ⟨taken, by simp [points]⟩

/-- The same of what can be compared. -/
theorem isComparableWith (left : Blurred addressed first first')
    (right : Blurred addressed second second') (fits : first.isComparableWith second = true) :
    first'.isComparableWith second' = true ∨
      addressed = true ∧ (first'.pointsToUnknown || second'.pointsToUnknown) = true := by
  rcases Bool.or_eq_true_iff.mp fits with forward | backward
  · rcases left.coercesTo right forward with still | ⟨taken, points⟩
    · exact .inl (Bool.or_eq_true_iff.mpr (.inl still))
    · exact .inr ⟨taken, by rw [Bool.or_comm]; exact points⟩
  · rcases right.coercesTo left backward with still | consequence
    · exact .inl (Bool.or_eq_true_iff.mpr (.inr still))
    · exact .inr consequence

end Blurred

/-- Diagnostics raised one after the other. -/
theorem Cascade.append (before : Cascade new addressed hits reports)
    (behind : Cascade new addressed more others) :
    Cascade new addressed (hits ++ more) (reports ++ others) := by
  induction before with
  | nil => exact behind
  | undefined position rest inductionHypothesis => exact .undefined position inductionHypothesis
  | consequence taken blames rest inductionHypothesis =>
    exact .consequence taken blames inductionHypothesis

/-- If the first check raises no diagnostic, then the second raises those for the given positions
and what follows from them, and what they find is related. -/
def Follows (new : String) (addressed : Bool) {α β : Type} (related : α → β → Prop)
    (hits : List Position) (clean : Checked α) (other : Checked β) : Prop :=
  clean.reports = [] →
    Cascade new addressed hits other.reports ∧ related clean.value other.value

/-- Of checks that are made for their diagnostics alone the results do not matter. -/
abbrev FollowsUnit (new : String) (addressed : Bool) :
    List Position → Checked Unit → Checked Unit → Prop :=
  Follows new addressed fun _ _ => True

variable {α α' β β' : Type} {related : α → α' → Prop} {relatedNext : β → β' → Prop}
  {position position' : Position} {cause cause' : Diagnostic.Cause}

/-- What is there already raises nothing. -/
theorem follows_pure {value : α} {value' : α'} (holds : related value value') :
    Follows new addressed related [] (pure value) (pure value') :=
  fun _ => ⟨.nil, holds⟩

/-- Two checks in sequence follow if both do. -/
theorem follows_bind {clean : Checked α} {other : Checked α'} {next : α → Checked β}
    {otherNext : α' → Checked β'} (begins : Follows new addressed related hits clean other)
    (goesOn : ∀ value value', related value value' →
      Follows new addressed relatedNext more (next value) (otherNext value')) :
    Follows new addressed relatedNext (hits ++ more) (clean >>= next) (other >>= otherNext) := by
  intro quiet
  obtain ⟨quietFirst, quietNext⟩ := List.append_eq_nil_iff.mp quiet
  obtain ⟨before, holds⟩ := begins quietFirst
  obtain ⟨behind, holdsNext⟩ := goesOn _ _ holds quietNext
  exact ⟨before.append behind, holdsNext⟩

/-- So do they if no undefined name is in the second one. -/
theorem follows_bind_last {clean : Checked α} {other : Checked α'} {next : α → Checked β}
    {otherNext : α' → Checked β'} (begins : Follows new addressed related hits clean other)
    (goesOn : ∀ value value', related value value' →
      Follows new addressed relatedNext [] (next value) (otherNext value')) :
    Follows new addressed relatedNext hits (clean >>= next) (other >>= otherNext) := by
  have whole := follows_bind begins goesOn
  rwa [List.append_nil] at whole

/-- And if no undefined name is in the first one. -/
theorem follows_bind_first {clean : Checked α} {other : Checked α'} {next : α → Checked β}
    {otherNext : α' → Checked β'} (begins : Follows new addressed related [] clean other)
    (goesOn : ∀ value value', related value value' →
      Follows new addressed relatedNext more (next value) (otherNext value')) :
    Follows new addressed relatedNext more (clean >>= next) (other >>= otherNext) :=
  follows_bind begins goesOn

/-- What is checked for the diagnostics alone follows if the check does. -/
theorem follows_ignore {clean : Checked α} {other : Checked α'}
    (follows : Follows new addressed related hits clean other) :
    FollowsUnit new addressed hits (ignore clean) (ignore other) :=
  fun quiet => ⟨(follows quiet).1, trivial⟩

/-- A diagnostic that is not raised in the first check is not raised in the second, or is about a
pointer to the unknown type there. -/
theorem follows_reportIf {condition condition' : Bool}
    (keeps : condition = false →
      condition' = false ∨ addressed = true ∧ cause'.blamesUnknownPointer = true) :
    FollowsUnit new addressed [] (reportIf condition cause position)
      (reportIf condition' cause' position') := by
  intro quiet
  cases condition with
  | true => cases quiet
  | false =>
    cases condition' with
    | false => exact ⟨.nil, trivial⟩
    | true =>
      rcases keeps rfl with impossible | ⟨taken, blames⟩
      · cases impossible
      · exact ⟨.consequence taken blames .nil, trivial⟩

/-- The same of a diagnostic that is raised unless something holds. -/
theorem follows_reportUnless {holds holds' : Bool}
    (keeps : holds = true → holds' = true ∨ addressed = true ∧ cause'.blamesUnknownPointer = true) :
    FollowsUnit new addressed [] (reportIf (!holds) cause position)
      (reportIf (!holds') cause' position') := by
  refine follows_reportIf fun unreported => ?_
  rw [Bool.not_eq_false'] at unreported ⊢
  exact keeps unreported

/-- Nothing follows from a check that raises a diagnostic. -/
theorem follows_of_reports {clean : Checked α} {other : Checked α'} (raises : clean.reports ≠ []) :
    Follows new addressed related hits clean other :=
  fun quiet => absurd quiet raises

/-- If the first check raises a diagnostic in the place of a type, there is nothing to follow. -/
theorem follows_unknownAfter {other : Checked α'} {related : Ty → α' → Prop} :
    Follows new addressed related hits (unknownAfter cause position) other :=
  fun quiet => nomatch quiet

/-- What may stand for a type still may when less is known, or a pointer to the unknown type is
blamed. -/
theorem follows_expectCoercible (expected : Blurred addressed first first')
    (actual : Blurred addressed second second') :
    FollowsUnit new addressed [] (expectCoercible position first second)
      (expectCoercible position' first' second') :=
  follows_reportUnless (actual.coercesTo expected)

/-- The rule for binary operators, when less is known about the operands. -/
theorem follows_binaryType {operator : BinaryOp} (left : Blurred addressed first first')
    (right : Blurred addressed second second') :
    Follows new addressed (Blurred addressed) [] (binaryType position operator first second)
      (binaryType position' operator first' second') := by
  unfold binaryType
  cases operator.operatorClass with
  | arithmetic =>
    dsimp only
    split
    · rename_i numeric
      obtain ⟨leftNumeric, rightNumeric⟩ := Bool.and_eq_true_iff.mp numeric
      rw [if_pos (Bool.and_eq_true_iff.mpr
        ⟨left.mayBeNumeric leftNumeric, right.mayBeNumeric rightNumeric⟩)]
      exact follows_pure left
    · exact follows_unknownAfter
  | comparison =>
    exact follows_bind_last (follows_reportUnless (left.isComparableWith right)) fun _ _ _ =>
      follows_pure (.same .bool)
  | logical =>
    refine follows_bind_last (follows_reportUnless fun boolean => .inl ?_) fun _ _ _ =>
      follows_pure (.same .bool)
    obtain ⟨leftBoolean, rightBoolean⟩ := Bool.and_eq_true_iff.mp boolean
    exact Bool.and_eq_true_iff.mpr ⟨left.mayBeBool leftBoolean, right.mayBeBool rightBoolean⟩

/-- The rule for `try`, when less is known about the operand. -/
theorem follows_attemptedType (blurred : Blurred addressed type type') :
    Follows new addressed (Blurred addressed) [] (attemptedType position type)
      (attemptedType position' type') := by
  cases type with
  | errorUnion inner =>
    cases blurred with
    | same => exact follows_pure (.same inner)
    | unknown => exact follows_pure (.unknown inner)
  | unknown => cases blurred <;> exact follows_pure (.same .unknown)
  | _ => exact follows_unknownAfter

/-- The rule for elements, when less is known about what is subscripted. -/
theorem follows_elementType (blurred : Blurred addressed type type') :
    Follows new addressed (Blurred addressed) [] (elementType position type)
      (elementType position' type') := by
  cases type with
  | array length element | slice isConst element =>
    cases blurred with
    | same => exact follows_pure (.same element)
    | unknown => exact follows_pure (.unknown element)
  | unknown => cases blurred <;> exact follows_pure (.same .unknown)
  | pointer isConst pointee =>
    cases pointee with
    | array length element =>
      -- Of a pointer to an array the array may have become unknown.
      have unindexable {isConst' : Bool} (taken : addressed = true) :
          Follows new addressed (Blurred addressed) [] (pure element)
            (elementType position' (.pointer isConst' .unknown)) :=
        fun _ => ⟨.consequence taken rfl .nil, .unknown element⟩
      cases blurred with
      | same => exact follows_pure (.same element)
      | unknown => exact follows_pure (.unknown element)
      | address taken => exact unindexable taken
      | pointer taken inner =>
        cases inner with
        | same => exact follows_pure (.same element)
        | unknown => exact unindexable taken
    | _ => exact follows_unknownAfter
  | _ => exact follows_unknownAfter

/-- The rule for subscripts, when less is known about them. -/
theorem follows_subscriptFits (blurred : Blurred addressed type type') :
    FollowsUnit new addressed [] (subscriptFits position type) (subscriptFits position' type') :=
  follows_reportUnless fun integral => .inl (blurred.mayBeInteger integral)

/-- The rule for dereferences, when less is known about the pointer. -/
theorem follows_pointeeType (blurred : Blurred addressed type type') :
    Follows new addressed (Blurred addressed) [] (pointeeType position type)
      (pointeeType position' type') := by
  cases type with
  | pointer isConst pointee =>
    cases blurred with
    | same => exact follows_pure (.same pointee)
    | unknown | address taken => exact follows_pure (.unknown pointee)
    | pointer taken inner => exact follows_pure inner
  | unknown => cases blurred <;> exact follows_pure (.same .unknown)
  | _ => exact follows_unknownAfter

/-- The rule for unwrapping, when less is known about what is unwrapped. -/
theorem follows_unwrappedType (blurred : Blurred addressed type type') :
    Follows new addressed (Blurred addressed) [] (unwrappedType position type)
      (unwrappedType position' type') := by
  cases type with
  | optional inner =>
    cases blurred with
    | same => exact follows_pure (.same inner)
    | unknown => exact follows_pure (.unknown inner)
  | unknown => cases blurred <;> exact follows_pure (.same .unknown)
  | _ => exact follows_unknownAfter

/-- The rule for assignments, when less is known about target and value. -/
theorem follows_assignmentFits {operator : Option BinaryOp} {target target' : Position}
    (expected : Blurred addressed first first') (actual : Blurred addressed second second') :
    FollowsUnit new addressed [] (assignmentFits operator target position first second)
      (assignmentFits operator target' position' first' second') := by
  cases operator with
  | none => exact follows_expectCoercible expected actual
  | some operator =>
    unfold assignmentFits
    dsimp only
    split
    · rename_i numeric
      obtain ⟨expectedNumeric, actualNumeric⟩ := Bool.and_eq_true_iff.mp numeric
      rw [if_pos (Bool.and_eq_true_iff.mpr
        ⟨expected.mayBeNumeric expectedNumeric, actual.mayBeNumeric actualNumeric⟩)]
      exact follows_expectCoercible expected actual
    · exact fun quiet => nomatch quiet

end SystemsLang.Typing
