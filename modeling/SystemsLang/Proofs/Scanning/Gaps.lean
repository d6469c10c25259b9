import SystemsLang.Proofs.Scanning.Cuts

/-!
# Gaps and separators

What may stand between two lexemes, said without the scanner: blank characters and comments, where a
comment runs from two slashes to the end of its line. In front of a lexeme every comment is ended by
a line break (`ClosedGap`); the gap at the end of a text may also end in a comment that the text
cuts short (`Gap`). Cutting the gap off a text takes such a gap and stops at the first character
that is not part of one.

A separator is a closed gap that begins with a blank, so that nothing in front of it can go on into
it. Behind a closed gap a text has the lexemes it has without it (`cut_closedGap`).
-/

namespace SystemsLang.Token

/-- Blank characters and comments, each comment with the line break that ends it. -/
inductive ClosedGap : List Char → Prop
  | nil : ClosedGap []
  | blank {character : Char} {rest : List Char} (isBlank : Text.isBlank character = true)
      (later : ClosedGap rest) : ClosedGap (character :: rest)
  | comment {body rest : List Char} (oneLine : '\n' ∉ body) (later : ClosedGap rest) :
    ClosedGap ('/' :: '/' :: (body ++ '\n' :: rest))

/-- Blank characters and comments up to the end of a text, which may end the last comment. -/
inductive Gap : List Char → Prop
  | closed {gap : List Char} (isClosed : ClosedGap gap) : Gap gap
  | comment {gap body : List Char} (isClosed : ClosedGap gap) (oneLine : '\n' ∉ body) :
    Gap (gap ++ '/' :: '/' :: body)

/-- A closed gap that begins with a blank. -/
inductive Separator : List Char → Prop
  | mk {first : Char} {rest : List Char} (isBlank : Text.isBlank first = true)
      (later : ClosedGap rest) : Separator (first :: rest)

variable {gap text rest : List Char} {character : Char}

/-- A gap goes on in front of another. -/
theorem Gap.blank (isBlank : Text.isBlank character = true) (isGap : Gap rest) :
    Gap (character :: rest) := by
  cases isGap with
  | closed isClosed => exact .closed (.blank isBlank isClosed)
  | comment isClosed oneLine => exact .comment (.blank isBlank isClosed) oneLine

/-- So does a comment with its line break. -/
theorem Gap.afterComment {body : List Char} (oneLine : '\n' ∉ body) (isGap : Gap rest) :
    Gap ('/' :: '/' :: (body ++ '\n' :: rest)) := by
  cases isGap with
  | closed isClosed => exact .closed (.comment oneLine isClosed)
  | comment isClosed last =>
    have whole := Gap.comment (ClosedGap.comment oneLine isClosed) last
    simpa using whole

/-- Inside a comment the rest of the text is passed over if it has no line break. -/
theorem splitGap_lastLine (oneLine : '\n' ∉ text) : splitGap true text = (text, []) := by
  induction text with
  | nil => rfl
  | cons first rest inductionHypothesis =>
    rw [List.mem_cons, not_or] at oneLine
    obtain ⟨differs, restOneLine⟩ := oneLine
    rw [splitGap, bne_iff_ne.mpr (Ne.symm differs), inductionHypothesis restOneLine]
    rfl

/-- Otherwise the rest of the line is passed over, and its break ends the comment. -/
theorem splitGap_line {body : List Char} (oneLine : '\n' ∉ body) (text : List Char) :
    splitGap true (body ++ '\n' :: text) =
      (body ++ '\n' :: (splitGap false text).1, (splitGap false text).2) := by
  induction body with
  | nil => rfl
  | cons first rest inductionHypothesis =>
    rw [List.mem_cons, not_or] at oneLine
    obtain ⟨differs, restOneLine⟩ := oneLine
    rw [List.cons_append, splitGap, bne_iff_ne.mpr (Ne.symm differs),
      inductionHypothesis restOneLine]
    rfl

/-- Two slashes begin a comment. -/
theorem splitGap_slashes (text : List Char) :
    splitGap false ('/' :: '/' :: text) =
      ('/' :: '/' :: (splitGap true text).1, (splitGap true text).2) := by
  rw [splitGap, splitGap]
  rfl

/-- A comment with its line break belongs to the gap that is cut off. -/
theorem splitGap_closedComment {body : List Char} (oneLine : '\n' ∉ body) (text : List Char) :
    splitGap false ('/' :: '/' :: (body ++ '\n' :: text)) =
      ('/' :: '/' :: (body ++ '\n' :: (splitGap false text).1), (splitGap false text).2) := by
  rw [splitGap_slashes, splitGap_line oneLine]

/-- What is cut off the front of a text is a gap, which is closed if anything is left; and what is
left begins with no blank. -/
theorem splitGap_sound (text : List Char) :
    Gap (splitGap false text).1 ∧
      ((splitGap false text).2 ≠ [] → ClosedGap (splitGap false text).1) ∧
      ∀ first ∈ (splitGap false text).2.head?, Text.isBlank first = false := by
  induction length : text.length using Nat.strongRecOn generalizing text with
  | _ size inductionHypothesis =>
  subst length
  match text with
  | [] => exact ⟨.closed .nil, fun impossible => absurd rfl impossible, fun _ impossible =>
      nomatch impossible⟩
  | first :: rest =>
    by_cases comment : ∃ later, first = '/' ∧ rest = '/' :: later
    · obtain ⟨later, rfl, rfl⟩ := comment
      by_cases broken : '\n' ∈ later
      · obtain ⟨body, behind, rfl, oneLine⟩ := List.eq_append_cons_of_mem broken
        have shorter : behind.length < ('/' :: '/' :: (body ++ '\n' :: behind)).length := by
          simp only [List.length_cons, List.length_append]
          omega
        obtain ⟨isGap, closed, notBlank⟩ := inductionHypothesis behind.length shorter behind rfl
        rw [splitGap_closedComment oneLine]
        exact ⟨isGap.afterComment oneLine, fun left => .comment oneLine (closed left), notBlank⟩
      · rw [splitGap_slashes, splitGap_lastLine broken]
        exact ⟨.comment .nil broken, fun impossible => absurd rfl impossible,
          fun _ impossible => nomatch impossible⟩
    · have single : splitGap false (first :: rest) =
          if Text.isBlank first then (splitGap false rest).map (first :: ·) id
          else ([], first :: rest) := by
        rw [splitGap]
        rintro later rfl rfl
        exact comment ⟨later, rfl, rfl⟩
      cases isBlank : Text.isBlank first with
      | true =>
        obtain ⟨isGap, closed, notBlank⟩ :=
          inductionHypothesis rest.length (Nat.lt_succ_self _) rest rfl
        rw [single, isBlank, if_pos rfl]
        exact ⟨isGap.blank isBlank, fun left => .blank isBlank (closed left), notBlank⟩
      | false =>
        rw [single, isBlank, if_neg Bool.false_ne_true]
        refine ⟨.closed .nil, fun _ => .nil, ?_⟩
        rintro other ⟨⟩
        exact isBlank

/-- Nor does what is left begin with a comment. -/
theorem splitGap_notComment (comment : Bool) {text rest : List Char} {first : Char}
    (left : (splitGap comment text).2 = first :: rest) (slash : first = '/') :
    rest.head? ≠ some '/' := by
  fun_induction splitGap comment text with
  | case1 => cases left
  | case2 character text inductionHypothesis => exact inductionHypothesis left
  | case3 text inductionHypothesis => exact inductionHypothesis left
  | case4 character text _ _ inductionHypothesis => exact inductionHypothesis left
  | case5 character text pair _ =>
    obtain ⟨rfl, rfl⟩ := List.cons.inj left
    cases text with
    | nil =>
      intro impossible
      cases impossible
    | cons second later =>
      rintro ⟨⟩
      exact pair later slash rfl

/-- A comment with its line break in front of a text adds no lexeme. -/
theorem cut_comment {body : List Char} (oneLine : '\n' ∉ body) (text : List Char) :
    cut ('/' :: '/' :: (body ++ '\n' :: text)) = cut text := by
  have skipped : (splitGap false ('/' :: '/' :: (body ++ '\n' :: text))).2 =
      (splitGap false text).2 := by
    rw [splitGap_closedComment oneLine]
  rw [cut_eq, skipped, ← cut_eq]

/-- A closed gap in front of a text adds no lexeme. -/
theorem cut_closedGap (isClosed : ClosedGap gap) (text : List Char) :
    cut (gap ++ text) = cut text := by
  induction isClosed with
  | nil => rfl
  | blank isBlank later inductionHypothesis =>
    rw [List.cons_append, cut_blank isBlank, inductionHypothesis]
  | comment oneLine later inductionHypothesis =>
    rw [List.cons_append, List.cons_append, List.append_assoc, List.cons_append,
      cut_comment oneLine, inductionHypothesis]

/-- Nor does a separator. -/
theorem cut_separator (separates : Separator gap) (text : List Char) :
    cut (gap ++ text) = cut text := by
  cases separates with
  | mk isBlank later => exact cut_closedGap (.blank isBlank later) text

end SystemsLang.Token
