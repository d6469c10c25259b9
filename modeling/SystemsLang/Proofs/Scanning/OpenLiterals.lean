import SystemsLang.Proofs.Scanning.Restarts

/-!
# String literals left open at a line break

Scanning starts again at a line break unless a string literal is left open there, since the line
break and all behind it then belong to that literal. No other end of a text takes anything from the
lines below it: not a comment, which the break ends, nor a number, a word or an operator, whose
reader looks at most two characters ahead. So a text, a line break and another text have the tokens
of the one and then those of the other just if the first text closes its string literals
(`scan_newline_iff`).
-/

namespace SystemsLang.Token

variable {first : Char} {text other : List Char} {later : List Token}

/-- A string literal without its closing quote stands for all the text from its quote on. -/
theorem value_of_unterminated (first : Char) (text : List Char)
    (failed : (Lexeme.read first text).kind = .unterminatedString) :
    (Lexeme.read first text).value = first :: text := by
  have notString : (Lexeme.read first text).kind ≠ .string := by
    rw [failed]
    decide
  have whole := Lexeme.source_append_rest first text
  rw [rest_of_unterminated first text failed, List.append_nil] at whole
  rw [(carries_read first text).eq_of_ne notString, whole]

/-- So it is another token if more text follows. -/
theorem closed_of_same {after : List Char} (more : after ≠ [])
    (sameKind : (Lexeme.read first (text ++ after)).kind = (Lexeme.read first text).kind)
    (sameValue : (Lexeme.read first (text ++ after)).value = (Lexeme.read first text).value) :
    (Lexeme.read first text).kind ≠ .unterminatedString := by
  intro failed
  have longer := value_of_unterminated first (text ++ after) (sameKind.trans failed)
  rw [sameValue, value_of_unterminated first text failed] at longer
  exact more (List.self_eq_append_right.mp (List.cons.inj longer).2)

/-- A text that keeps its tokens in front of a line break leaves no string literal open. -/
theorem closed_of_scanFrom_newline (position : Position)
    (kept : scanFrom position (text ++ '\n' :: other) =
      (scanFrom position text).dropLast ++ later) :
    ∀ part ∈ (segments text).parts, part.2.kind ≠ .unterminatedString := by
  fun_induction segments text generalizing position with
  | case1 text gap cut =>
    intro part impossible
    cases impossible
  | case2 text gap first rest cut _ inductionHypothesis =>
    rw [scanFrom_lexeme (splitGap_append_newline cut other), scanFrom_lexeme cut,
      List.dropLast_cons_of_ne_nil (scanFrom_ne_nil _ _), List.cons_append] at kept
    obtain ⟨sameToken, keptLater⟩ := List.cons.inj kept
    obtain ⟨sameKind, sameText, -⟩ := Token.mk.inj sameToken
    -- The literal is closed, and so what follows is read from the same place as without the break.
    have headClosed := closed_of_same (List.cons_ne_nil '\n' other) sameKind
      (String.ofList_injective sameText)
    rw [read_prolonged first rest (isolates_newline other) headClosed] at keptLater
    exact List.forall_mem_cons.mpr ⟨headClosed, inductionHypothesis _ keptLater⟩

/-- The end marker is no string literal. -/
theorem forall_mem_scan_iff (source : String) :
    (∀ token ∈ scan source, token.kind ≠ .unterminatedString) ↔
      ∀ token ∈ lexemes source, token.kind ≠ .unterminatedString := by
  obtain ⟨place, scanned⟩ := scan_eq source
  rw [scanned, List.forall_mem_append, List.forall_mem_singleton]
  exact and_iff_left Kind.noConfusion

/-- Scanning starts again at a line break if and only if no string literal is open there: the tokens
of a text, a line break and another text are those of the first without its end marker and those of
the other, in the same columns and as many lines further down as the first text has line breaks, and
one. Failing tokens are among them. -/
theorem scan_newline_iff (first second : String) :
    scan (first ++ "\n" ++ second) = (scan first).dropLast ++
        (scan second).map (Token.moved (Position.below (first.toList.count '\n' + 1))) ↔
      ∀ token ∈ scan first, token.kind ≠ .unterminatedString := by
  rw [forall_mem_scan_iff]
  constructor
  · intro kept
    have whole : (first ++ "\n" ++ second).toList = first.toList ++ '\n' :: second.toList := by
      simp
    rw [scan, whole] at kept
    apply (forall_kind_lexemes (fun kind => kind ≠ .unterminatedString) first).mpr
    exact closed_of_scanFrom_newline Position.start kept
  · exact scan_append_newline second

end SystemsLang.Token
