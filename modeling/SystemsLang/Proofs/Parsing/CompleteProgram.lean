import SystemsLang.Parser.Program
import SystemsLang.Proofs.Parsing.CompleteStmt

/-!
# What spells a program is read

Declarations are put together from the parts below them, and a program is the sequence of its
declarations. The one thing to be settled here is which constants declare a struct: the parser looks
three tokens ahead, and no variable begins with the tokens that it looks for.
-/

namespace SystemsLang.Parser

open Token (Kind Failure)
open Syntax (Expr Ident TypeExpr VarDecl Param Field FnModifier Decl Program Block)
open Grammar

variable {ending token : Token} {tokens rest : List Token} {levels room : Nat}

/-- A list with commas is read up to the token that closes it, if that token begins no item and each
item has a first token that does not close the list. -/
theorem Reads.commaList {α : Type} {Item : List Token → α → Nat → Prop} {close : Kind}
    {item : Parser α} {values : List α} (derived : CommaList Item tokens values levels)
    (notComma : close ≠ .comma)
    (starts : ∀ tokens value levels, Item tokens value levels →
      ∃ first rest, tokens = first :: rest ∧ GoesOn [close] first)
    (reads : ∀ tokens value levels rest, Item tokens value levels →
      Reads item ending levels room (tokens ++ rest) value rest)
    (closes : (next ending rest).kind = close) :
    Reads (commaList close item) ending levels room (tokens ++ rest) values rest := by
  induction derived with
  | nil => exact .commaList_nil closes
  | last derived =>
    obtain ⟨first, later, rfl, goesOn⟩ := starts _ _ _ derived
    refine .commaList_last goesOn notComma (reads _ _ _ rest derived) ?_ closes
    simp only [List.cons_append, List.length_cons, List.length_append]
    omega
  | cons derived separates _ inductionHypothesis =>
    obtain ⟨first, later, rfl, goesOn⟩ := starts _ _ _ derived
    simp only [List.append_assoc, List.cons_append]
    refine .commaList_cons goesOn (reads _ _ _ _ derived) separates ?_ inductionHypothesis
    simp only [List.length_cons, List.length_append]
    omega

/-- A parameter is read with its type. -/
theorem reads_param {value : Param} (derived : DerivesParam tokens value levels) :
    Reads (param room) ending levels room (tokens ++ rest) value rest := by
  cases derived with
  | intro mark named divides typed whole =>
    refine .step run_peek ?_
    rw [List.cons_append, next_cons, ← List.cons_append, ← whole]
    simp only [List.append_assoc, List.cons_append]
    refine .step (run_take_mark mark ?_) (.step (run_ident named) ?_)
    · rw [next_cons, named]
      decide
    · exact .step (run_discard (run_expect divides)) (reads_typeExpr typed room rest).map

/-- A parameter begins with its name or with the word before it. -/
theorem goesOn_param {value : Param} (derived : DerivesParam tokens value levels) :
    ∃ first rest, tokens = first :: rest ∧ GoesOn [.rightParen] first := by
  cases derived with
  | intro mark named _ _ whole =>
    refine ⟨_, _, rfl, ?_⟩
    cases mark with
    | absent =>
      obtain ⟨rfl, -⟩ := List.cons.inj whole
      simp [GoesOn, named]
    | present same =>
      obtain ⟨rfl, -⟩ := List.cons.inj whole
      simp [GoesOn, same]

/-- A field is read with its type. -/
theorem reads_field {value : Field} (derived : DerivesField tokens value levels) :
    Reads (field room) ending levels room (tokens ++ rest) value rest := by
  cases derived with
  | intro named divides typed =>
    refine .step run_peek (.step (run_ident named) ?_)
    exact .step (run_discard (run_expect divides)) (reads_typeExpr typed room rest).map

/-- A field begins with its name. -/
theorem goesOn_field {value : Field} (derived : DerivesField tokens value levels) :
    ∃ first rest, tokens = first :: rest ∧ GoesOn [.rightBrace] first := by
  cases derived with
  | intro named => exact ⟨_, _, rfl, by simp [GoesOn, named]⟩

/-- The word before `fn`. -/
theorem run_fnModifier {modifier : Option FnModifier} {word : Token}
    (derived : DerivesModifier tokens modifier) (begins : word.kind = .fnWord) :
    fnModifier.run ending (tokens ++ word :: rest) = .ok (modifier, word :: rest) := by
  unfold fnModifier
  rw [run_bind_ok run_peek]
  cases derived with
  | none => simp only [List.nil_append, next_cons, begins, run_pure]
  | inlined kind | comptime kind =>
    simp only [List.cons_append, List.nil_append, next_cons, kind]
    rw [run_bind_ok (run_discard run_advance), run_pure]

/-- A constant is no struct if the three tokens behind its first do not say so. -/
theorem run_opensStruct :
    opensStruct.run ending tokens =
      .ok ((tokens[1]?.getD ending).kind == .identifier &&
        (tokens[2]?.getD ending).kind == .assign &&
        (tokens[3]?.getD ending).kind == .structWord, tokens) := by
  unfold opensStruct
  rw [run_bind_ok (run_peekAt 1), run_bind_ok (run_peekAt 2), run_bind_ok (run_peekAt 3), run_pure]

/-- No variable begins like a struct: behind the equals sign stands an expression. -/
theorem run_opensStruct_var {isPub : Bool} {position : Position} {declared : VarDecl}
    (derived : DerivesVar isPub position tokens declared levels) :
    opensStruct.run ending (tokens ++ rest) = .ok (false, tokens ++ rest) := by
  rw [run_opensStruct]
  cases derived with
  | intro begins named typed assigned ends =>
    cases typed with
    | present same => simp [same]
    | absent =>
      cases assigned with
      | absent => simp [ends]
      | present same item =>
        obtain ⟨first, later, rfl, starts⟩ := item.choose_spec.starts
        have other : first.kind ≠ .structWord := kind_ne_of_startsExpr starts rfl
        simp [other]

/-- What the kind of the token behind `pub` says about a declaration that is a variable. -/
theorem reads_decl_var {isPub : Bool} {pub : List Token} {first : Token} {later : List Token}
    {declared : VarDecl} (mark : Mark .pubWord pub isPub)
    (derived : DerivesVar isPub first.position tokens declared levels)
    (whole : pub ++ tokens = first :: later) :
    Reads (decl room) ending levels room (first :: later ++ rest) (.var declared) rest := by
  have struct : opensStruct.run ending (tokens ++ rest) = .ok (false, tokens ++ rest) :=
    run_opensStruct_var derived
  have var : Reads (varDecl room isPub first.position) ending levels room (tokens ++ rest) declared
      rest := reads_varDecl derived
  obtain ⟨word, others, rfl, begins⟩ := derived.starts
  refine .step run_peek ?_
  rw [List.cons_append, next_cons, ← List.cons_append, ← whole, List.append_assoc]
  refine .step (run_take_mark mark ?_) (.step run_peek ?_)
  · rcases begins with kind | kind <;> simp [kind]
  · rw [List.cons_append] at struct var ⊢
    rcases begins with kind | kind
    · simp only [next_cons, kind]
      exact .step struct var.map
    · simp only [next_cons, kind]
      exact var.map

/-- A function is read from the word before `fn`, or from `fn`, to the end of its body. -/
theorem reads_fnDecl {isPub : Bool} {position bodyPosition : Position}
    {modifier : Option FnModifier}
    {word name opening closing : Token} {modifierTokens paramTokens typeTokens block : List Token}
    {params : List Param} {returnType : TypeExpr} {body : Block} {typeLevels bodyLevels : Nat}
    (modified : DerivesModifier modifierTokens modifier) (begins : word.kind = .fnWord)
    (named : name.kind = .identifier) (opens : opening.kind = .leftParen)
    (listed : CommaList DerivesParam paramTokens params levels)
    (closes : closing.kind = .rightParen) (typed : DerivesType typeTokens returnType typeLevels)
    (inner : DerivesStmt false block (.block bodyPosition body) bodyLevels) :
    Reads (fnDecl room isPub position) ending (max levels (max typeLevels bodyLevels)) room
      (modifierTokens ++ word :: name :: opening ::
        (paramTokens ++ closing :: (typeTokens ++ (block ++ rest))))
      ⟨isPub, modifier, ⟨name.text, name.position⟩, params, returnType, body, position⟩ rest := by
  refine .step (run_fnModifier modified begins) (.step (run_discard (run_expect begins)) ?_)
  refine .step (run_ident named) (.step (run_discard (run_expect opens)) ?_)
  refine .bind (.commaList listed (by decide) (fun _ _ _ => goesOn_param)
    (fun _ _ _ _ => reads_param) closes) ?_
  refine .step (run_discard (run_expect closes)) (.bind (reads_typeExpr typed room _) ?_)
  exact (completesStmt inner ending rest room).1.map

/-- A struct is read from the word `const` to its semicolon. -/
theorem reads_structDecl {isPub : Bool} {position : Position}
    {word name equals struct opening closing semicolon : Token} {fields : List Field}
    (begins : word.kind = .constWord) (named : name.kind = .identifier)
    (assigned : equals.kind = .assign) (structured : struct.kind = .structWord)
    (opens : opening.kind = .leftBrace) (listed : CommaList DerivesField tokens fields levels)
    (closes : closing.kind = .rightBrace) (ends : semicolon.kind = .semicolon) :
    Reads (structDecl room isPub position) ending levels room
      (word :: name :: equals :: struct :: opening :: (tokens ++ closing :: semicolon :: rest))
      ⟨isPub, ⟨name.text, name.position⟩, fields, position⟩ rest := by
  refine .step (run_discard (run_expect begins)) (.step (run_ident named) ?_)
  refine .step (run_discard (run_expect assigned)) (.step (run_discard (run_expect structured)) ?_)
  refine .step (run_discard (run_expect opens)) ?_
  rw [← Nat.max_zero levels]
  refine .bind (.commaList listed (by decide) (fun _ _ _ => goesOn_field)
    (fun _ _ _ _ => reads_field) closes) ?_
  exact .step (run_discard (run_expect closes)) (.step (run_discard (run_expect ends)) .pure)

/-- A declaration is read whatever stands behind it. -/
theorem reads_decl {value : Decl} (derived : DerivesDecl false tokens value levels) :
    Reads (decl room) ending levels room (tokens ++ rest) value rest := by
  cases derived with
  | var mark derived whole => exact reads_decl_var mark derived whole
  | @fn _ word name opening closing _ _ modifierTokens paramTokens typeTokens block _ _ _ _ _ _ _ _
      _ mark modified begins named opens listed closes typed inner whole =>
    refine .step run_peek ?_
    rw [List.cons_append, next_cons, ← List.cons_append, ← whole]
    simp only [List.append_assoc, List.cons_append]
    have notPub : (next ending (modifierTokens ++ word :: name :: opening ::
        (paramTokens ++ closing :: (typeTokens ++ (block ++ rest))))).kind ≠ .pubWord := by
      cases modified with
      | none => simp [begins]
      | inlined kind | comptime kind => simp [kind]
    refine .step (run_take_mark mark notPub) (.step run_peek ?_)
    cases modified with
    | none =>
      simp only [List.nil_append, next_cons, begins]
      exact (reads_fnDecl .none begins named opens listed closes typed inner).map
    | inlined kind =>
      simp only [List.cons_append, List.nil_append, next_cons, kind]
      exact (reads_fnDecl (.inlined kind) begins named opens listed closes typed inner).map
    | comptime kind =>
      simp only [List.cons_append, List.nil_append, next_cons, kind]
      exact (reads_fnDecl (.comptime kind) begins named opens listed closes typed inner).map
  | struct mark begins named assigned structured opens listed closes ends whole =>
    refine .step run_peek ?_
    rw [List.cons_append, next_cons, ← List.cons_append, ← whole]
    simp only [List.append_assoc, List.cons_append, List.nil_append]
    refine .step (run_take_mark mark (by rw [next_cons, begins]; decide)) (.step run_peek ?_)
    simp only [next_cons, begins]
    refine .step run_opensStruct ?_
    simp only [List.getElem?_cons_succ, List.getElem?_cons_zero, Option.getD_some, named, assigned,
      structured, beq_self_eq_true, Bool.and_self, if_true]
    exact (reads_structDecl begins named assigned structured opens listed closes ends).map

/-- A declaration has a first token, which is not the end marker. -/
theorem starts_decl {value : Decl} (derived : DerivesDecl false tokens value levels) :
    ∃ first rest, tokens = first :: rest ∧ first.kind ≠ .ending := by
  cases derived with
  | fn mark modified begins _ _ _ _ _ _ whole =>
    refine ⟨_, _, rfl, ?_⟩
    cases mark with
    | present same =>
      obtain ⟨rfl, -⟩ := List.cons.inj whole
      simp [same]
    | absent =>
      cases modified with
      | none =>
        obtain ⟨rfl, -⟩ := List.cons.inj whole
        simp [begins]
      | inlined kind | comptime kind =>
        obtain ⟨rfl, -⟩ := List.cons.inj whole
        simp [kind]
  | var mark derived whole =>
    refine ⟨_, _, rfl, ?_⟩
    obtain ⟨word, later, rfl, begins⟩ := derived.starts
    cases mark with
    | present same =>
      obtain ⟨rfl, -⟩ := List.cons.inj whole
      simp [same]
    | absent =>
      obtain ⟨rfl, -⟩ := List.cons.inj whole
      rcases begins with kind | kind <;> simp [kind]
  | struct mark begins _ _ _ _ _ _ _ whole =>
    refine ⟨_, _, rfl, ?_⟩
    cases mark with
    | present same =>
      obtain ⟨rfl, -⟩ := List.cons.inj whole
      simp [same]
    | absent =>
      obtain ⟨rfl, -⟩ := List.cons.inj whole
      simp [begins]

/-- Tokens that spell a program are read as that program, up to the end of the input, exactly if
there is room for its levels. -/
theorem reads_program {value : Program} (derived : DerivesProgram false tokens value levels)
    (ends : (next ending rest).kind = .ending) :
    Reads (program room) ending levels room (tokens ++ rest) value rest := by
  induction derived with
  | nil =>
    refine .manyUntil_stop ?_
    simp [GoesOn, ends]
  | @cons before after _ _ _ _ head _ inductionHypothesis =>
    obtain ⟨first, later, rfl, notEnding⟩ := starts_decl head
    rw [List.append_assoc]
    refine .manyUntil_step ⟨notEnding, List.not_mem_nil⟩ (reads_decl head) ?_ inductionHypothesis
    simp only [List.cons_append, List.length_cons, List.length_append]
    omega

end SystemsLang.Parser
