import SystemsLang.Proofs.Outline.Labels
import SystemsLang.Proofs.Typing.Components
import SystemsLang.Proofs.Typing.WellTyped

/-!
# Canonical names of types

The name of a type is written without brackets around the types that it is made of: a mark or two
stand in front, and the parts follow. Still it can be read back. What a name begins with tells how
the type is formed (`formOf_text`), the words at its leaves end where no word goes on, and so the
name of a part can be cut off whatever follows (`merged_of_append`).

There is one exception. A struct may be called `unknown`, and then its name is that of the unknown
type. Apart from this, types with the same name are the same (`text_eq_iff`). With such a struct a
diagnostic can show two types that differ under one name (`unknown_expected_unknown`).
-/

namespace SystemsLang.Typing

open Layout (ofWord_of_mem_primitive)
open Token (IsIdentifier isWord startsWord continuesWord primitiveTypeNames exists_cons_of_isWord)

namespace Ty

/-- A name at a leaf of a type is that of a primitive type or an identifier. The primitive type
`void` has a leaf of its own. -/
def Named : Ty → Prop
  | primitive name => name ∈ primitiveTypeNames ∧ name ≠ "void"
  | struct name => IsIdentifier name
  | _ => True

/-- A type whose leaves have names that can be written. -/
def Spellable (type : Ty) : Prop :=
  ∀ part, Within components part type → part.Named

/-- What a spellable type is made of is spellable. -/
theorem Spellable.component {type inner : Ty} (spellable : type.Spellable)
    (member : inner ∈ type.components) : inner.Spellable :=
  fun part within => spellable part (.inner member within)

/-- A type is spellable if its own name can be written and what it is made of is spellable. -/
theorem Spellable.of_components {type : Ty} (named : type.Named)
    (below : ∀ component ∈ type.components, component.Spellable) : type.Spellable := by
  intro part within
  cases within with
  | self => exact named
  | inner member within => exact below _ member part within

/-- A type that is made of no other can be written if its name can. -/
theorem Spellable.of_leaf {type : Ty} (named : type.Named) (made : type.components = []) :
    type.Spellable := by
  apply Spellable.of_components named
  rw [made]
  exact List.forall_mem_nil _

/-- A type that is made of one other can be written if that one can. -/
theorem Spellable.of_inner {type inner : Ty} (named : type.Named) (made : type.components = [inner])
    (spellable : inner.Spellable) : type.Spellable := by
  apply Spellable.of_components named
  rw [made]
  exact List.forall_mem_singleton.mpr spellable

/-- What a type written in a program denotes can be written. -/
theorem spellable_denoted (type : Syntax.TypeExpr) (spellable : type.Spellable) :
    (denoted type).Spellable := by
  induction type with
  | primitive position name =>
    unfold denoted ofPrimitive
    split
    · exact .of_leaf trivial rfl
    · rename_i notVoid
      exact .of_leaf ⟨spellable, notVoid⟩ rfl
  | named position name => exact .of_leaf spellable rfl
  | pointer _ _ _ inductionHypothesis | array _ _ _ inductionHypothesis
  | slice _ _ _ inductionHypothesis | optional _ _ inductionHypothesis
  | errorUnion _ _ inductionHypothesis =>
    exact .of_inner trivial rfl (inductionHypothesis spellable)

mutual

/-- The type with the unknown type in the place of every struct of that name. -/
def merged : Ty → Ty
  | struct name => if name = "unknown" then unknown else struct name
  | function params result => function (mergedAll params) result.merged
  | pointer isConst pointee => pointer isConst pointee.merged
  | array length element => array length element.merged
  | slice isConst element => slice isConst element.merged
  | optional inner => optional inner.merged
  | errorUnion inner => errorUnion inner.merged
  | void => void
  | unknown => unknown
  | null => null
  | primitive name => primitive name

/-- The same in each type of a list. -/
def mergedAll : List Ty → List Ty
  | [] => []
  | first :: rest => first.merged :: mergedAll rest

end

mutual

/-- Nothing changes where no struct is called `unknown`. -/
theorem merged_eq_self (type : Ty) (absent : ¬ Within components (struct "unknown") type) :
    type.merged = type := by
  have below {inner : Ty} (member : inner ∈ type.components) :
      ¬ Within components (struct "unknown") inner :=
    fun within => absent (.inner member within)
  cases type with
  | void | unknown | null | primitive => rfl
  | struct name =>
    have other : name ≠ "unknown" := by
      rintro rfl
      exact absent .self
    exact if_neg other
  | function params result =>
    rw [merged, mergedAll_eq_self params fun param member =>
        below (List.mem_append_left _ member),
      merged_eq_self result (below (List.mem_append_right _ List.mem_cons_self))]
  | pointer _ inner | array _ inner | slice _ inner | optional inner | errorUnion inner =>
    rw [merged, merged_eq_self inner (below List.mem_cons_self)]

/-- Where no struct is called `unknown` nothing is merged. -/
theorem mergedAll_eq_self (types : List Ty)
    (absent : ∀ type ∈ types, ¬ Within components (struct "unknown") type) :
    mergedAll types = types := by
  match types with
  | [] => rfl
  | first :: rest =>
    obtain ⟨firstAbsent, restAbsent⟩ := List.forall_mem_cons.mp absent
    rw [mergedAll, merged_eq_self first firstAbsent, mergedAll_eq_self rest restAbsent]

end

mutual

/-- The name stays. -/
theorem text_merged (type : Ty) : type.merged.text = type.text := by
  cases type with
  | void | unknown | null | primitive => rfl
  | struct name =>
    rw [merged]
    split
    · rename_i same
      exact same.symm
    · rfl
  | function params result => rw [merged, text, text, textsOf_mergedAll params, text_merged result]
  | pointer _ inner | array _ inner | slice _ inner | optional inner | errorUnion inner =>
    rw [merged, text, text, text_merged inner]

/-- Merged types are written as the types are. -/
theorem textsOf_mergedAll (types : List Ty) : textsOf (mergedAll types) = textsOf types := by
  match types with
  | [] => rfl
  | first :: rest => rw [mergedAll, textsOf, textsOf, text_merged first, textsOf_mergedAll rest]

end

/-- No word goes on with the text. -/
def EndsWord (text : List Char) : Prop :=
  ∀ next ∈ text.head?, continuesWord next = false

/-- A word ends where a character follows that cannot continue it. -/
theorem endsWord_cons {next : Char} (stops : continuesWord next = false) (text : List Char) :
    EndsWord (next :: text) := by
  rintro _ ⟨⟩
  exact stops

/-- A word in front of a text can be cut off. -/
theorem word_append_inj {word other after otherAfter : List Char} (shape : isWord word = true)
    (otherShape : isWord other = true) (ends : EndsWord after) (otherEnds : EndsWord otherAfter)
    (same : word ++ after = other ++ otherAfter) : word = other ∧ after = otherAfter := by
  obtain ⟨first, rest, rfl, -, continues⟩ := exists_cons_of_isWord shape
  obtain ⟨otherFirst, otherRest, rfl, -, otherContinues⟩ := exists_cons_of_isWord otherShape
  obtain ⟨rfl, sameRest⟩ : first = otherFirst ∧ rest ++ after = otherRest ++ otherAfter :=
    List.cons.inj same
  have cut := Token.takeWhile_append continues ends
  have otherCut := Token.takeWhile_append otherContinues otherEnds
  rw [← sameRest] at otherCut
  exact ⟨congrArg (first :: ·) (cut.1.symm.trans otherCut.1), cut.2.symm.trans otherCut.2⟩

/-- The ways in which types are formed, as far as the first characters of their names tell. -/
inductive Form
  | word | function | pointer | brackets | optional | errorUnion

/-- How a type is formed. -/
def form : Ty → Form
  | void | unknown | null | primitive _ | struct _ => .word
  | function .. => .function
  | pointer .. => .pointer
  | array .. | slice .. => .brackets
  | optional _ => .optional
  | errorUnion _ => .errorUnion

/-- How a type is formed whose name begins a text. -/
def formOf : List Char → Form
  | '*' :: _ => .pointer
  | '[' :: _ => .brackets
  | '?' :: _ => .optional
  | '!' :: _ => .errorUnion
  | text => if text.takeWhile continuesWord = ['f', 'n'] then .function else .word

/-- A word that no type is formed with is a leaf. -/
theorem formOf_word {word after : List Char} (shape : isWord word = true)
    (other : word ≠ ['f', 'n']) (ends : EndsWord after) : formOf (word ++ after) = .word := by
  have front (first : Char) (rest : List Char) (same : word ++ after = first :: rest) :
      startsWord first = true ∨ first = '@' := by
    obtain ⟨head, tail, rfl, begins, -⟩ := exists_cons_of_isWord shape
    obtain ⟨rfl, -⟩ := List.cons.inj same
    exact begins
  unfold formOf
  split
  case h_1 rest same | h_2 rest same | h_3 rest same | h_4 rest same =>
    exact absurd (front _ rest same) (by decide)
  case h_5 =>
    apply if_neg
    intro taken
    have whole := List.takeWhile_append_dropWhile (p := continuesWord) (l := word ++ after)
    have behind : EndsWord ((word ++ after).dropWhile continuesWord) := by
      intro next member
      have stops := List.head?_dropWhile_not continuesWord (word ++ after)
      rw [Option.mem_def.mp member] at stops
      exact stops
    rw [taken] at whole
    exact other (word_append_inj (by decide) shape behind ends whole).1.symm

/-- The leaves of a type are words, none of which begins the name of a type that is no leaf. -/
theorem word_text {type : Ty} (leaf : type.form = .word) (named : type.Named) :
    isWord type.text.toList = true ∧
      type.text.toList ≠ ['f', 'n'] ∧ type.text.toList ≠ ['c', 'o', 'n', 's', 't'] := by
  have ofKind {name : String} (word : isWord name.toList = true)
      (kind : Token.Kind.ofWord name = .primitiveType ∨ Token.Kind.ofWord name = .identifier) :
      isWord name.toList = true ∧
        name.toList ≠ ['f', 'n'] ∧ name.toList ≠ ['c', 'o', 'n', 's', 't'] := by
    refine ⟨word, fun same => ?_, fun same => ?_⟩
    · obtain rfl : name = "fn" := String.toList_injective same
      exact absurd kind (by decide)
    · obtain rfl : name = "const" := String.toList_injective same
      exact absurd kind (by decide)
  cases type with
  | void | unknown | null => decide
  | primitive name =>
    have each : ∀ name ∈ primitiveTypeNames, isWord name.toList = true := by decide
    exact ofKind (each name named.1) (.inl (ofWord_of_mem_primitive named.1))
  | struct name => exact ofKind named.word (.inr named.plain)
  | function | pointer | array | slice | optional | errorUnion => cases leaf

/-- The leaf that a word names. -/
def ofName (name : String) : Ty :=
  if name = "unknown" then unknown
  else
    match Token.Kind.ofWord name with
    | .nullWord => null
    | .primitiveType => ofPrimitive name
    | _ => struct name

/-- A leaf can be told from its name, but not a struct called `unknown` from the unknown type. -/
theorem merged_of_word {type : Ty} (leaf : type.form = .word) (named : type.Named) :
    type.merged = ofName type.text := by
  cases type with
  | void | unknown | null => decide
  | primitive name =>
    have each : ∀ name ∈ primitiveTypeNames, name ≠ "unknown" := by decide
    rw [text, ofName, if_neg (each name named.1), ofWord_of_mem_primitive named.1]
    exact (if_neg named.2).symm
  | struct name => rw [text, ofName, merged, named.plain]
  | function | pointer | array | slice | optional | errorUnion => cases leaf

/-- The names of the parameters behind the first one, each with what separates it from the one
before. -/
def behindFirst : List Ty → List Char
  | [] => []
  | first :: rest => ',' :: ' ' :: (first.text.toList ++ behindFirst rest)

/-- The names of several parameters. -/
def listed : List Ty → List Char
  | [] => []
  | first :: rest => first.text.toList ++ behindFirst rest

/-- The characters of a list of types are those of the types, with commas between them. -/
theorem toList_intercalate (types : List Ty) :
    (", ".intercalate (textsOf types)).toList = listed types := by
  rw [String.toList_intercalate]
  match types with
  | [] => rfl
  | first :: rest =>
    induction rest generalizing first with
    | nil => simp [textsOf, listed, behindFirst]
    | cons second rest inductionHypothesis =>
      have later := inductionHypothesis second
      rw [textsOf, List.map_cons] at later
      rw [textsOf, textsOf, List.map_cons, List.map_cons, List.intercalate_cons_cons, later]
      simp [listed, behindFirst]

section Append

variable (after : List Char)

/-- How the name of a function type begins. -/
theorem text_function_append (params : List Ty) (result : Ty) :
    (function params result).text.toList ++ after =
      'f' :: 'n' :: '(' :: (listed params ++ ')' :: ' ' :: (result.text.toList ++ after)) := by
  simp [text, ← toList_intercalate]

/-- How the name of a pointer type begins. -/
theorem text_pointer_append (isConst : Bool) (pointee : Ty) :
    (pointer isConst pointee).text.toList ++ after =
      '*' :: ((constMark isConst).toList ++ (pointee.text.toList ++ after)) := by
  simp [text]

/-- How the name of an array type begins. -/
theorem text_array_append (length : UInt64) (element : Ty) :
    (array length element).text.toList ++ after =
      '[' :: ((toString length.toNat).toList ++ ']' :: (element.text.toList ++ after)) := by
  simp [text]

/-- How the name of a slice type begins. -/
theorem text_slice_append (isConst : Bool) (element : Ty) :
    (slice isConst element).text.toList ++ after =
      '[' :: ']' :: ((constMark isConst).toList ++ (element.text.toList ++ after)) := by
  simp [text]

/-- How the name of an optional type begins. -/
theorem text_optional_append (inner : Ty) :
    (optional inner).text.toList ++ after = '?' :: (inner.text.toList ++ after) := by
  simp [text]

/-- How the name of an error union begins. -/
theorem text_errorUnion_append (inner : Ty) :
    (errorUnion inner).text.toList ++ after = '!' :: (inner.text.toList ++ after) := by
  simp [text]

end Append

/-- What a name begins with tells how the type is formed. -/
theorem formOf_text {type : Ty} (named : type.Named) {after : List Char} (ends : EndsWord after) :
    formOf (type.text.toList ++ after) = type.form := by
  cases type with
  | void | unknown | null | primitive | struct =>
    obtain ⟨word, notFn, -⟩ := word_text rfl named
    exact formOf_word word notFn ends
  | function => rw [text_function_append]; rfl
  | pointer => rw [text_pointer_append]; rfl
  | array => rw [text_array_append]; rfl
  | slice => rw [text_slice_append]; rfl
  | optional => rw [text_optional_append]; rfl
  | errorUnion => rw [text_errorUnion_append]; rfl

/-- No name begins with the word that marks what is read-only. -/
theorem const_append_ne {type : Ty} (named : type.Named) {after : List Char} (ends : EndsWord after)
    (rest : List Char) :
    ['c', 'o', 'n', 's', 't'] ++ ' ' :: rest ≠ type.text.toList ++ after := by
  intro same
  have blank : EndsWord (' ' :: rest) := endsWord_cons (by decide) rest
  have leaf : type.form = .word := by
    rw [← formOf_text named ends, ← same]
    exact formOf_word (by decide) (by decide) blank
  obtain ⟨word, -, notConst⟩ := word_text leaf named
  exact notConst (word_append_inj (by decide) word blank ends same).1.symm

/-- So the mark can be cut off. -/
theorem constMark_append_inj {isConst otherConst : Bool} {type other : Ty} (named : type.Named)
    (otherNamed : other.Named) {after otherAfter : List Char} (ends : EndsWord after)
    (otherEnds : EndsWord otherAfter)
    (same : (constMark isConst).toList ++ (type.text.toList ++ after) =
      (constMark otherConst).toList ++ (other.text.toList ++ otherAfter)) :
    isConst = otherConst ∧ type.text.toList ++ after = other.text.toList ++ otherAfter := by
  cases isConst with
  | false =>
    cases otherConst with
    | false => exact ⟨rfl, same⟩
    | true => exact absurd same.symm (const_append_ne named ends _)
  | true =>
    cases otherConst with
    | false => exact absurd same (const_append_ne otherNamed otherEnds _)
    | true => exact ⟨rfl, List.append_cancel_left same⟩

/-- A name is not empty and does not begin with the bracket that closes a list of parameters. -/
theorem text_append_ne {type : Ty} (named : type.Named) (after rest : List Char) :
    ')' :: rest ≠ type.text.toList ++ after := by
  intro same
  cases type with
  | void | unknown | null | primitive | struct =>
    obtain ⟨word, -⟩ := word_text rfl named
    obtain ⟨first, later, whole, begins, -⟩ := exists_cons_of_isWord word
    rw [whole] at same
    obtain ⟨rfl, -⟩ := List.cons.inj same
    exact absurd begins (by decide)
  | function => rw [text_function_append] at same; cases same
  | pointer => rw [text_pointer_append] at same; cases same
  | array => rw [text_array_append] at same; cases same
  | slice => rw [text_slice_append] at same; cases same
  | optional => rw [text_optional_append] at same; cases same
  | errorUnion => rw [text_errorUnion_append] at same; cases same

/-- Behind the first parameter there is a comma or the closing parenthesis. -/
theorem endsWord_behindFirst (types : List Ty) (rest : List Char) :
    EndsWord (behindFirst types ++ ')' :: rest) := by
  cases types with
  | nil => exact endsWord_cons (by decide) _
  | cons => exact endsWord_cons (by decide) _

/-- The first parameter is no exception in a list up to its bracket. -/
theorem behindFirst_of_listed {types others : List Ty} (named : ∀ type ∈ types, type.Named)
    (otherNamed : ∀ other ∈ others, other.Named) {after otherAfter : List Char}
    (same : listed types ++ ')' :: after = listed others ++ ')' :: otherAfter) :
    behindFirst types ++ ')' :: after = behindFirst others ++ ')' :: otherAfter := by
  cases types with
  | nil =>
    cases others with
    | nil => exact same
    | cons other otherRest =>
      rw [listed, listed, List.append_assoc] at same
      exact absurd same (text_append_ne (otherNamed other List.mem_cons_self) _ _)
  | cons first rest =>
    cases others with
    | nil =>
      rw [listed, listed, List.append_assoc] at same
      exact absurd same.symm (text_append_ne (named first List.mem_cons_self) _ _)
    | cons other otherRest => exact congrArg (fun text => ',' :: ' ' :: text) same

/-- The length of an array can be cut off. -/
theorem length_append_inj {length otherLength : UInt64} {after otherAfter : List Char}
    (same : (toString length.toNat).toList ++ ']' :: after =
      (toString otherLength.toNat).toList ++ ']' :: otherAfter) :
    length = otherLength ∧ after = otherAfter := by
  obtain ⟨sameLength, sameAfter⟩ := Layout.Outline.append_mark_inj
    (notMem_toString (by decide)) (notMem_toString (by decide)) same
  exact ⟨UInt64.toNat_inj.mp (Token.toList_toString_injective sameLength), sameAfter⟩

/-- No array is written as a slice. -/
theorem length_append_ne (length : UInt64) (after rest : List Char) :
    (toString length.toNat).toList ++ ']' :: after ≠ ']' :: rest := by
  intro same
  have noDigits : (toString length.toNat).toList = [] :=
    (Layout.Outline.append_mark_inj (notMem_toString (by decide)) List.not_mem_nil same).1
  rw [Token.toList_toString] at noDigits
  exact Nat.toDigits_ne_nil noDigits

mutual

/-- The name of a type can be cut off a text in which no word goes on behind it, and tells the type
but for structs called `unknown`. -/
theorem merged_of_append (type other : Ty) (spellable : type.Spellable)
    (otherSpellable : other.Spellable) {after otherAfter : List Char} (ends : EndsWord after)
    (otherEnds : EndsWord otherAfter)
    (same : type.text.toList ++ after = other.text.toList ++ otherAfter) :
    type.merged = other.merged ∧ after = otherAfter := by
  have named := spellable type .self
  have otherNamed := otherSpellable other .self
  -- What the names begin with leaves only the types that are formed alike, and arrays beside
  -- slices, which the length tells from one another.
  have sameForm : type.form = other.form := by
    rw [← formOf_text named ends, same, formOf_text otherNamed otherEnds]
  cases type with
  | void | unknown | null | primitive | struct =>
    obtain ⟨sameName, sameAfter⟩ := word_append_inj (word_text rfl named).1
      (word_text sameForm.symm otherNamed).1 ends otherEnds same
    rw [merged_of_word rfl named, merged_of_word sameForm.symm otherNamed,
      String.toList_injective sameName]
    exact ⟨rfl, sameAfter⟩
  | function params result =>
    cases other with
    | function otherParams otherResult =>
      have param {type : Ty} (member : type ∈ params) : type.Spellable :=
        spellable.component (List.mem_append_left _ member)
      have otherParam {type : Ty} (member : type ∈ otherParams) : type.Spellable :=
        otherSpellable.component (List.mem_append_left _ member)
      rw [text_function_append, text_function_append] at same
      simp only [List.cons.injEq, true_and] at same
      obtain ⟨sameParams, sameBehind⟩ := mergedAll_of_append params otherParams
        (fun type => param) (fun type => otherParam)
        (behindFirst_of_listed (fun type member => param member type .self)
          (fun type member => otherParam member type .self) same)
      obtain ⟨sameResult, sameAfter⟩ := merged_of_append result otherResult
        (spellable.component (List.mem_append_right _ List.mem_cons_self))
        (otherSpellable.component (List.mem_append_right _ List.mem_cons_self)) ends otherEnds
        (List.cons.inj sameBehind).2
      rw [merged, merged, sameParams, sameResult]
      exact ⟨rfl, sameAfter⟩
    | _ => cases sameForm
  | pointer isConst inner =>
    cases other with
    | pointer otherConst otherInner =>
      have innerSpellable := spellable.component List.mem_cons_self
      have otherInnerSpellable := otherSpellable.component List.mem_cons_self
      rw [text_pointer_append, text_pointer_append] at same
      obtain ⟨rfl, sameText⟩ := constMark_append_inj (innerSpellable inner .self)
        (otherInnerSpellable otherInner .self) ends otherEnds (List.cons.inj same).2
      obtain ⟨sameInner, sameAfter⟩ := merged_of_append inner otherInner innerSpellable
        otherInnerSpellable ends otherEnds sameText
      rw [merged, merged, sameInner]
      exact ⟨rfl, sameAfter⟩
    | _ => cases sameForm
  | array length inner =>
    cases other with
    | array otherLength otherInner =>
      rw [text_array_append, text_array_append] at same
      obtain ⟨rfl, sameText⟩ := length_append_inj (List.cons.inj same).2
      obtain ⟨sameInner, sameAfter⟩ := merged_of_append inner otherInner
        (spellable.component List.mem_cons_self) (otherSpellable.component List.mem_cons_self)
        ends otherEnds sameText
      rw [merged, merged, sameInner]
      exact ⟨rfl, sameAfter⟩
    | slice otherConst otherInner =>
      rw [text_array_append, text_slice_append] at same
      exact absurd (List.cons.inj same).2 (length_append_ne length _ _)
    | _ => cases sameForm
  | slice isConst inner =>
    cases other with
    | slice otherConst otherInner =>
      have innerSpellable := spellable.component List.mem_cons_self
      have otherInnerSpellable := otherSpellable.component List.mem_cons_self
      rw [text_slice_append, text_slice_append] at same
      obtain ⟨rfl, sameText⟩ := constMark_append_inj (innerSpellable inner .self)
        (otherInnerSpellable otherInner .self) ends otherEnds
        (List.cons.inj (List.cons.inj same).2).2
      obtain ⟨sameInner, sameAfter⟩ := merged_of_append inner otherInner innerSpellable
        otherInnerSpellable ends otherEnds sameText
      rw [merged, merged, sameInner]
      exact ⟨rfl, sameAfter⟩
    | array otherLength otherInner =>
      rw [text_array_append, text_slice_append] at same
      exact absurd (List.cons.inj same).2.symm (length_append_ne otherLength _ _)
    | _ => cases sameForm
  | optional inner =>
    cases other with
    | optional otherInner =>
      rw [text_optional_append, text_optional_append] at same
      obtain ⟨sameInner, sameAfter⟩ := merged_of_append inner otherInner
        (spellable.component List.mem_cons_self) (otherSpellable.component List.mem_cons_self)
        ends otherEnds (List.cons.inj same).2
      rw [merged, merged, sameInner]
      exact ⟨rfl, sameAfter⟩
    | _ => cases sameForm
  | errorUnion inner =>
    cases other with
    | errorUnion otherInner =>
      rw [text_errorUnion_append, text_errorUnion_append] at same
      obtain ⟨sameInner, sameAfter⟩ := merged_of_append inner otherInner
        (spellable.component List.mem_cons_self) (otherSpellable.component List.mem_cons_self)
        ends otherEnds (List.cons.inj same).2
      rw [merged, merged, sameInner]
      exact ⟨rfl, sameAfter⟩
    | _ => cases sameForm

/-- So can the names of parameters up to the bracket. -/
theorem mergedAll_of_append (types others : List Ty) (spellable : ∀ type ∈ types, type.Spellable)
    (otherSpellable : ∀ other ∈ others, other.Spellable) {after otherAfter : List Char}
    (same : behindFirst types ++ ')' :: after = behindFirst others ++ ')' :: otherAfter) :
    mergedAll types = mergedAll others ∧ after = otherAfter := by
  match types, others with
  | [], [] => exact ⟨rfl, (List.cons.inj same).2⟩
  -- A comma or the bracket is next, so the lists end together.
  | [], _ :: _ => cases same
  | _ :: _, [] => cases same
  | first :: rest, other :: otherRest =>
    obtain ⟨firstSpellable, restSpellable⟩ := List.forall_mem_cons.mp spellable
    obtain ⟨otherFirstSpellable, otherRestSpellable⟩ := List.forall_mem_cons.mp otherSpellable
    simp only [behindFirst, List.cons_append, List.append_assoc, List.cons.injEq, true_and] at same
    obtain ⟨sameFirst, sameBehind⟩ := merged_of_append first other firstSpellable
      otherFirstSpellable (endsWord_behindFirst rest after)
      (endsWord_behindFirst otherRest otherAfter) same
    obtain ⟨sameRest, sameAfter⟩ := mergedAll_of_append rest otherRest restSpellable
      otherRestSpellable sameBehind
    rw [mergedAll, mergedAll, sameFirst, sameRest]
    exact ⟨rfl, sameAfter⟩

end

/-- Types have the same name exactly if they differ at most in that one has the unknown type where
the other has a struct called `unknown`. -/
theorem text_eq_iff_merged {first second : Ty} (spellable : first.Spellable)
    (otherSpellable : second.Spellable) :
    first.text = second.text ↔ first.merged = second.merged := by
  constructor
  · intro same
    have ends : EndsWord [] := fun _ impossible => nomatch impossible
    have sameText : first.text.toList ++ [] = second.text.toList ++ [] := by rw [same]
    exact (merged_of_append first second spellable otherSpellable ends ends sameText).1
  · intro same
    rw [← text_merged first, same, text_merged second]

/-- Where no struct is called `unknown`, types have the same name exactly if they are the same. -/
theorem text_eq_iff_eq {first second : Ty} (spellable : first.Spellable)
    (otherSpellable : second.Spellable) (absent : ¬ Within components (struct "unknown") first)
    (otherAbsent : ¬ Within components (struct "unknown") second) :
    first.text = second.text ↔ first = second := by
  rw [text_eq_iff_merged spellable otherSpellable, merged_eq_self first absent,
    merged_eq_self second otherAbsent]

/-- Types have the same name if and only if they differ at most in that one has the unknown type
where the other has a struct called `unknown`. So where no struct is called that, types with the
same name are the same. -/
theorem text_eq_iff {first second : Ty} (spellable : first.Spellable)
    (otherSpellable : second.Spellable) :
    (first.text = second.text ↔ first.merged = second.merged) ∧
      (¬ Within components (struct "unknown") first →
        ¬ Within components (struct "unknown") second →
          (first.text = second.text ↔ first = second)) :=
  ⟨text_eq_iff_merged spellable otherSpellable, text_eq_iff_eq spellable otherSpellable⟩

/-- A function that is given a node and may fail. -/
def visitor (isConst : Bool) : Ty :=
  function [pointer isConst (struct "Node")] (errorUnion void)

/-- All that it is made of has names that can be written, and is not called `unknown`. -/
theorem named_of_within_visitor {isConst : Bool} {part : Ty}
    (within : Within components part (visitor isConst)) :
    part.Named ∧ part ≠ struct "unknown" := by
  cases within with
  | self => exact ⟨trivial, by simp [visitor]⟩
  | inner member within =>
    rcases List.mem_cons.mp member with rfl | member
    · cases within with
      | self => exact ⟨trivial, by simp⟩
      | inner member within =>
        obtain rfl := List.mem_singleton.mp member
        cases within with
        | self => exact ⟨⟨by decide, by decide⟩, by decide⟩
        | inner member => cases member
    · obtain rfl := List.mem_singleton.mp member
      cases within with
      | self => exact ⟨trivial, by simp⟩
      | inner member within =>
        obtain rfl := List.mem_singleton.mp member
        cases within with
        | self => exact ⟨trivial, by simp⟩
        | inner member => cases member

/-- A node that can be changed is told from one that cannot. -/
theorem text_eq_iff_visitor :
    (visitor true).Spellable ∧ (visitor false).Spellable ∧
      ((visitor true).text = (visitor false).text ↔ visitor true = visitor false) ∧
      (visitor true).text ≠ (visitor false).text := by
  have spellable (isConst : Bool) : (visitor isConst).Spellable :=
    fun _ within => (named_of_within_visitor within).1
  have absent (isConst : Bool) : ¬ Within components (struct "unknown") (visitor isConst) :=
    fun within => (named_of_within_visitor within).2 rfl
  have told := (text_eq_iff (spellable true) (spellable false)).2 (absent true) (absent false)
  exact ⟨spellable true, spellable false, told, fun same => absurd (told.mp same) (by decide)⟩

end Ty

/-- A struct called `unknown`, and a pointer to one that is given a pointer to the unknown type. -/
def misleading : Syntax.Program :=
  [.struct ⟨false, ⟨"unknown", ⟨1, 7⟩⟩, [], ⟨1, 1⟩⟩,
    .var ⟨false, false, ⟨"p", ⟨1, 32⟩⟩, some (.pointer ⟨1, 35⟩ false (.named ⟨1, 36⟩ "unknown")),
      some (.unary ⟨1, 46⟩ .addressOf (.undefined ⟨1, 47⟩)), ⟨1, 28⟩⟩]

/-- With a struct called `unknown` types with the same name can differ, and a value is rejected
because its type is not the one of the same name that is expected. -/
theorem unknown_expected_unknown :
    (∃ program,
      Syntax.Program.ofSource "const unknown = struct {}; var p: *unknown = &undefined;" =
          .ok program ∧
        program.check = .ok
          [⟨.typeMismatch (.pointer false (.struct "unknown")) (.pointer false .unknown),
            ⟨1, 46⟩⟩]) ∧
      ¬ ∀ first second : Ty, first.Spellable → second.Spellable →
        (first.text = second.text ↔ first = second) := by
  constructor
  · refine ⟨misleading, ?_, ?_⟩
    · decide +kernel
    · decide +kernel
  · intro identifies
    have identifier : Ty.Named (.struct "unknown") := ⟨by decide, by decide⟩
    have same := (identifies (.struct "unknown") .unknown (.of_leaf identifier rfl)
      (.of_leaf trivial rfl)).mp rfl
    cases same

end SystemsLang.Typing
