import SystemsLang.Layout.Outline

/-!
# Forests as indented lines

An outline is a forest of texts: every text on a line of its own, and what belongs to it on the
lines below, one level deeper. The lines give the forest back (`linesAll_injective`), since a node
ends where the next line is no deeper than its own. The text of the lines gives the lines back if no
line has a line break in it or begins with a blank, which would read as indentation
(`renderAll_injective`).

Main statement: legible forests that are written in the same way are the same (`forest_injective`).
-/

namespace SystemsLang.Layout.Outline

/-- A text with what belongs to it. -/
inductive Tree
  | node (text : String) (children : List Tree)

/-- What can stand on a line and be told from the indentation before it and the lines around it. -/
structure Legible (text : String) : Prop where
  oneLine : '\n' ∉ text.toList
  starts : text.toList.head?.any (· ≠ ' ') = true

instance (text : String) : Decidable (Legible text) :=
  decidable_of_iff ('\n' ∉ text.toList ∧ text.toList.head?.any (· ≠ ' ') = true)
    ⟨fun both => ⟨both.1, both.2⟩, fun legible => ⟨legible.oneLine, legible.starts⟩⟩

/-- More on the same line does no harm. -/
theorem Legible.append {text other : String} (legible : Legible text)
    (oneLine : '\n' ∉ other.toList) : Legible (text ++ other) := by
  constructor
  · rw [String.toList_append, List.mem_append]
    exact not_or.mpr ⟨legible.oneLine, oneLine⟩
  · have starts := legible.starts
    rw [String.toList_append]
    cases same : text.toList with
    | nil =>
      rw [same] at starts
      cases starts
    | cons first rest =>
      rw [same] at starts
      exact starts

/-- The first character is no blank. -/
theorem Legible.apart {text : String} (legible : Legible text) : text.toList.head? ≠ some ' ' := by
  intro blank
  have starts := legible.starts
  rw [blank] at starts
  cases starts

namespace Tree

mutual

/-- The lines of a tree, of which the first has the given level. -/
def lines (level : Nat) : Tree → List Text.Line
  | node text children => ⟨level, text⟩ :: linesAll (level + 1) children

/-- The lines of several trees. -/
def linesAll (level : Nat) : List Tree → List Text.Line
  | [] => []
  | first :: rest => first.lines level ++ linesAll level rest

end

/-- Trees one behind another have their lines one behind another. -/
theorem linesAll_append (level : Nat) (trees others : List Tree) :
    linesAll level (trees ++ others) = linesAll level trees ++ linesAll level others := by
  induction trees with
  | nil => rfl
  | cons first rest inductionHypothesis =>
    rw [List.cons_append, linesAll, linesAll, inductionHypothesis, List.append_assoc]

/-- Lines that do not go on at the given level or deeper. -/
def Outside (level : Nat) (lines : List Text.Line) : Prop :=
  ∀ line ∈ lines.head?, line.level < level

/-- At a level less deep nothing of a forest is left. -/
theorem outside_linesAll {level : Nat} {after : List Text.Line} (outside : Outside level after)
    (trees : List Tree) : Outside (level + 1) (linesAll level trees ++ after) := by
  cases trees with
  | nil => exact fun line member => Nat.lt_succ_of_lt (outside line member)
  | cons first rest =>
    obtain ⟨text, children⟩ := first
    rintro line ⟨⟩
    exact Nat.lt_succ_self level

/-- Lines give back the trees that they are lines of, up to the first line that is less deep. -/
theorem linesAll_injective {level : Nat} {trees others : List Tree}
    {after otherAfter : List Text.Line} (outside : Outside level after)
    (otherOutside : Outside level otherAfter)
    (same : linesAll level trees ++ after = linesAll level others ++ otherAfter) :
    trees = others ∧ after = otherAfter := by
  match trees, others with
  | [], [] => exact ⟨rfl, same⟩
  | [], node text children :: rest =>
    have first : (⟨level, text⟩ : Text.Line) ∈ after.head? := by
      rw [linesAll, List.nil_append] at same
      rw [same]
      rfl
    exact absurd (outside _ first) (Nat.lt_irrefl level)
  | node text children :: rest, [] =>
    have first : (⟨level, text⟩ : Text.Line) ∈ otherAfter.head? := by
      rw [linesAll.eq_1, List.nil_append] at same
      rw [← same]
      rfl
    exact absurd (otherOutside _ first) (Nat.lt_irrefl level)
  | node text children :: rest, node otherText otherChildren :: otherRest =>
    rw [linesAll, linesAll, lines, lines, List.append_assoc, List.append_assoc, List.cons_append,
      List.cons_append] at same
    obtain ⟨sameLine, sameBehind⟩ := List.cons.inj same
    obtain ⟨rfl, sameRest⟩ := linesAll_injective (outside_linesAll outside rest)
      (outside_linesAll otherOutside otherRest) sameBehind
    obtain ⟨rfl, sameAfter⟩ := linesAll_injective outside otherOutside sameRest
    obtain rfl : text = otherText := congrArg Text.Line.text sameLine
    exact ⟨rfl, sameAfter⟩

mutual

/-- All texts in a tree are legible. -/
def AllLegible : Tree → Prop
  | node text children => Legible text ∧ EachLegible children

/-- All texts in several trees are legible. -/
def EachLegible : List Tree → Prop
  | [] => True
  | first :: rest => first.AllLegible ∧ EachLegible rest

end

/-- Trees one behind another are legible if all of them are. -/
theorem eachLegible_append {trees others : List Tree} :
    EachLegible (trees ++ others) ↔ EachLegible trees ∧ EachLegible others := by
  induction trees with
  | nil => simp [EachLegible]
  | cons first rest inductionHypothesis =>
    rw [List.cons_append, EachLegible, EachLegible, inductionHypothesis, and_assoc]

/-- The lines of legible trees are legible. -/
theorem legible_of_mem_linesAll (level : Nat) (trees : List Tree) (legible : EachLegible trees) :
    ∀ line ∈ linesAll level trees, Legible line.text := by
  match trees with
  | [] => exact fun line member => nomatch member
  | node text children :: rest =>
    obtain ⟨⟨here, below⟩, later⟩ := legible
    intro line member
    rw [linesAll, lines, List.cons_append, List.mem_cons, List.mem_append] at member
    rcases member with rfl | inside | behind
    · exact here
    · exact legible_of_mem_linesAll (level + 1) children below line inside
    · exact legible_of_mem_linesAll level rest later line behind

end Tree

/-- Where a mark stands for the first time a text is cut in one way only. -/
theorem append_mark_inj {mark : Char} {before otherBefore after otherAfter : List Char}
    (absent : mark ∉ before) (otherAbsent : mark ∉ otherBefore)
    (same : before ++ mark :: after = otherBefore ++ mark :: otherAfter) :
    before = otherBefore ∧ after = otherAfter := by
  induction before generalizing otherBefore with
  | nil =>
    cases otherBefore with
    | nil => exact ⟨rfl, (List.cons.inj same).2⟩
    | cons first rest =>
      obtain ⟨rfl, -⟩ := List.cons.inj same
      exact absurd List.mem_cons_self otherAbsent
  | cons first rest inductionHypothesis =>
    cases otherBefore with
    | nil =>
      obtain ⟨rfl, -⟩ := List.cons.inj same
      exact absurd List.mem_cons_self absent
    | cons otherFirst otherRest =>
      obtain ⟨rfl, sameRest⟩ := List.cons.inj same
      obtain ⟨rfl, sameAfter⟩ := inductionHypothesis (fun member => absent (.tail _ member))
        (fun member => otherAbsent (.tail _ member)) sameRest
      exact ⟨rfl, sameAfter⟩

/-- A level is two blanks. -/
theorem toList_indentation (level : Nat) :
    (Text.Line.indentation unit level).toList = List.replicate (2 * level) ' ' := by
  induction level with
  | zero => rfl
  | succ level inductionHypothesis =>
    rw [Text.Line.indentation, List.replicate_succ, String.join_cons, String.toList_append]
    rw [Text.Line.indentation] at inductionHypothesis
    rw [inductionHypothesis, Nat.mul_succ, Nat.add_comm, ← List.replicate_append_replicate]
    rfl

/-- Characters behind blanks tell how many blanks there are, unless they begin with one. -/
theorem replicate_append_inj {count other : Nat} {text otherText : List Char}
    (apart : text.head? ≠ some ' ') (otherApart : otherText.head? ≠ some ' ')
    (same : List.replicate count ' ' ++ text = List.replicate other ' ' ++ otherText) :
    count = other ∧ text = otherText := by
  induction count generalizing other with
  | zero =>
    cases other with
    | zero => exact ⟨rfl, same⟩
    | succ other =>
      rw [List.replicate_zero, List.nil_append] at same
      rw [same] at apart
      exact absurd rfl apart
  | succ count inductionHypothesis =>
    cases other with
    | zero =>
      rw [List.replicate_zero, List.nil_append] at same
      rw [← same] at otherApart
      exact absurd rfl otherApart
    | succ other =>
      obtain ⟨rfl, sameText⟩ := inductionHypothesis (List.cons.inj same).2
      exact ⟨rfl, sameText⟩

/-- The text of a line in front of other lines. -/
theorem toList_renderAll_cons (line : Text.Line) (lines : List Text.Line) :
    (Text.Line.renderAll unit (line :: lines)).toList =
      List.replicate (2 * line.level) ' ' ++ line.text.toList ++
        '\n' :: (Text.Line.renderAll unit lines).toList := by
  rw [← toList_indentation]
  simp [Text.Line.renderAll, Text.Line.render]

/-- Legible lines can be read off their text. -/
theorem renderAll_injective {lines others : List Text.Line}
    (legible : ∀ line ∈ lines, Legible line.text)
    (otherLegible : ∀ line ∈ others, Legible line.text)
    (same : Text.Line.renderAll unit lines = Text.Line.renderAll unit others) : lines = others := by
  induction lines generalizing others with
  | nil =>
    cases others with
    | nil => rfl
    | cons line others =>
      have sameText := congrArg String.toList same
      rw [toList_renderAll_cons] at sameText
      exact absurd sameText.symm (by simp [Text.Line.renderAll])
  | cons line lines inductionHypothesis =>
    cases others with
    | nil =>
      have sameText := congrArg String.toList same
      rw [toList_renderAll_cons] at sameText
      exact absurd sameText (by simp [Text.Line.renderAll])
    | cons other others =>
      obtain ⟨here, later⟩ := List.forall_mem_cons.mp legible
      obtain ⟨otherHere, otherLater⟩ := List.forall_mem_cons.mp otherLegible
      have sameText := congrArg String.toList same
      rw [toList_renderAll_cons, toList_renderAll_cons] at sameText
      have noBreak {text : String} (legible : Legible text) (level : Nat) :
          '\n' ∉ List.replicate level ' ' ++ text.toList := by
        simp [legible.oneLine]
      obtain ⟨sameLine, sameRest⟩ :=
        append_mark_inj (noBreak here _) (noBreak otherHere _) sameText
      obtain ⟨sameLevel, sameHere⟩ := replicate_append_inj here.apart otherHere.apart sameLine
      have sameFirst : line = other := by
        obtain ⟨level, text⟩ := line
        obtain ⟨otherLevel, otherText⟩ := other
        obtain rfl : level = otherLevel := Nat.eq_of_mul_eq_mul_left Nat.two_pos sameLevel
        obtain rfl : text = otherText := String.toList_injective sameHere
        rfl
      rw [sameFirst, inductionHypothesis later otherLater (String.toList_injective sameRest)]

/-- Legible forests can be read off their text. -/
theorem forest_injective {trees others : List Tree} (legible : Tree.EachLegible trees)
    (otherLegible : Tree.EachLegible others)
    (same : Text.Line.renderAll unit (Tree.linesAll 0 trees) =
      Text.Line.renderAll unit (Tree.linesAll 0 others)) : trees = others := by
  have sameLines : Tree.linesAll 0 trees = Tree.linesAll 0 others :=
    renderAll_injective (Tree.legible_of_mem_linesAll 0 trees legible)
      (Tree.legible_of_mem_linesAll 0 others otherLegible) same
  have ends : Tree.Outside 0 [] := fun _ member => nomatch member
  have whole : Tree.linesAll 0 trees ++ [] = Tree.linesAll 0 others ++ [] := by
    rw [sameLines]
  exact (Tree.linesAll_injective ends ends whole).1

end SystemsLang.Layout.Outline
