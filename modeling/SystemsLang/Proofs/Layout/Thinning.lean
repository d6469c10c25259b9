import Mathlib.Data.List.Forall2
import Mathlib.Logic.Relation
import SystemsLang.Proofs.Layout.DerivesExpr
import SystemsLang.Proofs.Layout.Joined

/-!
# Leaving out tokens that make no difference

Some tokens of a source can be left out, and what is left still spells the same: a pair of
parentheses around an expression, and a comma behind the last item of a list. Besides, the length
of an array can be written with other digits. Tokens are thinned out by one such step after the
other; what the tokens have to spell is a parameter, and is required again after every step.

Thinning out one part of a phrase is thinning out the phrase, so what is left of a phrase is put
together from what is left of its parts. Tokens reduce to pieces if they can be thinned out to
tokens that the pieces stand for.
-/

namespace SystemsLang.Layout

open Token (Kind)
open Grammar (DerivesExpr Length)
open Syntax (Expr)
open Piece (mark commas commas_cons commas_single hasSpelling)

/-- A token as a scan makes it: if its kind has one spelling, that is its text. -/
structure Regular (token : Token) : Prop where
  proper : Token.Proper token
  spelled : hasSpelling token.kind = true → token.text = token.kind.describe

/-- A word of a kind with one spelling is that spelling. -/
theorem eq_describe_of_ofWord {word : String}
    (spelled : hasSpelling (Kind.ofWord word) = true) : word = (Kind.ofWord word).describe := by
  rcases Kind.ofWord_cases word with keyword | ⟨primitive, -⟩ | identifier
  · have table : ∀ entry ∈ Token.keywords, entry.1 = entry.2.describe := by decide
    exact table _ keyword
  · rw [primitive] at spelled
    cases spelled
  · rw [identifier] at spelled
    cases spelled

/-- What is read as an operator or mark has the spelling of its kind, or is a stray character. -/
theorem eq_describe_of_mark {first : Char} {text : List Char}
    (spelled : hasSpelling (Token.Lexeme.mark first text).kind = true) :
    (Token.Lexeme.mark first text).kind.describe.toList = (Token.Lexeme.mark first text).value := by
  have single : hasSpelling ((Kind.ofSingle? first).getD .unexpectedChar) = true →
      ((Kind.ofSingle? first).getD .unexpectedChar).describe.toList = [first] := by
    intro spelled
    cases known : Kind.ofSingle? first with
    | none =>
      rw [known] at spelled
      cases spelled
    | some kind => exact Kind.describe_ofSingle? known
  unfold Token.Lexeme.mark at spelled ⊢
  split at spelled
  · split at spelled
    · rename_i kind known
      simp only
      exact Kind.describe_ofPair? known
    · rename_i unknown
      simp only
      exact single spelled
  · exact single spelled

/-- The lexemes of a text are regular. -/
theorem regular_of_mem_lexemes {source : String} {token : Token}
    (member : token ∈ Token.lexemes source) : Regular token := by
  refine ⟨Token.proper_of_mem_lexemes member, fun spelled => ?_⟩
  refine String.toList_inj.mp (Token.forall_lexemes
    (fun kind text => hasSpelling kind = true → text = kind.describe.toList) ?_ member spelled)
  intro first text spelled
  have word (start : List Char) (spelled : hasSpelling (Token.Lexeme.word start text).kind = true) :
      (Token.Lexeme.word start text).value =
        (Token.Lexeme.word start text).kind.describe.toList := by
    have same := congrArg String.toList (eq_describe_of_ofWord spelled)
    rwa [String.toList_ofList] at same
  unfold Token.Lexeme.read at spelled ⊢
  split at spelled
  · rename_i starts
    rw [if_pos starts]
    exact word [first] spelled
  rename_i notWord
  rw [if_neg notWord]
  split at spelled
  · rw [Token.Lexeme.number_kind] at spelled
    cases spelled
  rename_i notNumber
  rw [if_neg notNumber]
  split at spelled
  · rcases Token.Lexeme.quoted_kind first text with kind | kind <;>
      (rw [kind] at spelled; cases spelled)
  rename_i notQuoted
  rw [if_neg notQuoted]
  split at spelled
  · rename_i sign
    rw [if_pos sign]
    exact word [first] spelled
  · rename_i notSign
    rw [if_neg notSign]
    exact (eq_describe_of_mark spelled).symm

/-- Two numbers that give the same length. -/
def SameLength (first second : Token) : Prop :=
  ∃ length, Length first length ∧ Length second length

/-- What can be left out of tokens that spell something, or written differently, so that what is
left still spells it. -/
inductive Omits (Is : List Token → Prop) : List Token → List Token → Prop
  | group {opening closing : Token} {before inner after : List Token} {value : Expr} {levels : Nat}
      (opens : opening.kind = .leftParen) (item : DerivesExpr inner value levels)
      (closes : closing.kind = .rightParen) (still : Is (before ++ inner ++ after)) :
    Omits Is (before ++ opening :: (inner ++ closing :: after)) (before ++ inner ++ after)
  | comma {comma closing : Token} {before after : List Token} (separates : comma.kind = .comma)
      (closes : closing.kind = .rightParen ∨ closing.kind = .rightBrace)
      (still : Is (before ++ closing :: after)) :
    Omits Is (before ++ comma :: closing :: after) (before ++ closing :: after)
  | length {number other : Token} {before after : List Token} (same : SameLength number other)
      (still : Is (before ++ other :: after)) :
    Omits Is (before ++ number :: after) (before ++ other :: after)

variable {Is Other Whole : List Token → Prop} {tokens others kept front back : List Token}

/-- What can be left out of a part can be left out of the whole. -/
theorem Omits.within (keeps : ∀ tokens, Is tokens → Whole (front ++ (tokens ++ back)))
    (omits : Omits Is tokens kept) :
    Omits Whole (front ++ (tokens ++ back)) (front ++ (kept ++ back)) := by
  cases omits with
  | @group opening closing before inner after _ _ opens item closes still =>
    have step : Omits Whole ((front ++ before) ++ opening :: (inner ++ closing :: (after ++ back)))
        ((front ++ before) ++ inner ++ (after ++ back)) :=
      .group opens item closes (by simpa using keeps _ still)
    simpa using step
  | @comma comma closing before after separates closes still =>
    have step : Omits Whole ((front ++ before) ++ comma :: closing :: (after ++ back))
        ((front ++ before) ++ closing :: (after ++ back)) :=
      .comma separates closes (by simpa using keeps _ still)
    simpa using step
  | @length number other before after same still =>
    have step : Omits Whole ((front ++ before) ++ number :: (after ++ back))
        ((front ++ before) ++ other :: (after ++ back)) :=
      .length same (by simpa using keeps _ still)
    simpa using step

/-- The first tokens can be thinned out to the second, and both spell the same. -/
structure Thins (Is : List Token → Prop) (tokens kept : List Token) : Prop where
  source : Is tokens
  result : Is kept
  steps : Relation.ReflTransGen (Omits Is) tokens kept

namespace Thins

/-- Tokens are thinned to themselves if nothing is dropped. -/
theorem refl (spells : Is tokens) : Thins Is tokens tokens :=
  ⟨spells, spells, .refl⟩

/-- What is thinned twice is thinned. -/
theorem trans (first : Thins Is tokens kept) (second : Thins Is kept others) :
    Thins Is tokens others :=
  ⟨first.source, second.result, first.steps.trans second.steps⟩

/-- One step more. -/
theorem tail (thins : Thins Is tokens kept) (omits : Omits Is kept others) (spells : Is others) :
    Thins Is tokens others :=
  ⟨thins.source, spells, thins.steps.tail omits⟩

/-- Thinning out a part is thinning out the whole. -/
theorem within (keeps : ∀ tokens, Is tokens → Whole (front ++ (tokens ++ back)))
    (thins : Thins Is tokens kept) :
    Thins Whole (front ++ (tokens ++ back)) (front ++ (kept ++ back)) :=
  ⟨keeps _ thins.source, keeps _ thins.result,
    thins.steps.lift (fun tokens => front ++ (tokens ++ back)) fun _ _ => Omits.within keeps⟩

/-- So is thinning out what stands before something else. -/
theorem onLeft (keeps : ∀ tokens, Is tokens → Whole (tokens ++ back))
    (thins : Thins Is tokens kept) : Thins Whole (tokens ++ back) (kept ++ back) :=
  show Thins Whole ([] ++ (tokens ++ back)) ([] ++ (kept ++ back)) from thins.within keeps

/-- So is thinning out what stands behind something else. -/
theorem onRight (keeps : ∀ tokens, Is tokens → Whole (front ++ tokens))
    (thins : Thins Is tokens kept) : Thins Whole (front ++ tokens) (front ++ kept) := by
  have lifted : Thins Whole (front ++ (tokens ++ [])) (front ++ (kept ++ [])) :=
    thins.within fun tokens spells => by
      rw [List.append_nil]
      exact keeps tokens spells
  rwa [List.append_nil, List.append_nil] at lifted

/-- Less may be asked of what the tokens spell. -/
theorem imp (implies : ∀ tokens, Is tokens → Whole tokens) (thins : Thins Is tokens kept) :
    Thins Whole tokens kept :=
  show Thins Whole ([] ++ tokens) ([] ++ kept) from thins.onRight implies

end Thins

/-- Two tokens that say the same: they are of one kind and have the same text or, as numbers, give
the same length. -/
def SameLexeme (first second : Token) : Prop :=
  first.kind = second.kind ∧ (first.text = second.text ∨ SameLength first second)

/-- A token is the same lexeme as itself. -/
theorem SameLexeme.refl (token : Token) : SameLexeme token token :=
  ⟨rfl, .inl rfl⟩

/-- A number gives one length. -/
theorem length_unique {token : Token} {length other : UInt64} (first : Length token length)
    (second : Length token other) : length = other := by
  obtain ⟨-, digits, spelled, -, allDigits, value⟩ := first
  obtain ⟨-, otherDigits, otherSpelled, -, otherAll, otherValue⟩ := second
  have plus {digits : List Char} (all : ('+' :: digits).all Char.isDigit = true) : False := by
    rw [List.all_cons] at all
    exact absurd (Bool.and_eq_true_iff.mp all).1 (by decide)
  have same : digits = otherDigits := by
    rcases spelled with spelled | spelled <;> rcases otherSpelled with otherSpelled | otherSpelled
    · exact spelled.symm.trans otherSpelled
    · rw [← spelled, otherSpelled] at allDigits
      exact (plus allDigits).elim
    · rw [← otherSpelled, spelled] at otherAll
      exact (plus otherAll).elim
    · exact (List.cons.inj (spelled.symm.trans otherSpelled)).2
  rw [same] at value
  exact UInt64.toNat_inj.mp (value.symm.trans otherValue)

/-- A token with the kind and the text of a number gives the same length. -/
theorem length_of_same {first second : Token} {length : UInt64} (kind : first.kind = second.kind)
    (text : first.text = second.text) (counts : Length first length) : Length second length := by
  unfold Length at counts ⊢
  rwa [← kind, ← text]

/-- Tokens that are the same lexeme one after another are the same from first to last. -/
theorem SameLexeme.trans {first second third : Token} (one : SameLexeme first second)
    (two : SameLexeme second third) : SameLexeme first third := by
  obtain ⟨kind, text | ⟨length, counts, secondCounts⟩⟩ := one
  · obtain ⟨laterKind, laterText | ⟨length, counts, laterCounts⟩⟩ := two
    · exact ⟨kind.trans laterKind, .inl (text.trans laterText)⟩
    · exact ⟨kind.trans laterKind,
        .inr ⟨length, length_of_same kind.symm text.symm counts, laterCounts⟩⟩
  · obtain ⟨laterKind, laterText | ⟨other, otherCounts, laterCounts⟩⟩ := two
    · exact ⟨kind.trans laterKind,
        .inr ⟨length, counts, length_of_same laterKind laterText secondCounts⟩⟩
    · rw [← length_unique secondCounts otherCounts] at laterCounts
      exact ⟨kind.trans laterKind, .inr ⟨length, counts, laterCounts⟩⟩

/-- The first tokens are some of the second, in the same order, up to the digits of lengths. -/
abbrev Subsequence (kept tokens : List Token) : Prop :=
  List.SublistForall₂ SameLexeme kept tokens

instance : Std.Refl SameLexeme := ⟨SameLexeme.refl⟩

instance : IsTrans Token SameLexeme := ⟨fun _ _ _ => SameLexeme.trans⟩

/-- A step leaves some of the tokens. -/
theorem Omits.subsequence (omits : Omits Is tokens kept) : Subsequence kept tokens := by
  cases omits with
  | @group opening closing before inner after =>
    have sublist : (before ++ inner ++ after).Sublist
        (before ++ opening :: (inner ++ closing :: after)) := by
      rw [List.append_assoc]
      exact (List.Sublist.refl before).append
        (((List.Sublist.refl inner).append (List.sublist_cons_self closing after)).cons opening)
    exact sublist.sublistForall₂
  | @comma comma closing before after =>
    have sublist : (before ++ closing :: after).Sublist (before ++ comma :: closing :: after) :=
      (List.Sublist.refl before).append (List.sublist_cons_self comma _)
    exact sublist.sublistForall₂
  | @length number other before after same =>
    have lexeme : SameLexeme other number := by
      obtain ⟨length, counts, otherCounts⟩ := same
      exact ⟨otherCounts.1.trans counts.1.symm, .inr ⟨length, otherCounts, counts⟩⟩
    exact List.sublistForall₂_iff.mpr ⟨before ++ number :: after,
      List.rel_append (List.forall₂_refl before) (.cons lexeme (List.forall₂_refl after)),
      List.Sublist.refl _⟩

/-- What is left of tokens that are thinned out are some of them. -/
theorem Thins.subsequence (thins : Thins Is tokens kept) : Subsequence kept tokens := by
  have steps := thins.steps
  clear thins
  induction steps with
  | refl => exact (List.Sublist.refl tokens).sublistForall₂
  | tail _ omits inductionHypothesis =>
    exact IsTrans.trans _ _ _ omits.subsequence inductionHypothesis

variable {before after : List Token} {pieces others first second : List Piece}

/-- Tokens of one sort with tokens of another behind them. -/
def Then (Is Other : List Token → Prop) (tokens : List Token) : Prop :=
  ∃ before after, tokens = before ++ after ∧ Is before ∧ Other after

/-- Tokens that spell a value, up to what is forgotten of it. -/
def SpellsUpTo {α : Type} (Item : List Token → α → Nat → Prop) (forget : α → α) (value : α)
    (tokens : List Token) : Prop :=
  ∃ result levels, Item tokens result levels ∧ forget result = forget value

/-- A given token and nothing else. -/
def Only (token : Token) (tokens : List Token) : Prop :=
  tokens = [token]

/-- The tokens can be thinned out to tokens that the pieces stand for. -/
def Reduces (Is : List Token → Prop) (tokens : List Token) (pieces : List Piece) : Prop :=
  ∃ kept, Thins Is tokens kept ∧ Spells kept pieces

/-- Tokens behind others stand for the pieces behind theirs. -/
theorem spells_append (head : Spells before first) (tail : Spells after second) :
    Spells (before ++ after) (first ++ second) := by
  unfold Spells at head tail ⊢
  rw [List.map_append, head, tail, List.filterMap_append]

namespace Reduces

/-- Tokens that the pieces stand for already are left as they are. -/
theorem same (is : Is tokens) (spells : Spells tokens pieces) : Reduces Is tokens pieces :=
  ⟨tokens, .refl is, spells⟩

/-- A single token is left as it is. -/
theorem only {token : Token} (spells : Spells [token] pieces) :
    Reduces (Only token) [token] pieces :=
  .same rfl spells

/-- Two parts are thinned out one after the other. -/
theorem both (head : Reduces Is before first) (tail : Reduces Other after second) :
    Reduces (Then Is Other) (before ++ after) (first ++ second) := by
  obtain ⟨keptBefore, thinsBefore, spellsBefore⟩ := head
  obtain ⟨keptAfter, thinsAfter, spellsAfter⟩ := tail
  have left : Thins (Then Is Other) (before ++ after) (keptBefore ++ after) :=
    thinsBefore.onLeft fun tokens spells => ⟨tokens, after, rfl, spells, thinsAfter.source⟩
  have right : Thins (Then Is Other) (keptBefore ++ after) (keptBefore ++ keptAfter) :=
    thinsAfter.onRight fun tokens spells => ⟨keptBefore, tokens, rfl, thinsBefore.result, spells⟩
  exact ⟨keptBefore ++ keptAfter, left.trans right, spells_append spellsBefore spellsAfter⟩

/-- Less may be asked of what the tokens spell. -/
theorem imp (implies : ∀ tokens, Is tokens → Whole tokens) (reduces : Reduces Is tokens pieces) :
    Reduces Whole tokens pieces := by
  obtain ⟨kept, thins, spells⟩ := reduces
  exact ⟨kept, thins.imp implies, spells⟩

/-- Pieces matter only for the tokens that they stand for. -/
theorem respell (stand : others.filterMap Piece.lexeme? = pieces.filterMap Piece.lexeme?)
    (reduces : Reduces Is tokens pieces) : Reduces Is tokens others := by
  obtain ⟨kept, thins, spells⟩ := reduces
  exact ⟨kept, thins, spells.trans stand.symm⟩

/-- A blank before the pieces stands for nothing. -/
theorem blank (reduces : Reduces Is tokens pieces) : Reduces Is tokens (.blank :: pieces) :=
  reduces.respell rfl

/-- A comma behind the last item of a list, in front of the bracket that closes the list, is left
out. -/
theorem lastComma {comma closing : Token} (separates : comma.kind = .comma)
    (closes : closing.kind = .rightParen ∨ closing.kind = .rightBrace)
    (alone : ∀ tokens, Is tokens → Whole tokens)
    (followed : ∀ tokens, Is tokens → Whole (tokens ++ [comma]))
    (item : Reduces Is before first) (ending : Spells [closing] second) :
    Reduces (Then Whole (Only closing)) (before ++ [comma] ++ [closing]) (first ++ second) := by
  obtain ⟨kept, thins, spells⟩ := item
  have listed : Thins (Then Whole (Only closing)) (before ++ [comma, closing])
      (kept ++ [comma, closing]) :=
    thins.onLeft fun tokens item => ⟨tokens ++ [comma], [closing], by simp, followed _ item, rfl⟩
  have bare : Then Whole (Only closing) (kept ++ [closing]) :=
    ⟨kept, [closing], rfl, alone _ thins.result, rfl⟩
  rw [List.append_assoc]
  exact ⟨kept ++ [closing], listed.tail (.comma separates closes bare) bare,
    spells_append spells ending⟩

/-- In front of a comma and the items behind it an item is thinned out by itself. -/
theorem nextItem {comma closing : Token}
    (comma_reduces : Reduces (Only comma) [comma] [mark .comma])
    (joins : ∀ before after, Is before → Other after → Whole (before ++ comma :: after))
    (item : Reduces Is before first)
    (later : Reduces (Then Other (Only closing)) (after ++ [closing]) (second ++ pieces)) :
    Reduces (Then Whole (Only closing)) (before ++ comma :: after ++ [closing])
      (first ++ mark .comma :: .blank :: second ++ pieces) := by
  have whole := item.both (comma_reduces.both later.blank)
  rw [List.append_assoc, List.append_assoc]
  refine whole.imp ?_
  rintro _ ⟨head, _, rfl, headIs, _, _, rfl, rfl, rest, _, rfl, restIs, rfl⟩
  exact ⟨head ++ comma :: rest, [closing], by simp, joins head rest headIs restIs, rfl⟩

/-- An item with a comma and the rest of a list behind it. The comma is left out if nothing follows
but the bracket. -/
theorem listed {comma closing : Token} {groups : List (List Piece)}
    (separates : comma.kind = .comma)
    (comma_reduces : Reduces (Only comma) [comma] [mark .comma])
    (closes : closing.kind = .rightParen ∨ closing.kind = .rightBrace)
    (alone : groups = [] → after = [] ∧ Other [] ∧ ∀ tokens, Is tokens → Whole tokens)
    (joins : ∀ before after, Is before → Other after → Whole (before ++ comma :: after))
    (item : Reduces Is before first) (ending : Spells [closing] pieces)
    (later : Reduces (Then Other (Only closing)) (after ++ [closing]) (commas groups ++ pieces)) :
    Reduces (Then Whole (Only closing)) (before ++ comma :: after ++ [closing])
      (commas (first :: groups) ++ pieces) := by
  cases groups with
  | nil =>
    obtain ⟨rfl, nothing, single⟩ := alone rfl
    rw [commas_single]
    exact lastComma separates closes single (fun tokens is => joins tokens [] is nothing) item
      ending
  | cons second rest =>
    rw [commas_cons]
    exact nextItem comma_reduces joins item later

end Reduces

namespace Regular

variable {token : Token}

/-- A mark stands for a token of its kind. -/
theorem spells {kind : Kind} (regular : Regular token) (same : token.kind = kind)
    (spelled : hasSpelling kind = true) : Spells [token] [.mark kind] := by
  subst same
  rw [Spells, List.map_singleton, regular.spelled spelled]
  rfl

/-- A name stands for an identifier. -/
theorem spells_name (regular : Regular token) (same : token.kind = .identifier) :
    Spells [token] [.name token.text] := by
  rw [Spells, List.map_singleton, same, ← (regular.proper.1 same).plain]
  rfl

/-- A token of a kind with one spelling is left as it is. -/
theorem mark {kind : Kind} (regular : Regular token) (same : token.kind = kind)
    (spelled : hasSpelling kind = true) : Reduces (Only token) [token] [.mark kind] :=
  .only (regular.spells same spelled)

/-- So is an identifier. -/
theorem name (regular : Regular token) (same : token.kind = .identifier) :
    Reduces (Only token) [token] [.name token.text] :=
  .only (regular.spells_name same)

end Regular

end SystemsLang.Layout
