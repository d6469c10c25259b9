import SystemsLang.Syntax.ParseError

/-!
# Parsers over tokens

A parser takes tokens from the front of a list and gives back a result with the tokens it left, or
the first error. Behind the last token of the list stands an end marker that is there however often
it is looked at; every parser is told which one.

All parsers of the grammar are built from the few primitives here: looking at a token ahead, taking
one, failing, and repeating. `Parser.manyUntil` is the only loop. It asks for the next item as long
as the next token neither closes the list nor ends the input; since every item of the grammar takes
a token, the tokens left bound the number of rounds.
-/

namespace SystemsLang

open Token (Kind)
open Syntax (ParseError)

/-- A computation that reads tokens. The first argument is the end marker. -/
def Parser (α : Type) : Type :=
  Token → List Token → Except ParseError (α × List Token)

namespace Parser

variable {α β : Type}

/-- The result of a parser on the given tokens, with the tokens it leaves. -/
def run (parser : Parser α) (ending : Token) (tokens : List Token) :
    Except ParseError (α × List Token) :=
  parser ending tokens

instance : Monad Parser where
  pure value := fun _ tokens => .ok (value, tokens)
  bind first second := fun ending tokens =>
    match first ending tokens with
    | .error error => .error error
    | .ok (value, rest) => second value ending rest

@[simp] theorem run_pure (value : α) (ending : Token) (tokens : List Token) :
    (pure value : Parser α).run ending tokens = .ok (value, tokens) := rfl

/-- A parser followed by one that only hands its result on is that parser. -/
theorem id_map (parser : Parser α) : id <$> parser = parser := by
  funext ending tokens
  change (match parser ending tokens with
    | .error error => .error error
    | .ok (value, rest) => .ok (value, rest)) = parser ending tokens
  cases parser ending tokens <;> rfl

/-- In a sequence of three parsers it does not matter which two are put together first. -/
theorem bind_assoc {γ : Type} (first : Parser α) (second : α → Parser β)
    (third : β → Parser γ) :
    first >>= second >>= third = first >>= fun value => second value >>= third := by
  funext ending tokens
  simp only [bind]
  cases first ending tokens <;> rfl

instance : LawfulMonad Parser :=
  LawfulMonad.mk' Parser id_map (fun _ _ => rfl) bind_assoc

/-- Of two parsers in sequence, the second gets what the first leaves, and the first error wins. -/
theorem run_bind (first : Parser α) (second : α → Parser β) (ending : Token)
    (tokens : List Token) :
    (first >>= second).run ending tokens =
      match first.run ending tokens with
      | .error error => .error error
      | .ok (value, rest) => (second value).run ending rest := rfl

/-- The token that stands the given number of places ahead, without taking any. -/
def peekAt (distance : Nat) : Parser Token := fun ending tokens =>
  .ok (tokens[distance]?.getD ending, tokens)

/-- The next token, without taking it. -/
def peek : Parser Token := peekAt 0

/-- Takes the next token. The end marker behind the last token is never used up. -/
def advance : Parser Token := fun ending tokens =>
  match tokens with
  | [] => .ok (ending, [])
  | token :: rest => .ok (token, rest)

/-- Fails at a token that was looked at or taken before. -/
def failAt (token : Token) (cause : ParseError.Cause) : Parser α := fun _ _ =>
  .error (ParseError.foundAt token cause)

/-- Fails at the next token. -/
def fail (cause : ParseError.Cause) : Parser α := do
  failAt (← peek) cause

/-- Whether the next token is of the given kind. -/
def nextIs (kind : Kind) : Parser Bool := do
  return (← peek).kind == kind

/-- Takes the next token if it is of the given kind, and tells whether it was. -/
def take (kind : Kind) : Parser Bool := do
  if ← nextIs kind then
    discard advance
    return true
  else
    return false

/-- Takes the next token, which has to be of the given kind. -/
def expect (kind : Kind) : Parser Token := do
  if ← nextIs kind then advance else fail (.expected kind)

/-- Takes the next token, which has to be of one of the given kinds. -/
def expectAny (kinds : List Kind) : Parser Token := do
  if (← peek).kind ∈ kinds then advance else fail (.expectedAny kinds)

/-- Repeats an item while the next token is neither an end marker nor of one of the given kinds,
which is not taken. An item that takes no token is the last. -/
def manyUntil (closing : List Kind) (item : Parser α) : Parser (List α) := fun ending tokens =>
  let next := (tokens.head?.getD ending).kind
  if next = .ending ∨ next ∈ closing then .ok ([], tokens)
  else
    match item ending tokens with
    | .error error => .error error
    | .ok (first, rest) =>
      if rest.length < tokens.length then
        match manyUntil closing item ending rest with
        | .error error => .error error
        | .ok (later, left) => .ok (first :: later, left)
      else .ok ([first], rest)
termination_by _ tokens => tokens.length

/-- What stands behind an item of a list: a comma, which is taken, or the token that closes the
list, which is not. -/
def separator (closing : Kind) : Parser Unit := do
  if ← take .comma then return ()
  else if ← nextIs closing then return ()
  else fail (.expectedAny [.comma, closing])

/-- Items with commas between them, up to a token of the given kind, which is not taken. A comma
may stand behind the last item. -/
def commaList (closing : Kind) (item : Parser α) : Parser (List α) :=
  manyUntil [closing] do
    let value ← item
    separator closing
    return value

/-- What a token of the given kind announces, if that is the next token. -/
def optionalAfter (kind : Kind) (item : Parser α) : Parser (Option α) := do
  if ← take kind then return some (← item) else return none

end Parser

end SystemsLang
