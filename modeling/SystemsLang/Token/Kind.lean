/-!
# Kinds of token

Every token has a kind. Words, operators and punctuation have one spelling each; names, numbers,
strings and primitive type names are kinds of many spellings; the end of the input and the two
lexical failures are kinds as well, so that a scan is one list whatever the text holds.

`Kind.describe` is the spelling of a fixed token and a phrase for every other. `Kind.display` is the
form used inside messages, where fixed spellings other than literals stand between quotes.
-/

namespace SystemsLang.Token

/-- The kinds of token. -/
inductive Kind
  | fnWord | constWord | varWord | structWord | returnWord | ifWord | elseWord | whileWord | forWord
  | breakWord | continueWord | comptimeWord | inlineWord | pubWord | tryWord
  | trueWord | falseWord | nullWord | undefinedWord
  | plus | minus | star | slash | percent | bang | amp | ampAmp | pipePipe
  | equalEqual | bangEqual | less | lessEqual | greater | greaterEqual
  | assign | plusAssign | minusAssign | starAssign | slashAssign | percentAssign | question | dot
  | colon | semicolon | comma | leftParen | rightParen | leftBrace | rightBrace
  | leftBracket | rightBracket
  | identifier | primitiveType | number | string
  | ending | unexpectedChar | unterminatedString
deriving DecidableEq, Inhabited

/-- The coarse categories that kinds fall into. -/
inductive Category
  | keyword | primitiveType | literal | identifier | operator | punctuation | ending | failure
deriving DecidableEq

/-- The name under which listings show a category. -/
def Category.name : Category → String
  | .keyword => "Keyword"
  | .primitiveType => "PrimitiveType"
  | .literal => "Literal"
  | .identifier => "Identifier"
  | .operator => "Operator"
  | .punctuation => "Punctuation"
  | .ending => "Eof"
  | .failure => "Error"

namespace Kind

/-- Every kind, in the order of the type. -/
def all : List Kind :=
  [fnWord, constWord, varWord, structWord, returnWord, ifWord, elseWord, whileWord, forWord,
    breakWord, continueWord, comptimeWord, inlineWord, pubWord, tryWord,
    trueWord, falseWord, nullWord, undefinedWord,
    plus, minus, star, slash, percent, bang, amp, ampAmp, pipePipe,
    equalEqual, bangEqual, less, lessEqual, greater, greaterEqual,
    assign, plusAssign, minusAssign, starAssign, slashAssign, percentAssign, question, dot,
    colon, semicolon, comma, leftParen, rightParen, leftBrace, rightBrace,
    leftBracket, rightBracket,
    identifier, primitiveType, number, string,
    ending, unexpectedChar, unterminatedString]

/-- The name under which listings of tokens show a kind. -/
def name : Kind → String
  | fnWord => "Fn"
  | constWord => "Const"
  | varWord => "Var"
  | structWord => "Struct"
  | returnWord => "Return"
  | ifWord => "If"
  | elseWord => "Else"
  | whileWord => "While"
  | forWord => "For"
  | breakWord => "Break"
  | continueWord => "Continue"
  | comptimeWord => "Comptime"
  | inlineWord => "Inline"
  | pubWord => "Pub"
  | tryWord => "Try"
  | trueWord => "True"
  | falseWord => "False"
  | nullWord => "Null"
  | undefinedWord => "Undefined"
  | plus => "Plus"
  | minus => "Minus"
  | star => "Star"
  | slash => "Slash"
  | percent => "Percent"
  | bang => "Bang"
  | amp => "Amp"
  | ampAmp => "AmpAmp"
  | pipePipe => "PipePipe"
  | equalEqual => "EqEq"
  | bangEqual => "BangEq"
  | less => "Less"
  | lessEqual => "LessEq"
  | greater => "Greater"
  | greaterEqual => "GreaterEq"
  | assign => "Assign"
  | plusAssign => "PlusAssign"
  | minusAssign => "MinusAssign"
  | starAssign => "StarAssign"
  | slashAssign => "SlashAssign"
  | percentAssign => "PercentAssign"
  | question => "Question"
  | dot => "Dot"
  | colon => "Colon"
  | semicolon => "Semicolon"
  | comma => "Comma"
  | leftParen => "LParen"
  | rightParen => "RParen"
  | leftBrace => "LBrace"
  | rightBrace => "RBrace"
  | leftBracket => "LBracket"
  | rightBracket => "RBracket"
  | identifier => "Identifier"
  | primitiveType => "PrimitiveType"
  | number => "Number"
  | string => "String"
  | ending => "Eof"
  | unexpectedChar => "ErrorUnexpectedChar"
  | unterminatedString => "ErrorUnterminatedString"

/-- The category of a kind. -/
def category : Kind → Category
  | fnWord | constWord | varWord | structWord | returnWord | ifWord | elseWord | whileWord | forWord
  | breakWord | continueWord | comptimeWord | inlineWord | pubWord | tryWord => .keyword
  | trueWord | falseWord | nullWord | undefinedWord | number | string => .literal
  | plus | minus | star | slash | percent | bang | amp | ampAmp | pipePipe
  | equalEqual | bangEqual | less | lessEqual | greater | greaterEqual
  | assign | plusAssign | minusAssign | starAssign | slashAssign | percentAssign
  | question | dot => .operator
  | colon | semicolon | comma | leftParen | rightParen | leftBrace | rightBrace
  | leftBracket | rightBracket => .punctuation
  | identifier => .identifier
  | primitiveType => .primitiveType
  | ending => .ending
  | unexpectedChar | unterminatedString => .failure

/-- Whether tokens of this kind record a lexical failure. -/
def isFailure (kind : Kind) : Bool :=
  kind.category == .failure

/-- The spelling of a fixed token, and a phrase for every other kind. -/
def describe : Kind → String
  | fnWord => "fn"
  | constWord => "const"
  | varWord => "var"
  | structWord => "struct"
  | returnWord => "return"
  | ifWord => "if"
  | elseWord => "else"
  | whileWord => "while"
  | forWord => "for"
  | breakWord => "break"
  | continueWord => "continue"
  | comptimeWord => "comptime"
  | inlineWord => "inline"
  | pubWord => "pub"
  | tryWord => "try"
  | trueWord => "true"
  | falseWord => "false"
  | nullWord => "null"
  | undefinedWord => "undefined"
  | plus => "+"
  | minus => "-"
  | star => "*"
  | slash => "/"
  | percent => "%"
  | bang => "!"
  | amp => "&"
  | ampAmp => "&&"
  | pipePipe => "||"
  | equalEqual => "=="
  | bangEqual => "!="
  | less => "<"
  | lessEqual => "<="
  | greater => ">"
  | greaterEqual => ">="
  | assign => "="
  | plusAssign => "+="
  | minusAssign => "-="
  | starAssign => "*="
  | slashAssign => "/="
  | percentAssign => "%="
  | question => "?"
  | dot => "."
  | colon => ":"
  | semicolon => ";"
  | comma => ","
  | leftParen => "("
  | rightParen => ")"
  | leftBrace => r"{"
  | rightBrace => r"}"
  | leftBracket => "["
  | rightBracket => "]"
  | identifier => "identifier"
  | primitiveType => "type name"
  | number => "number"
  | string => "string"
  | ending => "end of input"
  | unexpectedChar => "unexpected character"
  | unterminatedString => "unterminated string"

/-- The form of a kind inside messages: keywords, operators and punctuation stand between single
quotes, everything else is described bare. -/
def display (kind : Kind) : String :=
  match kind.category with
  | .keyword | .operator | .punctuation => "'" ++ kind.describe ++ "'"
  | _ => kind.describe

end Kind

/-- The words with a meaning of their own, each with its kind. -/
def keywords : List (String × Kind) :=
  [.fnWord, .constWord, .varWord, .structWord, .returnWord, .ifWord, .elseWord, .whileWord,
    .forWord, .breakWord, .continueWord, .comptimeWord, .inlineWord, .pubWord, .tryWord,
    .trueWord, .falseWord, .nullWord, .undefinedWord].map fun kind => (kind.describe, kind)

/-- The names of the primitive types. -/
def primitiveTypeNames : List String :=
  ["i8", "i16", "i32", "i64", "i128", "isize", "u8", "u16", "u32", "u64", "u128", "usize",
    "f16", "f32", "f64", "f128", "bool", "void", "type", "anyerror", "noreturn",
    "comptime_int", "comptime_float"]

namespace Kind

/-- The kind of a word that has a meaning of its own. -/
def ofKeyword? (word : String) : Option Kind :=
  keywords.lookup word

/-- The kind of any word: a keyword, the name of a primitive type, or an identifier. -/
def ofWord (word : String) : Kind :=
  match ofKeyword? word with
  | some kind => kind
  | none => if primitiveTypeNames.contains word then .primitiveType else .identifier

/-- The kind spelled by one character alone, for operators and punctuation. -/
def ofSingle? : Char → Option Kind
  | '+' => some plus
  | '-' => some minus
  | '*' => some star
  | '/' => some slash
  | '%' => some percent
  | '=' => some assign
  | '!' => some bang
  | '<' => some less
  | '>' => some greater
  | '&' => some amp
  | '?' => some question
  | '.' => some dot
  | ':' => some colon
  | ';' => some semicolon
  | ',' => some comma
  | '(' => some leftParen
  | ')' => some rightParen
  | '{' => some leftBrace
  | '}' => some rightBrace
  | '[' => some leftBracket
  | ']' => some rightBracket
  | _ => none

/-- The kind spelled by two characters together, for operators. -/
def ofPair? : Char → Char → Option Kind
  | '+', '=' => some plusAssign
  | '-', '=' => some minusAssign
  | '*', '=' => some starAssign
  | '/', '=' => some slashAssign
  | '%', '=' => some percentAssign
  | '=', '=' => some equalEqual
  | '!', '=' => some bangEqual
  | '<', '=' => some lessEqual
  | '>', '=' => some greaterEqual
  | '&', '&' => some ampAmp
  | '|', '|' => some pipePipe
  | _, _ => none

/-- A kind spelled by one character is described by that character. -/
theorem describe_ofSingle? {character : Char} {kind : Kind}
    (spelled : ofSingle? character = some kind) : kind.describe.toList = [character] := by
  unfold ofSingle? at spelled
  split at spelled <;> cases spelled <;> rfl

/-- A kind spelled by two characters is described by them. -/
theorem describe_ofPair? {first second : Char} {kind : Kind}
    (spelled : ofPair? first second = some kind) : kind.describe.toList = [first, second] := by
  unfold ofPair? at spelled
  split at spelled <;> cases spelled <;> rfl

end Kind

end SystemsLang.Token
