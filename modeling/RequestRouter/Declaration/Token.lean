import RequestRouter.Declaration.Fault
import RequestRouter.Declaration.Lexeme

/-!
# Tokens

A declaration file is read as a list of tokens: the lexemes that are neither blank nor
comment, each with the position of its first character, and an empty token at the end
of the text (`RequestRouter.tokens`). A text is refused at the first place where no lexeme
starts, with the text up to the next place where one does.

A token is kept as its text only. What it can stand for is a question about that text
– a list of tokens need not come out of a text – and is answered by the tests of the
second half.
-/

namespace RequestRouter

/-- The position one character further on. Only the line feed ends a line. -/
def Position.next (position : Position) (c : Char) : Position :=
  if c = '\n' then ⟨position.line + 1, 1⟩ else ⟨position.line, position.column + 1⟩

/-- The position behind `text`. -/
def Position.behind (position : Position) (text : List Char) : Position :=
  text.foldl Position.next position

/-- The position of the first character of a text. -/
def Position.first : Position := ⟨1, 1⟩

/-- A piece of a declaration file. -/
structure Token where
  /-- The characters. -/
  text : String
  /-- The position of the first of them. -/
  position : Position
deriving DecidableEq

/-- The front of a text in which no lexeme starts, up to the next place where one does. -/
def unreadable : List Char → List Char
  | [] => []
  | c :: rest => if (lexeme? rest).isSome then [c] else c :: unreadable rest

/-- The tokens of a text that starts at `position`. -/
def tokensAt (position : Position) (s : List Char) : Except ParseFault (List Token) :=
  match _h : lexeme? s with
  | some l =>
    match tokensAt (position.behind l.text) l.rest with
    | .error fault => .error fault
    | .ok later =>
      .ok (if l.kind.isGap then later else ⟨String.ofList l.text, position⟩ :: later)
  | none =>
    if s.isEmpty then .ok [⟨"", position⟩]
    else .error ⟨.unreadable (String.ofList (unreadable s)), position⟩
termination_by s.length
decreasing_by exact length_rest_lt _h

/-- The tokens of a text, the last of them empty. -/
def tokens (text : String) : Except ParseFault (List Token) :=
  tokensAt Position.first text.toList

/-! ### What a token can stand for -/

/-- Whether `kind` reads the whole of `s`. -/
def LexemeKind.spans (kind : LexemeKind) (s : List Char) : Bool :=
  kind.read s == some (s, [])

/-- Whether `s` is the rest of a string literal up to its closing quote. -/
def closesString : List Char → Bool
  | [] => false
  | ['"'] => true
  | '\\' :: c :: rest => c != '\n' && closesString rest
  | c :: rest => c != '"' && c != '\\' && closesString rest

/-- Whether `s` is one character or a backslash and one, and then a single quote. -/
def closesCharacter : List Char → Bool
  | [backslash, c, quote] => backslash == '\\' && c != '\n' && quote == '\''
  | [c, quote] => c != '\'' && c != '\\' && quote == '\''
  | _ => false

namespace Token

/-- Whether the token is a name. Keywords are names too. -/
def isIdentifier (token : Token) : Bool := LexemeKind.identifier.spans token.text.toList

/-- Whether the token is an integer. -/
def isInteger (token : Token) : Bool := LexemeKind.integer.spans token.text.toList

/-- Whether the token is a number with a fraction. -/
def isFloat (token : Token) : Bool := LexemeKind.float.spans token.text.toList

/-- Whether the token is a string literal. The end of a line may stand in it, though
not behind a backslash. -/
def isString (token : Token) : Bool :=
  match token.text.toList with
  | '"' :: rest => closesString rest
  | _ => false

/-- Whether the token is a character literal, of any character but a quote. -/
def isCharacter (token : Token) : Bool :=
  match token.text.toList with
  | '\'' :: rest => closesCharacter rest
  | _ => false

/-- Whether the token is exactly `text`: a keyword or a symbol. -/
def is (text : String) (token : Token) : Bool := token.text == text

/-- Whether nothing is left to read at the token. -/
def isEnd (token : Token) : Bool := token.text.isEmpty

end Token

/-! ### The values of literals -/

/-- The text between two quotes; anything else as it is. A quote that is both the first
and the last character is kept. -/
def betweenQuotes (s : List Char) : List Char :=
  match s with
  | '"' :: rest => if rest.getLast? = some '"' then rest.dropLast else s
  | _ => s

/-- The character that a backslash makes of `c`. -/
def unescapedChar : Char → Char
  | 'n' => '\n'
  | 't' => '\t'
  | 'r' => '\r'
  | '0' => '\x00'
  | c => c

/-- The text with its escapes resolved; a backslash at the end stands for itself. -/
def unescaped : List Char → List Char
  | [] => []
  | '\\' :: c :: rest => unescapedChar c :: unescaped rest
  | c :: rest => c :: unescaped rest

/-- The value of a string literal. -/
def stringValue (literal : String) : String :=
  String.ofList (unescaped (betweenQuotes literal.toList))

/-- The number with the given ASCII digits; none without digits or with others. -/
def digitsValue? (s : List Char) : Option Nat :=
  if s.isEmpty then none
  else s.foldlM (fun n c => if c.isDigit then some (10 * n + (c.toNat - '0'.toNat)) else none) 0

/-- The bound of signed words of 64 bits. -/
def signedBound : Nat := Nat.pow 2 63

/-- The value of an integer literal: 64 bits, signed, in ASCII digits. -/
def integerValue? (literal : String) : Option Int :=
  match literal.toList with
  | '-' :: digits =>
    (digitsValue? digits).bind fun n => if n ≤ signedBound then some (-(n : Int)) else none
  | digits => (digitsValue? digits).bind fun n => if n < signedBound then some (n : Int) else none

end RequestRouter
