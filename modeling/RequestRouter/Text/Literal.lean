import RequestRouter.Text.Printable
import RequestRouter.Text.Quoted

/-!
# Literals of generated source

String and character literals of Rust, the language that routers are written out
in. A character is written as itself where it shows and cannot end the literal;
otherwise it is escaped, by a letter where the language has one and by its code
point between braces where it has none. Only the quote that would end the literal
is escaped.
-/

namespace RequestRouter

namespace Text

/-- The escape that names the code point of `c`. -/
def codePointEscape (c : Char) : List Char :=
  ['\\', 'u', '\x7b'] ++ hexDigits c.toNat ++ ['\x7d']

/-- `c` inside a literal that `delimiter` ends. -/
def literalChar (delimiter c : Char) : List Char :=
  if c = '\x00' then ['\\', '0']
  else if c = '\t' then ['\\', 't']
  else if c = '\r' then ['\\', 'r']
  else if c = '\n' then ['\\', 'n']
  else if c = '\\' then ['\\', '\\']
  else if c = delimiter then ['\\', c]
  else if isGraphemeExtend c || !isPrintable c then codePointEscape c
  else [c]

/-- The characters of the string literal for `s`. -/
def stringLiteralChars (s : List Char) : List Char :=
  '"' :: (s.flatMap (literalChar '"') ++ ['"'])

/-- The string literal for `s`. -/
def stringLiteral (s : String) : String :=
  String.ofList (stringLiteralChars s.toList)

@[simp] theorem toList_stringLiteral (s : String) :
    (stringLiteral s).toList = stringLiteralChars s.toList := by
  simp [stringLiteral]

/-- The character literal for `c`. -/
def charLiteral (c : Char) : String :=
  String.ofList ('\'' :: (literalChar '\'' c ++ ['\'']))

end Text

end RequestRouter
