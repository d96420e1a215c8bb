/-!
# Quoted text

Text between double quotes, as JSON documents and messages show it. The double
quote and the backslash are written after a backslash, the five control characters
that have a letter as that letter after one, every other character below the space
as four hexadecimal digits; all else stands for itself.
-/

namespace RequestRouter

namespace Text

/-- The lower-case hexadecimal digits of `n`, without leading zeros. -/
def hexDigits (n : Nat) : List Char := Nat.toDigits 16 n

/-- `c` as it stands between double quotes. -/
def quotedChar (c : Char) : List Char :=
  if c = '"' then ['\\', '"']
  else if c = '\\' then ['\\', '\\']
  else if c = '\n' then ['\\', 'n']
  else if c = '\r' then ['\\', 'r']
  else if c = '\t' then ['\\', 't']
  else if c = '\x08' then ['\\', 'b']
  else if c = '\x0c' then ['\\', 'f']
  else if c.toNat < 0x10 then ['\\', 'u', '0', '0', '0'] ++ hexDigits c.toNat
  else if c.toNat < 0x20 then ['\\', 'u', '0', '0'] ++ hexDigits c.toNat
  else [c]

/-- `s` between double quotes. -/
def quotedChars (s : List Char) : List Char :=
  '"' :: (s.flatMap quotedChar ++ ['"'])

/-- `s` between double quotes. -/
def quote (s : String) : String := String.ofList (quotedChars s.toList)

@[simp] theorem toList_quote (s : String) : (quote s).toList = quotedChars s.toList := by
  simp [quote]

end Text

end RequestRouter
