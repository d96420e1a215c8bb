import RequestRouter.Json.Number

/-!
# Reading JSON documents

The grammar of JSON, with blanks between tokens and one document per text. Objects
come out in key order with the later of two members under one key.
-/

namespace RequestRouter

namespace Json

/-- The text without blanks in front. -/
def skipBlanks (s : List Char) : List Char :=
  s.dropWhile fun c => c = ' ' || c = '\n' || c = '\t' || c = '\r'

/-- The value of an ASCII digit. -/
def digit? (c : Char) : Option Nat :=
  if '0' ≤ c && c ≤ '9' then some (c.toNat - '0'.toNat) else none

/-- The value of a hexadecimal digit, in either case. -/
def hexDigit? (c : Char) : Option Nat :=
  if '0' ≤ c && c ≤ '9' then some (c.toNat - '0'.toNat)
  else if 'a' ≤ c && c ≤ 'f' then some (c.toNat - 'a'.toNat + 10)
  else if 'A' ≤ c && c ≤ 'F' then some (c.toNat - 'A'.toNat + 10)
  else none

/-- The value of four hexadecimal digits, and the text behind them. -/
def readUnit : List Char → Option (Nat × List Char)
  | a :: b :: c :: d :: rest => do
    let a ← hexDigit? a
    let b ← hexDigit? b
    let c ← hexDigit? c
    let d ← hexDigit? d
    some (((a * 16 + b) * 16 + c) * 16 + d, rest)
  | _ => none

/-- The character that a letter behind a backslash stands for. -/
def escaped? : Char → Option Char
  | '"' => some '"'
  | '\\' => some '\\'
  | '/' => some '/'
  | 'b' => some '\x08'
  | 'f' => some '\x0c'
  | 'n' => some '\n'
  | 'r' => some '\r'
  | 't' => some '\t'
  | _ => none

/-- The character written in hexadecimal digits: one unit, or two that form a pair
of surrogates. A surrogate alone is refused. -/
def readCodePoint (s : List Char) : Option (Char × List Char) := do
  let (unit, rest) ← readUnit s
  if unit < 0xd800 || 0xe000 ≤ unit then some (Char.ofNat unit, rest)
  else if 0xdc00 ≤ unit then none
  else
    match rest with
    | '\\' :: 'u' :: rest => do
      let (low, rest) ← readUnit rest
      if 0xdc00 ≤ low && low < 0xe000 then
        some (Char.ofNat (0x10000 + (unit - 0xd800) * 0x400 + (low - 0xdc00)), rest)
      else none
    | _ => none

/-- The text up to the closing quote, at most `bound` characters of it. -/
def readText : (bound : Nat) → List Char → Option (List Char × List Char)
  | 0, _ => none
  | bound + 1, s =>
    match s with
    | [] => none
    | '"' :: rest => some ([], rest)
    | '\\' :: 'u' :: rest => do
      let (c, rest) ← readCodePoint rest
      let (text, rest) ← readText bound rest
      some (c :: text, rest)
    | '\\' :: c :: rest => do
      let c ← escaped? c
      let (text, rest) ← readText bound rest
      some (c :: text, rest)
    | c :: rest =>
      if c.toNat < 0x20 then none
      else do
        let (text, rest) ← readText bound rest
        some (c :: text, rest)

/-- The leading digits, and the text behind them. -/
def readDigits : List Char → List Nat × List Char
  | [] => ([], [])
  | c :: rest =>
    match digit? c with
    | none => ([], c :: rest)
    | some d => (d :: (readDigits rest).1, (readDigits rest).2)

/-- The number with the given decimal digits. -/
def digitsValue (digits : List Nat) : Nat := digits.foldl (fun n d => n * 10 + d) 0

/-- The exponent in front of the text, if there is one. -/
def readExponent (s : List Char) : Option (Option Int × List Char) :=
  match s with
  | [] => some (none, [])
  | c :: rest =>
    if c = 'e' || c = 'E' then
      let (negative, rest) :=
        match rest with
        | '-' :: rest => (true, rest)
        | '+' :: rest => (false, rest)
        | rest => (false, rest)
      match readDigits rest with
      | ([], _) => none
      | (digits, rest) =>
        some (some (if negative then -(digitsValue digits : Int) else digitsValue digits), rest)
    else some (none, s)

/-- The digits behind the point in front of the text, if there is one. -/
def readFraction (s : List Char) : Option (Option (List Nat) × List Char) :=
  match s with
  | '.' :: rest =>
    match readDigits rest with
    | ([], _) => none
    | (digits, rest) => some (some digits, rest)
  | s => some (none, s)

/-- The number in front of the text. No digit follows a leading zero. -/
def readNumber (negative : Bool) (s : List Char) : Option (Json × List Char) := do
  let (whole, rest) := readDigits s
  match whole with
  | [] => none
  | 0 :: _ :: _ => none
  | whole =>
    let (fraction, rest) ← readFraction rest
    let (exponent, rest) ← readExponent rest
    let number ← (Numeral.mk negative whole fraction exponent).read?
    some (number, rest)

/-- The text behind `word`, if it stands in front. -/
def readWord (word : List Char) (s : List Char) : Option (List Char) :=
  if word.isPrefixOf s then some (s.drop word.length) else none

mutual

/-- The document in front of the text. -/
def readValue : (bound : Nat) → List Char → Option (Json × List Char)
  | 0, _ => none
  | bound + 1, s =>
    match skipBlanks s with
    | [] => none
    | '"' :: rest => do
      let (text, rest) ← readText (rest.length + 1) rest
      some (.str (String.ofList text), rest)
    | '[' :: rest =>
      match skipBlanks rest with
      | ']' :: rest => some (.arr [], rest)
      | rest => do
        let (items, rest) ← readItems bound rest
        some (.arr items, rest)
    | '\x7b' :: rest =>
      match skipBlanks rest with
      | '\x7d' :: rest => some (.obj [], rest)
      | rest => do
        let (members, rest) ← readMembers bound rest
        some (.object members, rest)
    | '-' :: rest => readNumber true rest
    | 'n' :: rest => (readWord ['u', 'l', 'l'] rest).map fun rest => (.null, rest)
    | 't' :: rest => (readWord ['r', 'u', 'e'] rest).map fun rest => (.bool true, rest)
    | 'f' :: rest => (readWord ['a', 'l', 's', 'e'] rest).map fun rest => (.bool false, rest)
    | rest => readNumber false rest

/-- The items up to the closing bracket. -/
def readItems : (bound : Nat) → List Char → Option (List Json × List Char)
  | 0, _ => none
  | bound + 1, s => do
    let (item, rest) ← readValue bound s
    match skipBlanks rest with
    | ']' :: rest => some ([item], rest)
    | ',' :: rest => do
      let (items, rest) ← readItems bound rest
      some (item :: items, rest)
    | _ => none

/-- The members up to the closing brace. -/
def readMembers : (bound : Nat) → List Char → Option (List (String × Json) × List Char)
  | 0, _ => none
  | bound + 1, s =>
    match skipBlanks s with
    | '"' :: rest => do
      let (key, rest) ← readText (rest.length + 1) rest
      match skipBlanks rest with
      | ':' :: rest => do
        let (value, rest) ← readValue bound rest
        let entry := (String.ofList key, value)
        match skipBlanks rest with
        | '\x7d' :: rest => some ([entry], rest)
        | ',' :: rest => do
          let (members, rest) ← readMembers bound rest
          some (entry :: members, rest)
        | _ => none
      | _ => none
    | _ => none

end

/-- The document that a text holds. Every step into a document takes a character, so
the length of the text bounds them. -/
def parse? (text : String) : Option Json :=
  match readValue (text.length + 1) text.toList with
  | some (document, rest) => if (skipBlanks rest).isEmpty then some document else none
  | none => none

end Json

end RequestRouter
