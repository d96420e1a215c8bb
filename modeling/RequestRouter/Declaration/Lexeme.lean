import RequestRouter.Text.Ranges

/-!
# Lexemes

The pieces that the text of a declaration file is cut into. There are ten kinds, tried
in a fixed order at each place, and the first that reads anything there wins
(`RequestRouter.lexeme?`): so a number with a fraction is one piece although an integer
could be read too, and two slashes always open a comment. Each kind reads as much as
it can.

Main statement: what is read and what is left make up the text, and something is read
(`RequestRouter.LexemeKind.append_of_read`).
-/

namespace RequestRouter

/-- The kinds of lexemes, in the order in which they are tried. -/
inductive LexemeKind where
  /-- Text between double quotes, on one line. -/
  | string
  /-- A character between single quotes. -/
  | character
  /-- Two slashes and the rest of the line. -/
  | comment
  /-- A run of blank characters. -/
  | blank
  /-- The arrow in front of the type of a result. -/
  | arrow
  /-- The separator of the segments of a path. -/
  | separator
  /-- A number with a fraction. -/
  | float
  /-- A number without a fraction. -/
  | integer
  /-- A single symbol. -/
  | symbol
  /-- A name or a keyword. -/
  | identifier
deriving DecidableEq

/-- What a reader took from the front of a text, and what it left. -/
abbrev Cut := Option (List Char × List Char)

/-- The cut with `front` taken before it. -/
def Cut.after (front : List Char) (cut : Cut) : Cut :=
  cut.map fun parts => (front ++ parts.1, parts.2)

/-- The run of characters with `p` in front of the text, if there is one. -/
def readRun (p : Char → Bool) (s : List Char) : Cut :=
  if (s.takeWhile p).isEmpty then none else some (s.takeWhile p, s.dropWhile p)

/-- Whether `c` may stand in a string literal by itself. -/
def isPlain (c : Char) : Bool := c != '"' && c != '\\' && c != '\n'

/-- The rest of a string literal, up to its closing quote. A backslash takes the
character behind it along, except the end of the line. -/
def readToQuote : List Char → Cut
  | [] => none
  | '"' :: rest => some (['"'], rest)
  | '\\' :: c :: rest => if c = '\n' then none else (readToQuote rest).after ['\\', c]
  | c :: rest => if isPlain c then (readToQuote rest).after [c] else none

/-- A string literal. -/
def readString : List Char → Cut
  | '"' :: rest => (readToQuote rest).after ['"']
  | _ => none

/-- A character literal. -/
def readCharacter : List Char → Cut
  | '\'' :: '\\' :: c :: '\'' :: rest =>
    if c = '\n' then none else some (['\'', '\\', c, '\''], rest)
  | '\'' :: c :: '\'' :: rest =>
    if c = '\'' || c = '\\' || c = '\n' then none else some (['\'', c, '\''], rest)
  | _ => none

/-- Whether `c` goes on with the line. -/
def isOnLine (c : Char) : Bool := c != '\n'

/-- A comment, without the end of its line. -/
def readComment : List Char → Cut
  | '/' :: '/' :: rest => some ('/' :: '/' :: rest.takeWhile isOnLine, rest.dropWhile isOnLine)
  | _ => none

/-- Exactly the given characters. -/
def readExactly (text : List Char) (s : List Char) : Cut :=
  if text.isPrefixOf s then some (text, s.drop text.length) else none

/-- Digits. -/
def readDigits (s : List Char) : Cut := readRun Text.isDecimalDigit s

/-- Digits with an optional minus sign. -/
def readInteger : List Char → Cut
  | '-' :: rest => (readDigits rest).after ['-']
  | s => readDigits s

/-- An exponent: its mark, an optional sign and digits. -/
def readExponent : List Char → Cut
  | c :: rest =>
    if c = 'e' || c = 'E' then
      match rest with
      | '+' :: digits => (readDigits digits).after [c, '+']
      | '-' :: digits => (readDigits digits).after [c, '-']
      | digits => (readDigits digits).after [c]
    else none
  | [] => none

/-- The letter that makes a number single precision. -/
def readSuffix : List Char → Cut
  | c :: rest => if c = 'f' || c = 'F' then some ([c], rest) else none
  | [] => none

/-- What `read` takes, or nothing. -/
def readOptional (read : List Char → Cut) (s : List Char) : List Char × List Char :=
  (read s).getD ([], s)

/-- A number with a fraction: digits on both sides of the point, then perhaps an
exponent and a suffix. -/
def readFloat (s : List Char) : Cut := do
  let (whole, rest) ← readInteger s
  let (point, rest) ← readExactly ['.'] rest
  let (fraction, rest) ← readDigits rest
  let (exponent, rest) := readOptional readExponent rest
  let (suffix, rest) := readOptional readSuffix rest
  some (whole ++ point ++ fraction ++ exponent ++ suffix, rest)

/-- The symbols. -/
def symbols : List Char :=
  ['@', '(', ')', '\x7b', '\x7d', '<', '>', ',', ';', ':', '=', '?', '.']

/-- A symbol. -/
def readSymbol : List Char → Cut
  | c :: rest => if c ∈ symbols then some ([c], rest) else none
  | [] => none

/-- Whether a name may start with `c`. Names are written in ASCII. -/
def isNameStart (c : Char) : Bool :=
  ('A' ≤ c && c ≤ 'Z') || ('a' ≤ c && c ≤ 'z') || c == '_'

/-- Whether a name may go on with `c`. -/
def isNamePart (c : Char) : Bool := isNameStart c || ('0' ≤ c && c ≤ '9')

/-- A name. -/
def readIdentifier : List Char → Cut
  | c :: rest =>
    if isNameStart c then some (c :: rest.takeWhile isNamePart, rest.dropWhile isNamePart)
    else none
  | [] => none

namespace LexemeKind

/-- Every kind, in the order in which they are tried. -/
def all : List LexemeKind :=
  [ .string, .character, .comment, .blank, .arrow, .separator, .float, .integer, .symbol,
    .identifier ]

/-- Reads a lexeme of the given kind in front of a text. -/
def read : LexemeKind → List Char → Cut
  | .string => readString
  | .character => readCharacter
  | .comment => readComment
  | .blank => readRun Text.isBlank
  | .arrow => readExactly ['-', '>']
  | .separator => readExactly [':', ':']
  | .float => readFloat
  | .integer => readInteger
  | .symbol => readSymbol
  | .identifier => readIdentifier

/-- Whether lexemes of the kind only part others. -/
def isGap : LexemeKind → Bool
  | .comment => true
  | .blank => true
  | _ => false

end LexemeKind

/-- A piece of a text. -/
structure Lexeme where
  /-- The kind. -/
  kind : LexemeKind
  /-- The characters. -/
  text : List Char
  /-- The text behind it. -/
  rest : List Char

/-- The lexeme in front of a text: of the first kind that reads anything there. -/
def lexeme? (s : List Char) : Option Lexeme :=
  LexemeKind.all.findSome? fun kind => (kind.read s).map fun read => ⟨kind, read.1, read.2⟩

/-! ### Nothing is lost -/

/-- A reader takes something, and what it takes and leaves is the text. -/
def Cut.Splits (cut : Cut) (s : List Char) : Prop :=
  ∀ text rest, cut = some (text, rest) → text ++ rest = s ∧ text ≠ []

theorem Cut.splits_none (s : List Char) : Cut.Splits none s := by
  intro text rest h
  cases h

theorem Cut.splits_some {text rest s : List Char} (h : text ++ rest = s) (hne : text ≠ []) :
    Cut.Splits (some (text, rest)) s := by
  intro text' rest' h'
  cases h'
  exact ⟨h, hne⟩

theorem Cut.Splits.after {cut : Cut} {s : List Char} (h : cut.Splits s)
    (front : List Char) : (cut.after front).Splits (front ++ s) := by
  intro text rest h'
  obtain ⟨⟨text₁, rest₁⟩, h₁, h₂⟩ := Option.map_eq_some_iff.1 h'
  obtain ⟨rfl, rfl⟩ := Prod.mk.inj h₂
  obtain ⟨rfl, hne⟩ := h text₁ rest₁ h₁
  exact ⟨by simp, by simp [hne]⟩

theorem splits_readRun (p : Char → Bool) (s : List Char) : (readRun p s).Splits s := by
  rw [readRun]
  split
  · exact Cut.splits_none s
  · next h => exact Cut.splits_some List.takeWhile_append_dropWhile (by simpa using h)

theorem splits_readToQuote (s : List Char) : (readToQuote s).Splits s := by
  fun_induction readToQuote s with
  | case1 => exact Cut.splits_none _
  | case2 rest => exact Cut.splits_some rfl (by simp)
  | case3 => exact Cut.splits_none _
  | case4 c rest _ ih => exact ih.after ['\\', c]
  | case5 c rest _ _ _ ih => exact ih.after [c]
  | case6 => exact Cut.splits_none _

theorem splits_readString (s : List Char) : (readString s).Splits s := by
  rw [readString.eq_def]
  split
  · exact (splits_readToQuote _).after ['"']
  · exact Cut.splits_none _

theorem splits_readCharacter (s : List Char) : (readCharacter s).Splits s := by
  rw [readCharacter.eq_def]
  split
  · split
    · exact Cut.splits_none _
    · exact Cut.splits_some rfl (by simp)
  · split
    · exact Cut.splits_none _
    · exact Cut.splits_some rfl (by simp)
  · exact Cut.splits_none _

theorem splits_readComment (s : List Char) : (readComment s).Splits s := by
  rw [readComment.eq_def]
  split
  · exact Cut.splits_some (by simp [List.takeWhile_append_dropWhile]) (by simp)
  · exact Cut.splits_none _

theorem splits_readExactly {text : List Char} (hne : text ≠ []) (s : List Char) :
    (readExactly text s).Splits s := by
  rw [readExactly]
  split
  · next h =>
    obtain ⟨rest, rfl⟩ := List.isPrefixOf_iff_prefix.1 h
    exact Cut.splits_some (by simp) hne
  · exact Cut.splits_none _

theorem splits_readDigits (s : List Char) : (readDigits s).Splits s := splits_readRun _ s

theorem splits_readInteger (s : List Char) : (readInteger s).Splits s := by
  rw [readInteger.eq_def]
  split
  · exact (splits_readDigits _).after ['-']
  · exact splits_readDigits _

theorem splits_readExponent (s : List Char) : (readExponent s).Splits s := by
  rw [readExponent.eq_def]
  split
  · split
    · split
      · exact (splits_readDigits _).after [_, '+']
      · exact (splits_readDigits _).after [_, '-']
      · exact (splits_readDigits _).after [_]
    · exact Cut.splits_none _
  · exact Cut.splits_none _

theorem splits_readSuffix (s : List Char) : (readSuffix s).Splits s := by
  rw [readSuffix.eq_def]
  split
  · split
    · exact Cut.splits_some rfl (by simp)
    · exact Cut.splits_none _
  · exact Cut.splits_none _

theorem append_readOptional {read : List Char → Cut} {s : List Char}
    (h : (read s).Splits s) : (readOptional read s).1 ++ (readOptional read s).2 = s := by
  rw [readOptional]
  cases hread : read s with
  | none => rfl
  | some pair => exact (h pair.1 pair.2 hread).1

theorem splits_readFloat (s : List Char) : (readFloat s).Splits s := by
  intro text rest h
  rw [readFloat] at h
  simp only [Option.bind_eq_bind, Option.bind_eq_some_iff, Option.some.injEq, Prod.mk.injEq,
    Prod.exists] at h
  obtain ⟨whole, r₁, h₁, point, r₂, h₂, fraction, r₃, h₃, rfl, rfl⟩ := h
  obtain ⟨rfl, hne⟩ := splits_readInteger s whole r₁ h₁
  obtain ⟨rfl, -⟩ := splits_readExactly (by simp) r₁ point r₂ h₂
  obtain ⟨rfl, -⟩ := splits_readDigits r₂ fraction r₃ h₃
  refine ⟨?_, by simp [hne]⟩
  have hexp := append_readOptional (splits_readExponent r₃)
  have hsuf := append_readOptional (splits_readSuffix (readOptional readExponent r₃).2)
  simp only [List.append_assoc, List.append_cancel_left_eq]
  rw [hsuf, hexp]

theorem splits_readSymbol (s : List Char) : (readSymbol s).Splits s := by
  rw [readSymbol.eq_def]
  split
  · split
    · exact Cut.splits_some rfl (by simp)
    · exact Cut.splits_none _
  · exact Cut.splits_none _

theorem splits_readIdentifier (s : List Char) : (readIdentifier s).Splits s := by
  rw [readIdentifier.eq_def]
  split
  · split
    · exact Cut.splits_some (by simp [List.takeWhile_append_dropWhile]) (by simp)
    · exact Cut.splits_none _
  · exact Cut.splits_none _

/-- **Nothing is lost**: what a kind reads and what it leaves make up the text, and it
never reads nothing. -/
theorem LexemeKind.append_of_read {kind : LexemeKind} {s text rest : List Char}
    (h : kind.read s = some (text, rest)) : text ++ rest = s ∧ text ≠ [] := by
  have hsplits : (kind.read s).Splits s := by
    cases kind with
    | string => exact splits_readString s
    | character => exact splits_readCharacter s
    | comment => exact splits_readComment s
    | blank => exact splits_readRun _ s
    | arrow => exact splits_readExactly (by simp) s
    | separator => exact splits_readExactly (by simp) s
    | float => exact splits_readFloat s
    | integer => exact splits_readInteger s
    | symbol => exact splits_readSymbol s
    | identifier => exact splits_readIdentifier s
  exact hsplits text rest h

theorem read_of_lexeme? {s : List Char} {l : Lexeme} (h : lexeme? s = some l) :
    l.kind.read s = some (l.text, l.rest) := by
  obtain ⟨kind, -, hkind⟩ := List.exists_of_findSome?_eq_some h
  obtain ⟨⟨text, rest⟩, hread, rfl⟩ := Option.map_eq_some_iff.1 hkind
  exact hread

theorem append_of_lexeme? {s : List Char} {l : Lexeme} (h : lexeme? s = some l) :
    l.text ++ l.rest = s ∧ l.text ≠ [] :=
  LexemeKind.append_of_read (read_of_lexeme? h)

theorem length_rest_lt {s : List Char} {l : Lexeme} (h : lexeme? s = some l) :
    l.rest.length < s.length := by
  obtain ⟨happ, hne⟩ := append_of_lexeme? h
  have hpos := List.length_pos_iff.2 hne
  rw [← happ, List.length_append]
  omega

end RequestRouter
