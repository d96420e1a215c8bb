/-!
# Character classes given by ranges

A character class of the Unicode standard is written as a list of code point
ranges, both ends included, and tested by `RequestRouter.Text.inRanges`. Classes
in which every second code point belongs – the paired capital and small letters
of many scripts – are written as `RequestRouter.Text.Run`s, which also carry the
distance between two members.

Two classes are given here. Blank characters separate words without being read: the White_Space
property. Decimal digits are those of every script, the general category Nd as of version 16: ten
consecutive code points for each script that writes decimal numbers. Declarations accept any of
them where a number is lexed; only `0` to `9` have a value there.
-/

namespace RequestRouter

namespace Text

/-- Whether the code point of `c` lies in one of `ranges`. -/
def inRanges (ranges : List (Nat × Nat)) (c : Char) : Bool :=
  ranges.any fun range => range.1 ≤ c.toNat && c.toNat ≤ range.2

@[simp] theorem inRanges_nil (c : Char) : inRanges [] c = false := rfl

@[simp] theorem inRanges_cons (range : Nat × Nat) (ranges : List (Nat × Nat)) (c : Char) :
    inRanges (range :: ranges) c =
      ((range.1 ≤ c.toNat && c.toNat ≤ range.2) || inRanges ranges c) := rfl

/-- Code points from `first` to `last`, each `step` after the one before. -/
structure Run where
  /-- The least member. -/
  first : Nat
  /-- The greatest member. -/
  last : Nat
  /-- The distance between neighbouring members. -/
  step : Nat

/-- Whether the run holds the code point of `c`. -/
def Run.holds (run : Run) (c : Char) : Bool :=
  run.first ≤ c.toNat && c.toNat ≤ run.last && (c.toNat - run.first) % run.step == 0

/-- Whether one of `runs` holds the code point of `c`. -/
def inRuns (runs : List Run) (c : Char) : Bool :=
  runs.any fun run => run.holds c

/-! ### Blank characters -/

/-- The code points with the White_Space property. -/
def blankRanges : List (Nat × Nat) :=
  [ (0x0009, 0x000d), (0x0020, 0x0020), (0x0085, 0x0085), (0x00a0, 0x00a0), (0x1680, 0x1680),
    (0x2000, 0x200a), (0x2028, 0x2029), (0x202f, 0x202f), (0x205f, 0x205f), (0x3000, 0x3000) ]

/-- Whether `c` is blank: White_Space, which holds the line ends, the spaces of
every width and the no-break spaces, but no zero-width character. -/
def isBlank (c : Char) : Bool := inRanges blankRanges c

/-- `s` without the blank characters at its two ends. -/
def trim (s : List Char) : List Char :=
  ((s.dropWhile isBlank).reverse.dropWhile isBlank).reverse

@[simp] theorem trim_nil : trim [] = [] := rfl

/-! ### Decimal digits -/

/-- The code points of category Nd. -/
def decimalDigitRanges : List (Nat × Nat) :=
  [ (0x0030, 0x0039), (0x0660, 0x0669), (0x06f0, 0x06f9), (0x07c0, 0x07c9), (0x0966, 0x096f),
    (0x09e6, 0x09ef), (0x0a66, 0x0a6f), (0x0ae6, 0x0aef), (0x0b66, 0x0b6f), (0x0be6, 0x0bef),
    (0x0c66, 0x0c6f), (0x0ce6, 0x0cef), (0x0d66, 0x0d6f), (0x0de6, 0x0def), (0x0e50, 0x0e59),
    (0x0ed0, 0x0ed9), (0x0f20, 0x0f29), (0x1040, 0x1049), (0x1090, 0x1099), (0x17e0, 0x17e9),
    (0x1810, 0x1819), (0x1946, 0x194f), (0x19d0, 0x19d9), (0x1a80, 0x1a89), (0x1a90, 0x1a99),
    (0x1b50, 0x1b59), (0x1bb0, 0x1bb9), (0x1c40, 0x1c49), (0x1c50, 0x1c59), (0xa620, 0xa629),
    (0xa8d0, 0xa8d9), (0xa900, 0xa909), (0xa9d0, 0xa9d9), (0xa9f0, 0xa9f9), (0xaa50, 0xaa59),
    (0xabf0, 0xabf9), (0xff10, 0xff19), (0x104a0, 0x104a9), (0x10d30, 0x10d39),
    (0x10d40, 0x10d49), (0x11066, 0x1106f), (0x110f0, 0x110f9), (0x11136, 0x1113f),
    (0x111d0, 0x111d9), (0x112f0, 0x112f9), (0x11450, 0x11459), (0x114d0, 0x114d9),
    (0x11650, 0x11659), (0x116c0, 0x116c9), (0x116d0, 0x116e3), (0x11730, 0x11739),
    (0x118e0, 0x118e9), (0x11950, 0x11959), (0x11bf0, 0x11bf9), (0x11c50, 0x11c59),
    (0x11d50, 0x11d59), (0x11da0, 0x11da9), (0x11f50, 0x11f59), (0x16130, 0x16139),
    (0x16a60, 0x16a69), (0x16ac0, 0x16ac9), (0x16b50, 0x16b59), (0x16d70, 0x16d79),
    (0x1ccf0, 0x1ccf9), (0x1d7ce, 0x1d7ff), (0x1e140, 0x1e149), (0x1e2f0, 0x1e2f9),
    (0x1e4f0, 0x1e4f9), (0x1e5f1, 0x1e5fa), (0x1e950, 0x1e959), (0x1fbf0, 0x1fbf9) ]

/-- Whether `c` is a decimal digit of some script. -/
def isDecimalDigit (c : Char) : Bool := inRanges decimalDigitRanges c

end Text

end RequestRouter
