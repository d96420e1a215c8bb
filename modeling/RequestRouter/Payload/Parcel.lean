import RequestRouter.Floating.Format
import RequestRouter.Text.Utf8

/-!
# Parcels

A parcel is a string of bytes that values were written to one after the other, without
anything between them. Whoever reads it has to know which values it holds. There are
nine kinds of values (`RequestRouter.WireKind`), each with its own encoding:

* a truth value or a byte takes one byte;
* an integer is written in groups of seven bits from the lowest on, one group a byte,
  and every byte but the last has its top bit set; signed integers are first folded
  into the natural numbers, so that small ones of either sign stay short;
* a number of the 32-bit format is turned so that its exponent comes first, and takes
  one byte if that is zero – then it is zero or too small for its fraction to be kept –
  and four bytes otherwise;
* a number of the 64-bit format takes its eight bytes, the lowest first;
* a text takes its UTF-8 bytes and a zero byte.

Reading is `RequestRouter.ParcelReader`.
-/

namespace RequestRouter

/-- Bytes that values were written to. -/
structure Parcel where
  /-- The bytes. -/
  bytes : List UInt8
deriving DecidableEq

/-- The kinds of values in a parcel. -/
inductive WireKind where
  /-- A truth value. -/
  | bool
  /-- A byte. -/
  | byte
  /-- A signed integer of 32 bits. -/
  | int
  /-- An unsigned integer of 32 bits. -/
  | uint
  /-- A number of the 32-bit format. -/
  | float
  /-- A number of the 64-bit format. -/
  | double
  /-- A text. -/
  | string
  /-- A signed integer of 64 bits. -/
  | long
  /-- An unsigned integer of 64 bits. -/
  | ulong
deriving DecidableEq

/-- A value in a parcel. -/
inductive WireValue where
  /-- A truth value. -/
  | bool (value : Bool)
  /-- A byte. -/
  | byte (value : UInt8)
  /-- A signed integer of 32 bits. -/
  | int (value : Int32)
  /-- An unsigned integer of 32 bits. -/
  | uint (value : UInt32)
  /-- A number of the 32-bit format. -/
  | float (value : Binary32)
  /-- A number of the 64-bit format. -/
  | double (value : Binary64)
  /-- A text. -/
  | string (value : String)
  /-- A signed integer of 64 bits. -/
  | long (value : Int64)
  /-- An unsigned integer of 64 bits. -/
  | ulong (value : UInt64)
deriving DecidableEq

/-- The kind of a value. -/
def WireValue.kind : WireValue → WireKind
  | .bool _ => .bool
  | .byte _ => .byte
  | .int _ => .int
  | .uint _ => .uint
  | .float _ => .float
  | .double _ => .double
  | .string _ => .string
  | .long _ => .long
  | .ulong _ => .ulong

namespace Wire

/-! ### Integers -/

/-- Signed integers among the natural numbers: 0, -1, 1, -2, 2 and so on. -/
def zigzag (i : Int) : Nat := if 0 ≤ i then (2 * i).toNat else (-2 * i - 1).toNat

/-- The signed integer of 32 bits that was folded to the word: all bits but the lowest, flipped if
that is set. -/
def unfolded32 (word : UInt32) : Int32 :=
  (if word &&& 1 ≠ 0 then ~~~(word >>> 1) else word >>> 1).toInt32

/-- The signed integer of 64 bits that was folded to the word. -/
def unfolded64 (word : UInt64) : Int64 :=
  (if word &&& 1 ≠ 0 then ~~~(word >>> 1) else word >>> 1).toInt64

/-- The groups of seven bits of `n`, the lowest first; every byte but the last has its
top bit set. -/
def groups (n : Nat) : List UInt8 :=
  if n < 128 then [UInt8.ofNat n] else UInt8.ofNat (n % 128 + 128) :: groups (n / 128)
termination_by n
decreasing_by omega

/-- The groups of seven bits of `n`, of which at most `more` are followed by another
byte; the byte behind the last of these holds all bits that are left. -/
def limitedGroups : (more : Nat) → (n : Nat) → List UInt8
  | 0, n => [UInt8.ofNat n]
  | more + 1, n =>
    if n < 128 then [UInt8.ofNat n]
    else UInt8.ofNat (n % 128 + 128) :: limitedGroups more (n / 128)

/-- How many groups of an integer of 64 bits another byte follows. With eight of them,
the ninth byte has room for the eight bits that are left. -/
def followedGroups64 : Nat := 8

/-- An unsigned integer of 32 bits. -/
def uintBytes (value : UInt32) : List UInt8 := groups value.toNat

/-- An unsigned integer of 64 bits. -/
def ulongBytes (value : UInt64) : List UInt8 := limitedGroups followedGroups64 value.toNat

/-- A signed integer of 32 bits. -/
def intBytes (value : Int32) : List UInt8 := groups (zigzag value.toInt)

/-- A signed integer of 64 bits. -/
def longBytes (value : Int64) : List UInt8 :=
  limitedGroups followedGroups64 (zigzag value.toInt)

/-! ### Other values -/

/-- The lowest `count` bytes of `n`, the lowest first. -/
def littleEndian : (count : Nat) → (n : Nat) → List UInt8
  | 0, _ => []
  | count + 1, n => UInt8.ofNat (n % 256) :: littleEndian count (n / 256)

/-- The number that bytes spell, the lowest first. -/
def ofLittleEndian : List UInt8 → Nat
  | [] => 0
  | b :: rest => b.toNat + 256 * ofLittleEndian rest

/-- The word of a 32-bit number turned so that the exponent is its lowest byte and the
sign the lowest bit above. -/
def exponentFirst (word : UInt32) : UInt32 := (word >>> 23) ||| (word <<< 9)

/-- The word that `exponentFirst` turns into this one. -/
def exponentLast (word : UInt32) : UInt32 := (word <<< 23) ||| (word >>> 9)

/-- A number of the 32-bit format. -/
def floatBytes (value : Binary32) : List UInt8 :=
  let turned := exponentFirst value.bits
  if turned &&& 255 = 0 then [0] else littleEndian 4 turned.toNat

/-- A number of the 64-bit format. -/
def doubleBytes (value : Binary64) : List UInt8 := littleEndian 8 value.bits.toNat

/-- A text. A zero byte in it cannot be told from the one at its end. -/
def stringBytes (value : String) : List UInt8 := Text.utf8Bytes value ++ [0]

/-- A truth value. -/
def boolBytes (value : Bool) : List UInt8 := [if value then 1 else 0]

end Wire

/-- The bytes of a value. -/
def WireValue.bytes : WireValue → List UInt8
  | .bool value => Wire.boolBytes value
  | .byte value => [value]
  | .int value => Wire.intBytes value
  | .uint value => Wire.uintBytes value
  | .float value => Wire.floatBytes value
  | .double value => Wire.doubleBytes value
  | .string value => Wire.stringBytes value
  | .long value => Wire.longBytes value
  | .ulong value => Wire.ulongBytes value

namespace Parcel

/-- The parcel without bytes. -/
def empty : Parcel := ⟨[]⟩

/-- The number of bytes. -/
def size (parcel : Parcel) : Nat := parcel.bytes.length

/-- Whether the parcel has no bytes. -/
def isEmpty (parcel : Parcel) : Bool := parcel.bytes.isEmpty

/-- The parcel with a value written behind its bytes. -/
def write (parcel : Parcel) (value : WireValue) : Parcel := ⟨parcel.bytes ++ value.bytes⟩

/-- The parcel with values written behind its bytes. -/
def writeAll (parcel : Parcel) (values : List WireValue) : Parcel := values.foldl write parcel

end Parcel

end RequestRouter
