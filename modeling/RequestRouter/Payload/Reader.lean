import RequestRouter.Payload.Parcel

/-!
# Reading parcels

A reader stands at a byte of a parcel and reads one value after the other. A read that
fails leaves the reader where the failure showed: behind the bytes of an integer that
ends too soon, behind the byte that is no truth value, at the end of a text without
zero byte – but a number of the 64-bit format is read as a whole or not at all. Reading
can go on after a failure.

Integers are read leniently. A run that is longer than needed gives the same number; a
run that is as long as the longest ends there whatever its last byte says; and of an
integer of 32 bits, bits beyond the word are dropped.
-/

namespace RequestRouter

/-- Why a parcel cannot be read. -/
inductive ParcelError where
  /-- The parcel of the given size ends within a value. -/
  | unexpectedEnd (size : Nat)
  /-- The byte is no truth value. -/
  | invalidBool (byte : UInt8)
  /-- The text that starts at the given byte does not end. -/
  | unterminatedString (start : Nat)
  /-- Bytes are left behind the last value. -/
  | trailing (count : Nat)
deriving DecidableEq

/-- The error in words. -/
def ParcelError.message : ParcelError → String
  | .unexpectedEnd size => s!"Unexpected end of parcel at byte {size}"
  | .invalidBool byte => "Invalid bool byte " ++ toString byte.toNat
  | .unterminatedString start => s!"Unterminated string starting at byte {start}"
  | .trailing count => s!"Invalid parcel contents: {count} trailing bytes"

/-- A place in a parcel. -/
structure ParcelReader where
  /-- How many bytes lie in front of the place. -/
  index : Nat
  /-- The bytes behind it. -/
  rest : List UInt8
deriving DecidableEq

/-- The place in front of the first byte. -/
def Parcel.reader (parcel : Parcel) : ParcelReader := ⟨0, parcel.bytes⟩

namespace ParcelReader

/-- The size of the whole parcel. -/
def size (reader : ParcelReader) : Nat := reader.index + reader.rest.length

/-- Whether every byte was read. -/
def isExhausted (reader : ParcelReader) : Bool := reader.rest.isEmpty

/-- The place `count` bytes on. -/
def skip (reader : ParcelReader) (count : Nat) : ParcelReader :=
  ⟨reader.index + count, reader.rest.drop count⟩

end ParcelReader

/-- A read: it gives a value or an error, and moves the reader in either case. -/
abbrev Read := ExceptT ParcelError (StateM ParcelReader)

namespace Read

/-- The read that does what `step` says. -/
def of {α : Type} (step : ParcelReader → Except ParcelError α × ParcelReader) : Read α :=
  ExceptT.mk step

/-- What a read gives at a place, and the place afterwards. -/
def startAt {α : Type} (read : Read α) (reader : ParcelReader) :
    Except ParcelError α × ParcelReader :=
  read.run reader

/-- A byte. -/
def byte : Read UInt8 :=
  .of fun reader =>
    match reader.rest with
    | [] => (.error (.unexpectedEnd reader.size), reader)
    | b :: _ => (.ok b, reader.skip 1)

/-- A truth value. -/
def bool : Read Bool := do
  let b ← byte
  if b = 0 then return false
  else if b = 1 then return true
  else throw (.invalidBool b)

/-- An unsigned integer of 32 bits from the byte on whose group goes to the bits above `shift`;
`result` has the groups in front of it. The group of the fifth byte is the last, whatever its top
bit says, and what is shifted out of the word is lost. -/
def uintFrom (shift : Nat) (result : UInt32) : Read UInt32 := do
  let b ← byte
  let result := result ||| ((b &&& 127).toUInt32 <<< UInt32.ofNat shift)
  if b &&& 128 = 0 ∨ 35 ≤ shift + 7 then return result
  else uintFrom (shift + 7) result
termination_by 35 - shift

/-- An unsigned integer of 32 bits. -/
def uint : Read UInt32 := uintFrom 0 0

/-- A signed integer of 32 bits. -/
def int : Read Int32 := do
  return Wire.unfolded32 (← uint)

/-- An unsigned integer of 64 bits from the byte on whose group goes to the bits above `shift`. The
last byte counts with all its bits; the ninth is always the last. -/
def ulongFrom (shift : Nat) (result : UInt64) : Read UInt64 := do
  let b ← byte
  if b &&& 128 = 0 ∨ 56 ≤ shift then return result ||| (b.toUInt64 <<< UInt64.ofNat shift)
  else ulongFrom (shift + 7) (result ||| ((b &&& 127).toUInt64 <<< UInt64.ofNat shift))
termination_by 56 - shift

/-- An unsigned integer of 64 bits. -/
def ulong : Read UInt64 := ulongFrom 0 0

/-- A signed integer of 64 bits. -/
def long : Read Int64 := do
  return Wire.unfolded64 (← ulong)

/-- The given number of bytes, or none of them. -/
def exactly (count : Nat) : Read (List UInt8) :=
  .of fun reader =>
    if count ≤ reader.rest.length then (.ok (reader.rest.take count), reader.skip count)
    else (.error (.unexpectedEnd reader.size), reader)

/-- A number of the 32-bit format. -/
def float : Read Binary32 := do
  let first ← byte
  if first = 0 then return ⟨0⟩
  else
    let others ← exactly 3
    return ⟨Wire.exponentLast (UInt32.ofNat (Wire.ofLittleEndian (first :: others)))⟩

/-- A number of the 64-bit format. -/
def double : Read Binary64 := do
  return ⟨UInt64.ofNat (Wire.ofLittleEndian (← exactly 8))⟩

/-- A text. Bytes in it that are no text are replaced. -/
def string : Read String :=
  .of fun reader =>
    let bytes := reader.rest.takeWhile (· != 0)
    if bytes.length < reader.rest.length then
      (.ok (Text.decodeLossy bytes), reader.skip (bytes.length + 1))
    else (.error (.unterminatedString reader.index), reader.skip bytes.length)

/-- A value of the given kind. -/
def value : WireKind → Read WireValue
  | .bool => WireValue.bool <$> bool
  | .byte => WireValue.byte <$> byte
  | .int => WireValue.int <$> int
  | .uint => WireValue.uint <$> uint
  | .float => WireValue.float <$> float
  | .double => WireValue.double <$> double
  | .string => WireValue.string <$> string
  | .long => WireValue.long <$> long
  | .ulong => WireValue.ulong <$> ulong

/-- Values of the given kinds, one behind the other. -/
def values : List WireKind → Read (List WireValue)
  | [] => return []
  | kind :: rest => do
    let first ← value kind
    return first :: (← values rest)

end Read

end RequestRouter
