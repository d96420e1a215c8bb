/-!
# Text in bytes

UTF-8, read byte by byte. `RequestRouter.Text.decodeLossy` reads any bytes at all: where
they stop being the encoding of a character, the bytes that could still have begun
one are read as a single replacement character, and reading goes on with the byte
that broke the sequence. `RequestRouter.Text.decodeUtf8?` accepts only bytes that encode
a text.
-/

namespace RequestRouter

namespace Text

/-- The bytes of `s`. -/
def utf8Bytes (s : String) : List UInt8 := s.toList.flatMap String.utf8EncodeChar

/-- The character that stands for bytes which are no character. -/
def replacement : Char := '\ufffd'

/-- A character of which only the first bytes are read. -/
structure Pending where
  /-- The bits read so far, as a number. -/
  bits : Nat
  /-- How many bytes follow the next one. -/
  more : Nat
  /-- The least value that the next byte may have. -/
  low : UInt8
  /-- The greatest value that the next byte may have. -/
  high : UInt8

/-- What a byte outside any character gives: the characters it completes, and the
character it begins. The ranges of the second byte keep out overlong forms,
surrogates and code points past the last. -/
def beginChar (b : UInt8) : List Char × Option Pending :=
  if b < 0x80 then ([Char.ofNat b.toNat], none)
  else if b < 0xc2 then ([replacement], none)
  else if b < 0xe0 then ([], some ⟨b.toNat - 0xc0, 0, 0x80, 0xbf⟩)
  else if b = 0xe0 then ([], some ⟨0, 1, 0xa0, 0xbf⟩)
  else if b = 0xed then ([], some ⟨0xd, 1, 0x80, 0x9f⟩)
  else if b < 0xf0 then ([], some ⟨b.toNat - 0xe0, 1, 0x80, 0xbf⟩)
  else if b = 0xf0 then ([], some ⟨0, 2, 0x90, 0xbf⟩)
  else if b < 0xf4 then ([], some ⟨b.toNat - 0xf0, 2, 0x80, 0xbf⟩)
  else if b = 0xf4 then ([], some ⟨4, 2, 0x80, 0x8f⟩)
  else ([replacement], none)

/-- What the byte `b` gives after `pending`. -/
def feedByte (pending : Option Pending) (b : UInt8) : List Char × Option Pending :=
  match pending with
  | none => beginChar b
  | some p =>
    if p.low ≤ b && b ≤ p.high then
      let bits := p.bits * 64 + (b.toNat - 0x80)
      match p.more with
      | 0 => ([Char.ofNat bits], none)
      | n + 1 => ([], some ⟨bits, n, 0x80, 0xbf⟩)
    else
      let (done, next) := beginChar b
      (replacement :: done, next)

/-- The characters that `bytes` give after `pending`; the end of the bytes breaks a
character that is not complete. -/
def decodeAfter (pending : Option Pending) : List UInt8 → List Char
  | [] => if pending.isSome then [replacement] else []
  | b :: rest => (feedByte pending b).1 ++ decodeAfter (feedByte pending b).2 rest

/-- The text in `bytes`, with replacement characters where there is none. -/
def decodeLossy (bytes : List UInt8) : String := String.ofList (decodeAfter none bytes)

/-- The text that `bytes` encode, if they encode one: reading them back gives the
same bytes exactly when nothing was replaced. -/
def decodeUtf8? (bytes : List UInt8) : Option String :=
  let text := decodeLossy bytes
  if utf8Bytes text = bytes then some text else none

end Text

end RequestRouter
