import Mathlib.Data.List.TakeWhile
import RequestRouter.Proofs.Payload.RoundTrip

/-!
# Reading within the data

A reader holds the bytes behind its place, so it cannot look at any others. It could also be given
the whole data and the number of its place, and look bytes up by their positions – and then it has
to see to it that there are such positions. This module reads in that way
(`RequestRouter.Look`): a look-up of a position that the data do not have is no error of the read
but breaks everything off. That never happens, whatever the data are and whatever was read before,
and the two ways of reading agree (`RequestRouter.Read.Agrees`), so that the place never moves back
and never passes the end of the data.

The same proofs say what errors mean. The end of the data is reported with their size, although
some reads take it from the data and others from the place where they ran out of bytes; a text
without an end, with the place where it starts; and a byte that is no truth value, as the byte that
was taken last (`RequestRouter.ParcelError.IsExact`). Main statement:
`RequestRouter.Read.startAt_value_bounded`.
-/

namespace RequestRouter

variable {α β : Type}

/-! ### Looking bytes up by position -/

/-- A read that is given the data and the number of its place. It gives a value or an error, and
moves the place – or it breaks off, if it looks up a position that the data do not have. -/
abbrev Look := ExceptT ParcelError (StateT Nat (ReaderT (List UInt8) Option))

namespace Look

/-- The read that does what `step` says. -/
def of (step : List UInt8 → Nat → Option (Except ParcelError α × Nat)) : Look α :=
  ExceptT.mk fun index data => step data index

/-- What a read gives at a place in the data, and the place afterwards; nothing if it breaks off. -/
def startAt (look : Look α) (data : List UInt8) (index : Nat) :
    Option (Except ParcelError α × Nat) :=
  look.run index data

/-- The bytes from one position to another. -/
def slice? (data : List UInt8) (start stop : Nat) : Option (List UInt8) :=
  if start ≤ stop ∧ stop ≤ data.length then some ((data.take stop).drop start) else none

/-- A byte. Whether there is one is asked when it is looked up. -/
def byte : Look UInt8 :=
  .of fun data index =>
    match data[index]? with
    | some b => some (.ok b, index + 1)
    | none => some (.error (.unexpectedEnd index), index)

/-- A truth value. -/
def bool : Look Bool := do
  let b ← byte
  if b = 0 then return false
  else if b = 1 then return true
  else throw (.invalidBool b)

/-- An unsigned integer of 32 bits from the byte on whose group goes to the bits above `shift`. -/
def uintFrom (shift : Nat) (result : UInt32) : Look UInt32 := do
  let b ← byte
  let result := result ||| ((b &&& 127).toUInt32 <<< UInt32.ofNat shift)
  if b &&& 128 = 0 ∨ 35 ≤ shift + 7 then return result
  else uintFrom (shift + 7) result
termination_by 35 - shift

/-- An unsigned integer of 32 bits. -/
def uint : Look UInt32 := uintFrom 0 0

/-- A signed integer of 32 bits. -/
def int : Look Int32 := do
  return Wire.unfolded32 (← uint)

/-- An unsigned integer of 64 bits from the byte on whose group goes to the bits above `shift`. -/
def ulongFrom (shift : Nat) (result : UInt64) : Look UInt64 := do
  let b ← byte
  if b &&& 128 = 0 ∨ 56 ≤ shift then return result ||| (b.toUInt64 <<< UInt64.ofNat shift)
  else ulongFrom (shift + 7) (result ||| ((b &&& 127).toUInt64 <<< UInt64.ofNat shift))
termination_by 56 - shift

/-- An unsigned integer of 64 bits. -/
def ulong : Look UInt64 := ulongFrom 0 0

/-- A signed integer of 64 bits. -/
def long : Look Int64 := do
  return Wire.unfolded64 (← ulong)

/-- The three bytes behind the first of a number of the 32-bit format. After the question whether
they are there, they are looked up one by one. -/
def three : Look (List UInt8) :=
  .of fun data index =>
    if data.length < index + 3 then some (.error (.unexpectedEnd data.length), index)
    else do
      let first ← data[index]?
      let second ← data[index + 1]?
      let third ← data[index + 2]?
      some (.ok [first, second, third], index + 3)

/-- A number of the 32-bit format. -/
def float : Look Binary32 := do
  let first ← byte
  if first = 0 then return ⟨0⟩
  else
    let others ← three
    return ⟨Wire.exponentLast (UInt32.ofNat (Wire.ofLittleEndian (first :: others)))⟩

/-- The eight bytes of a number of the 64-bit format, if they are there. -/
def eight : Look (List UInt8) :=
  .of fun data index =>
    match slice? data index (index + 8) with
    | some bytes => some (.ok bytes, index + 8)
    | none => some (.error (.unexpectedEnd data.length), index)

/-- A number of the 64-bit format. -/
def double : Look Binary64 := do
  return ⟨UInt64.ofNat (Wire.ofLittleEndian (← eight))⟩

/-- Goes on from `index` to the zero byte that ends the text from `start`, byte by byte. -/
def scan (data : List UInt8) (start index : Nat) : Option (Except ParcelError String × Nat) :=
  if index < data.length then
    match data[index]? with
    | none => none
    | some b =>
      if b = 0 then
        (slice? data start index).map fun bytes => (.ok (Text.decodeLossy bytes), index + 1)
      else scan data start (index + 1)
  else some (.error (.unterminatedString start), index)
termination_by data.length - index

/-- A text. -/
def string : Look String := .of fun data index => scan data index index

/-- A value of the given kind. -/
def value : WireKind → Look WireValue
  | .bool => WireValue.bool <$> bool
  | .byte => WireValue.byte <$> byte
  | .int => WireValue.int <$> int
  | .uint => WireValue.uint <$> uint
  | .float => WireValue.float <$> float
  | .double => WireValue.double <$> double
  | .string => WireValue.string <$> string
  | .long => WireValue.long <$> long
  | .ulong => WireValue.ulong <$> ulong

theorem startAt_of (step : List UInt8 → Nat → Option (Except ParcelError α × Nat))
    (data : List UInt8) (index : Nat) : (of step).startAt data index = step data index := rfl

theorem startAt_bind (look : Look α) (next : α → Look β) (data : List UInt8) (index : Nat) :
    (look >>= next).startAt data index =
      match look.startAt data index with
      | none => none
      | some (.ok a, behind) => (next a).startAt data behind
      | some (.error e, behind) => some (.error e, behind) := by
  show Option.bind (look.startAt data index) _ = _
  rcases look.startAt data index with - | ⟨_ | _, _⟩ <;> rfl

end Look

/-! ### Both ways of reading agree -/

/-- The place of the given number in the data. -/
def ParcelReader.at (data : List UInt8) (index : Nat) : ParcelReader := ⟨index, data.drop index⟩

theorem ParcelReader.size_at {data : List UInt8} {index : Nat} (h : index ≤ data.length) :
    (ParcelReader.at data index).size = data.length := by
  show index + (data.drop index).length = _
  rw [List.length_drop]
  omega

theorem ParcelReader.skip_at (data : List UInt8) (index count : Nat) :
    (ParcelReader.at data index).skip count = .at data (index + count) := by
  show ParcelReader.mk _ ((data.drop index).drop count) = _
  rw [List.drop_drop]
  rfl

/-- A read takes the bytes that lie behind a place of the data. -/
theorem Read.Takes.startAt_at {read : Read α} {bytes data : List UInt8} {start : Nat} {a : α}
    (h : read.Takes bytes a) (hbytes : bytes <+: data.drop start) :
    read.startAt (.at data start) = (.ok a, .at data (start + bytes.length)) := by
  obtain ⟨later, hlater⟩ := hbytes
  have hbehind : data.drop (start + bytes.length) = later := by
    rw [← List.drop_drop, ← hlater, List.drop_left]
  rw [ParcelReader.at, ← hlater, h, ParcelReader.at, hbehind]

/-- What errors of a read that went from one place of the data to another may be. -/
abbrev ErrorRange := (start stop : Nat) → ParcelError → Prop

namespace Read

/-- The read gives `result` at one place in the data and goes on to another one behind it, without
looking beyond the end. -/
structure Goes (data : List UInt8) (read : Read α) (look : Look α) (start : Nat)
    (result : Except ParcelError α) (stop : Nat) : Prop where
  reads : read.startAt (.at data start) = (result, .at data stop)
  looks : look.startAt data start = some (result, stop)
  forward : start ≤ stop
  bounded : stop ≤ data.length

namespace Goes

variable {data : List UInt8} {read : Read α} {look : Look α} {start middle stop : Nat}

theorem pure (h : start ≤ data.length) (a : α) :
    Goes data (Pure.pure a) (Pure.pure a) start (.ok a) start :=
  ⟨rfl, rfl, Nat.le_refl start, h⟩

/-- After a value, the rest of the read decides. -/
theorem bind {next : α → Read β} {nextLook : α → Look β} {a : α} {result : Except ParcelError β}
    (h : Goes data read look start (.ok a) middle)
    (hnext : Goes data (next a) (nextLook a) middle result stop) :
    Goes data (read >>= next) (look >>= nextLook) start result stop where
  reads := by
    rw [startAt_bind, h.reads]
    exact hnext.reads
  looks := by
    rw [Look.startAt_bind, h.looks]
    exact hnext.looks
  forward := Nat.le_trans h.forward hnext.forward
  bounded := hnext.bounded

/-- After an error, the rest of the read is left out. -/
theorem bind_error {e : ParcelError} (h : Goes data read look start (.error e) stop)
    (next : α → Read β) (nextLook : α → Look β) :
    Goes data (read >>= next) (look >>= nextLook) start (.error e) stop where
  reads := by rw [startAt_bind, h.reads]
  looks := by rw [Look.startAt_bind, h.looks]
  forward := h.forward
  bounded := h.bounded

end Goes

/-- **The two ways of reading agree** at every place of the data, and errors are in range. -/
def Agrees (data : List UInt8) (read : Read α) (look : Look α) (errors : ErrorRange) : Prop :=
  ∀ start ≤ data.length, ∃ result stop, Goes data read look start result stop ∧
    ∀ e, result = .error e → errors start stop e

/-- The error is that the data ended. -/
def atEnd (data : List UInt8) : ErrorRange := fun _ _ e => e = .unexpectedEnd data.length

namespace Agrees

variable {data : List UInt8} {read : Read α} {look : Look α} {errors : ErrorRange}

theorem imp {wider : ErrorRange} (h : Agrees data read look errors)
    (hwider : ∀ start stop e, start ≤ stop → stop ≤ data.length → errors start stop e →
      wider start stop e) : Agrees data read look wider := by
  intro start hstart
  obtain ⟨result, stop, hgoes, herrors⟩ := h start hstart
  exact ⟨result, stop, hgoes, fun e he =>
    hwider start stop e hgoes.forward hgoes.bounded (herrors e he)⟩

theorem pure (a : α) : Agrees data (Pure.pure a) (Pure.pure a) errors :=
  fun start hstart => ⟨.ok a, start, .pure hstart a, nofun⟩

theorem bind {next : α → Read β} {nextLook : α → Look β}
    (h : Agrees data read look (atEnd data))
    (hnext : ∀ a, Agrees data (next a) (nextLook a) (atEnd data)) :
    Agrees data (read >>= next) (look >>= nextLook) (atEnd data) := by
  intro start hstart
  obtain ⟨result, middle, hgoes, herrors⟩ := h start hstart
  rcases result with e | a
  · exact ⟨.error e, middle, hgoes.bind_error next nextLook,
      fun e' he' => herrors e' (congrArg Except.error (Except.error.inj he'))⟩
  · obtain ⟨last, stop, hlast, hlastErrors⟩ := hnext a middle hgoes.bounded
    exact ⟨last, stop, hgoes.bind hlast, hlastErrors⟩

theorem map (h : Agrees data read look errors) (f : α → β) :
    Agrees data (f <$> read) (f <$> look) errors := by
  rw [map_eq_pure_bind, map_eq_pure_bind]
  intro start hstart
  obtain ⟨result, stop, hgoes, herrors⟩ := h start hstart
  rcases result with e | a
  · exact ⟨.error e, stop, hgoes.bind_error _ _,
      fun e' he' => herrors e' (congrArg Except.error (Except.error.inj he'))⟩
  · exact ⟨.ok (f a), stop, hgoes.bind (.pure hgoes.bounded (f a)), nofun⟩

end Agrees

variable {data : List UInt8}

/-! ### Bytes -/

/-- At a place in front of the end, the byte there is taken. -/
theorem goes_byte {start : Nat} (h : start < data.length) :
    Goes data byte Look.byte start (.ok data[start]) (start + 1) where
  reads := by
    rw [ParcelReader.at, List.drop_eq_getElem_cons h]
    rfl
  looks := by
    rw [Look.byte, Look.startAt_of, List.getElem?_eq_getElem h]
  forward := Nat.le_succ start
  bounded := h

/-- At the end there is no byte, and the number of the place is the size of the data. -/
theorem goes_byte_atEnd :
    Goes data byte Look.byte data.length (.error (.unexpectedEnd data.length)) data.length where
  reads := by
    rw [ParcelReader.at, List.drop_length]
    rfl
  looks := by
    rw [Look.byte, Look.startAt_of, List.getElem?_eq_none (Nat.le_refl _)]
  forward := Nat.le_refl _
  bounded := Nat.le_refl _

theorem agrees_byte : Agrees data byte Look.byte (atEnd data) := by
  intro start hstart
  rcases Nat.lt_or_eq_of_le hstart with hlt | rfl
  · exact ⟨_, _, goes_byte hlt, nofun⟩
  · exact ⟨_, _, goes_byte_atEnd, fun e he => (Except.error.inj he).symm⟩

/-! ### Integers -/

theorem agrees_uintFrom (shift : Nat) (result : UInt32) :
    Agrees data (uintFrom shift result) (Look.uintFrom shift result) (atEnd data) := by
  rw [uintFrom, Look.uintFrom]
  refine agrees_byte.bind fun b => ?_
  dsimp only
  split_ifs
  · exact .pure _
  · exact agrees_uintFrom (shift + 7) _
termination_by 35 - shift

theorem agrees_ulongFrom (shift : Nat) (result : UInt64) :
    Agrees data (ulongFrom shift result) (Look.ulongFrom shift result) (atEnd data) := by
  rw [ulongFrom, Look.ulongFrom]
  refine agrees_byte.bind fun b => ?_
  split_ifs
  · exact .pure _
  · exact agrees_ulongFrom (shift + 7) _
termination_by 56 - shift

theorem agrees_uint : Agrees data uint Look.uint (atEnd data) := agrees_uintFrom 0 0

theorem agrees_int : Agrees data int Look.int (atEnd data) :=
  agrees_uint.bind fun word => .pure (Wire.unfolded32 word)

theorem agrees_ulong : Agrees data ulong Look.ulong (atEnd data) := agrees_ulongFrom 0 0

theorem agrees_long : Agrees data long Look.long (atEnd data) :=
  agrees_ulong.bind fun word => .pure (Wire.unfolded64 word)

/-! ### Numbers with a fraction -/

/-- A number of bytes is taken as a whole or not at all. -/
theorem startAt_exactly {start count : Nat} (h : start ≤ data.length) :
    (exactly count).startAt (.at data start) =
      if start + count ≤ data.length then
        (.ok ((data.drop start).take count), .at data (start + count))
      else (.error (.unexpectedEnd data.length), .at data start) := by
  have hcount : count ≤ (data.drop start).length ↔ start + count ≤ data.length := by
    rw [List.length_drop]
    omega
  show (if count ≤ (data.drop start).length then _ else _) = _
  rw [if_congr hcount rfl rfl, ← ParcelReader.skip_at]
  rw [ParcelReader.size_at h]
  rfl

theorem agrees_three : Agrees data (exactly 3) Look.three (atEnd data) := by
  intro start hstart
  have hread : (exactly 3).startAt (.at data start) = _ := startAt_exactly hstart
  by_cases hthere : start + 3 ≤ data.length
  · rw [if_pos hthere] at hread
    refine ⟨_, _, ⟨hread, ?_, Nat.le_add_right _ _, hthere⟩, nofun⟩
    rw [Look.three, Look.startAt_of, if_neg (by omega), List.getElem?_eq_getElem (by omega),
      List.getElem?_eq_getElem (by omega), List.getElem?_eq_getElem (by omega),
      List.drop_eq_getElem_cons (by omega), List.drop_eq_getElem_cons (by omega),
      List.drop_eq_getElem_cons (by omega)]
    rfl
  · rw [if_neg hthere] at hread
    refine ⟨_, _, ⟨hread, ?_, Nat.le_refl _, hstart⟩, fun e he => (Except.error.inj he).symm⟩
    rw [Look.three, Look.startAt_of, if_pos (by omega)]

theorem agrees_eight : Agrees data (exactly 8) Look.eight (atEnd data) := by
  intro start hstart
  have hread : (exactly 8).startAt (.at data start) = _ := startAt_exactly hstart
  by_cases hthere : start + 8 ≤ data.length
  · rw [if_pos hthere] at hread
    refine ⟨_, _, ⟨hread, ?_, Nat.le_add_right _ _, hthere⟩, nofun⟩
    rw [Look.eight, Look.startAt_of, Look.slice?, if_pos ⟨by omega, hthere⟩, List.drop_take]
    simp
  · rw [if_neg hthere] at hread
    refine ⟨_, _, ⟨hread, ?_, Nat.le_refl _, hstart⟩, fun e he => (Except.error.inj he).symm⟩
    rw [Look.eight, Look.startAt_of, Look.slice?, if_neg fun h => hthere h.2]

theorem agrees_float : Agrees data float Look.float (atEnd data) := by
  refine agrees_byte.bind fun first => ?_
  split_ifs
  · exact .pure _
  · exact agrees_three.bind fun _ => .pure _

theorem agrees_double : Agrees data double Look.double (atEnd data) :=
  agrees_eight.bind fun _ => .pure _

end Read

/-! ### What errors say -/

/-- The error is exact, for a read from one place of the data to another. The end of the data is
reported with their size. A text without an end is reported with its start, and no zero byte lies
from there on. A byte that is no truth value is the last that was taken. -/
def ParcelError.IsExact (data : List UInt8) : ErrorRange
  | _, _, .unexpectedEnd size => size = data.length
  | start, stop, .unterminatedString from_ =>
    from_ = start ∧ stop = data.length ∧ ∀ b ∈ data.drop start, b ≠ 0
  | start, stop, .invalidBool b =>
    stop = start + 1 ∧ data[start]? = some b ∧ b ≠ 0 ∧ b ≠ 1
  | _, _, .trailing _ => False

namespace Read

variable {data : List UInt8}

theorem Agrees.exact {read : Read α} {look : Look α} (h : Agrees data read look (atEnd data)) :
    Agrees data read look (ParcelError.IsExact data) := by
  refine h.imp ?_
  rintro start stop _ - - rfl
  exact rfl

/-! ### Truth values and texts -/

theorem agrees_bool : Agrees data bool Look.bool (ParcelError.IsExact data) := by
  intro start hstart
  rcases Nat.lt_or_eq_of_le hstart with hlt | rfl
  · have hbyte := goes_byte hlt
    by_cases hzero : data[start] = 0
    · refine ⟨.ok false, start + 1, hbyte.bind ?_, nofun⟩
      rw [if_pos hzero, if_pos hzero]
      exact .pure hbyte.bounded false
    · by_cases hone : data[start] = 1
      · refine ⟨.ok true, start + 1, hbyte.bind ?_, nofun⟩
        rw [if_neg hzero, if_neg hzero, if_pos hone, if_pos hone]
        exact .pure hbyte.bounded true
      · refine ⟨.error (.invalidBool data[start]), start + 1, hbyte.bind ?_, ?_⟩
        · rw [if_neg hzero, if_neg hzero, if_neg hone, if_neg hone]
          exact ⟨rfl, rfl, Nat.le_refl _, hbyte.bounded⟩
        · rintro _ ⟨⟩
          exact ⟨rfl, List.getElem?_eq_getElem hlt, hzero, hone⟩
  · refine ⟨_, _, goes_byte_atEnd.bind_error _ _, ?_⟩
    rintro _ ⟨⟩
    exact rfl

/-- The bytes from a place on that belong to a text. -/
def textBytes (data : List UInt8) (start : Nat) : List UInt8 :=
  (data.drop start).takeWhile (· != 0)

/-- From a place within a text on, the scan goes to its end. -/
theorem scan_eq {start index : Nat} (hstart : start ≤ index) (hindex : index ≤ data.length) :
    Look.scan data start index =
      if index + (textBytes data index).length < data.length then
        some (.ok (Text.decodeLossy
          ((data.take (index + (textBytes data index).length)).drop start)),
          index + (textBytes data index).length + 1)
      else some (.error (.unterminatedString start), index + (textBytes data index).length) := by
  -- by induction on the number of bytes from the index on, of which the scan takes one at a time
  induction hleft : data.length - index generalizing index with
  | zero =>
    obtain rfl : index = data.length := by omega
    rw [Look.scan, textBytes, List.drop_length]
    simp
  | succ left ih =>
    have hlt : index < data.length := by omega
    rw [Look.scan, if_pos hlt, List.getElem?_eq_getElem hlt, textBytes,
      List.drop_eq_getElem_cons hlt]
    by_cases hzero : data[index] = 0
    · have hempty : (data[index] :: data.drop (index + 1)).takeWhile (· != 0) = [] :=
        List.takeWhile_cons_of_neg (by simp [hzero])
      rw [hempty]
      simp [hzero, hlt, Look.slice?, hstart, hindex]
    · have hcons : (data[index] :: data.drop (index + 1)).takeWhile (· != 0) =
          data[index] :: textBytes data (index + 1) :=
        List.takeWhile_cons_of_pos (by simpa using hzero)
      have hlength : index + (data[index] :: textBytes data (index + 1)).length =
          index + 1 + (textBytes data (index + 1)).length := by
        rw [List.length_cons]
        omega
      rw [hcons, hlength]
      simp only [hzero, if_false]
      exact ih (by omega) hlt (by omega)

theorem agrees_string : Agrees data string Look.string (ParcelError.IsExact data) := by
  intro start hstart
  have hprefix : textBytes data start <+: data.drop start := List.takeWhile_prefix _
  have hlength : (data.drop start).length = data.length - start := List.length_drop
  have hle := hprefix.length_le
  have hlook : Look.string.startAt data start = _ := scan_eq (Nat.le_refl start) hstart
  have hread : string.startAt (.at data start) =
      if (textBytes data start).length < (data.drop start).length then
        (.ok (Text.decodeLossy (textBytes data start)),
          (ParcelReader.at data start).skip ((textBytes data start).length + 1))
      else (.error (.unterminatedString start),
        (ParcelReader.at data start).skip (textBytes data start).length) := rfl
  rw [ParcelReader.skip_at, ParcelReader.skip_at] at hread
  by_cases hends : start + (textBytes data start).length < data.length
  · rw [if_pos (by omega)] at hread
    rw [if_pos hends, List.drop_take, Nat.add_sub_cancel_left,
      ← List.prefix_iff_eq_take.1 hprefix] at hlook
    exact ⟨_, _, ⟨hread, hlook, by omega, by omega⟩, nofun⟩
  · rw [if_neg (by omega)] at hread
    rw [if_neg hends] at hlook
    refine ⟨_, _, ⟨hread, hlook, by omega, by omega⟩, ?_⟩
    rintro _ ⟨⟩
    refine ⟨rfl, by omega, fun b hb => ?_⟩
    have hall : textBytes data start = data.drop start := hprefix.eq_of_length (by omega)
    rw [← hall] at hb
    simpa using List.mem_takeWhile_imp hb

/-! ### Every read -/

/-- **Reading stays within the data**: at every place, the read that looks bytes up by their
positions does what the read of the kind does, and errors are exact. -/
theorem agrees_value (data : List UInt8) (kind : WireKind) :
    Agrees data (value kind) (Look.value kind) (ParcelError.IsExact data) := by
  cases kind with
  | bool => exact agrees_bool.map WireValue.bool
  | byte => exact agrees_byte.exact.map WireValue.byte
  | int => exact agrees_int.exact.map WireValue.int
  | uint => exact agrees_uint.exact.map WireValue.uint
  | float => exact agrees_float.exact.map WireValue.float
  | double => exact agrees_double.exact.map WireValue.double
  | string => exact agrees_string.map WireValue.string
  | long => exact agrees_long.exact.map WireValue.long
  | ulong => exact agrees_ulong.exact.map WireValue.ulong

end Read

/-- The place after reads of the given kinds one after another, whether they fail or not. -/
def ParcelReader.afterReads (reader : ParcelReader) (kinds : List WireKind) : ParcelReader :=
  kinds.foldl (fun place kind => ((Read.value kind).startAt place).2) reader

/-- After any reads, the reader is at a place of the data. -/
theorem ParcelReader.exists_afterReads (data : List UInt8) {start : Nat} (h : start ≤ data.length)
    (kinds : List WireKind) :
    ∃ stop, (ParcelReader.at data start).afterReads kinds = .at data stop ∧
      start ≤ stop ∧ stop ≤ data.length := by
  induction kinds generalizing start with
  | nil => exact ⟨start, rfl, Nat.le_refl start, h⟩
  | cons kind kinds ih =>
    obtain ⟨result, middle, hgoes, -⟩ := Read.agrees_value data kind start h
    obtain ⟨stop, hstop, hforward, hbounded⟩ := ih hgoes.bounded
    refine ⟨stop, ?_, Nat.le_trans hgoes.forward hforward, hbounded⟩
    show (((Read.value kind).startAt (.at data start)).2).afterReads kinds = _
    rw [hgoes.reads, hstop]

/-- **Reading never leaves the data, and errors are exact.** After reads of any kinds, successful or
not, another read of any kind looks up only positions that the data have. Its place does not move
back and does not pass the end. Where it says that the data ended, it gives their size; where it
says that a text does not end, the place where it began to read, and there is no zero byte from
there on; and where it says that a byte is no truth value, this is the byte that it took, and
neither zero nor one. -/
theorem Read.startAt_value_bounded (data : List UInt8) (kinds : List WireKind) (kind : WireKind) :
    ∃ start stop result,
      (Parcel.mk data).reader.afterReads kinds = ⟨start, data.drop start⟩ ∧
      (Read.value kind).startAt ⟨start, data.drop start⟩ = (result, ⟨stop, data.drop stop⟩) ∧
      (Look.value kind).startAt data start = some (result, stop) ∧
      start ≤ stop ∧ stop ≤ data.length ∧
      (∀ size, result = .error (.unexpectedEnd size) → size = data.length) ∧
      (∀ place, result = .error (.unterminatedString place) →
        place = start ∧ ∀ b ∈ data.drop start, b ≠ 0) ∧
      (∀ b, result = .error (.invalidBool b) →
        stop = start + 1 ∧ data[start]? = some b ∧ b ≠ 0 ∧ b ≠ 1) ∧
      ∀ count, result ≠ .error (.trailing count) := by
  obtain ⟨start, hstart, -, hbounded⟩ :=
    ParcelReader.exists_afterReads data (Nat.zero_le data.length) kinds
  obtain ⟨result, stop, hgoes, hexact⟩ := agrees_value data kind start hbounded
  refine ⟨start, stop, result, hstart, hgoes.reads, hgoes.looks, hgoes.forward, hgoes.bounded,
    fun size hsize => hexact _ hsize, fun place hplace => ?_, fun b hb => hexact _ hb,
    fun count hcount => hexact _ hcount⟩
  obtain ⟨hbegan, -, hzero⟩ := hexact _ hplace
  exact ⟨hbegan, hzero⟩

end RequestRouter
