import RequestRouter.Proofs.Payload.Loops
import RequestRouter.Proofs.Text.Utf8

/-!
# Reading parcels back

Values that were written to a parcel are read back by the reads of their kinds, whatever
bytes follow them: `RequestRouter.Read.startAt_values_writeAll`.

A parcel has nothing between its values, so a read has to find out by itself where its value
ends. `RequestRouter.Read.Takes` says that it does: from any place in front of the bytes of
a value it gives the value and stops right behind these bytes. The relation is closed under
doing one read after the other (`RequestRouter.Read.Takes.bind`), which is all that a list of
values needs; what is left is one lemma for each kind of value.

## What does not come back

A number of the 32-bit format whose exponent field is zero – the two zeros and the numbers too
small to have a leading one – is written as a single byte, and read as the positive zero
(`RequestRouter.WireValue.readBack`). A text with a zero character in it would end there
(`RequestRouter.WireValue.IsDelimited`). Everything else comes back bit for bit.
-/

namespace RequestRouter

/-- A text has to be without zero characters, for the zero byte ends it. -/
def WireValue.IsDelimited : WireValue → Prop
  | .string value => '\x00' ∉ value.toList
  | _ => True

/-- The value that a written value is read back as. -/
def WireValue.readBack : WireValue → WireValue
  | .float value =>
    if Floating.Format.single.exponentField value.bits.toNat = 0 then .float ⟨0⟩
    else .float value
  | value => value

namespace Read

variable {α β : Type}

/-! ### One read after the other -/

theorem startAt_bind (read : Read α) (next : α → Read β) (reader : ParcelReader) :
    (read >>= next).startAt reader =
      match read.startAt reader with
      | (.ok a, behind) => (next a).startAt behind
      | (.error e, behind) => (.error e, behind) := by
  change (ExceptT.bindCont next (read.startAt reader).1 : StateM ParcelReader _)
    (read.startAt reader).2 = _
  rcases read.startAt reader with ⟨_ | _, _⟩ <;> rfl

/-- **The read takes exactly `bytes`**: in front of them it gives `a`, whatever follows them,
and stops right behind them. -/
def Takes (read : Read α) (bytes : List UInt8) (a : α) : Prop :=
  ∀ (index : Nat) (later : List UInt8),
    read.startAt ⟨index, bytes ++ later⟩ = (.ok a, ⟨index + bytes.length, later⟩)

namespace Takes

theorem pure (a : α) : Takes (Pure.pure a) [] a := fun _ _ => rfl

theorem bind {read : Read α} {next : α → Read β} {front back : List UInt8} {a : α} {b : β}
    (hread : read.Takes front a) (hnext : (next a).Takes back b) :
    (read >>= next).Takes (front ++ back) b := by
  intro index later
  have hrest := hnext (index + front.length) later
  rw [startAt_bind, List.append_assoc, hread]
  simpa only [List.length_append, Nat.add_assoc] using hrest

/-- A read that ends with `return` takes what its first part takes. -/
theorem bind_pure {read : Read α} {bytes : List UInt8} {a : α} (hread : read.Takes bytes a)
    (f : α → β) : (read >>= fun a => Pure.pure (f a)).Takes bytes (f a) := by
  rw [← List.append_nil bytes]
  exact hread.bind (pure (f a))

theorem of_eq {read : Read α} {bytes : List UInt8} {a b : α} (hread : read.Takes bytes a)
    (h : a = b) : read.Takes bytes b := h ▸ hread

theorem map {read : Read α} {bytes : List UInt8} {a : α} (hread : read.Takes bytes a)
    (f : α → β) : (f <$> read).Takes bytes (f a) := by
  rw [map_eq_pure_bind]
  exact hread.bind_pure f

end Takes

/-! ### Bytes -/

theorem takes_byte (b : UInt8) : byte.Takes [b] b := fun _ _ => rfl

theorem takes_bool (value : Bool) : bool.Takes (Wire.boolBytes value) value := by
  cases value with
  | false => exact (takes_byte 0).bind (Takes.pure false)
  | true => exact (takes_byte 1).bind (Takes.pure true)

theorem takes_exactly (bytes : List UInt8) : (exactly bytes.length).Takes bytes bytes := by
  intro index later
  change (if bytes.length ≤ (bytes ++ later).length then _ else _) = _
  rw [if_pos (by simp), List.take_left]
  simp only [ParcelReader.skip, List.drop_left]

/-! ### Integers

Both recursions go through the groups in the same way, and differ in what they make of the byte
that ends the longest run. -/

/-- A byte, and if another one follows its group, what `rest` reads behind it. -/
def groupThen (rest : Read Nat) : Read Nat := do
  let b ← byte
  if b < 128 then return b.toNat
  else return b.toNat % 128 + 128 * (← rest)

theorem groups_succ (more : Nat) : groups (more + 1) = groupThen (groups more) := rfl

theorem limitedGroups_succ (more : Nat) :
    limitedGroups (more + 1) = groupThen (limitedGroups more) := rfl

/-- A byte below 128 is taken alone. -/
theorem takes_groupThen_of_lt {b : UInt8} (hb : b < 128) (rest : Read Nat) :
    (groupThen rest).Takes [b] b.toNat := by
  rw [← List.append_nil [b]]
  refine (takes_byte b).bind ?_
  rw [if_pos hb]
  exact Takes.pure b.toNat

/-- Any other byte is taken with the group behind it. -/
theorem takes_groupThen_of_not_lt {b : UInt8} (hb : ¬b < 128) {rest : Read Nat}
    {bytes : List UInt8} {n : Nat} (hrest : rest.Takes bytes n) :
    (groupThen rest).Takes (b :: bytes) (b.toNat % 128 + 128 * n) := by
  refine (takes_byte b).bind ?_
  rw [if_neg hb]
  exact hrest.bind_pure fun n => b.toNat % 128 + 128 * n

theorem takes_lastGroup (rest : Read Nat) {n : Nat} (h : n < 128) :
    (groupThen rest).Takes [UInt8.ofNat n] n := by
  have hvalue : (UInt8.ofNat n).toNat = n := Text.toNat_ofNat_of_lt (by omega)
  have hlast : UInt8.ofNat n < 128 := by rwa [UInt8.lt_iff_toNat_lt, hvalue]
  exact (takes_groupThen_of_lt hlast rest).of_eq hvalue

theorem takes_followedGroup {rest : Read Nat} {bytes : List UInt8} {n : Nat}
    (hrest : rest.Takes bytes (n / 128)) :
    (groupThen rest).Takes (UInt8.ofNat (n % 128 + 128) :: bytes) n := by
  have hvalue : (UInt8.ofNat (n % 128 + 128)).toNat = n % 128 + 128 :=
    Text.toNat_ofNat_of_lt (by omega)
  have hfollowed : ¬UInt8.ofNat (n % 128 + 128) < 128 := by
    rw [UInt8.lt_iff_toNat_lt, hvalue]
    exact Nat.not_lt.2 (Nat.le_add_left _ _)
  refine (takes_groupThen_of_not_lt hfollowed hrest).of_eq ?_
  rw [hvalue]
  omega

theorem takes_groups {more n : Nat} (h : Wire.dropGroups more n < 128) :
    (groups more).Takes (Wire.groups n) n := by
  induction more generalizing n with
  | zero =>
    have hn : n < 128 := h
    have hvalue : (UInt8.ofNat n).toNat % 128 = n := by
      rw [Text.toNat_ofNat_of_lt (by omega), Nat.mod_eq_of_lt hn]
    rw [Wire.groups_of_lt hn]
    exact ((takes_byte (UInt8.ofNat n)).bind_pure fun b => b.toNat % 128).of_eq hvalue
  | succ more ih =>
    rw [groups_succ]
    by_cases hn : n < 128
    · rw [Wire.groups_of_lt hn]
      exact takes_lastGroup _ hn
    · rw [Wire.groups_of_le (Nat.not_lt.1 hn)]
      exact takes_followedGroup (ih h)

theorem takes_limitedGroups {more n : Nat} (h : Wire.dropGroups more n < 256) :
    (limitedGroups more).Takes (Wire.limitedGroups more n) n := by
  induction more generalizing n with
  | zero =>
    have hvalue : (UInt8.ofNat n).toNat = n := Text.toNat_ofNat_of_lt h
    exact ((takes_byte (UInt8.ofNat n)).bind_pure UInt8.toNat).of_eq hvalue
  | succ more ih =>
    rw [limitedGroups_succ]
    by_cases hn : n < 128
    · rw [Wire.limitedGroups_of_lt hn]
      exact takes_lastGroup _ hn
    · rw [Wire.limitedGroups_of_le (Nat.not_lt.1 hn)]
      exact takes_followedGroup (ih h)

/-- Every number below the bound of 32-bit words is read as the word that it is. -/
theorem takes_uint_of_lt {n : Nat} (h : n < 4294967296) :
    uint.Takes (Wire.groups n) (UInt32.ofNat n) := by
  rw [uint_eq]
  exact (takes_groups (Wire.dropGroups_lt_of_uint32 h)).bind_pure UInt32.ofNat

theorem takes_ulong_of_lt {n : Nat} (h : n < 18446744073709551616) :
    ulong.Takes (Wire.limitedGroups Wire.followedGroups64 n) (UInt64.ofNat n) := by
  rw [ulong_eq]
  exact (takes_limitedGroups (Wire.dropGroups_lt_of_uint64 h)).bind_pure UInt64.ofNat

theorem takes_uint (value : UInt32) : uint.Takes (Wire.uintBytes value) value :=
  (takes_uint_of_lt value.toNat_lt).of_eq UInt32.ofNat_toNat

theorem takes_ulong (value : UInt64) : ulong.Takes (Wire.ulongBytes value) value :=
  (takes_ulong_of_lt value.toNat_lt).of_eq UInt64.ofNat_toNat

theorem takes_int (value : Int32) : int.Takes (Wire.intBytes value) value := by
  have hbound := Wire.zigzag_toInt_lt_of_int32 value
  rw [int_eq]
  refine ((takes_uint_of_lt hbound).bind_pure fun word =>
    Int32.ofInt (Wire.unzigzag word.toNat)).of_eq ?_
  rw [UInt32.toNat_ofNat_of_lt' hbound, Wire.unzigzag_zigzag, Int32.ofInt_toInt]

theorem takes_long (value : Int64) : long.Takes (Wire.longBytes value) value := by
  have hbound := Wire.zigzag_toInt_lt_of_int64 value
  rw [long_eq]
  refine ((takes_ulong_of_lt hbound).bind_pure fun word =>
    Int64.ofInt (Wire.unzigzag word.toNat)).of_eq ?_
  rw [UInt64.toNat_ofNat_of_lt' hbound, Wire.unzigzag_zigzag, Int64.ofInt_toInt]

/-! ### Numbers with a fraction -/

theorem takes_double (value : Binary64) : double.Takes (Wire.doubleBytes value) value := by
  have htakes := takes_exactly (Wire.littleEndian 8 value.bits.toNat)
  rw [Wire.length_littleEndian] at htakes
  refine (htakes.bind_pure fun bytes =>
    Binary64.mk (UInt64.ofNat (Wire.ofLittleEndian bytes))).of_eq ?_
  rw [Wire.ofLittleEndian_littleEndian value.bits.toNat_lt, UInt64.ofNat_toNat]

/-- A number whose exponent field is zero is a zero byte, which is read as zero. -/
theorem takes_float_of_field_eq_zero {value : Binary32}
    (h : Floating.Format.single.exponentField value.bits.toNat = 0) :
    float.Takes (Wire.floatBytes value) ⟨0⟩ := by
  have hturned := (Wire.exponentFirst_and_eq_zero_iff value.bits).2 h
  have hbytes : Wire.floatBytes value = [0] := by
    rw [Wire.floatBytes]
    exact if_pos hturned
  rw [hbytes]
  exact (takes_byte 0).bind (Takes.pure _)

/-- Any other number takes four bytes, of which the first is not zero. -/
theorem takes_float_of_field_ne_zero {value : Binary32}
    (h : Floating.Format.single.exponentField value.bits.toNat ≠ 0) :
    float.Takes (Wire.floatBytes value) value := by
  have hturned : ¬Wire.exponentFirst value.bits &&& 255 = 0 := fun h0 =>
    h ((Wire.exponentFirst_and_eq_zero_iff value.bits).1 h0)
  -- Of the turned word, all that matters is that its bytes spell it as a number.
  obtain ⟨turned, hword⟩ : ∃ turned, Wire.exponentFirst value.bits = turned := ⟨_, rfl⟩
  have hbytes : Wire.floatBytes value
      = UInt8.ofNat (turned.toNat % 256) :: Wire.littleEndian 3 (turned.toNat / 256) := by
    rw [Wire.floatBytes, ← hword]
    exact if_neg hturned
  have hfirst : UInt8.ofNat (turned.toNat % 256) ≠ 0 := by
    intro h0
    have hzero := congrArg UInt8.toNat h0
    rw [Wire.toNat_ofNat_mod, ← hword, Wire.toNat_exponentFirst_mod] at hzero
    exact h hzero
  have hspelled : Wire.ofLittleEndian
      (UInt8.ofNat (turned.toNat % 256) :: Wire.littleEndian 3 (turned.toNat / 256))
        = turned.toNat :=
    @Wire.ofLittleEndian_littleEndian 4 _ turned.toNat_lt
  rw [hbytes]
  refine (takes_byte _).bind ?_
  rw [if_neg hfirst]
  refine ((takes_exactly (Wire.littleEndian 3 (turned.toNat / 256))).bind_pure fun others =>
    Binary32.mk (Wire.exponentLast (UInt32.ofNat (Wire.ofLittleEndian
      (UInt8.ofNat (turned.toNat % 256) :: others))))).of_eq ?_
  rw [hspelled, UInt32.ofNat_toNat, ← hword, Wire.exponentLast_exponentFirst]

/-! ### Texts -/

theorem takeWhile_ne_zero_append {bytes : List UInt8} (h : 0 ∉ bytes) (later : List UInt8) :
    (bytes ++ 0 :: later).takeWhile (· != 0) = bytes := by
  have hall : ∀ b ∈ bytes, (b != 0) = true := fun b hb => bne_iff_ne.2 fun h0 => h (h0 ▸ hb)
  rw [List.takeWhile_append_of_pos hall]
  exact List.append_nil bytes

theorem takes_string {value : String} (h : '\x00' ∉ value.toList) :
    string.Takes (Wire.stringBytes value) value := by
  intro index later
  -- The scan stops at the zero byte that was written behind the text, for there is none in it.
  have hscan := takeWhile_ne_zero_append (Text.zero_notMem_utf8Bytes h) later
  have hread : Wire.stringBytes value ++ later = Text.utf8Bytes value ++ 0 :: later := by
    rw [Wire.stringBytes, List.append_assoc]
    rfl
  change (if _ then _ else _) = _
  simp only [hread, hscan]
  rw [if_pos (by simp), Text.decodeLossy_utf8Bytes]
  simp [ParcelReader.skip, Wire.stringBytes, List.drop_append]

/-! ### Lists of values -/

/-- **A value is read back** by the read of its kind, from the bytes that it was written as. -/
theorem takes_value {v : WireValue} (h : v.IsDelimited) :
    (value v.kind).Takes v.bytes v.readBack := by
  cases v with
  | bool v => exact (takes_bool v).map WireValue.bool
  | byte v => exact (takes_byte v).map WireValue.byte
  | int v => exact (takes_int v).map WireValue.int
  | uint v => exact (takes_uint v).map WireValue.uint
  | float v =>
    rw [WireValue.readBack]
    split
    · next hfield => exact (takes_float_of_field_eq_zero hfield).map WireValue.float
    · next hfield => exact (takes_float_of_field_ne_zero hfield).map WireValue.float
  | double v => exact (takes_double v).map WireValue.double
  | string v => exact (takes_string h).map WireValue.string
  | long v => exact (takes_long v).map WireValue.long
  | ulong v => exact (takes_ulong v).map WireValue.ulong

theorem takes_values {vs : List WireValue} (h : ∀ v ∈ vs, v.IsDelimited) :
    (values (vs.map WireValue.kind)).Takes (vs.flatMap WireValue.bytes)
      (vs.map WireValue.readBack) := by
  induction vs with
  | nil => exact Takes.pure []
  | cons v vs ih =>
    have hrest := ih fun u hu => h u (List.mem_cons_of_mem v hu)
    rw [List.flatMap_cons]
    exact (takes_value (h v List.mem_cons_self)).bind (hrest.bind_pure (v.readBack :: ·))

end Read

theorem Parcel.bytes_writeAll (parcel : Parcel) (vs : List WireValue) :
    (parcel.writeAll vs).bytes = parcel.bytes ++ vs.flatMap WireValue.bytes := by
  induction vs generalizing parcel with
  | nil => exact (List.append_nil _).symm
  | cons v vs ih =>
    change ((parcel.write v).writeAll vs).bytes = _
    rw [ih, Parcel.write, List.flatMap_cons, List.append_assoc]

/-- **What was written is read back**: after any values were written to an empty parcel, the
reads of their kinds give them one after the other, whatever bytes were appended, and the
reader ends behind the bytes that were written. -/
theorem Read.startAt_values_writeAll (vs : List WireValue) (h : ∀ v ∈ vs, v.IsDelimited)
    (later : List UInt8) :
    (Read.values (vs.map WireValue.kind)).startAt
        (Parcel.mk ((Parcel.empty.writeAll vs).bytes ++ later)).reader =
      (.ok (vs.map WireValue.readBack), ⟨(Parcel.empty.writeAll vs).size, later⟩) := by
  have hbytes : (Parcel.empty.writeAll vs).bytes = vs.flatMap WireValue.bytes :=
    Parcel.bytes_writeAll Parcel.empty vs
  have hread := Read.takes_values h 0 later
  rw [Parcel.reader, Parcel.size, hbytes]
  rwa [Nat.zero_add] at hread

/-- A character of four bytes, a NaN with a payload, the greatest subnormal number, and the
ends of two ranges, with a byte behind them. -/
theorem Read.startAt_values_sample :
    (∀ v ∈ [.string "🍕", .float ⟨0xffc00001⟩, .float ⟨0x007fffff⟩, .long (-9223372036854775808),
        .ulong 18446744073709551615], WireValue.IsDelimited v) ∧
      (Read.values [.string, .float, .float, .long, .ulong]).startAt
          (Parcel.mk ((Parcel.empty.writeAll [.string "🍕", .float ⟨0xffc00001⟩,
            .float ⟨0x007fffff⟩, .long (-9223372036854775808),
            .ulong 18446744073709551615]).bytes ++ [7])).reader =
        (.ok [.string "🍕", .float ⟨0xffc00001⟩, .float ⟨0⟩, .long (-9223372036854775808),
          .ulong 18446744073709551615], ⟨28, [7]⟩) := by
  have h : ∀ v ∈ [.string "🍕", .float ⟨0xffc00001⟩, .float ⟨0x007fffff⟩,
      .long (-9223372036854775808), .ulong 18446744073709551615], WireValue.IsDelimited v := by
    simp [WireValue.IsDelimited]
  exact ⟨h, Read.startAt_values_writeAll _ h [7]⟩

end RequestRouter
