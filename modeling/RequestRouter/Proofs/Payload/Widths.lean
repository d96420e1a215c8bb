import RequestRouter.Proofs.Payload.Canonical

/-!
# Integers of either width

An integer of 32 bits may be read as one of 64 bits, and the other way round, for what is written
does not tell how wide the integer was. Unsigned integers are written in groups of seven bits, and
the limit on the groups of a wide one is out of reach for the numbers of 32 bits
(`RequestRouter.Wire.groups_eq_limitedGroups_of_lt`).

For signed integers, this also takes that both widths fold them alike. Folded by shifts, as it is
done on words, an integer is moved by one bit, and then all bits are flipped if its sign is set
(`RequestRouter.Wire.folded32`, `RequestRouter.Wire.folded64`). In a word of any length this gives
the place of the integer in the order 0, -1, 1, -2, 2 and so on
(`RequestRouter.Wire.toNat_shiftLeft_xor_sshiftRight`), and so the length does not matter.
-/

namespace RequestRouter

namespace Wire

/-! ### Folding by shifts -/

section Words

variable {w : Nat} {x : BitVec (w + 1)}

/-- Shifted by all bits but its sign, a word without sign is zero. -/
theorem sshiftRight_eq_zero (h : x.msb = false) : x.sshiftRight w = 0#(w + 1) := by
  have hsmall : x.toNat < 2 ^ w := BitVec.toNat_lt_of_msb_false h
  rw [BitVec.sshiftRight_eq_of_msb_false h]
  apply BitVec.eq_of_toNat_eq
  rw [BitVec.toNat_ushiftRight, Nat.shiftRight_eq_div_pow]
  exact Nat.div_eq_of_lt hsmall

/-- A word with a sign has it at every place then. -/
theorem sshiftRight_eq_allOnes (h : x.msb = true) : x.sshiftRight w = BitVec.allOnes (w + 1) := by
  have hnot : (~~~x).msb = false := by simp [h]
  have hzero := sshiftRight_eq_zero hnot
  rw [BitVec.sshiftRight_eq_of_msb_false hnot] at hzero
  rw [BitVec.sshiftRight_eq_of_msb_true h, hzero, BitVec.not_zero]

/-- **Shifts fold a signed word**, however long it is. -/
theorem toNat_shiftLeft_xor_sshiftRight (x : BitVec (w + 1)) :
    (x <<< 1 ^^^ x.sshiftRight w).toNat = zigzag x.toInt := by
  have hlt := x.isLt
  have hpow : 2 ^ (w + 1) = 2 * 2 ^ w := pow_succ' 2 w
  have hleft : (x <<< 1).toNat = 2 * x.toNat % 2 ^ (w + 1) := by
    rw [BitVec.toNat_shiftLeft, Nat.shiftLeft_eq, Nat.mul_comm, pow_one]
  have hint := BitVec.toInt_eq_msb_cond x
  cases hsign : x.msb with
  | false =>
    have hsmall : x.toNat < 2 ^ w := BitVec.toNat_lt_of_msb_false hsign
    rw [hsign, if_neg Bool.false_ne_true] at hint
    rw [sshiftRight_eq_zero hsign, BitVec.xor_zero, hleft, Nat.mod_eq_of_lt (by omega), zigzag,
      if_pos (by omega)]
    omega
  | true =>
    -- The top bit is shifted out, and what is left is subtracted from all ones.
    have hgreat : 2 ^ w ≤ x.toNat := BitVec.toNat_ge_of_msb_true hsign
    have hrest : 2 * x.toNat % 2 ^ (w + 1) = 2 * x.toNat - 2 ^ (w + 1) := by
      rw [Nat.mod_eq_sub_mod (by omega), Nat.mod_eq_of_lt (by omega)]
    rw [hsign, if_pos rfl] at hint
    rw [sshiftRight_eq_allOnes hsign, BitVec.xor_allOnes, BitVec.toNat_not, hleft, hrest, zigzag,
      if_neg (by omega)]
    omega

end Words

/-- The unsigned word that shifts make of a signed one of 32 bits. -/
def folded32 (value : Int32) : UInt32 := ((value <<< 1) ^^^ (value >>> 31)).toUInt32

/-- The unsigned word that shifts make of a signed one of 64 bits. -/
def folded64 (value : Int64) : UInt64 := ((value <<< 1) ^^^ (value >>> 63)).toUInt64

theorem toNat_folded32 (value : Int32) : (folded32 value).toNat = zigzag value.toInt :=
  toNat_shiftLeft_xor_sshiftRight value.toBitVec

theorem toNat_folded64 (value : Int64) : (folded64 value).toNat = zigzag value.toInt :=
  toNat_shiftLeft_xor_sshiftRight value.toBitVec

/-- A signed integer of 32 bits is written as the unsigned one that shifts make of it. -/
theorem intBytes_eq_uintBytes (value : Int32) : intBytes value = uintBytes (folded32 value) := by
  rw [intBytes, uintBytes, toNat_folded32]

/-- A signed integer of 64 bits is written as the unsigned one that shifts make of it. -/
theorem longBytes_eq_ulongBytes (value : Int64) :
    longBytes value = ulongBytes (folded64 value) := by
  rw [longBytes, ulongBytes, toNat_folded64]

/-! ### One number in both widths -/

/-- The limit on the groups of a wide integer is out of reach for the numbers of 32 bits. -/
theorem groups_eq_limitedGroups_of_lt {n : Nat} (h : n < 4294967296) :
    groups n = limitedGroups followedGroups64 n := by
  refine groups_eq_limitedGroups ?_
  simp only [followedGroups64, dropGroups]
  omega

theorem uintBytes_eq_ulongBytes {value : UInt32} {wide : UInt64}
    (h : wide.toNat = value.toNat) : uintBytes value = ulongBytes wide := by
  rw [uintBytes, ulongBytes, h]
  exact groups_eq_limitedGroups_of_lt value.toNat_lt

theorem toNat_folded64_eq {value : Int32} {wide : Int64} (h : wide.toInt = value.toInt) :
    (folded64 wide).toNat = (folded32 value).toNat := by
  rw [toNat_folded64, toNat_folded32, h]

theorem intBytes_eq_longBytes {value : Int32} {wide : Int64} (h : wide.toInt = value.toInt) :
    intBytes value = longBytes wide :=
  calc
    intBytes value = uintBytes (folded32 value) := intBytes_eq_uintBytes value
    _ = ulongBytes (folded64 wide) := uintBytes_eq_ulongBytes (toNat_folded64_eq h)
    _ = longBytes wide := (longBytes_eq_ulongBytes wide).symm

end Wire

namespace Read

open Wire

/-- **Integers are read in either width.** An unsigned integer of 32 bits is written as the same
number of 64 bits, so that the wide reader takes it for this number; and the narrow reader takes
what is written for a wide one if its number has no more than 32 bits. With signed integers the same
holds, and both widths write the unsigned words, of one number, that shifts make of them. -/
theorem takes_either_width :
    (∀ value : UInt32, value.toUInt64.toNat = value.toNat ∧
      uintBytes value = ulongBytes value.toUInt64 ∧
      ulong.Takes (uintBytes value) value.toUInt64) ∧
    (∀ value : Int32, value.toInt64.toInt = value.toInt ∧
      intBytes value = longBytes value.toInt64 ∧
      long.Takes (intBytes value) value.toInt64) ∧
    (∀ value : Int32, intBytes value = uintBytes (folded32 value) ∧
      longBytes value.toInt64 = ulongBytes (folded64 value.toInt64) ∧
      (folded64 value.toInt64).toNat = (folded32 value).toNat) ∧
    (∀ wide : UInt64, wide.toNat < 2 ^ 32 →
      wide.toUInt32.toNat = wide.toNat ∧ uint.Takes (ulongBytes wide) wide.toUInt32) ∧
    (∀ wide : Int64, -2 ^ 31 ≤ wide.toInt → wide.toInt < 2 ^ 31 →
      wide.toInt32.toInt = wide.toInt ∧ int.Takes (longBytes wide) wide.toInt32) := by
  refine ⟨fun value => ?_, fun value => ?_, fun value => ?_, fun wide hwide => ?_,
    fun wide hlow hhigh => ?_⟩
  · have hsame := UInt32.toNat_toUInt64 value
    have hbytes := uintBytes_eq_ulongBytes hsame
    exact ⟨hsame, hbytes, hbytes ▸ takes_ulong value.toUInt64⟩
  · have hsame := Int32.toInt_toInt64 value
    have hbytes := intBytes_eq_longBytes hsame
    exact ⟨hsame, hbytes, hbytes ▸ takes_long value.toInt64⟩
  · exact ⟨intBytes_eq_uintBytes value, longBytes_eq_ulongBytes value.toInt64,
      toNat_folded64_eq (Int32.toInt_toInt64 value)⟩
  · have hsame : wide.toUInt32.toNat = wide.toNat := by
      rw [UInt64.toNat_toUInt32, Nat.mod_eq_of_lt hwide]
    exact ⟨hsame, uintBytes_eq_ulongBytes hsame.symm ▸ takes_uint wide.toUInt32⟩
  · have hsame : wide.toInt32.toInt = wide.toInt := by
      rw [Int64.toInt_toInt32]
      exact Int.bmod_eq_of_le (by omega) (by omega)
    exact ⟨hsame, intBytes_eq_longBytes hsame.symm ▸ takes_int wide.toInt32⟩

/-- The greatest unsigned and the least signed integer of 32 bits have the same five bytes, and
these are theirs in 64 bits, too. -/
theorem takes_either_width_ends :
    let bytes : List UInt8 := [255, 255, 255, 255, 15]
    ulong.Takes bytes 4294967295 ∧ uint.Takes bytes 4294967295 ∧
      long.Takes bytes (-2147483648) ∧ int.Takes bytes (-2147483648) := by
  intro bytes
  obtain ⟨hunsigned, hsigned, -, hnarrow, hnarrowSigned⟩ := takes_either_width
  have hgreatest : uintBytes 4294967295 = bytes := by cbv
  have hfolded : folded32 (-2147483648) = 4294967295 := by decide
  have hleast : intBytes (-2147483648) = bytes := by
    rw [intBytes_eq_uintBytes, hfolded]
    exact hgreatest
  have hwide := hunsigned 4294967295
  have hwideSigned := hsigned (-2147483648)
  rw [hgreatest] at hwide
  rw [hleast] at hwideSigned
  refine ⟨hwide.2.2, ?_, hwideSigned.2.2, ?_⟩
  · rw [hwide.2.1]
    exact (hnarrow 4294967295 (by decide)).2
  · rw [hwideSigned.2.1]
    exact (hnarrowSigned (-2147483648) (by decide) (by decide)).2

end Read

end RequestRouter
