import Mathlib.Data.Nat.Bitwise
import RequestRouter.Payload.Reader
import RequestRouter.Proofs.Payload.Encodings

/-!
# The loops that read integers

An unsigned integer is read by a loop that moves the group of each byte to its place in the word and
adds it there by an *or* (`RequestRouter.Read.uintFrom`, `RequestRouter.Read.ulongFrom`). Here the
loops are turned into recursions on how many bytes another one may follow, which give natural
numbers and know no words: `RequestRouter.Read.groups` and `RequestRouter.Read.limitedGroups`. Since
each group goes above those in front of it, the bits do not meet, and a word that was put together
so is the sum of its groups, reduced to the word (`RequestRouter.Read.uint_eq`,
`RequestRouter.Read.ulong_eq`).

A signed integer is got from a word by a shift, after which all bits are flipped if the lowest one
was set. On numbers of any length this is `RequestRouter.Wire.unzigzag`
(`RequestRouter.Read.int_eq`, `RequestRouter.Read.long_eq`).
-/

namespace RequestRouter

namespace Wire

/-! ### Bytes and groups -/

theorem toNat_and_127 (b : UInt8) : (b &&& 127).toNat = b.toNat % 128 :=
  (UInt8.toNat_and b 127).trans (Nat.and_two_pow_sub_one_eq_mod b.toNat 7)

/-- The top bit of a byte tells whether it is below 128. -/
theorem and_128_eq_zero_iff {b : UInt8} : b &&& 128 = 0 ↔ b < 128 := by
  have hbound : b.toNat < 256 := b.toNat_lt
  have hand : (b &&& 128).toNat = b.toNat / 128 % 2 * 128 := by
    rw [← Nat.toNat_testBit b.toNat 7]
    exact (UInt8.toNat_and b 128).trans (Nat.and_two_pow b.toNat 7)
  rw [← UInt8.toNat_inj, hand, UInt8.lt_iff_toNat_lt]
  change b.toNat / 128 % 2 * 128 = 0 ↔ b.toNat < 128
  omega

/-- A group and what goes above it do not meet. -/
theorem add_shiftLeft_eq_or {low : Nat} (hlow : low < 128) (n shift : Nat) :
    (low + 128 * n) <<< shift = low <<< shift ||| n <<< (shift + 7) := by
  have hor : low + 128 * n = low ||| n <<< 7 := by
    rw [Nat.add_comm, Nat.shiftLeft_eq, Nat.mul_comm n, Nat.or_comm]
    exact Nat.two_pow_add_eq_or_of_lt (i := 7) hlow n
  rw [hor, Nat.shiftLeft_or_distrib, ← Nat.shiftLeft_add, Nat.add_comm 7]

/-! ### Signed words -/

section Words

variable {w : Nat} (x : BitVec (w + 1))

theorem toNat_ushiftRight_one : (x >>> 1).toNat = x.toNat / 2 := BitVec.toNat_ushiftRight x 1

theorem toInt_ushiftRight_one : (x >>> 1).toInt = (x.toNat / 2 : Nat) := by
  have hlt := x.isLt
  have hpow : 2 ^ (w + 1) = 2 * 2 ^ w := Nat.pow_succ'
  have hhalf := toNat_ushiftRight_one x
  rw [BitVec.toInt_eq_toNat_of_lt (by omega), hhalf]

theorem toInt_not_ushiftRight_one : (~~~(x >>> 1)).toInt = -((x.toNat / 2 : Nat) : Int) - 1 := by
  have hlt := x.isLt
  have hpow : 2 ^ (w + 1) = 2 * 2 ^ w := Nat.pow_succ'
  have hhalf := toNat_ushiftRight_one x
  have hnot : (~~~(x >>> 1)).toNat = 2 ^ (w + 1) - 1 - (x >>> 1).toNat := BitVec.toNat_not
  rw [BitVec.toInt_eq_toNat_cond, if_neg (by omega)]
  omega

end Words

/-- **The shift and the flip unfold a word of 32 bits.** -/
theorem unfolded32_eq (word : UInt32) : unfolded32 word = Int32.ofInt (unzigzag word.toNat) := by
  have hbit : (word &&& 1).toNat = word.toNat % 2 :=
    (UInt32.toNat_and word 1).trans (Nat.and_one_is_mod word.toNat)
  have hodd : word &&& 1 ≠ 0 ↔ word.toNat % 2 ≠ 0 := by
    rw [ne_eq, ← UInt32.toNat_inj, hbit]
    rfl
  rw [← Int32.ofInt_toInt (unfolded32 word), unfolded32, unzigzag]
  by_cases h : word.toNat % 2 = 0
  · rw [if_neg (by rwa [hodd, not_not]), if_pos h]
    exact congrArg Int32.ofInt (toInt_ushiftRight_one word.toBitVec)
  · rw [if_pos (hodd.2 h), if_neg h]
    exact congrArg Int32.ofInt (toInt_not_ushiftRight_one word.toBitVec)

/-- The shift and the flip unfold a word of 64 bits. -/
theorem unfolded64_eq (word : UInt64) : unfolded64 word = Int64.ofInt (unzigzag word.toNat) := by
  have hbit : (word &&& 1).toNat = word.toNat % 2 :=
    (UInt64.toNat_and word 1).trans (Nat.and_one_is_mod word.toNat)
  have hodd : word &&& 1 ≠ 0 ↔ word.toNat % 2 ≠ 0 := by
    rw [ne_eq, ← UInt64.toNat_inj, hbit]
    rfl
  rw [← Int64.ofInt_toInt (unfolded64 word), unfolded64, unzigzag]
  by_cases h : word.toNat % 2 = 0
  · rw [if_neg (by rwa [hodd, not_not]), if_pos h]
    exact congrArg Int64.ofInt (toInt_ushiftRight_one word.toBitVec)
  · rw [if_pos (hodd.2 h), if_neg h]
    exact congrArg Int64.ofInt (toInt_not_ushiftRight_one word.toBitVec)

end Wire

namespace Read

open Wire

/-! ### Numbers in place of words -/

/-- A run of bytes with the top bit set, at most `more` of them, and the byte behind them: the
number that the lowest seven bits of each spell, the lowest group first. -/
def groups : (more : Nat) → Read Nat
  | 0 => do
    let b ← byte
    return b.toNat % 128
  | more + 1 => do
    let b ← byte
    if b < 128 then return b.toNat
    else return b.toNat % 128 + 128 * (← groups more)

/-- As `groups`, but a byte that ends the longest run counts with all its bits. -/
def limitedGroups : (more : Nat) → Read Nat
  | 0 => do
    let b ← byte
    return b.toNat
  | more + 1 => do
    let b ← byte
    if b < 128 then return b.toNat
    else return b.toNat % 128 + 128 * (← limitedGroups more)

/-- The group of a byte as it goes into a word. -/
theorem toUInt32_and_127 (b : UInt8) : (b &&& 127).toUInt32 = UInt32.ofNat (b.toNat % 128) := by
  rw [← UInt32.ofNat_toNat (x := (b &&& 127).toUInt32), UInt8.toNat_toUInt32, toNat_and_127]

theorem toUInt64_and_127 (b : UInt8) : (b &&& 127).toUInt64 = UInt64.ofNat (b.toNat % 128) := by
  rw [← UInt64.ofNat_toNat (x := (b &&& 127).toUInt64), UInt8.toNat_toUInt64, toNat_and_127]

/-- What the first byte and those behind it add to the word, each at its place, is what their
number does. -/
theorem or_groups32 (result : UInt32) (b : UInt8) (n : Nat) {shift : Nat} (h : shift + 7 < 32) :
    (result ||| (b &&& 127).toUInt32 <<< UInt32.ofNat shift) |||
        UInt32.ofNat n <<< UInt32.ofNat (shift + 7) =
      result ||| UInt32.ofNat (b.toNat % 128 + 128 * n) <<< UInt32.ofNat shift := by
  rw [toUInt32_and_127, UInt32.or_assoc, ← UInt32.ofNat_shiftLeft _ _ (by omega),
    ← UInt32.ofNat_shiftLeft _ _ h, ← UInt32.ofNat_shiftLeft _ _ (by omega), ← UInt32.ofNat_or,
    add_shiftLeft_eq_or (Nat.mod_lt _ (by decide))]

theorem or_groups64 (result : UInt64) (b : UInt8) (n : Nat) {shift : Nat} (h : shift + 7 < 64) :
    (result ||| (b &&& 127).toUInt64 <<< UInt64.ofNat shift) |||
        UInt64.ofNat n <<< UInt64.ofNat (shift + 7) =
      result ||| UInt64.ofNat (b.toNat % 128 + 128 * n) <<< UInt64.ofNat shift := by
  rw [toUInt64_and_127, UInt64.or_assoc, ← UInt64.ofNat_shiftLeft _ _ (by omega),
    ← UInt64.ofNat_shiftLeft _ _ h, ← UInt64.ofNat_shiftLeft _ _ (by omega), ← UInt64.ofNat_or,
    add_shiftLeft_eq_or (Nat.mod_lt _ (by decide))]

/-- **The loop of 32 bits adds the groups behind it to the word**, shifted to their place. Each
round takes one byte from those that another one may follow. -/
theorem uintFrom_eq {more shift : Nat} (h : shift + 7 * more = 28) (result : UInt32) :
    uintFrom shift result = do
      return result ||| UInt32.ofNat (← groups more) <<< UInt32.ofNat shift := by
  -- by induction on the number of bytes that may follow, for each of them lifts the shift
  induction more generalizing shift result with
  | zero =>
    rw [uintFrom, groups, bind_assoc]
    refine bind_congr fun b => ?_
    -- The loop stops here whatever the top bit is, which does not count.
    rw [pure_bind, if_pos (.inr (by omega)), toUInt32_and_127]
  | succ more ih =>
    rw [uintFrom, groups, bind_assoc]
    refine bind_congr fun b => ?_
    by_cases hb : b < 128
    · have hsmall : b.toNat % 128 = b.toNat := Nat.mod_eq_of_lt hb
      rw [if_pos (.inl (and_128_eq_zero_iff.2 hb)), if_pos hb, pure_bind, toUInt32_and_127, hsmall]
    · have hnot : ¬(b &&& 128 = 0 ∨ 35 ≤ shift + 7) :=
        not_or.2 ⟨mt and_128_eq_zero_iff.1 hb, by omega⟩
      rw [if_neg hnot, if_neg hb, ih (by omega), bind_assoc]
      refine bind_congr fun n => ?_
      rw [pure_bind, or_groups32 _ _ _ (by omega)]

/-- **The loop of 64 bits adds the groups behind it to the word**, shifted to their place. -/
theorem ulongFrom_eq {more shift : Nat} (h : shift + 7 * more = 56) (result : UInt64) :
    ulongFrom shift result = do
      return result ||| UInt64.ofNat (← limitedGroups more) <<< UInt64.ofNat shift := by
  have hword (b : UInt8) : b.toUInt64 = UInt64.ofNat b.toNat := by
    rw [← UInt64.ofNat_toNat (x := b.toUInt64), UInt8.toNat_toUInt64]
  induction more generalizing shift result with
  | zero =>
    rw [ulongFrom, limitedGroups, bind_assoc]
    refine bind_congr fun b => ?_
    -- The loop stops here, too, but the top bit counts.
    rw [pure_bind, if_pos (.inr (by omega)), hword]
  | succ more ih =>
    rw [ulongFrom, limitedGroups, bind_assoc]
    refine bind_congr fun b => ?_
    by_cases hb : b < 128
    · rw [if_pos (.inl (and_128_eq_zero_iff.2 hb)), if_pos hb, pure_bind, hword]
    · have hnot : ¬(b &&& 128 = 0 ∨ 56 ≤ shift) :=
        not_or.2 ⟨mt and_128_eq_zero_iff.1 hb, by omega⟩
      rw [if_neg hnot, if_neg hb, ih (by omega), bind_assoc]
      refine bind_congr fun n => ?_
      rw [pure_bind, or_groups64 _ _ _ (by omega)]

/-! ### The readers of integers -/

/-- **An unsigned integer of 32 bits is the number of its groups**, reduced to the word. -/
theorem uint_eq : uint = do return UInt32.ofNat (← groups followedGroups32) := by
  rw [uint, @uintFrom_eq followedGroups32 0 rfl]
  refine bind_congr fun n => ?_
  rw [UInt32.zero_or]
  exact congrArg pure UInt32.shiftLeft_zero

/-- An unsigned integer of 64 bits is the number of its groups. -/
theorem ulong_eq : ulong = do return UInt64.ofNat (← limitedGroups followedGroups64) := by
  rw [ulong, @ulongFrom_eq followedGroups64 0 rfl]
  refine bind_congr fun n => ?_
  rw [UInt64.zero_or]
  exact congrArg pure UInt64.shiftLeft_zero

theorem int_eq : int = do return Int32.ofInt (unzigzag (← uint).toNat) :=
  bind_congr fun word => congrArg pure (unfolded32_eq word)

theorem long_eq : long = do return Int64.ofInt (unzigzag (← ulong).toNat) :=
  bind_congr fun word => congrArg pure (unfolded64_eq word)

end Read

end RequestRouter
