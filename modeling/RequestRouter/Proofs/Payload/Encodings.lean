import RequestRouter.Payload.Parcel

/-!
# The arithmetic of the encodings

What the encodings of `RequestRouter.Parcel` do to numbers, apart from any parcel. Signed
integers and natural numbers correspond to each other
(`RequestRouter.Wire.unzigzag_zigzag`); bytes spell the number that they were made of
(`RequestRouter.Wire.ofLittleEndian_littleEndian`); and turning a word of 32 bits is undone by
turning it back (`RequestRouter.Wire.exponentLast_exponentFirst`).

How many groups of seven bits a number has is told by what is left of it once some of them
are taken away (`RequestRouter.Wire.dropGroups`): an encoding with a longest length is right
for the numbers of which its last byte can hold what is left.
-/

namespace RequestRouter

namespace Wire

/-! ### Signed integers -/

/-- The signed integer that `zigzag` puts at `n`. -/
def unzigzag (n : Nat) : Int := if n % 2 = 0 then (n / 2 : Nat) else -((n / 2 : Nat) : Int) - 1

theorem unzigzag_zigzag (i : Int) : unzigzag (zigzag i) = i := by
  rw [zigzag, unzigzag]
  split <;> split <;> omega

theorem zigzag_toInt_lt_of_int32 (i : Int32) : zigzag i.toInt < 4294967296 := by
  have hlow := i.le_toInt
  have hhigh := i.toInt_lt
  rw [zigzag]
  split <;> omega

theorem zigzag_toInt_lt_of_int64 (i : Int64) : zigzag i.toInt < 18446744073709551616 := by
  have hlow := i.le_toInt
  have hhigh := i.toInt_lt
  rw [zigzag]
  split <;> omega

/-! ### Groups of seven bits -/

/-- How many groups of an integer of 32 bits another byte follows. -/
def followedGroups32 : Nat := 4

/-- What is left of `n` without its `count` lowest groups of seven bits. -/
def dropGroups : (count : Nat) → (n : Nat) → Nat
  | 0, n => n
  | count + 1, n => dropGroups count (n / 128)

@[simp] theorem dropGroups_zero (n : Nat) : dropGroups 0 n = n := rfl

@[simp] theorem dropGroups_succ (count n : Nat) :
    dropGroups (count + 1) n = dropGroups count (n / 128) := rfl

theorem groups_of_lt {n : Nat} (h : n < 128) : groups n = [UInt8.ofNat n] := by
  rw [groups, if_pos h]

theorem groups_of_le {n : Nat} (h : 128 ≤ n) :
    groups n = UInt8.ofNat (n % 128 + 128) :: groups (n / 128) := by
  rw [groups, if_neg (by omega)]

theorem limitedGroups_of_lt {more n : Nat} (h : n < 128) :
    limitedGroups more n = [UInt8.ofNat n] := by
  cases more with
  | zero => rfl
  | succ more => rw [limitedGroups, if_pos h]

theorem limitedGroups_of_le {more n : Nat} (h : 128 ≤ n) :
    limitedGroups (more + 1) n = UInt8.ofNat (n % 128 + 128) :: limitedGroups more (n / 128) := by
  rw [limitedGroups, if_neg (by omega)]

/-- Five groups are enough for a word of 32 bits. -/
theorem dropGroups_lt_of_uint32 {n : Nat} (h : n < 4294967296) :
    dropGroups followedGroups32 n < 128 := by
  simp only [followedGroups32, dropGroups]
  omega

/-- Behind eight groups of a word of 64 bits, a byte has room for the rest. -/
theorem dropGroups_lt_of_uint64 {n : Nat} (h : n < 18446744073709551616) :
    dropGroups followedGroups64 n < 256 := by
  simp only [followedGroups64, dropGroups]
  omega

/-! ### Words in bytes -/

@[simp] theorem length_littleEndian (count n : Nat) : (littleEndian count n).length = count := by
  induction count generalizing n with
  | zero => rfl
  | succ count ih => rw [littleEndian, List.length_cons, ih]

theorem toNat_ofNat_mod (n : Nat) : (UInt8.ofNat (n % 256)).toNat = n % 256 := by
  rw [UInt8.toNat_ofNat', Nat.mod_mod]

/-- **Bytes spell the number** that they were made of, if there are enough of them. -/
theorem ofLittleEndian_littleEndian {count n : Nat} (h : n < Nat.pow 256 count) :
    ofLittleEndian (littleEndian count n) = n := by
  induction count generalizing n with
  | zero =>
    have hn : n < 1 := h
    rw [littleEndian, ofLittleEndian]
    omega
  | succ count ih =>
    have hrest : n / 256 < Nat.pow 256 count := Nat.div_lt_of_lt_mul (Nat.mul_comm .. ▸ h)
    rw [littleEndian, ofLittleEndian, ih hrest, toNat_ofNat_mod]
    exact Nat.mod_add_div n 256

/-! ### Turned words -/

theorem toNat_exponentFirst (word : UInt32) :
    (exponentFirst word).toNat = 512 * (word.toNat % 8388608) + word.toNat / 8388608 := by
  have hword := word.toNat_lt
  have hright : (word >>> 23).toNat = word.toNat / 8388608 := by
    rw [UInt32.toNat_shiftRight]
    exact Nat.shiftRight_eq_div_pow word.toNat 23
  have hleft : (word <<< 9).toNat = 512 * (word.toNat % 8388608) := by
    rw [UInt32.toNat_shiftLeft]
    change word.toNat <<< 9 % 4294967296 = _
    rw [Nat.shiftLeft_eq]
    omega
  -- The two parts have no bit in common, so that their union is their sum.
  rw [exponentFirst, UInt32.toNat_or, hright, hleft, Nat.or_comm]
  exact (Nat.two_pow_add_eq_or_of_lt (i := 9) (by omega) _).symm

theorem toNat_exponentLast (word : UInt32) :
    (exponentLast word).toNat = 8388608 * (word.toNat % 512) + word.toNat / 512 := by
  have hword := word.toNat_lt
  have hright : (word >>> 9).toNat = word.toNat / 512 := by
    rw [UInt32.toNat_shiftRight]
    exact Nat.shiftRight_eq_div_pow word.toNat 9
  have hleft : (word <<< 23).toNat = 8388608 * (word.toNat % 512) := by
    rw [UInt32.toNat_shiftLeft]
    change word.toNat <<< 23 % 4294967296 = _
    rw [Nat.shiftLeft_eq]
    omega
  rw [exponentLast, UInt32.toNat_or, hright, hleft]
  exact (Nat.two_pow_add_eq_or_of_lt (i := 23) (by omega) _).symm

/-- **Turning a word is undone** by turning it back. -/
theorem exponentLast_exponentFirst (word : UInt32) :
    exponentLast (exponentFirst word) = word := by
  have hword := word.toNat_lt
  rw [← UInt32.toNat_inj, toNat_exponentLast, toNat_exponentFirst]
  omega

theorem exponentField_single (n : Nat) :
    Floating.Format.single.exponentField n = n / 8388608 % 256 := rfl

/-- The lowest byte of a turned word is its exponent field. -/
theorem toNat_exponentFirst_mod (word : UInt32) :
    (exponentFirst word).toNat % 256 = Floating.Format.single.exponentField word.toNat := by
  rw [toNat_exponentFirst, exponentField_single]
  omega

theorem exponentFirst_and_eq_zero_iff (word : UInt32) :
    exponentFirst word &&& 255 = 0 ↔ Floating.Format.single.exponentField word.toNat = 0 := by
  have hand : (exponentFirst word &&& 255).toNat = (exponentFirst word).toNat % 256 := by
    rw [UInt32.toNat_and]
    exact Nat.and_two_pow_sub_one_eq_mod _ 8
  rw [← UInt32.toNat_inj, hand, toNat_exponentFirst_mod]
  rfl

end Wire

end RequestRouter
