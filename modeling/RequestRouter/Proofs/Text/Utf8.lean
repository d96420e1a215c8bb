import RequestRouter.Text.Utf8

/-!
# Reading UTF-8 back

Decoding undoes encoding: `RequestRouter.Text.decodeLossy_utf8Bytes`. The decoder takes one
byte after the other, so the proof follows a character through its bytes. The first byte
leaves a `RequestRouter.Text.Pending` that holds the upper bits of the code point and the
range of the byte to come – this is where it matters that a code point is written with as few
bytes as it needs, and that no character is a surrogate – and each byte that follows adds six
bits.

The zero byte is the encoding of the zero character and part of no other
(`RequestRouter.Text.zero_notMem_utf8Bytes`), so it can end a text.
-/

namespace RequestRouter

namespace Text

/-! ### The bytes of a character -/

theorem toNat_ofNat_of_lt {n : Nat} (h : n < 256) : (UInt8.ofNat n).toNat = n := by
  rw [UInt8.toNat_ofNat', Nat.mod_eq_of_lt h]

/-- A byte that carries six bits of a code point, in the range that is waited for. -/
theorem feedByte_some {p : Pending} {k : Nat} (hlow : p.low.toNat ≤ k % 64 + 0x80)
    (hhigh : k % 64 + 0x80 ≤ p.high.toNat) :
    feedByte (some p) (UInt8.ofNat (k % 64 + 0x80)) =
      match p.more with
      | 0 => ([Char.ofNat (p.bits * 64 + k % 64)], none)
      | n + 1 => ([], some ⟨p.bits * 64 + k % 64, n, 0x80, 0xbf⟩) := by
  have hk : (UInt8.ofNat (k % 64 + 0x80)).toNat = k % 64 + 0x80 := toNat_ofNat_of_lt (by omega)
  have hrange : (p.low ≤ UInt8.ofNat (k % 64 + 0x80) && UInt8.ofNat (k % 64 + 0x80) ≤ p.high)
      = true := by
    simp only [UInt8.le_iff_toNat_le, hk, hlow, hhigh, decide_true, Bool.and_self]
  cases hmore : p.more with
  | zero => simp only [feedByte, hrange, if_true, hk, Nat.add_sub_cancel, hmore]
  | succ n => simp only [feedByte, hrange, if_true, hk, Nat.add_sub_cancel, hmore]

/-- The range of a byte behind the second one holds every six bits. -/
theorem feedByte_free {bits more : Nat} (k : Nat) :
    feedByte (some ⟨bits, more, 0x80, 0xbf⟩) (UInt8.ofNat (k % 64 + 0x80)) =
      match more with
      | 0 => ([Char.ofNat (bits * 64 + k % 64)], none)
      | n + 1 => ([], some ⟨bits * 64 + k % 64, n, 0x80, 0xbf⟩) :=
  feedByte_some (Nat.le_add_left 0x80 _) (by change k % 64 + 0x80 ≤ 0xbf; omega)

theorem beginChar_one {n : Nat} (h : n ≤ 0x7f) :
    beginChar (UInt8.ofNat n) = ([Char.ofNat n], none) := by
  have hn : (UInt8.ofNat n).toNat = n := toNat_ofNat_of_lt (by omega)
  have hlt : UInt8.ofNat n < 0x80 := by
    rw [UInt8.lt_iff_toNat_lt, hn]
    exact Nat.lt_succ_of_le h
  rw [beginChar, if_pos hlt, hn]

theorem beginChar_two {n : Nat} (h : 0x7f < n) (h' : n ≤ 0x7ff) :
    beginChar (UInt8.ofNat (n / 64 % 0x20 + 0xc0)) = ([], some ⟨n / 64, 0, 0x80, 0xbf⟩) := by
  have hn : (UInt8.ofNat (n / 64 % 0x20 + 0xc0)).toNat = n / 64 + 0xc0 := by
    rw [toNat_ofNat_of_lt (by omega)]
    omega
  simp only [beginChar, UInt8.lt_iff_toNat_lt, hn, UInt8.reduceToNat]
  rw [if_neg (by omega), if_neg (by omega), if_pos (by omega), Nat.add_sub_cancel]

/-- The first of three bytes. Its range for the second byte keeps out the code points that
two bytes are enough for, and the surrogates. -/
theorem beginChar_three {n : Nat} (h : 0x7ff < n) (h' : n ≤ 0xffff)
    (hvalid : n < 0xd800 ∨ 0xdfff < n) :
    ∃ low high : UInt8, beginChar (UInt8.ofNat (n / 4096 % 0x10 + 0xe0))
        = ([], some ⟨n / 4096, 1, low, high⟩) ∧
      low.toNat ≤ n / 64 % 64 + 0x80 ∧ n / 64 % 64 + 0x80 ≤ high.toNat := by
  have hn : (UInt8.ofNat (n / 4096 % 0x10 + 0xe0)).toNat = n / 4096 + 0xe0 := by
    rw [toNat_ofNat_of_lt (by omega)]
    omega
  simp only [beginChar, UInt8.lt_iff_toNat_lt, ← UInt8.toNat_inj, hn, UInt8.reduceToNat]
  rw [if_neg (by omega), if_neg (by omega), if_neg (by omega)]
  -- Two first bytes have a range of their own for the second byte: the lowest, and the one that
  -- surrogates would have.
  by_cases hfirst : n / 4096 + 0xe0 = 0xe0
  · have hbits : n / 4096 = 0 := by omega
    rw [if_pos hfirst, hbits]
    exact ⟨0xa0, 0xbf, rfl, by simp only [UInt8.reduceToNat]; omega,
      by simp only [UInt8.reduceToNat]; omega⟩
  rw [if_neg hfirst]
  by_cases hsurrogates : n / 4096 + 0xe0 = 0xed
  · have hbits : n / 4096 = 0xd := by omega
    rw [if_pos hsurrogates, hbits]
    exact ⟨0x80, 0x9f, rfl, by simp only [UInt8.reduceToNat]; omega,
      by simp only [UInt8.reduceToNat]; omega⟩
  rw [if_neg hsurrogates, if_pos (by omega), Nat.add_sub_cancel]
  exact ⟨0x80, 0xbf, rfl, by simp only [UInt8.reduceToNat]; omega,
    by simp only [UInt8.reduceToNat]; omega⟩

/-- The first of four bytes. Its range for the second byte keeps out the code points that
three bytes are enough for, and those past the last. -/
theorem beginChar_four {n : Nat} (h : 0xffff < n) (hvalid : n < 0x110000) :
    ∃ low high : UInt8, beginChar (UInt8.ofNat (n / 262144 % 0x08 + 0xf0))
        = ([], some ⟨n / 262144, 2, low, high⟩) ∧
      low.toNat ≤ n / 4096 % 64 + 0x80 ∧ n / 4096 % 64 + 0x80 ≤ high.toNat := by
  have hn : (UInt8.ofNat (n / 262144 % 0x08 + 0xf0)).toNat = n / 262144 + 0xf0 := by
    rw [toNat_ofNat_of_lt (by omega)]
    omega
  simp only [beginChar, UInt8.lt_iff_toNat_lt, ← UInt8.toNat_inj, hn, UInt8.reduceToNat]
  rw [if_neg (by omega), if_neg (by omega), if_neg (by omega), if_neg (by omega),
    if_neg (by omega), if_neg (by omega)]
  -- The lowest and the highest of the first bytes have a range of their own.
  by_cases hfirst : n / 262144 + 0xf0 = 0xf0
  · have hbits : n / 262144 = 0 := by omega
    rw [if_pos hfirst, hbits]
    exact ⟨0x90, 0xbf, rfl, by simp only [UInt8.reduceToNat]; omega,
      by simp only [UInt8.reduceToNat]; omega⟩
  rw [if_neg hfirst]
  by_cases hmiddle : n / 262144 + 0xf0 < 0xf4
  · rw [if_pos hmiddle, Nat.add_sub_cancel]
    exact ⟨0x80, 0xbf, rfl, by simp only [UInt8.reduceToNat]; omega,
      by simp only [UInt8.reduceToNat]; omega⟩
  have hbits : n / 262144 = 4 := by omega
  rw [if_neg hmiddle, if_pos (by omega), hbits]
  exact ⟨0x80, 0x8f, rfl, by simp only [UInt8.reduceToNat]; omega,
    by simp only [UInt8.reduceToNat]; omega⟩

/-! ### Texts -/

theorem decodeAfter_cons (pending : Option Pending) (b : UInt8) (rest : List UInt8) :
    decodeAfter pending (b :: rest) =
      (feedByte pending b).1 ++ decodeAfter (feedByte pending b).2 rest := rfl

/-- **A character is read back** from its bytes, whatever follows them. -/
theorem decodeAfter_utf8EncodeChar (c : Char) (rest : List UInt8) :
    decodeAfter none (String.utf8EncodeChar c ++ rest) = c :: decodeAfter none rest := by
  have hvalid : c.toNat < 0xd800 ∨ 0xdfff < c.toNat ∧ c.toNat < 0x110000 := c.valid
  have hc : c = Char.ofNat c.toNat := (Char.ofNat_toNat c).symm
  -- By the number of bytes. In each case the bits that they carry add up to the code point.
  simp only [String.utf8EncodeChar, Char.toNat_val]
  split
  · next h =>
    rw [List.singleton_append, decodeAfter_cons, feedByte, beginChar_one h, ← hc]
    rfl
  split
  · next h h' =>
    have hsum : c.toNat / 64 * 64 + c.toNat % 64 = c.toNat := by omega
    rw [List.cons_append, decodeAfter_cons, feedByte, beginChar_two (by omega) h',
      List.singleton_append, decodeAfter_cons, feedByte_free]
    simp only [hsum, ← hc, List.nil_append, List.singleton_append]
  split
  · next h h' =>
    obtain ⟨low, high, hbegin, hlow, hhigh⟩ :=
      beginChar_three (n := c.toNat) (by omega) h' (by omega)
    have hsum : (c.toNat / 4096 * 64 + c.toNat / 64 % 64) * 64 + c.toNat % 64 = c.toNat := by
      omega
    rw [List.cons_append, decodeAfter_cons, feedByte, hbegin, List.cons_append,
      decodeAfter_cons, feedByte_some hlow hhigh, List.singleton_append, decodeAfter_cons,
      feedByte_free]
    simp only [hsum, ← hc, List.nil_append, List.singleton_append]
  · next h =>
    obtain ⟨low, high, hbegin, hlow, hhigh⟩ :=
      beginChar_four (n := c.toNat) (by omega) (by omega)
    have hsum : ((c.toNat / 262144 * 64 + c.toNat / 4096 % 64) * 64 + c.toNat / 64 % 64) * 64
        + c.toNat % 64 = c.toNat := by omega
    rw [List.cons_append, decodeAfter_cons, feedByte, hbegin, List.cons_append,
      decodeAfter_cons, feedByte_some hlow hhigh, List.cons_append, decodeAfter_cons,
      feedByte_free, List.singleton_append, decodeAfter_cons, feedByte_free]
    simp only [hsum, ← hc, List.nil_append, List.singleton_append]

theorem decodeAfter_flatMap (s : List Char) :
    decodeAfter none (s.flatMap String.utf8EncodeChar) = s := by
  induction s with
  | nil => rfl
  | cons c s ih => rw [List.flatMap_cons, decodeAfter_utf8EncodeChar, ih]

/-- **Decoding undoes encoding**: the bytes of a text are read as that text. -/
theorem decodeLossy_utf8Bytes (s : String) : decodeLossy (utf8Bytes s) = s := by
  rw [decodeLossy, utf8Bytes, decodeAfter_flatMap, String.ofList_toList]

/-! ### The zero byte -/

/-- Only the zero character has a zero byte in its encoding: all bytes of a character that
takes several have their top bit set. -/
theorem zero_notMem_utf8EncodeChar {c : Char} (h : c ≠ '\x00') :
    (0 : UInt8) ∉ String.utf8EncodeChar c := by
  have hpos : 0 < c.toNat := Nat.pos_of_ne_zero fun h0 => h (Char.toNat_inj.1 h0)
  have hne : ∀ n : Nat, 0 < n → n < 256 → (0 : UInt8) ≠ UInt8.ofNat n := by
    intro n hn hlt h0
    have hn0 := congrArg UInt8.toNat h0
    rw [toNat_ofNat_of_lt hlt] at hn0
    exact absurd hn0 (Nat.ne_of_lt hn)
  simp only [String.utf8EncodeChar, Char.toNat_val]
  split
  · simp only [List.mem_cons, List.not_mem_nil, or_false]
    exact hne _ hpos (by omega)
  split
  · simp only [List.mem_cons, List.not_mem_nil, or_false, not_or]
    exact ⟨hne _ (by omega) (by omega), hne _ (by omega) (by omega)⟩
  split
  · simp only [List.mem_cons, List.not_mem_nil, or_false, not_or]
    exact ⟨hne _ (by omega) (by omega), hne _ (by omega) (by omega), hne _ (by omega) (by omega)⟩
  · simp only [List.mem_cons, List.not_mem_nil, or_false, not_or]
    exact ⟨hne _ (by omega) (by omega), hne _ (by omega) (by omega),
      hne _ (by omega) (by omega), hne _ (by omega) (by omega)⟩

theorem zero_notMem_utf8Bytes {s : String} (h : '\x00' ∉ s.toList) : 0 ∉ utf8Bytes s := by
  intro hmem
  obtain ⟨c, hc, hzero⟩ := List.mem_flatMap.1 hmem
  refine zero_notMem_utf8EncodeChar (c := c) ?_ hzero
  rintro rfl
  exact h hc

end Text

end RequestRouter
