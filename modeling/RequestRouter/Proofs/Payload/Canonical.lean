import RequestRouter.Proofs.Payload.Runs

/-!
# The shortest run of a number

Many runs denote the same number: zeros can be appended to one, and of the longest runs the last
byte may have bits that do not count. Only one of them is written for the number, and it is the
shortest (`RequestRouter.Wire.Denotes.length_limitedGroups_le`). Whether a run is this one can be
told from its last byte alone: it must add to the number, unless no other byte is there, and if it
stands behind as many others as can be, all its bits must count
(`RequestRouter.Wire.Denotes.limitedGroups_eq_iff`).

The two widths are one case, for a word of 32 bits has no more than five groups, and then it makes
no difference that they are written without a limit (`RequestRouter.Wire.groups_eq_limitedGroups`).
Reducing a number to 32 bits leaves four bits of a fifth byte (`RequestRouter.Wire.Denotes.reduce`).
-/

namespace RequestRouter

namespace Wire

variable {last : UInt8 → Nat} {more n : Nat} {run : List UInt8}

/-- A limit that the groups of a number do not reach makes no difference. -/
theorem groups_eq_limitedGroups (h : dropGroups more n < 128) :
    groups n = limitedGroups more n := by
  induction more generalizing n with
  | zero => exact groups_of_lt h
  | succ more ih =>
    by_cases hn : n < 128
    · rw [groups_of_lt hn, limitedGroups_of_lt hn]
    · rw [groups_of_le (Nat.not_lt.1 hn), limitedGroups_of_le (Nat.not_lt.1 hn), ih h]

theorem uintBytes_eq_limitedGroups (word : UInt32) :
    uintBytes word = limitedGroups followedGroups32 word.toNat :=
  groups_eq_limitedGroups (dropGroups_lt_of_uint32 word.toNat_lt)

/-! ### One byte written again -/

/-- A byte that no other follows is written again. -/
theorem limitedGroups_ended {b : UInt8} (hb : b < 128) : limitedGroups more b.toNat = [b] := by
  have hsmall : b.toNat < 128 := hb
  rw [limitedGroups_of_lt hsmall, UInt8.ofNat_toNat]

/-- A byte that others follow is written again if there is anything left to write behind it. -/
theorem limitedGroups_followed {b : UInt8} (hb : ¬b < 128) (hn : n ≠ 0) :
    limitedGroups (more + 1) (b.toNat % 128 + 128 * n) = b :: limitedGroups more n := by
  have hhigh : 128 ≤ b.toNat := Nat.not_lt.1 hb
  have hlt := b.toNat_lt
  have hlow : (b.toNat % 128 + 128 * n) % 128 + 128 = b.toNat := by omega
  have hrest : (b.toNat % 128 + 128 * n) / 128 = n := by omega
  rw [limitedGroups_of_le (by omega), hlow, hrest, UInt8.ofNat_toNat]

/-- Otherwise it is written as the only one. -/
theorem limitedGroups_followed_zero (b : UInt8) :
    limitedGroups (more + 1) (b.toNat % 128 + 128 * 0) = [UInt8.ofNat (b.toNat % 128)] :=
  limitedGroups_of_lt (Nat.mod_lt _ (by decide))

namespace Denotes

theorem ne_nil (h : Denotes last more run n) : run ≠ [] := by
  cases h <;> exact nofun

/-- **No run of a number is shorter** than the one that is written. -/
theorem length_limitedGroups_le (h : Denotes last more run n) :
    (limitedGroups more n).length ≤ run.length := by
  induction h with
  | longest b => exact Nat.le_refl 1
  | ended hb =>
    rw [limitedGroups_ended hb]
  | @followed more b run n hb _ ih =>
    by_cases hn : n = 0
    · rw [hn, limitedGroups_followed_zero]
      exact Nat.succ_le_succ (Nat.zero_le _)
    · rw [limitedGroups_followed hb hn]
      exact Nat.succ_le_succ ih

end Denotes

/-- **The last byte counts in full**: it adds to the number, and where it stands behind as many
others as can be, nothing of it is left out. -/
structure EndsFull (last : UInt8 → Nat) (more : Nat) (run : List UInt8) : Prop where
  nonzero : run.getLast? ≠ some 0
  whole : run.length = more + 1 → ∀ b ∈ run.getLast?, last b = b.toNat

theorem endsFull_cons {b : UInt8} (h : run ≠ []) :
    EndsFull last (more + 1) (b :: run) ↔ EndsFull last more run := by
  have hlast : (b :: run).getLast? = run.getLast? := List.getLast?_cons_of_ne_nil h
  have hlength : (b :: run).length = more + 1 + 1 ↔ run.length = more + 1 := Nat.succ_inj
  constructor
  · rintro ⟨hnonzero, hwhole⟩
    exact ⟨hlast ▸ hnonzero, fun hrun => hlast ▸ hwhole (hlength.2 hrun)⟩
  · rintro ⟨hnonzero, hwhole⟩
    exact ⟨hlast.symm ▸ hnonzero, fun hrun => hlast.symm ▸ hwhole (hlength.1 hrun)⟩

namespace Denotes

theorem ne_zero (h : Denotes last more run n) (hfull : EndsFull last more run) : n ≠ 0 := by
  induction h with
  | longest b =>
    intro hzero
    have hwhole := hfull.whole rfl b rfl
    rw [hzero] at hwhole
    exact hfull.nonzero (congrArg some (UInt8.toNat_inj.1 hwhole.symm))
  | ended =>
    intro hzero
    exact hfull.nonzero (congrArg some (UInt8.toNat_inj.1 hzero))
  | followed _ hrest ih =>
    have hn := ih ((endsFull_cons hrest.ne_nil).1 hfull)
    omega

/-- Of the runs of a number that is not zero, the one is written whose last byte counts in full. -/
theorem limitedGroups_eq_iff_of_ne_zero (h : Denotes last more run n)
    (hlast : ∀ b, last b ≤ b.toNat)
    (hn : n ≠ 0) : limitedGroups more n = run ↔ EndsFull last more run := by
  induction h with
  | longest b =>
    have hle := hlast b
    have hlt := b.toNat_lt
    have hvalue : (UInt8.ofNat (last b)).toNat = last b := Text.toNat_ofNat_of_lt (by omega)
    rw [limitedGroups, List.cons.injEq, and_iff_left rfl, ← UInt8.toNat_inj, hvalue]
    refine ⟨fun heq => ⟨fun hzero => ?_, fun _ c hc => ?_⟩, fun hfull => hfull.whole rfl b rfl⟩
    · obtain rfl : b = 0 := Option.some.inj hzero
      exact hn heq
    · obtain rfl : b = c := Option.some.inj hc
      exact heq
  | @ended more b hb =>
    refine iff_of_true (limitedGroups_ended hb) ⟨fun hzero => ?_, fun hlength => ?_⟩
    · obtain rfl : b = 0 := Option.some.inj hzero
      exact hn rfl
    · simp at hlength
  | @followed more b run n hb hrest ih =>
    rw [endsFull_cons hrest.ne_nil]
    by_cases hzero : n = 0
    · -- Only zeros are behind the byte, and the writer stops in front of them.
      rw [hzero, limitedGroups_followed_zero, List.cons.injEq]
      refine iff_of_false (fun h => hrest.ne_nil h.2.symm) fun hfull => hrest.ne_zero hfull hzero
    · rw [limitedGroups_followed hb hzero, List.cons.injEq, ← ih hzero]
      exact and_iff_right rfl

/-- **Which run is written**: a single byte, or one whose last byte counts in full. -/
theorem limitedGroups_eq_iff (h : Denotes last more run n) (hmore : more ≠ 0)
    (hlast : ∀ b, last b ≤ b.toNat) :
    limitedGroups more n = run ↔ run.length = 1 ∨ EndsFull last more run := by
  by_cases hone : run.length = 1
  · refine iff_of_true ?_ (.inl hone)
    cases h with
    | longest => exact absurd rfl hmore
    | ended hb => exact limitedGroups_ended hb
    | followed _ hrest => exact absurd (List.length_eq_zero_iff.1 (Nat.succ.inj hone)) hrest.ne_nil
  · rw [or_iff_right hone]
    by_cases hzero : n = 0
    · rw [hzero, limitedGroups_of_lt (by decide)]
      exact iff_of_false (fun heq => hone (heq ▸ rfl)) fun hfull => h.ne_zero hfull hzero
    · exact h.limitedGroups_eq_iff_of_ne_zero hlast hzero

/-! ### Numbers reduced to 32 bits -/

/-- Of a byte behind `more` others, a number reduced to four bits more keeps four bits. -/
theorem reduce (h : Denotes (fun b => b.toNat % 128) more run n) :
    Denotes (fun b => b.toNat % 16) more run (n % (16 * 128 ^ more)) := by
  induction h with
  | longest b =>
    have hreduced : b.toNat % 128 % (16 * 128 ^ 0) = b.toNat % 16 := by omega
    rw [hreduced]
    exact .longest b
  | @ended more b hb =>
    have hsmall : b.toNat < 128 := hb
    have hpos : 0 < 128 ^ more := Nat.pow_pos (by decide)
    rw [Nat.mod_eq_of_lt (by rw [pow_succ]; omega)]
    exact .ended hb
  | @followed more b run n hb _ ih =>
    have hreduced : (b.toNat % 128 + 128 * n) % (16 * 128 ^ (more + 1)) =
        b.toNat % 128 + 128 * (n % (16 * 128 ^ more)) := by
      have hbound : 16 * 128 ^ (more + 1) = 128 * (16 * 128 ^ more) := by ring
      have hlow : (b.toNat % 128 + 128 * n) % 128 = b.toNat % 128 := by omega
      have hrest : (b.toNat % 128 + 128 * n) / 128 = n := by omega
      rw [hbound, Nat.mod_mul, hlow, hrest]
    rw [hreduced]
    exact .followed hb ih

end Denotes

theorem endsFull_toNat_iff : EndsFull UInt8.toNat more run ↔ run.getLast? ≠ some 0 :=
  ⟨EndsFull.nonzero, fun h => ⟨h, fun _ _ _ => rfl⟩⟩

theorem endsFull_four_iff :
    EndsFull (fun b => b.toNat % 16) 4 run ↔
      run.getLast? ≠ some 0 ∧ (run.length = 5 → ∀ b ∈ run.getLast?, b ≤ 15) := by
  have hfour : ∀ b : UInt8, b.toNat % 16 = b.toNat ↔ b ≤ 15 := by
    intro b
    have hle : b ≤ 15 ↔ b.toNat ≤ 15 := UInt8.le_iff_toNat_le
    rw [hle]
    omega
  simp only [← hfour]
  constructor
  · rintro ⟨hnonzero, hwhole⟩
    exact ⟨hnonzero, hwhole⟩
  · rintro ⟨hnonzero, hwhole⟩
    exact ⟨hnonzero, hwhole⟩

end Wire

namespace Read

open Wire

variable {last : UInt8 → Nat} {read : Nat → Read Nat} {more n : Nat} {bytes : List UInt8}

/-- Bytes that are read completely are a run of the number that is read. -/
theorem ReadsGroups.denotes (h : ReadsGroups last read)
    (hread : (read more).startAt (Parcel.mk bytes).reader = (.ok n, ⟨bytes.length, []⟩)) :
    Denotes last more bytes n := by
  rcases exists_denotes_or_isCutShort last more bytes with ⟨run, m, hdenotes, later, rfl⟩ | hcut
  · rw [Parcel.reader, h.takes hdenotes] at hread
    obtain ⟨rfl, rfl⟩ : m = n ∧ later = [] := by simpa using hread
    rwa [List.append_nil]
  · rw [h.startAt_of_isCutShort hcut] at hread
    cases hread

theorem exists_denotes_of_startAt_ulong {word : UInt64}
    (h : ulong.startAt (Parcel.mk bytes).reader = (.ok word, ⟨bytes.length, []⟩)) :
    ∃ n, Denotes UInt8.toNat 8 bytes n ∧ ulongBytes word = Wire.limitedGroups 8 n := by
  rw [ulong_eq] at h
  obtain ⟨n, hread, rfl⟩ := startAt_bind_pure_eq_ok_iff.1 h
  have hdenotes : Denotes UInt8.toNat 8 bytes n := readsGroups_limitedGroups.denotes hread
  have hlt : n < 256 * 128 ^ 8 := hdenotes.lt_bound UInt8.toNat_lt (by decide)
  refine ⟨n, hdenotes, ?_⟩
  rw [ulongBytes, UInt64.toNat_ofNat_of_lt' hlt, followedGroups64]

theorem exists_denotes_of_startAt_uint {word : UInt32}
    (h : uint.startAt (Parcel.mk bytes).reader = (.ok word, ⟨bytes.length, []⟩)) :
    ∃ n, Denotes (fun b => b.toNat % 16) 4 bytes n ∧
      uintBytes word = Wire.limitedGroups 4 n := by
  rw [uint_eq] at h
  obtain ⟨n, hread, rfl⟩ := startAt_bind_pure_eq_ok_iff.1 h
  have hdenotes : Denotes (fun b => b.toNat % 128) 4 bytes n := readsGroups_groups.denotes hread
  have hbound : 2 ^ 32 = 16 * 128 ^ 4 := rfl
  refine ⟨n % (16 * 128 ^ 4), hdenotes.reduce, ?_⟩
  rw [uintBytes_eq_limitedGroups, UInt32.toNat_ofNat', followedGroups32, hbound]

/-- **Written integers are the shortest**, and can be told from all others by their last byte. For
bytes that are read completely as an unsigned integer of 64 bits, what is written for the integer is
no longer than they are; and it is these bytes exactly if there is only one of them or the last is
not zero. With 32 bits the same holds, but the last of five bytes must be at most 15, too. -/
theorem written_shortest :
    (∀ (bytes : List UInt8) (word : UInt64),
      ulong.startAt (Parcel.mk bytes).reader = (.ok word, ⟨bytes.length, []⟩) →
        (ulongBytes word).length ≤ bytes.length ∧
        (ulongBytes word = bytes ↔ bytes.length = 1 ∨ bytes.getLast? ≠ some 0)) ∧
      ∀ (bytes : List UInt8) (word : UInt32),
        uint.startAt (Parcel.mk bytes).reader = (.ok word, ⟨bytes.length, []⟩) →
          (uintBytes word).length ≤ bytes.length ∧
          (uintBytes word = bytes ↔ bytes.length = 1 ∨
            bytes.getLast? ≠ some 0 ∧ (bytes.length = 5 → ∀ b ∈ bytes.getLast?, b ≤ 15)) := by
  constructor
  · intro bytes word h
    obtain ⟨n, hdenotes, hwritten⟩ := exists_denotes_of_startAt_ulong h
    rw [hwritten, hdenotes.limitedGroups_eq_iff (by decide) fun b => Nat.le_refl _,
      endsFull_toNat_iff]
    exact ⟨hdenotes.length_limitedGroups_le, Iff.rfl⟩
  · intro bytes word h
    obtain ⟨n, hdenotes, hwritten⟩ := exists_denotes_of_startAt_uint h
    rw [hwritten, hdenotes.limitedGroups_eq_iff (by decide) fun b => Nat.mod_le _ _,
      endsFull_four_iff]
    exact ⟨hdenotes.length_limitedGroups_le, Iff.rfl⟩

/-- The greatest word of 32 bits, once as it is written and once with bits in its last byte that do
not count; and nine bytes for the number one, of which the last is zero. -/
theorem written_shortest_padded :
    let written : List UInt8 := [255, 255, 255, 255, 15]
    let loose : List UInt8 := [255, 255, 255, 255, 31]
    let padded : List UInt8 := [129, 128, 128, 128, 128, 128, 128, 128, 0]
    uint.startAt (Parcel.mk written).reader = (.ok 4294967295, ⟨5, []⟩) ∧
      uintBytes 4294967295 = written ∧
      uint.startAt (Parcel.mk loose).reader = (.ok 4294967295, ⟨5, []⟩) ∧
      uintBytes 4294967295 ≠ loose ∧
      ulong.startAt (Parcel.mk padded).reader = (.ok 1, ⟨9, []⟩) ∧
      (ulongBytes 1).length ≤ 9 ∧ ulongBytes 1 ≠ padded := by
  intro written loose padded
  have hwritten : uint.startAt (Parcel.mk written).reader = (.ok 4294967295, ⟨5, []⟩) := by
    rw [uint_eq]
    rfl
  have hloose : uint.startAt (Parcel.mk loose).reader = (.ok 4294967295, ⟨5, []⟩) := by
    rw [uint_eq]
    rfl
  have hpadded : ulong.startAt (Parcel.mk padded).reader = (.ok 1, ⟨9, []⟩) := by
    rw [ulong_eq]
    rfl
  obtain ⟨hlong, hshort⟩ := written_shortest
  obtain ⟨hlength, hiff⟩ := hlong padded 1 hpadded
  -- The last of five bytes is small enough in one list, and too great in the other.
  have hsmall : ∀ b ∈ written.getLast?, b ≤ 15 := by
    intro b hb
    cases hb
    exact UInt8.le_refl 15
  have hgreat : ¬∀ b ∈ loose.getLast?, b ≤ 15 := fun h => absurd (h 31 rfl) (by decide)
  refine ⟨hwritten, ?_, hloose, fun heq => ?_, hpadded, hlength,
    fun heq => absurd (hiff.1 heq) (by decide)⟩
  · exact (hshort written _ hwritten).2.2 (.inr ⟨by decide, fun _ => hsmall⟩)
  · rcases (hshort loose _ hloose).2.1 heq with hone | ⟨-, hfive⟩
    · cases hone
    · exact hgreat (hfive rfl)

end Read

end RequestRouter
