import Mathlib.Algebra.BigOperators.Fin
import Mathlib.Tactic.Ring
import RequestRouter.Proofs.Payload.Bounds

/-!
# The runs of integers

Whatever bytes lie in front of the reader, an integer takes a *run* of them: the shortest part that
ends with a byte below 128 or has the longest length (`RequestRouter.Wire.IsRun`). The number is a
sum over the run, of the lowest seven bits of each byte times a power of 128. The two widths differ
in the longest length and in the byte that ends a run of that length: it counts with seven bits as
the others do, or with all eight. So nothing is lost with 64 bits, for the sum stays below the bound
of the word, while with 32 bits the sum is reduced to the word.

`RequestRouter.Wire.Denotes` follows the run byte by byte, and says which number it denotes: this is
what the loops of the reader put together (`RequestRouter.Read.ReadsGroups.takes`), what decides how
long the run is (`RequestRouter.Wire.Denotes.isRun`), and what the sum comes from
(`RequestRouter.Wire.Denotes.eq_sum`). Main statement: `RequestRouter.Read.startAt_integers`.
-/

namespace RequestRouter

namespace Wire

/-! ### Runs -/

/-- An integer may end behind the bytes: the last of them is below 128, or there are as many as
there may be. -/
def IsComplete (longest : Nat) (bytes : List UInt8) : Prop :=
  (∃ b ∈ bytes.getLast?, b < 128) ∨ bytes.length = longest

/-- **The run of an integer**: the shortest part in front of the data that an integer may end
behind. -/
structure IsRun (longest : Nat) (data run : List UInt8) : Prop where
  front : run <+: data
  complete : IsComplete longest run
  shortest : ∀ other, other <+: data → IsComplete longest other → run.length ≤ other.length

/-- The run denotes the number, with at most `more` bytes that another one follows. Of a byte behind
so many others counts what `last` makes of it. -/
inductive Denotes (last : UInt8 → Nat) : (more : Nat) → (run : List UInt8) → (n : Nat) → Prop where
  /-- A byte that no other may follow. -/
  | longest (b : UInt8) : Denotes last 0 [b] (last b)
  /-- A byte that no other follows. -/
  | ended {more : Nat} {b : UInt8} : b < 128 → Denotes last (more + 1) [b] b.toNat
  /-- A byte that others follow. -/
  | followed {more : Nat} {b : UInt8} {run : List UInt8} {n : Nat} : ¬b < 128 →
      Denotes last more run n → Denotes last (more + 1) (b :: run) (b.toNat % 128 + 128 * n)

variable {last : UInt8 → Nat} {more n : Nat} {data run other : List UInt8}

theorem not_isComplete_nil : ¬IsComplete (more + 1) [] := by
  simp [IsComplete]

theorem isComplete_cons {b : UInt8} (hb : ¬b < 128) :
    IsComplete (more + 2) (b :: run) ↔ IsComplete (more + 1) run := by
  cases run with
  | nil => simp [IsComplete, hb]
  | cons c run => simp [IsComplete]

namespace Denotes

theorem isComplete (h : Denotes last more run n) : IsComplete (more + 1) run := by
  induction h with
  | longest b => exact .inr rfl
  | ended hb => exact .inl ⟨_, rfl, hb⟩
  | followed hb _ ih => exact (isComplete_cons hb).2 ih

/-- No integer may end within the run. -/
theorem length_le (h : Denotes last more run n) (hother : other <+: run)
    (hcomplete : IsComplete (more + 1) other) : run.length ≤ other.length := by
  induction h generalizing other with
  | longest b | ended =>
    cases other with
    | nil => exact absurd hcomplete not_isComplete_nil
    | cons c other => exact Nat.succ_le_succ (Nat.zero_le _)
  | followed hb _ ih =>
    cases other with
    | nil => exact absurd hcomplete not_isComplete_nil
    | cons c other =>
      obtain ⟨rfl, hrest⟩ := List.cons_prefix_cons.1 hother
      exact Nat.succ_le_succ (ih hrest ((isComplete_cons hb).1 hcomplete))

/-- What denotes a number in front of data is their run. -/
theorem isRun (h : Denotes last more run n) (hfront : run <+: data) :
    IsRun (more + 1) data run where
  front := hfront
  complete := h.isComplete
  shortest := by
    intro other hother hcomplete
    rcases List.prefix_or_prefix_of_prefix hother hfront with hle | hle
    · exact h.length_le hle hcomplete
    · exact hle.length_le

end Denotes

/-- Data have only one run. -/
theorem IsRun.unique {longest : Nat} (h : IsRun longest data run) (h' : IsRun longest data other) :
    run = other := by
  have hlength : run.length = other.length :=
    Nat.le_antisymm (h.shortest other h'.front h'.complete) (h'.shortest run h.front h.complete)
  rw [List.prefix_iff_eq_take.1 h.front, List.prefix_iff_eq_take.1 h'.front, hlength]

/-- The data are without a run: they are too short, and each byte of them asks for another. -/
def IsCutShort (more : Nat) (data : List UInt8) : Prop :=
  data.length ≤ more ∧ ∀ b ∈ data, ¬b < 128

/-- **Data start with the run of a number or are cut short.** -/
theorem exists_denotes_or_isCutShort (last : UInt8 → Nat) (more : Nat) (data : List UInt8) :
    (∃ run n, Denotes last more run n ∧ run <+: data) ∨ IsCutShort more data := by
  induction data generalizing more with
  | nil => exact .inr ⟨Nat.zero_le _, nofun⟩
  | cons b data ih =>
    cases more with
    | zero => exact .inl ⟨[b], last b, .longest b, List.prefix_append [b] data⟩
    | succ more =>
      by_cases hb : b < 128
      · exact .inl ⟨[b], b.toNat, .ended hb, List.prefix_append [b] data⟩
      · rcases ih more with ⟨run, n, hdenotes, hfront⟩ | ⟨hlength, hall⟩
        · exact .inl ⟨b :: run, _, .followed hb hdenotes, List.cons_prefix_cons.2 ⟨rfl, hfront⟩⟩
        · exact .inr ⟨Nat.succ_le_succ hlength, List.forall_mem_cons.2 ⟨hb, hall⟩⟩

theorem IsCutShort.not_isRun (h : IsCutShort more data) : ¬IsRun (more + 1) data run := by
  obtain ⟨hlength, hall⟩ := h
  rintro ⟨hfront, ⟨b, hb, hlt⟩ | heq, -⟩
  · exact hall b (hfront.mem (List.mem_of_getLast? hb)) hlt
  · have := hfront.length_le
    omega

/-- A run denotes a number. -/
theorem IsRun.exists_denotes (h : IsRun (more + 1) data run) (last : UInt8 → Nat) :
    ∃ n, Denotes last more run n := by
  rcases exists_denotes_or_isCutShort last more data with ⟨other, n, hdenotes, hfront⟩ | hcut
  · obtain rfl := h.unique (hdenotes.isRun hfront)
    exact ⟨n, hdenotes⟩
  · exact absurd h hcut.not_isRun

/-! ### Sums -/

/-- The sum over a run starts with its first byte; all others count 128 times as much as they do in
the run behind it. -/
theorem sum_cons (weight : Nat → UInt8 → Nat) (b : UInt8) (run : List UInt8) :
    ∑ i : Fin (b :: run).length, weight i.val (b :: run)[i] * 128 ^ i.val =
      weight 0 b + 128 * ∑ i : Fin run.length, weight (i.val + 1) run[i] * 128 ^ i.val := by
  change ∑ i : Fin (run.length + 1), weight i.val (b :: run)[i.val] * 128 ^ i.val = _
  rw [Fin.sum_univ_succ, Finset.mul_sum]
  congr 1
  · simp
  · refine Finset.sum_congr rfl fun i _ => ?_
    simp only [Fin.val_succ, List.getElem_cons_succ, pow_succ, Fin.getElem_fin]
    ring

namespace Denotes

/-- **The number that a run denotes** is the sum of what its bytes count for, each times the power
of 128 of its place. -/
theorem eq_sum (h : Denotes last more run n) :
    n = ∑ i : Fin run.length,
      (if i.val < more then run[i].toNat % 128 else last run[i]) * 128 ^ i.val := by
  induction h with
  | longest b => simp
  | @ended more b hb =>
    have hsmall : b.toNat < 128 := hb
    simp [Nat.mod_eq_of_lt hsmall]
  | @followed more b run n hb _ ih =>
    rw [sum_cons (fun i b => if i < more + 1 then b.toNat % 128 else last b), ih]
    simp

/-- Behind `more` bytes of seven bits, the last byte ends the number. -/
theorem lt_bound {bound : Nat} (h : Denotes last more run n) (hlast : ∀ b, last b < bound)
    (hbound : 128 ≤ bound) : n < bound * 128 ^ more := by
  induction h with
  | longest b => simpa using hlast b
  | @ended more b hb =>
    have hsmall : b.toNat < 128 := hb
    have hpos : 0 < 128 ^ (more + 1) := Nat.pow_pos (by decide)
    calc b.toNat < bound := Nat.lt_of_lt_of_le hsmall hbound
      _ ≤ bound * 128 ^ (more + 1) := Nat.le_mul_of_pos_right bound hpos
  | @followed more b run n _ _ ih =>
    have hlow : b.toNat % 128 < 128 := Nat.mod_lt _ (by decide)
    calc b.toNat % 128 + 128 * n < 128 * (n + 1) := by omega
      _ ≤ 128 * (bound * 128 ^ more) := Nat.mul_le_mul_left 128 ih
      _ = bound * 128 ^ (more + 1) := by ring

end Denotes

end Wire

namespace Read

open Wire

variable {last : UInt8 → Nat} {read : Nat → Read Nat} {more n : Nat} {data run : List UInt8}

/-! ### Reading runs -/

/-- The reads go through groups of seven bits, of which at most so many are followed by another; of
a byte behind so many others counts what `last` makes of it. -/
structure ReadsGroups (last : UInt8 → Nat) (read : Nat → Read Nat) : Prop where
  zero : read 0 = do return last (← byte)
  succ : ∀ more, read (more + 1) = groupThen (read more)

theorem readsGroups_groups : ReadsGroups (fun b => b.toNat % 128) groups := ⟨rfl, fun _ => rfl⟩

theorem readsGroups_limitedGroups : ReadsGroups UInt8.toNat limitedGroups := ⟨rfl, fun _ => rfl⟩

namespace ReadsGroups

/-- **A run is taken for the number that it denotes.** -/
theorem takes (h : ReadsGroups last read) (hdenotes : Denotes last more run n) :
    (read more).Takes run n := by
  induction hdenotes with
  | longest b =>
    rw [h.zero]
    exact (takes_byte b).bind_pure last
  | ended hb =>
    rw [h.succ]
    exact takes_groupThen_of_lt hb _
  | followed hb _ ih =>
    rw [h.succ]
    exact takes_groupThen_of_not_lt hb ih

/-- **Data that are cut short** are read to their end, which is then reported. -/
theorem startAt_of_isCutShort (h : ReadsGroups last read) {place : ParcelReader}
    (hcut : IsCutShort more place.rest) :
    (read more).startAt place =
      (.error (.unexpectedEnd place.size), place.skip place.rest.length) := by
  obtain ⟨index, rest⟩ := place
  induction rest generalizing more index with
  | nil =>
    cases more with
    | zero =>
      rw [h.zero]
      rfl
    | succ more =>
      rw [h.succ]
      rfl
  | cons b rest ih =>
    obtain ⟨hlength, hall⟩ := hcut
    obtain ⟨hb, hrest⟩ := List.forall_mem_cons.1 hall
    cases more with
    | zero => exact absurd hlength (Nat.not_succ_le_zero _)
    | succ more =>
      have hbehind := ih (index + 1) ⟨Nat.le_of_succ_le_succ hlength, hrest⟩
      have hbyte : byte.startAt ⟨index, b :: rest⟩ = (.ok b, ⟨index + 1, rest⟩) := rfl
      rw [h.succ, groupThen, startAt_bind, hbyte]
      simp only [if_neg hb, startAt_bind, hbehind]
      simp only [ParcelReader.size, ParcelReader.skip, List.length_cons, List.drop_succ_cons,
        Nat.add_assoc, Nat.add_comm 1]

/-- **A run is read as its sum**, wherever the data come from. -/
theorem startAt_of_isRun (h : ReadsGroups last read) {start : Nat}
    (hrun : IsRun (more + 1) (data.drop start) run) :
    (read more).startAt (.at data start) =
      (.ok (∑ i : Fin run.length,
          (if i.val < more then run[i].toNat % 128 else last run[i]) * 128 ^ i.val),
        .at data (start + run.length)) := by
  obtain ⟨n, hdenotes⟩ := hrun.exists_denotes last
  rw [← hdenotes.eq_sum]
  exact (h.takes hdenotes).startAt_at hrun.front

/-- **The end of the data is reported exactly if they have no run**, and nothing else is. -/
theorem startAt_eq_error_iff (h : ReadsGroups last read) {place : ParcelReader} :
    (∃ size behind, (read more).startAt place = (.error (.unexpectedEnd size), behind)) ↔
      ¬∃ run, IsRun (more + 1) place.rest run := by
  constructor
  · rintro ⟨size, behind, hread⟩ ⟨run, hrun⟩
    obtain ⟨n, hdenotes⟩ := hrun.exists_denotes last
    obtain ⟨later, hlater⟩ := hrun.front
    have hplace : place = ⟨place.index, run ++ later⟩ := by rw [hlater]
    rw [hplace, h.takes hdenotes] at hread
    cases hread
  · intro hnone
    rcases exists_denotes_or_isCutShort last more place.rest with ⟨run, n, hdenotes, hfront⟩ | hcut
    · exact absurd ⟨run, hdenotes.isRun hfront⟩ hnone
    · exact ⟨_, _, h.startAt_of_isCutShort hcut⟩

end ReadsGroups

/-! ### Words -/

variable {α β : Type}

/-- A read that ends with `return` does what its first part does. -/
theorem startAt_bind_pure (part : Read α) (f : α → β) (place : ParcelReader) :
    (part >>= fun a => Pure.pure (f a)).startAt place =
      ((part.startAt place).1.map f, (part.startAt place).2) := by
  rw [startAt_bind]
  rcases part.startAt place with ⟨_ | _, _⟩ <;> rfl

theorem startAt_bind_pure_eq_ok_iff {part : Read α} {f : α → β} {place behind : ParcelReader}
    {b : β} :
    (part >>= fun a => Pure.pure (f a)).startAt place = (.ok b, behind) ↔
      ∃ a, part.startAt place = (.ok a, behind) ∧ f a = b := by
  rw [startAt_bind_pure]
  rcases part.startAt place with ⟨_ | _, _⟩ <;> simp [Except.map, and_comm]

theorem startAt_bind_pure_eq_error_iff {part : Read α} {f : α → β} {place behind : ParcelReader}
    {e : ParcelError} :
    (part >>= fun a => Pure.pure (f a)).startAt place = (.error e, behind) ↔
      part.startAt place = (.error e, behind) := by
  rw [startAt_bind_pure]
  rcases part.startAt place with ⟨_ | _, _⟩ <;> simp [Except.map]

end Read

/-- The sum of the lowest seven bits of each byte, each times the power of 128 of its place. -/
def Wire.groupSum (run : List UInt8) : Nat :=
  ∑ i : Fin run.length, run[i].toNat % 128 * 128 ^ i.val

/-- The same, but a byte behind eight others counts with all its bits. -/
def Wire.limitedSum (run : List UInt8) : Nat :=
  ∑ i : Fin run.length, (if i.val < 8 then run[i].toNat % 128 else run[i].toNat) * 128 ^ i.val

/-- The integer that a natural number stands for: half of an even one, and for an odd one, half of
the next with the other sign. -/
def Wire.Unfolds (n : Nat) (i : Int) : Prop :=
  (n % 2 = 0 → i = (n / 2 : Nat)) ∧ (n % 2 = 1 → i = -((n + 1) / 2 : Nat))

theorem Wire.unfolds_unzigzag (n : Nat) : Unfolds n (unzigzag n) := by
  rw [Unfolds, unzigzag]
  split <;> omega

/-- A number below twice the bound unfolds to one within the bound, on both sides of zero. -/
theorem Wire.unzigzag_bounds {n : Nat} {bound : Int} (h : (n : Int) < 2 * bound) :
    -bound ≤ unzigzag n ∧ unzigzag n < bound := by
  rw [unzigzag]
  split <;> omega

namespace Read

open Wire

variable {data run : List UInt8} {start : Nat}

theorem exists_startAt_uint (h : IsRun 5 (data.drop start) run) : ∃ word : UInt32,
    word.toNat = groupSum run % 2 ^ 32 ∧
      uint.startAt (.at data start) = (.ok word, .at data (start + run.length)) := by
  have hread := readsGroups_groups.startAt_of_isRun h
  simp only [ite_self] at hread
  refine ⟨UInt32.ofNat (groupSum run), UInt32.toNat_ofNat', ?_⟩
  rw [uint_eq, startAt_bind_pure, followedGroups32, hread]
  rfl

theorem limitedSum_lt (h : IsRun 9 data run) : limitedSum run < 2 ^ 64 := by
  obtain ⟨n, hdenotes⟩ := h.exists_denotes UInt8.toNat
  have hlt := hdenotes.lt_bound UInt8.toNat_lt (by decide)
  rw [hdenotes.eq_sum] at hlt
  exact hlt

theorem exists_startAt_ulong (h : IsRun 9 (data.drop start) run) : ∃ word : UInt64,
    word.toNat = limitedSum run ∧
      ulong.startAt (.at data start) = (.ok word, .at data (start + run.length)) := by
  have hread := readsGroups_limitedGroups.startAt_of_isRun h
  refine ⟨UInt64.ofNat (limitedSum run), UInt64.toNat_ofNat_of_lt' (limitedSum_lt h), ?_⟩
  rw [ulong_eq, startAt_bind_pure, followedGroups64, hread]
  rfl

theorem exists_startAt_int {place behind : ParcelReader} {word : UInt32}
    (h : uint.startAt place = (.ok word, behind)) :
    ∃ i : Int32, Unfolds word.toNat i.toInt ∧ int.startAt place = (.ok i, behind) := by
  have hword := word.toNat_lt
  have hsmall : -2 ^ 31 ≤ unzigzag word.toNat ∧ unzigzag word.toNat < 2 ^ 31 :=
    unzigzag_bounds (by omega)
  refine ⟨Int32.ofInt (unzigzag word.toNat), ?_, ?_⟩
  · rw [Int32.toInt_ofInt_of_le hsmall.1 hsmall.2]
    exact unfolds_unzigzag word.toNat
  · rw [int_eq, startAt_bind_pure, h]
    rfl

theorem exists_startAt_long {place behind : ParcelReader} {word : UInt64}
    (h : ulong.startAt place = (.ok word, behind)) :
    ∃ i : Int64, Unfolds word.toNat i.toInt ∧ long.startAt place = (.ok i, behind) := by
  have hword := word.toNat_lt
  have hsmall : -2 ^ 63 ≤ unzigzag word.toNat ∧ unzigzag word.toNat < 2 ^ 63 :=
    unzigzag_bounds (by omega)
  refine ⟨Int64.ofInt (unzigzag word.toNat), ?_, ?_⟩
  · rw [Int64.toInt_ofInt_of_le hsmall.1 hsmall.2]
    exact unfolds_unzigzag word.toNat
  · rw [long_eq, startAt_bind_pure, h]
    rfl

/-- **What integers are read from any bytes.** At every place in any data, an unsigned integer takes
the run that lies there, of at most five bytes or nine, and is its sum – reduced to the word with 32
bits, and below the bound of the word with 64. If the data end in front of the end of a run, and
only then, this is reported. A signed integer takes the same bytes and unfolds the number that an
unsigned one has, whichever it is; where there is none, it reports the same error. -/
theorem startAt_integers (data : List UInt8) (start : Nat) :
    (∀ run, IsRun 5 (data.drop start) run → ∃ word : UInt32,
        word.toNat = groupSum run % 2 ^ 32 ∧
          uint.startAt (.at data start) = (.ok word, .at data (start + run.length))) ∧
      (∀ run, IsRun 9 (data.drop start) run → limitedSum run < 2 ^ 64 ∧ ∃ word : UInt64,
        word.toNat = limitedSum run ∧
          ulong.startAt (.at data start) = (.ok word, .at data (start + run.length))) ∧
      ((∃ size behind, uint.startAt (.at data start) = (.error (.unexpectedEnd size), behind)) ↔
        ¬∃ run, IsRun 5 (data.drop start) run) ∧
      ((∃ size behind, ulong.startAt (.at data start) = (.error (.unexpectedEnd size), behind)) ↔
        ¬∃ run, IsRun 9 (data.drop start) run) ∧
      (∀ word behind, uint.startAt (.at data start) = (.ok word, behind) →
        ∃ i : Int32, Unfolds word.toNat i.toInt ∧ int.startAt (.at data start) = (.ok i, behind)) ∧
      (∀ word behind, ulong.startAt (.at data start) = (.ok word, behind) →
        ∃ i : Int64, Unfolds word.toNat i.toInt ∧ long.startAt (.at data start) = (.ok i, behind)) ∧
      (∀ e behind, int.startAt (.at data start) = (.error e, behind) ↔
        uint.startAt (.at data start) = (.error e, behind)) ∧
      ∀ e behind, long.startAt (.at data start) = (.error e, behind) ↔
        ulong.startAt (.at data start) = (.error e, behind) := by
  refine ⟨fun _ => exists_startAt_uint,
    fun _ hrun => ⟨limitedSum_lt hrun, exists_startAt_ulong hrun⟩,
    ?_, ?_, fun _ _ => exists_startAt_int, fun _ _ => exists_startAt_long,
    fun _ _ => startAt_bind_pure_eq_error_iff, fun _ _ => startAt_bind_pure_eq_error_iff⟩
  · simp only [uint_eq, startAt_bind_pure_eq_error_iff]
    exact readsGroups_groups.startAt_eq_error_iff
  · simp only [ulong_eq, startAt_bind_pure_eq_error_iff]
    exact readsGroups_limitedGroups.startAt_eq_error_iff

/-- Nothing but bytes with the top bit set: the runs have the longest lengths. With 32 bits, three
bits of the sum are dropped; with 64, the last byte counts with all its bits. Both words are odd,
and stand for the least integers. -/
theorem startAt_integers_longest :
    let data : List UInt8 := List.replicate 9 255
    IsRun 5 data (List.replicate 5 255) ∧ groupSum (List.replicate 5 255) = 34359738367 ∧
      uint.startAt (.at data 0) = (.ok 4294967295, .at data 5) ∧
      int.startAt (.at data 0) = (.ok (-2147483648), .at data 5) ∧
      IsRun 9 data data ∧ limitedSum data = 18446744073709551615 ∧
      ulong.startAt (.at data 0) = (.ok 18446744073709551615, .at data 9) ∧
      long.startAt (.at data 0) = (.ok (-9223372036854775808), .at data 9) := by
  intro data
  have hb : ¬(255 : UInt8) < 128 := by decide
  -- Where all top bits are set, a run goes on to its longest length.
  have hdenotes : ∀ more, ∃ n, Denotes UInt8.toNat more (List.replicate (more + 1) 255) n := by
    intro more
    induction more with
    | zero => exact ⟨_, .longest 255⟩
    | succ more ih =>
      obtain ⟨n, hn⟩ := ih
      exact ⟨_, .followed hb hn⟩
  obtain ⟨_, hfive⟩ := hdenotes 4
  obtain ⟨_, hnine⟩ := hdenotes 8
  have hrun : IsRun 5 data (List.replicate 5 255) := hfive.isRun ⟨List.replicate 4 255, rfl⟩
  have hall : IsRun 9 data data := hnine.isRun (List.prefix_refl data)
  obtain ⟨huint, hulong, -, -, hint, hlong, -⟩ := startAt_integers data 0
  have hsum : groupSum (List.replicate 5 255) = 34359738367 := by decide +kernel
  have hlimited : limitedSum data = 18446744073709551615 := by decide +kernel
  obtain ⟨word, hword, hread⟩ := huint _ hrun
  obtain rfl : word = 4294967295 := UInt32.toNat_inj.1 (hword.trans (by rw [hsum]; rfl))
  obtain ⟨-, wide, hwide, hreadWide⟩ := hulong _ hall
  obtain rfl : wide = 18446744073709551615 := UInt64.toNat_inj.1 (hwide.trans hlimited)
  obtain ⟨i, ⟨-, hi⟩, hreadInt⟩ := hint _ _ hread
  obtain rfl : i = -2147483648 := Int32.toInt_inj.1 (hi rfl)
  obtain ⟨j, ⟨-, hj⟩, hreadLong⟩ := hlong _ _ hreadWide
  obtain rfl : j = -9223372036854775808 := Int64.toInt_inj.1 (hj rfl)
  exact ⟨hrun, hsum, hread, hreadInt, hall, hlimited, hreadWide, hreadLong⟩

end Read

end RequestRouter
