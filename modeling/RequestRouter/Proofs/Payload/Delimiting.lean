import RequestRouter.Boarding.DetailRouter
import RequestRouter.Proofs.Payload.Bounds
import RequestRouter.Proofs.Payload.Carrying

/-!
# Where a value ends

A parcel has nothing between its values, so the bytes of a value have to tell by themselves where
they end – not only those that were written for a value, but all that are read as one, for integers
are read leniently and texts need not be texts. The reader may look neither too far, or bytes behind
the value would matter, nor too little, or a part of the bytes would do.

`RequestRouter.Read.Spans` says both of a read and its bytes: the read takes them, whatever follows
them, and fails where they are cut short. `RequestRouter.Read.SelfDelimiting` says that this holds
of whatever the read took when it gave a value. It is closed under doing one read after the other,
for a cut either falls within the bytes of the first or leaves these whole; so only single bytes, a
number of bytes and texts have to be looked at. Main statement:
`RequestRouter.Read.startAt_value_delimited`.

A parcel that holds a value holds none if bytes are added to it or taken away
(`RequestRouter.Codec.ofParcel_append_eq_error`,
`RequestRouter.Codec.exists_ofParcel_take_eq_error`).
-/

namespace RequestRouter

variable {α β : Type}

namespace Read

theorem startAt_of (step : ParcelReader → Except ParcelError α × ParcelReader)
    (place : ParcelReader) : (of step).startAt place = step place := rfl

/-- **The read spans the bytes**: it takes them for `a`, whatever follows them, and fails if only
some of them are there. -/
structure Spans (read : Read α) (bytes : List UInt8) (a : α) : Prop where
  takes : read.Takes bytes a
  fails : ∀ index, ∀ count < bytes.length,
    ∃ e, (read.startAt ⟨index, bytes.take count⟩).1 = .error e

theorem startAt_bind_of_error {read : Read α} {place : ParcelReader} {e : ParcelError}
    (h : (read.startAt place).1 = .error e) (next : α → Read β) :
    ((read >>= next).startAt place).1 = .error e := by
  rw [startAt_bind]
  rcases hread : read.startAt place with ⟨result, behind⟩
  rw [hread] at h
  subst h
  rfl

namespace Spans

theorem pure (a : α) : Spans (Pure.pure a) [] a := ⟨Takes.pure a, fun _ _ h => nomatch h⟩

theorem bind {read : Read α} {next : α → Read β} {front back : List UInt8} {a : α} {b : β}
    (hread : read.Spans front a) (hnext : (next a).Spans back b) :
    (read >>= next).Spans (front ++ back) b where
  takes := hread.takes.bind hnext.takes
  fails := by
    intro index count hcount
    rw [List.length_append] at hcount
    rcases Nat.lt_or_ge count front.length with hlt | hge
    · obtain ⟨e, he⟩ := hread.fails index count hlt
      rw [List.take_append_of_le_length (Nat.le_of_lt hlt)]
      exact ⟨e, startAt_bind_of_error he next⟩
    · obtain ⟨e, he⟩ := hnext.fails (index + front.length) (count - front.length) (by omega)
      rw [List.take_append, List.take_of_length_le hge, startAt_bind, hread.takes]
      exact ⟨e, he⟩

end Spans

/-- **The read is self-delimiting**: where it gives a value, it took bytes that it spans. -/
def SelfDelimiting (read : Read α) : Prop :=
  ∀ ⦃place behind : ParcelReader⦄ ⦃a : α⦄, read.startAt place = (.ok a, behind) →
    ∃ bytes, read.Spans bytes a ∧ place.rest = bytes ++ behind.rest ∧
      behind.index = place.index + bytes.length

namespace SelfDelimiting

theorem pure (a : α) : SelfDelimiting (Pure.pure a) := by
  rintro place _ _ ⟨⟩
  exact ⟨[], Spans.pure a, rfl, rfl⟩

/-- A read that gives no value took nothing for one. -/
theorem throw (e : ParcelError) : SelfDelimiting (MonadExcept.throw e : Read α) := nofun

theorem bind {read : Read α} {next : α → Read β} (hread : read.SelfDelimiting)
    (hnext : ∀ a, (next a).SelfDelimiting) : (read >>= next).SelfDelimiting := by
  intro place behind b h
  rw [startAt_bind] at h
  rcases hfirst : read.startAt place with ⟨_ | a, middle⟩
  · rw [hfirst] at h
    cases h
  · rw [hfirst] at h
    obtain ⟨front, hfront, hplace, hmiddle⟩ := hread hfirst
    obtain ⟨back, hback, hrest, hbehind⟩ := hnext a h
    refine ⟨front ++ back, hfront.bind hback, ?_, ?_⟩
    · rw [hplace, hrest, List.append_assoc]
    · rw [hbehind, hmiddle, List.length_append, Nat.add_assoc]

theorem map {read : Read α} (hread : read.SelfDelimiting) (f : α → β) :
    (f <$> read).SelfDelimiting := by
  rw [map_eq_pure_bind]
  exact hread.bind fun a => pure (f a)

end SelfDelimiting

/-! ### Bytes -/

theorem spans_byte (b : UInt8) : byte.Spans [b] b where
  takes := takes_byte b
  fails := by
    intro index count hcount
    obtain rfl : count = 0 := Nat.lt_one_iff.1 hcount
    exact ⟨_, rfl⟩

theorem selfDelimiting_byte : byte.SelfDelimiting := by
  rintro ⟨index, _ | ⟨b, rest⟩⟩ behind a h
  · cases h
  · cases h
    exact ⟨[b], spans_byte b, rfl, rfl⟩

theorem spans_exactly (bytes : List UInt8) : (exactly bytes.length).Spans bytes bytes where
  takes := takes_exactly bytes
  fails := by
    intro index count hcount
    have hshort : ¬bytes.length ≤ (bytes.take count).length := by
      rw [List.length_take]
      omega
    rw [exactly, startAt_of, if_neg hshort]
    exact ⟨_, rfl⟩

theorem selfDelimiting_exactly (count : Nat) : (exactly count).SelfDelimiting := by
  intro place behind bytes h
  rw [exactly, startAt_of] at h
  split at h
  · next hle =>
    cases h
    have hlength : (place.rest.take count).length = count := List.length_take_of_le hle
    have hspans := spans_exactly (place.rest.take count)
    rw [hlength] at hspans
    refine ⟨_, hspans, (List.take_append_drop count place.rest).symm, ?_⟩
    rw [hlength]
    rfl
  · cases h

/-! ### Integers and numbers with a fraction -/

theorem selfDelimiting_bool : bool.SelfDelimiting := by
  refine selfDelimiting_byte.bind fun b => ?_
  split_ifs
  · exact .pure false
  · exact .pure true
  · exact .throw _

theorem selfDelimiting_uintFrom (shift : Nat) (result : UInt32) :
    (uintFrom shift result).SelfDelimiting := by
  rw [uintFrom]
  refine selfDelimiting_byte.bind fun b => ?_
  dsimp only
  split_ifs
  · exact .pure _
  · exact selfDelimiting_uintFrom (shift + 7) _
termination_by 35 - shift

theorem selfDelimiting_ulongFrom (shift : Nat) (result : UInt64) :
    (ulongFrom shift result).SelfDelimiting := by
  rw [ulongFrom]
  refine selfDelimiting_byte.bind fun b => ?_
  split_ifs
  · exact .pure _
  · exact selfDelimiting_ulongFrom (shift + 7) _
termination_by 56 - shift

theorem selfDelimiting_uint : uint.SelfDelimiting := selfDelimiting_uintFrom 0 0

theorem selfDelimiting_int : int.SelfDelimiting :=
  selfDelimiting_uint.bind fun word => .pure (Wire.unfolded32 word)

theorem selfDelimiting_ulong : ulong.SelfDelimiting := selfDelimiting_ulongFrom 0 0

theorem selfDelimiting_long : long.SelfDelimiting :=
  selfDelimiting_ulong.bind fun word => .pure (Wire.unfolded64 word)

theorem selfDelimiting_float : float.SelfDelimiting := by
  refine selfDelimiting_byte.bind fun first => ?_
  split_ifs
  · exact .pure _
  · exact (selfDelimiting_exactly 3).bind fun _ => .pure _

theorem selfDelimiting_double : double.SelfDelimiting :=
  (selfDelimiting_exactly 8).bind fun _ => .pure _

/-! ### Texts -/

/-- Without a zero byte a text does not end. -/
theorem startAt_string_of_notMem {place : ParcelReader} (h : 0 ∉ place.rest) :
    string.startAt place =
      (.error (.unterminatedString place.index), place.skip place.rest.length) := by
  have hall : place.rest.takeWhile (· != 0) = place.rest :=
    List.takeWhile_eq_self_iff.2 fun b hb => bne_iff_ne.2 fun hzero => h (hzero ▸ hb)
  rw [string, startAt_of, hall]
  exact if_neg (Nat.lt_irrefl _)

/-- A text is its bytes with the zero byte that ends it. -/
theorem spans_string {bytes : List UInt8} (h : 0 ∉ bytes) :
    string.Spans (bytes ++ [0]) (Text.decodeLossy bytes) where
  takes := by
    intro index later
    have hscan := takeWhile_ne_zero_append h later
    rw [string, startAt_of, List.append_assoc, List.singleton_append, hscan]
    simp [ParcelReader.skip, List.drop_append]
  fails := by
    intro index count hcount
    rw [List.length_append, List.length_singleton] at hcount
    have hfree : 0 ∉ (ParcelReader.mk index (bytes.take count)).rest :=
      fun hmem => h (List.mem_of_mem_take hmem)
    rw [List.take_append_of_le_length (Nat.le_of_lt_succ hcount), startAt_string_of_notMem hfree]
    exact ⟨_, rfl⟩

theorem selfDelimiting_string : string.SelfDelimiting := by
  intro place behind text h
  by_cases hzero : 0 ∈ place.rest
  · obtain ⟨bytes, later, hrest, hfree⟩ := List.eq_append_cons_of_mem hzero
    have hspans := spans_string hfree
    have hplace : place = ⟨place.index, (bytes ++ [0]) ++ later⟩ := by
      rw [List.append_assoc, List.singleton_append, ← hrest]
    rw [hplace, hspans.takes] at h
    cases h
    refine ⟨bytes ++ [0], hspans, ?_, rfl⟩
    rw [hrest, List.append_assoc, List.singleton_append]
  · rw [startAt_string_of_notMem hzero] at h
    cases h

/-! ### Every read -/

/-- **Every read is self-delimiting.** -/
theorem selfDelimiting_value (kind : WireKind) : (value kind).SelfDelimiting := by
  cases kind with
  | bool => exact selfDelimiting_bool.map WireValue.bool
  | byte => exact selfDelimiting_byte.map WireValue.byte
  | int => exact selfDelimiting_int.map WireValue.int
  | uint => exact selfDelimiting_uint.map WireValue.uint
  | float => exact selfDelimiting_float.map WireValue.float
  | double => exact selfDelimiting_double.map WireValue.double
  | string => exact selfDelimiting_string.map WireValue.string
  | long => exact selfDelimiting_long.map WireValue.long
  | ulong => exact selfDelimiting_ulong.map WireValue.ulong

variable {read : Read α} {data : List UInt8} {start : Nat} {a : α} {behind : ParcelReader}

/-- What a read takes for a value is a part of the data, whatever is behind them. -/
theorem SelfDelimiting.exists_spans (hread : read.SelfDelimiting)
    (h : read.startAt (.at data start) = (.ok a, behind)) :
    ∃ bytes, read.Spans bytes a ∧ bytes <+: data.drop start ∧
      behind.index = start + bytes.length := by
  obtain ⟨bytes, hspans, hrest, hbehind⟩ := hread h
  exact ⟨bytes, hspans, ⟨behind.rest, hrest.symm⟩, hbehind⟩

/-- Bytes behind the data do not matter to a read that gave a value. -/
theorem SelfDelimiting.startAt_append (hread : read.SelfDelimiting)
    (h : read.startAt (.at data start) = (.ok a, behind)) (later : List UInt8) :
    read.startAt (.at (data ++ later) start) = (.ok a, .at (data ++ later) behind.index) := by
  obtain ⟨bytes, hspans, hbytes, hbehind⟩ := hread.exists_spans h
  rw [hbehind]
  refine hspans.takes.startAt_at ?_
  rw [List.drop_append]
  exact hbytes.trans (List.prefix_append ..)

/-- A read that gave a value fails if the data end in front of the place that it moved to. -/
theorem SelfDelimiting.exists_startAt_take (hread : read.SelfDelimiting)
    (h : read.startAt (.at data start) = (.ok a, behind)) {size : Nat} (hstart : start ≤ size)
    (hsize : size < behind.index) :
    ∃ e, (read.startAt (.at (data.take size) start)).1 = .error e := by
  obtain ⟨bytes, hspans, ⟨later, hlater⟩, hbehind⟩ := hread.exists_spans h
  have hshort : size - start < bytes.length := by omega
  rw [ParcelReader.at, List.drop_take, ← hlater,
    List.take_append_of_le_length (Nat.le_of_lt hshort)]
  exact hspans.fails start _ hshort

end Read

/-! ### Parcels -/

namespace Codec

variable {codec : Codec α} {bytes : List UInt8} {a : α}

/-- Where reading is self-delimiting, a parcel with a value is spanned by the read. -/
theorem spans_of_ofParcel_eq_ok (hdecode : codec.decode.SelfDelimiting)
    (h : codec.ofParcel ⟨bytes⟩ = .ok a) : codec.decode.Spans bytes a := by
  rw [ofParcel] at h
  split at h
  · cases h
  · next found behind hread =>
    split at h
    · next hend =>
      cases h
      obtain ⟨taken, hspans, hrest, -⟩ := hdecode hread
      rw [List.isEmpty_iff.1 hend, List.append_nil] at hrest
      obtain rfl : bytes = taken := hrest
      exact hspans
    · cases h

/-- **A parcel with a value holds none if bytes are added**: they are left over. -/
theorem ofParcel_append_eq_error (hdecode : codec.decode.SelfDelimiting)
    (h : codec.ofParcel ⟨bytes⟩ = .ok a) {later : List UInt8} (hlater : later ≠ []) :
    codec.ofParcel ⟨bytes ++ later⟩ = .error (.trailing later.length) := by
  have hspans := spans_of_ofParcel_eq_ok hdecode h
  rw [ofParcel_of_takes hspans.takes, if_neg]
  simpa using hlater

/-- **A parcel with a value holds none if bytes at its end are taken away.** -/
theorem exists_ofParcel_take_eq_error (hdecode : codec.decode.SelfDelimiting)
    (h : codec.ofParcel ⟨bytes⟩ = .ok a) {size : Nat} (hsize : size < bytes.length) :
    ∃ e, codec.ofParcel ⟨bytes.take size⟩ = .error e := by
  have hspans := spans_of_ofParcel_eq_ok hdecode h
  obtain ⟨e, he⟩ := hspans.fails 0 size hsize
  refine ⟨e, ?_⟩
  rw [ofParcel, Parcel.reader]
  rcases hread : codec.decode.startAt ⟨0, bytes.take size⟩ with ⟨result, behind⟩
  rw [hread] at he
  subst he
  rfl

end Codec

theorem Ticket.selfDelimiting_decode : Ticket.codec.decode.SelfDelimiting :=
  Read.selfDelimiting_uint.bind fun _ => Read.selfDelimiting_string.bind fun _ => .pure _

/-- **Reads find the end of a value.** A read of any kind that gives a value at a place in any data
gives the same value and moves to the same place if bytes are added behind the data, and fails if
the data end anywhere in front of that place. So a parcel that holds a ticket holds none with any
bytes added, which are found left over and counted, and none with any bytes taken away from its end.
-/
theorem Read.startAt_value_delimited :
    (∀ (kind : WireKind) (data : List UInt8) (start : Nat) (v : WireValue) (behind : ParcelReader),
      (Read.value kind).startAt (.at data start) = (.ok v, behind) →
        (∀ later, (Read.value kind).startAt (.at (data ++ later) start) =
          (.ok v, .at (data ++ later) behind.index)) ∧
        ∀ size, start ≤ size → size < behind.index →
          ∃ e, ((Read.value kind).startAt (.at (data.take size) start)).1 = .error e) ∧
      ∀ (bytes : List UInt8) (ticket : Ticket), Ticket.codec.ofParcel ⟨bytes⟩ = .ok ticket →
        (∀ later ≠ [],
          Ticket.codec.ofParcel ⟨bytes ++ later⟩ = .error (.trailing later.length)) ∧
        ∀ size < bytes.length, ∃ e, Ticket.codec.ofParcel ⟨bytes.take size⟩ = .error e := by
  constructor
  · intro kind data start v behind h
    have hread := selfDelimiting_value kind
    exact ⟨hread.startAt_append h, fun size hstart hsize =>
      hread.exists_startAt_take h hstart hsize⟩
  · intro bytes ticket h
    have hdecode := Ticket.selfDelimiting_decode
    exact ⟨fun later hlater => Codec.ofParcel_append_eq_error hdecode h hlater,
      fun size hsize => Codec.exists_ofParcel_take_eq_error hdecode h hsize⟩

/-- An integer in a run of the longest length, which ends there although its last byte has its top
bit set; and a ticket whose number takes a byte more than it needs and whose label is no text. -/
theorem Read.startAt_value_delimited_lenient :
    let data : List UInt8 := [7, 128, 128, 128, 128, 255, 9]
    let bytes : List UInt8 := [135, 0, 255, 0]
    (Read.value .uint).startAt (.at data 1) = (.ok (.uint 4026531840), .at data 6) ∧
      (Read.value .uint).startAt (.at (data ++ [1]) 1) =
        (.ok (.uint 4026531840), .at (data ++ [1]) 6) ∧
      (∃ e, ((Read.value .uint).startAt (.at (data.take 5) 1)).1 = .error e) ∧
      Ticket.codec.ofParcel ⟨bytes⟩ = .ok ⟨7, "\ufffd"⟩ ∧
      Ticket.codec.ofParcel ⟨bytes ++ [0, 0]⟩ = .error (.trailing 2) ∧
      ∃ e, Ticket.codec.ofParcel ⟨bytes.take 3⟩ = .error e := by
  intro data bytes
  have hread : (Read.value .uint).startAt (.at data 1) = (.ok (.uint 4026531840), .at data 6) := by
    rw [Read.value, Read.uint_eq]
    rfl
  have hticket : Ticket.codec.ofParcel ⟨bytes⟩ = .ok ⟨7, "\ufffd"⟩ := by
    rw [Codec.ofParcel, Ticket.codec, Read.uint_eq]
    rfl
  obtain ⟨hreads, htickets⟩ := Read.startAt_value_delimited
  obtain ⟨hlater, hcut⟩ := hreads .uint data 1 _ _ hread
  obtain ⟨hadded, htaken⟩ := htickets bytes _ hticket
  exact ⟨hread, hlater [1], hcut 5 (by decide) (by decide), hticket, hadded [0, 0] (by decide),
    htaken 3 (by decide)⟩

end RequestRouter
