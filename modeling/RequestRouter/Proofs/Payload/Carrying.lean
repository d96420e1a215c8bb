import Mathlib.Data.List.Forall2
import RequestRouter.Payload.Request
import RequestRouter.Proofs.Payload.RoundTrip

/-!
# What a request carries

An extra stays under its key, whatever is stored under other keys afterwards
(`RequestRouter.Request.extra?_putAll_of_ne`). So what a getter answers is a matter of the extra
that was stored: for a value that travels as a parcel, of reading the parcel back
(`RequestRouter.Request.getParcelable_eq_ok_iff`), and for a list of them, of reading back each
(`RequestRouter.Request.getParcelables_eq_ok_iff`).

A parcel that was read to the end of a value holds that value only if nothing is left behind it
(`RequestRouter.Codec.ofParcel_of_takes`).
-/

namespace RequestRouter

/-! ### Storing one after another -/

/-- An operation that stores an extra, with its key. -/
inductive Put : Type 1 where
  /-- Stores a single value. -/
  | value (key : String) (value : PayloadValue)
  /-- Stores a list of integers. -/
  | integers (key : String) (values : List Int32)
  /-- Stores a list of values that travel as parcels. -/
  | parcelables (key : String) {α : Type} (codec : Codec α) (values : List α)
  /-- Stores a list of strings. -/
  | strings (key : String) (values : List String)
  /-- Stores a list of character sequences. -/
  | charSequences (key : String) (values : List String)

/-- The key that is stored under. -/
def Put.key : Put → String
  | .value key _ => key
  | .integers key _ => key
  | .parcelables key _ _ => key
  | .strings key _ => key
  | .charSequences key _ => key

namespace Request

/-- The request after a store operation. -/
def perform (request : Request) : Put → Request
  | .value key value => request.putValue key value
  | .integers key values => request.putIntegers key values
  | .parcelables key codec values => request.putParcelables key codec values
  | .strings key values => request.putStrings key values
  | .charSequences key values => request.putCharSequences key values

/-- The request after store operations, one after another. -/
def putAll (request : Request) (puts : List Put) : Request := puts.foldl perform request

variable {request : Request} {key other : String}

@[simp] theorem extra?_put_self (request : Request) (key : String) (extra : Extra) :
    (request.put key extra).extra? key = some extra :=
  request.extras.get?_insert_self key extra

theorem extra?_put_of_ne (h : key ≠ other) (request : Request) (extra : Extra) :
    (request.put other extra).extra? key = request.extra? key :=
  request.extras.get?_insert_of_ne h extra

/-- Every operation leaves other keys alone. -/
theorem extra?_perform_of_ne {put : Put} (h : put.key ≠ key) (request : Request) :
    (request.perform put).extra? key = request.extra? key := by
  cases put with
  | value | integers | parcelables | strings | charSequences =>
    exact extra?_put_of_ne (Ne.symm h) request _

/-- **An extra stays** as long as nothing else is stored under its key. -/
theorem extra?_putAll_of_ne {puts : List Put} (h : ∀ put ∈ puts, put.key ≠ key)
    (request : Request) : (request.putAll puts).extra? key = request.extra? key := by
  induction puts generalizing request with
  | nil => rfl
  | cons put puts ih =>
    obtain ⟨hput, hputs⟩ := List.forall_mem_cons.1 h
    change ((request.perform put).putAll puts).extra? key = _
    rw [ih hputs, extra?_perform_of_ne hput]

end Request

/-! ### Reading parcels as wholes -/

/-- A traversal that may fail succeeds exactly if it succeeds at every item. -/
theorem mapM_eq_ok_iff {α β ε : Type} {f : α → Except ε β} {as : List α} {bs : List β} :
    as.mapM f = .ok bs ↔ List.Forall₂ (fun a b => f a = .ok b) as bs := by
  induction as generalizing bs with
  | nil => simp [pure, Except.pure, eq_comm]
  | cons a as ih =>
    rw [List.mapM_cons]
    cases hfirst : f a with
    | error e => simp [bind, Except.bind, List.forall₂_cons_left_iff, hfirst]
    | ok b =>
      cases hrest : as.mapM f with
      | error e => simp [bind, Except.bind, List.forall₂_cons_left_iff, ← ih, hrest]
      | ok found =>
        simp [bind, Except.bind, pure, Except.pure, List.forall₂_cons_left_iff, ← ih, hfirst,
          hrest, eq_comm]

namespace Codec

variable {α : Type} {codec : Codec α}

/-- **A parcel is read as a whole**: what is read from its front is its value if nothing is left,
and otherwise the rest is in the way. -/
theorem ofParcel_of_takes {bytes : List UInt8} {a : α} (h : codec.decode.Takes bytes a)
    (later : List UInt8) :
    codec.ofParcel ⟨bytes ++ later⟩ =
      if later.isEmpty then .ok a else .error (.trailing later.length) := by
  rw [ofParcel, Parcel.reader, h 0 later]
  rfl

/-- A value is read back from its own parcel if its bytes are all taken. -/
theorem ofParcel_toParcel {a : α} (h : codec.decode.Takes (codec.encode a) a) :
    codec.ofParcel (codec.toParcel a) = .ok a := by
  have hread := ofParcel_of_takes h []
  rwa [List.append_nil] at hread

end Codec

namespace Request

variable {α : Type} {request : Request} {key : String} {codec : Codec α}

/-- What the getter answers about a value that was stored as a parcel. -/
theorem getParcelable_eq_ok_iff {a : α} {found : Option α}
    (h : request.extra? key = some (.scalar (.ofParcelable codec a))) :
    request.getParcelable key codec = .ok found ↔
      ∃ b, codec.ofParcel (codec.toParcel a) = .ok b ∧ found = some b := by
  rw [getParcelable, h, PayloadValue.ofParcelable]
  cases hread : codec.ofParcel (codec.toParcel a) with
  | error cause => simp [hread]
  | ok b => simp [hread, eq_comm]

/-- What the getter answers about values that were stored as parcels. -/
theorem getParcelables_eq_ok_iff {as : List α} {found : Option (List α)}
    (h : request.extra? key = some (.parcelableList (as.map codec.toParcel))) :
    request.getParcelables key codec = .ok found ↔
      ∃ bs, List.Forall₂ (fun a b => codec.ofParcel (codec.toParcel a) = .ok b) as bs ∧
        found = some bs := by
  have hread : ∀ bs, (as.map codec.toParcel).mapM codec.ofParcel = .ok bs ↔
      List.Forall₂ (fun a b => codec.ofParcel (codec.toParcel a) = .ok b) as bs :=
    fun _ => mapM_eq_ok_iff.trans List.forall₂_map_left_iff
  rw [getParcelables, h]
  simp only [← hread]
  cases (as.map codec.toParcel).mapM codec.ofParcel with
  | error cause => simp
  | ok bs => simp [eq_comm]

end Request

end RequestRouter
