import Mathlib.Data.List.Dedup
import RequestRouter.Proofs.Payload.Carrying
import RequestRouter.Proofs.Text.ByteOrder

/-!
# The last extra stored under a key

A request holds under each key what was stored there last
(`RequestRouter.Request.extra?_putAll`). Everything else that a request answers follows from it,
whatever operations were carried out and in which order
(`RequestRouter.Request.putAll_create_answers`): its entries are the keys with what they hold, in
the order of their bytes, and each getter looks at the one extra under its key.

There are two sorts of getters. One that only reads answers the contents of an extra of its own
kind, and nothing otherwise (`RequestRouter.AnswersContents`). One that decodes reports an extra
of another kind by its name (`RequestRouter.Extra.IsNamed`), and one whose contents are no value of
the type (`RequestRouter.AnswersDecoded`).
-/

namespace RequestRouter

/-! ### The names of the kinds -/

/-- **What an extra holds is called** so in messages. -/
inductive Extra.IsNamed : Extra → String → Prop
  | bool (value : Bool) : IsNamed (.scalar (.bool value)) "bool"
  | byte (value : Int8) : IsNamed (.scalar (.byte value)) "byte"
  | char (value : Char) : IsNamed (.scalar (.char value)) "char"
  | short (value : Int16) : IsNamed (.scalar (.short value)) "short"
  | int (value : Int32) : IsNamed (.scalar (.int value)) "int"
  | long (value : Int64) : IsNamed (.scalar (.long value)) "long"
  | float (value : Binary32) : IsNamed (.scalar (.float value)) "float"
  | double (value : Binary64) : IsNamed (.scalar (.double value)) "double"
  | string (value : String) : IsNamed (.scalar (.string value)) "string"
  | parcel (value : Parcel) : IsNamed (.scalar (.parcel value)) "parcel"
  | serialized (value : Json) : IsNamed (.scalar (.serialized value)) "serialized"
  | integerList (values : List Int32) : IsNamed (.integerList values) "integer list"
  | parcelableList (values : List Parcel) : IsNamed (.parcelableList values) "parcelable list"
  | stringList (values : List String) : IsNamed (.stringList values) "string list"
  | charSequenceList (values : List String) :
    IsNamed (.charSequenceList values) "char sequence list"

/-- The kind that has the name, as that of the operation and that of a single value. -/
def kindNamed? : String → Option (ExtraKind × Option PayloadKind)
  | "bool" => some (.scalar, some .bool)
  | "byte" => some (.scalar, some .byte)
  | "char" => some (.scalar, some .char)
  | "short" => some (.scalar, some .short)
  | "int" => some (.scalar, some .int)
  | "long" => some (.scalar, some .long)
  | "float" => some (.scalar, some .float)
  | "double" => some (.scalar, some .double)
  | "string" => some (.scalar, some .string)
  | "parcel" => some (.scalar, some .parcel)
  | "serialized" => some (.scalar, some .serialized)
  | "integer list" => some (.integerList, none)
  | "parcelable list" => some (.parcelableList, none)
  | "string list" => some (.stringList, none)
  | "char sequence list" => some (.charSequenceList, none)
  | _ => none

namespace Extra

/-- The single value, if the extra is one. -/
def value? : Extra → Option PayloadValue
  | .scalar value => some value
  | _ => none

variable {a b : Extra} {name : String}

theorem isNamed_kindText (extra : Extra) : extra.IsNamed extra.kindText := by
  cases extra with
  | scalar value => cases value <;> constructor
  | integerList | parcelableList | stringList | charSequenceList => constructor

theorem IsNamed.kindNamed?_eq (h : a.IsNamed name) :
    kindNamed? name = some (a.kind, a.value?.map PayloadValue.kind) := by
  cases h <;> rfl

/-- **Extras of different kinds have different names.** -/
theorem IsNamed.kind_eq (h : a.IsNamed name) (hother : b.IsNamed name) :
    a.kind = b.kind ∧ a.value?.map PayloadValue.kind = b.value?.map PayloadValue.kind :=
  Prod.mk.inj (Option.some.inj (h.kindNamed?_eq.symm.trans hother.kindNamed?_eq))

theorem exists_scalar_of_kind {kind : PayloadKind}
    (h : a.value?.map PayloadValue.kind = some kind) :
    ∃ value : PayloadValue, a = .scalar value ∧ value.kind = kind := by
  obtain ⟨value, hvalue, hkind⟩ := Option.map_eq_some_iff.1 h
  cases a with
  | scalar =>
    cases hvalue
    exact ⟨value, rfl, hkind⟩
  | integerList | parcelableList | stringList | charSequenceList => cases hvalue

theorem IsNamed.exists_parcel (h : a.IsNamed "parcel") :
    ∃ parcel, a = .scalar (.parcel parcel) := by
  obtain ⟨value, rfl, hkind⟩ := exists_scalar_of_kind (h.kind_eq (.parcel Parcel.empty)).2
  cases value <;> cases hkind
  exact ⟨_, rfl⟩

theorem IsNamed.exists_serialized (h : a.IsNamed "serialized") :
    ∃ document, a = .scalar (.serialized document) := by
  obtain ⟨value, rfl, hkind⟩ := exists_scalar_of_kind (h.kind_eq (.serialized .null)).2
  cases value <;> cases hkind
  exact ⟨_, rfl⟩

theorem IsNamed.exists_parcelableList (h : a.IsNamed "parcelable list") :
    ∃ parcels, a = .parcelableList parcels := by
  have hkind := (h.kind_eq (.parcelableList [])).1
  cases a <;> cases hkind
  exact ⟨_, rfl⟩

end Extra

/-! ### What an operation stores -/

/-- The extra that is stored. -/
def Put.extra : Put → Extra
  | .value _ contents => .scalar contents
  | .integers _ values => .integerList values
  | .parcelables _ codec values => .parcelableList (values.map codec.toParcel)
  | .strings _ values => .stringList values
  | .charSequences _ values => .charSequenceList values

/-- What the last of the operations for a key stores there. -/
def lastStored? (puts : List Put) (key : String) : Option Extra :=
  (puts.reverse.find? (·.key = key)).map Put.extra

/-- The first operation counts only if no later one stores under its key. -/
theorem lastStored?_cons (put : Put) (puts : List Put) (key : String) :
    lastStored? (put :: puts) key =
      (lastStored? puts key).or (if put.key = key then some put.extra else none) := by
  rw [lastStored?, List.reverse_cons, List.find?_append, Option.map_or]
  by_cases h : put.key = key
  · simp [lastStored?, h]
  · simp [lastStored?, h]

theorem isSome_lastStored?_iff {puts : List Put} {key : String} :
    (lastStored? puts key).isSome ↔ key ∈ puts.map Put.key := by
  simp [lastStored?]

/-! ### What getters answer -/

section Getters

variable {α β ε : Type}

/-- The answer of a getter that looks for extras `own b`, about what is stored: the contents if
there is such an extra, and nothing if there is none or another one. -/
def AnswersContents (own : β → Extra) (stored : Option Extra) (answer : Option β) : Prop :=
  ∀ b, answer = some b ↔ stored = some (own b)

/-- The answer of a getter that looks for extras `own b` and decodes their contents, about what is
stored under `key`. -/
structure AnswersDecoded (own : β → Extra) (decode : β → Except ε α) (key expected : String)
    (undecodable : String → ε → ExtraError) (stored : Option Extra)
    (answer : Except ExtraError (Option α)) : Prop where
  /-- Nothing is stored. -/
  absent : stored = none → answer = .ok none
  /-- Contents that are decoded. -/
  decoded : ∀ b a, stored = some (own b) → decode b = .ok a → answer = .ok (some a)
  /-- Contents that are not. -/
  fault : ∀ b cause, stored = some (own b) → decode b = .error cause →
    answer = .error (undecodable key cause)
  /-- An extra of another kind: the answer has its name, which is not the one expected. -/
  other : ∀ extra, stored = some extra → (∀ b, extra ≠ own b) →
    ∃ found, extra.IsNamed found ∧ found ≠ expected ∧
      answer = .error (.typeMismatch key expected found)

/-- An answer that has the name of the extra reports another kind, if only extras of the getter's
own kind are called what it expects. -/
theorem exists_mismatch {own : β → Extra} {key expected : String} {extra : Extra}
    {answer : Except ExtraError (Option α)} (hown : extra.IsNamed expected → ∃ b, extra = own b)
    (hother : ∀ b, extra ≠ own b)
    (h : answer = .error (.typeMismatch key expected extra.kindText)) :
    ∃ found, extra.IsNamed found ∧ found ≠ expected ∧
      answer = .error (.typeMismatch key expected found) := by
  refine ⟨_, extra.isNamed_kindText, ?_, h⟩
  rintro rfl
  obtain ⟨b, hb⟩ := hown extra.isNamed_kindText
  exact hother b hb

/-- An argument is answered that was stored only if it was there. -/
theorem AnswersContents.eq_of_map {own : β → Extra} {stored : Option Extra} {answer : Option β}
    (h : AnswersContents own stored answer) (hown : Function.Injective own) {argument : Option β}
    (hstored : stored = argument.map own) : answer = argument := by
  refine Option.ext fun b => ?_
  rw [h b, hstored, ← Option.map_some, (Option.map_injective hown).eq_iff]

/-- An argument is answered that was encoded and stored only if it was there. -/
theorem AnswersDecoded.eq_ok_of_map {own : β → Extra} {decode : β → Except ε α} {encode : α → β}
    {key expected : String} {undecodable : String → ε → ExtraError} {stored : Option Extra}
    {answer : Except ExtraError (Option α)}
    (h : AnswersDecoded own decode key expected undecodable stored answer) {argument : Option α}
    (hdecode : ∀ a ∈ argument, decode (encode a) = .ok a)
    (hstored : stored = argument.map (own ∘ encode)) : answer = .ok argument := by
  cases argument with
  | none => exact h.absent hstored
  | some a => exact h.decoded (encode a) a hstored (hdecode a rfl)

end Getters

namespace Request

/-- The answers of all getters for a key, about what is stored under it. -/
structure Answers (request : Request) (key : String) (stored : Option Extra) : Prop where
  /-- The extra itself. -/
  extra : request.extra? key = stored
  /-- A 32-bit integer is answered, and else the default. -/
  int : ∃ found, AnswersContents (.scalar ∘ .int) stored found ∧
    ∀ default, request.getInt key default = found.getD default
  /-- A text. -/
  string : AnswersContents (.scalar ∘ .string) stored (request.getString? key)
  /-- A list of integers. -/
  integers : AnswersContents .integerList stored (request.getIntegers? key)
  /-- A list of strings. -/
  strings : AnswersContents .stringList stored (request.getStrings? key)
  /-- A list of character sequences. -/
  charSequences : AnswersContents .charSequenceList stored (request.getCharSequences? key)
  /-- A value that travels as a parcel. -/
  parcelable : ∀ {α : Type} (codec : Codec α),
    AnswersDecoded (.scalar ∘ .parcel) codec.ofParcel key "parcel" ExtraError.parcel stored
      (request.getParcelable key codec)
  /-- Values that travel as parcels. -/
  parcelables : ∀ {α : Type} (codec : Codec α),
    AnswersDecoded .parcelableList (List.mapM codec.ofParcel) key "parcelable list"
      ExtraError.parcel stored (request.getParcelables key codec)
  /-- A value that travels as a document. -/
  document : ∀ {α : Type} (decoder : Decoder α),
    AnswersDecoded (.scalar ∘ .serialized) decoder key "serialized" ExtraError.serialized stored
      (request.getDocument key decoder)

variable {α : Type} {request : Request}

theorem value?_eq_some_iff {key : String} {value : PayloadValue} :
    request.value? key = some value ↔ request.extra? key = some (.scalar value) := by
  rw [value?]
  split <;> simp_all

theorem bind_value?_eq_some_iff {key : String} {own : α → PayloadValue}
    {contents? : PayloadValue → Option α}
    (h : ∀ value a, contents? value = some a ↔ value = own a) {a : α} :
    (request.value? key).bind contents? = some a ↔
      request.extra? key = some (.scalar (own a)) := by
  simp only [Option.bind_eq_some_iff, h, exists_eq_right, value?_eq_some_iff]

theorem answersDecoded_getParcelable (request : Request) (key : String) (codec : Codec α) :
    AnswersDecoded (.scalar ∘ .parcel) codec.ofParcel key "parcel" ExtraError.parcel
      (request.extra? key) (request.getParcelable key codec) where
  absent h := by rw [getParcelable, h]
  decoded parcel a h ha := by simp [getParcelable, h, ha]
  fault parcel cause h hcause := by simp [getParcelable, h, hcause]
  other extra h hother := exists_mismatch Extra.IsNamed.exists_parcel hother <| by
    rw [getParcelable, h]
    split
    · next hnone => cases hnone
    · next parcel hsome => exact absurd (Option.some.inj hsome) (hother parcel)
    · next hsome => rw [Option.some.inj hsome]; rfl

theorem answersDecoded_getParcelables (request : Request) (key : String) (codec : Codec α) :
    AnswersDecoded .parcelableList (List.mapM codec.ofParcel) key "parcelable list"
      ExtraError.parcel (request.extra? key) (request.getParcelables key codec) where
  absent h := by rw [getParcelables, h]
  decoded parcels as h has := by simp [getParcelables, h, has]
  fault parcels cause h hcause := by simp [getParcelables, h, hcause]
  other extra h hother := exists_mismatch Extra.IsNamed.exists_parcelableList hother <| by
    rw [getParcelables, h]
    split
    · next hnone => cases hnone
    · next parcels hsome => exact absurd (Option.some.inj hsome) (hother parcels)
    · next hsome => rw [Option.some.inj hsome]

theorem answersDecoded_getDocument (request : Request) (key : String) (decoder : Decoder α) :
    AnswersDecoded (.scalar ∘ .serialized) decoder key "serialized" ExtraError.serialized
      (request.extra? key) (request.getDocument key decoder) where
  absent h := by rw [getDocument, h]
  decoded document a h ha := by simp [getDocument, h, ha]
  fault document cause h hcause := by simp [getDocument, h, hcause]
  other extra h hother := exists_mismatch Extra.IsNamed.exists_serialized hother <| by
    rw [getDocument, h]
    split
    · next hnone => cases hnone
    · next document hsome => exact absurd (Option.some.inj hsome) (hother document)
    · next hsome => rw [Option.some.inj hsome]; rfl

/-- **Every getter looks at the extra under its key, and at nothing else.** -/
theorem answers_extra? (request : Request) (key : String) :
    request.Answers key (request.extra? key) where
  extra := rfl
  int := ⟨(request.value? key).bind PayloadValue.int?,
    fun _ => bind_value?_eq_some_iff fun value _ => by cases value <;> simp [PayloadValue.int?],
    fun _ => rfl⟩
  string _ := bind_value?_eq_some_iff fun value _ => by
    cases value <;> simp [PayloadValue.string?]
  integers _ := by
    rw [getIntegers?]
    split <;> simp_all
  strings _ := by
    rw [getStrings?]
    split <;> simp_all
  charSequences _ := by
    rw [getCharSequences?]
    split <;> simp_all
  parcelable := request.answersDecoded_getParcelable key
  parcelables := request.answersDecoded_getParcelables key
  document := request.answersDecoded_getDocument key

/-! ### Operations one after another -/

theorem perform_eq_put (request : Request) (put : Put) :
    request.perform put = request.put put.key put.extra := by
  cases put with
  | value | integers | parcelables | strings | charSequences => rfl

theorem extra?_perform (request : Request) (put : Put) (key : String) :
    (request.perform put).extra? key =
      (if put.key = key then some put.extra else none).or (request.extra? key) := by
  rw [perform_eq_put]
  by_cases h : put.key = key
  · simp [h]
  · simp [h, extra?_put_of_ne (Ne.symm h)]

/-- **What was stored last counts**: under each key the request holds what the last operation for
the key stored there, and what it held before if there was none. -/
theorem extra?_putAll (request : Request) (puts : List Put) (key : String) :
    (request.putAll puts).extra? key = (lastStored? puts key).or (request.extra? key) := by
  induction puts generalizing request with
  | nil => rfl
  | cons put puts ih =>
    show ((request.perform put).putAll puts).extra? key = _
    rw [ih, extra?_perform, lastStored?_cons, Option.or_assoc]

/-- A request that was empty holds what was stored last, and nothing else. -/
theorem extra?_putAll_create (context : Context) (destination : ClassName) (puts : List Put)
    (key : String) :
    ((create context destination).putAll puts).extra? key = lastStored? puts key := by
  rw [extra?_putAll]
  exact Option.or_none

/-- Every getter looks at what was stored last. -/
theorem answers_lastStored? (context : Context) (destination : ClassName) (puts : List Put)
    (key : String) :
    ((create context destination).putAll puts).Answers key (lastStored? puts key) := by
  rw [← extra?_putAll_create context destination]
  exact answers_extra? _ key

/-- The keys with an extra are those that were stored under. -/
theorem isSome_extra?_putAll_create_iff (context : Context) (destination : ClassName)
    (puts : List Put) (key : String) :
    (((create context destination).putAll puts).extra? key).isSome ↔ key ∈ puts.map Put.key := by
  rw [extra?_putAll_create]
  exact isSome_lastStored?_iff

/-- Storing changes neither where the request comes from nor where it goes. -/
theorem origin_putAll (request : Request) (puts : List Put) :
    (request.putAll puts).origin = request.origin ∧
      (request.putAll puts).destination = request.destination := by
  induction puts generalizing request with
  | nil => exact ⟨rfl, rfl⟩
  | cons put puts ih =>
    have hfirst : (request.perform put).origin = request.origin ∧
        (request.perform put).destination = request.destination := by
      rw [perform_eq_put]
      exact ⟨rfl, rfl⟩
    obtain ⟨horigin, hdestination⟩ := ih (request.perform put)
    exact ⟨horigin.trans hfirst.1, hdestination.trans hfirst.2⟩

/-! ### Entries -/

/-- **The keys are listed in the order of their bytes.** -/
theorem pairwise_utf8Bytes_entries (request : Request) :
    (request.extras.entries.map fun entry => Text.utf8Bytes entry.1).Pairwise (· < ·) :=
  List.pairwise_map.2 (request.extras.sorted.imp Text.utf8Bytes_lt_utf8Bytes)

theorem nodup_keys (request : Request) : (request.extras.entries.map Prod.fst).Nodup :=
  List.pairwise_map.2 (request.extras.sorted.imp fun h => String.ne_of_lt h)

/-- The number of extras is that of the keys that have one, each counted once. -/
theorem extraCount_eq_length_dedup {request : Request} {keys : List String}
    (h : ∀ key, (request.extra? key).isSome ↔ key ∈ keys) :
    request.extraCount = keys.dedup.length := by
  have hmem : ∀ key, key ∈ request.extras.entries.map Prod.fst ↔ key ∈ keys.dedup := by
    intro key
    rw [List.mem_dedup, ← h, Option.isSome_iff_exists, List.mem_map]
    constructor
    · rintro ⟨⟨_, extra⟩, hentry, rfl⟩
      exact ⟨extra, request.extras.mem_entries_iff.1 hentry⟩
    · rintro ⟨extra, hextra⟩
      exact ⟨(key, extra), request.extras.mem_entries_iff.2 hextra, rfl⟩
  have hperm := (List.perm_ext_iff_of_nodup request.nodup_keys keys.nodup_dedup).2 hmem
  rw [← hperm.length_eq, List.length_map]
  rfl

/-- **What a request answers after any operations**: it goes where it went, from where it came;
its entries are the keys that were stored under with what was stored there last, in the order of
their bytes, and are counted; and every getter answers about the extra that was stored last. -/
theorem putAll_create_answers (context : Context) (destination : ClassName) (puts : List Put) :
    let request := (create context destination).putAll puts
    request.origin = context.package ∧ request.destination = destination ∧
      (request.extras.entries.map fun entry => Text.utf8Bytes entry.1).Pairwise (· < ·) ∧
      (∀ key extra, (key, extra) ∈ request.extras.entries ↔ lastStored? puts key = some extra) ∧
      request.extraCount = (puts.map Put.key).dedup.length ∧
      ∀ key, request.Answers key (lastStored? puts key) := by
  intro request
  obtain ⟨horigin, hdestination⟩ := origin_putAll (create context destination) puts
  refine ⟨horigin, hdestination, request.pairwise_utf8Bytes_entries, fun key extra => ?_,
    extraCount_eq_length_dedup (isSome_extra?_putAll_create_iff context destination puts),
    answers_lastStored? context destination puts⟩
  rw [← extra?_putAll_create context destination]
  exact request.extras.mem_entries_iff

/-- An integer was stored last under the key: a text is not there any more, and nothing can be
decoded. -/
theorem putAll_create_answers_int :
    let request := (create ⟨"app"⟩ ⟨"screens", "Home"⟩).putAll
      [.value "k" (.string "a"), .strings "b" [], .value "k" (.int 5)]
    request.extraCount = 2 ∧ request.getInt "k" 0 = 5 ∧ request.getString? "k" = none ∧
      (∃ fault, request.getDocument "k" Except.ok = .error fault ∧
        fault.message = "Extra \"k\" holds int, expected serialized") ∧
      ∀ codec : Codec Bool, ∃ fault, request.getParcelables "k" codec = .error fault ∧
        fault.message = "Extra \"k\" holds int, expected parcelable list" := by
  intro request
  obtain ⟨-, -, -, -, hcount, hanswers⟩ := putAll_create_answers ⟨"app"⟩ ⟨"screens", "Home"⟩
    [.value "k" (.string "a"), .strings "b" [], .value "k" (.int 5)]
  have hlast := hanswers "k"
  obtain ⟨found, hfound, hint⟩ := hlast.int
  obtain rfl : found = some 5 := (hfound 5).2 rfl
  refine ⟨hcount, hint 0, ?_, ?_, fun codec => ?_⟩
  · refine Option.eq_none_iff_forall_ne_some.2 fun text htext => ?_
    cases (hlast.string text).1 htext
  · obtain ⟨name, hname, -, hfault⟩ :=
      (hlast.document Except.ok).other _ rfl fun document h => nomatch h
    cases hname
    exact ⟨_, hfault, rfl⟩
  · obtain ⟨name, hname, -, hfault⟩ :=
      (hlast.parcelables codec).other _ rfl fun parcels h => nomatch h
    cases hname
    exact ⟨_, hfault, rfl⟩

end Request

end RequestRouter
