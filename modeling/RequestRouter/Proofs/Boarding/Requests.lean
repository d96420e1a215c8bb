import RequestRouter.Boarding.DetailRouter
import RequestRouter.Proofs.Boarding.Tickets
import RequestRouter.Proofs.Payload.Storing

/-!
# What the requests of the sample router carry

The sample router makes a request out of its arguments, and the getters give the arguments back
(`RequestRouter.DetailRouter.answers_arguments`). What is in a request is told by the operations
that store it (`RequestRouter.DetailRouter.showPuts`, `RequestRouter.DetailRouter.pickPuts`): every
argument has a key of its own, and an argument that is absent has no operation, so that each key
holds the one argument or nothing at all. The rest is a matter of the ways in which arguments
travel. A number, a text or a list of them is stored as it is, and a ticket is read back from its
parcel if its label has no zero character (`RequestRouter.Ticket.ofParcel_toParcel_eq_ok_iff`). What
the documents of notes look like is not known here: that every note is read back from its own one is
what is assumed of them (`RequestRouter.DocumentCodec.RoundTrips`).
-/

namespace RequestRouter

namespace Ticket

variable {ticket : Ticket} {tickets : List Ticket}

theorem ofParcel_toParcel (h : '\x00' ∉ ticket.label.toList) :
    codec.ofParcel (codec.toParcel ticket) = .ok ticket :=
  ofParcel_toParcel_eq_ok_iff.2 ⟨rfl, h⟩

theorem mapM_ofParcel_toParcel (h : ∀ ticket ∈ tickets, '\x00' ∉ ticket.label.toList) :
    (tickets.map codec.toParcel).mapM codec.ofParcel = .ok tickets :=
  mapM_eq_ok_iff.2 (List.forall₂_map_left_iff.2 (forall₂_ofParcel_toParcel_iff.2 ⟨rfl, h⟩))

end Ticket

namespace DetailRouter

/-! ### The arguments, read back -/

/-- The key, if the argument is there. -/
def keyOf {α : Type} (key : String) (argument : Option α) : List String :=
  argument.toList.map fun _ => key

/-- The request goes from the context to the screen, and it has extras under the keys and no
others. -/
structure Travels (request : Request) (context : Context) (keys : List String) : Prop where
  /-- Where it comes from. -/
  origin : request.origin = context.package
  /-- Where it goes. -/
  destination : request.destination = ⟨"screens", "DetailScreen"⟩
  /-- Under which keys there is something. -/
  hasExtra_iff : ∀ key, request.hasExtra key = true ↔ key ∈ keys
  /-- How many extras there are. -/
  extraCount : request.extraCount = keys.length

/-- The getters give back what is shown. -/
structure Shows (notes : DocumentCodec Note) (request : Request) (title : String)
    (count : Option Int32) (ticket : Ticket) (payload : Option Note) : Prop where
  /-- The title. -/
  string : request.getString? "title" = some title
  /-- The count, and else what is given for it. -/
  int : ∀ default, request.getInt "count" default = count.getD default
  /-- The ticket. -/
  parcelable : request.getParcelable "ticket" Ticket.codec = .ok (some ticket)
  /-- The note, if there is one. -/
  document : request.getDocument "payload" notes.decode = .ok payload

/-- The getters give back what there is to pick from. -/
structure Offers (request : Request) (ids : List Int32) (tickets : List Ticket)
    (names : List String) (labels : Option (List String)) : Prop where
  /-- The numbers. -/
  integers : request.getIntegers? "ids" = some ids
  /-- The tickets. -/
  parcelables : request.getParcelables "tickets" Ticket.codec = .ok (some tickets)
  /-- The names. -/
  strings : request.getStrings? "names" = some names
  /-- The labels, if there are any. -/
  charSequences : request.getCharSequences? "labels" = labels

variable {context : Context}

/-- A request that is made by operations with different keys has an extra under each of these. -/
theorem travels_putAll {puts : List Put} (h : (puts.map Put.key).Nodup) :
    Travels ((Request.create context destination).putAll puts) context (puts.map Put.key) := by
  obtain ⟨horigin, hdestination⟩ := Request.origin_putAll (.create context destination) puts
  have hkeys := Request.isSome_extra?_putAll_create_iff context destination puts
  refine ⟨horigin, hdestination, hkeys, ?_⟩
  rw [Request.extraCount_eq_length_dedup hkeys, h.dedup]

theorem travels_openScreen (context : Context) : Travels (openScreen context) context [] :=
  have h : ([].map Put.key).Nodup := .nil
  travels_putAll h

/-! ### Showing a ticket -/

section Showing

variable {notes : DocumentCodec Note} {title : String} {count : Option Int32} {ticket : Ticket}
  {payload : Option Note}

/-- What is stored in the request that shows a ticket. -/
def showPuts (notes : DocumentCodec Note) (title : String) (count : Option Int32) (ticket : Ticket)
    (payload : Option Note) : List Put :=
  .value "title" (.string title) :: (count.toList.map fun n => .value "count" (.int n)) ++
    .value "ticket" ticket.value ::
      payload.toList.map fun note => .value "payload" (.ofSerializable notes note)

theorem showTicket_eq_putAll :
    showTicket notes context title count ticket payload =
      (Request.create context destination).putAll (showPuts notes title count ticket payload) := by
  cases count <;> cases payload <;> rfl

theorem keys_showPuts : (showPuts notes title count ticket payload).map Put.key =
    "title" :: keyOf "count" count ++ "ticket" :: keyOf "payload" payload := by
  cases count <;> cases payload <;> rfl

theorem lastStored?_showPuts :
    let stored := lastStored? (showPuts notes title count ticket payload)
    stored "title" = some (.scalar (.string title)) ∧
      stored "count" = count.map (.scalar ∘ .int) ∧
      stored "ticket" = some (.scalar ticket.value) ∧
      stored "payload" = payload.map (.scalar ∘ .ofSerializable notes) := by
  cases count <;> cases payload <;> exact ⟨rfl, rfl, rfl, rfl⟩

theorem travels_showTicket :
    Travels (showTicket notes context title count ticket payload) context
      ("title" :: keyOf "count" count ++ "ticket" :: keyOf "payload" payload) := by
  rw [showTicket_eq_putAll, ← keys_showPuts]
  refine travels_putAll ?_
  cases count <;> cases payload <;> simp [showPuts, Put.key]

theorem shows_showTicket (hnotes : notes.RoundTrips) (h : '\x00' ∉ ticket.label.toList) :
    Shows notes (showTicket notes context title count ticket payload) title count ticket
      payload := by
  have hanswers : ∀ key, Request.Answers (showTicket notes context title count ticket payload) key
      (lastStored? (showPuts notes title count ticket payload) key) := by
    rw [showTicket_eq_putAll]
    exact Request.answers_lastStored? context destination _
  obtain ⟨htitle, hcount, hticket, hpayload⟩ :=
    @lastStored?_showPuts notes title count ticket payload
  obtain ⟨found, hfound, hint⟩ := (hanswers "count").int
  constructor
  · exact ((hanswers "title").string title).2 htitle
  · have hown : Function.Injective (Extra.scalar ∘ PayloadValue.int) :=
      fun _ _ h => PayloadValue.int.inj (Extra.scalar.inj h)
    obtain rfl := hfound.eq_of_map hown hcount
    exact hint
  · exact ((hanswers "ticket").parcelable Ticket.codec).decoded _ _ hticket
      (Ticket.ofParcel_toParcel h)
  · have hread : ∀ note ∈ payload, notes.decode ((notes.encode note).getD .null) = .ok note := by
      intro note _
      obtain ⟨document, hencode, hdecode⟩ := hnotes note
      rw [hencode, Option.getD_some, hdecode]
    exact ((hanswers "payload").document notes.decode).eq_ok_of_map hread hpayload

end Showing

/-! ### Picking from lists -/

section Picking

variable {ids : List Int32} {tickets : List Ticket} {names : List String}
  {labels : Option (List String)}

/-- What is stored in the request that picks from lists. -/
def pickPuts (ids : List Int32) (tickets : List Ticket) (names : List String)
    (labels : Option (List String)) : List Put :=
  .integers "ids" ids :: .parcelables "tickets" Ticket.codec tickets :: .strings "names" names ::
    labels.toList.map (.charSequences "labels")

theorem pickFrom_eq_putAll :
    pickFrom context ids tickets names labels =
      (Request.create context destination).putAll (pickPuts ids tickets names labels) := by
  cases labels <;> rfl

theorem keys_pickPuts : (pickPuts ids tickets names labels).map Put.key =
    "ids" :: "tickets" :: "names" :: keyOf "labels" labels := by
  cases labels <;> rfl

theorem lastStored?_pickPuts :
    let stored := lastStored? (pickPuts ids tickets names labels)
    stored "ids" = some (.integerList ids) ∧
      stored "tickets" = some (.parcelableList (tickets.map Ticket.codec.toParcel)) ∧
      stored "names" = some (.stringList names) ∧
      stored "labels" = labels.map .charSequenceList := by
  cases labels <;> exact ⟨rfl, rfl, rfl, rfl⟩

theorem travels_pickFrom : Travels (pickFrom context ids tickets names labels) context
    ("ids" :: "tickets" :: "names" :: keyOf "labels" labels) := by
  rw [pickFrom_eq_putAll, ← keys_pickPuts]
  refine travels_putAll ?_
  cases labels <;> simp [pickPuts, Put.key]

theorem offers_pickFrom (h : ∀ ticket ∈ tickets, '\x00' ∉ ticket.label.toList) :
    Offers (pickFrom context ids tickets names labels) ids tickets names labels := by
  have hanswers : ∀ key, Request.Answers (pickFrom context ids tickets names labels) key
      (lastStored? (pickPuts ids tickets names labels) key) := by
    rw [pickFrom_eq_putAll]
    exact Request.answers_lastStored? context destination _
  obtain ⟨hids, htickets, hnames, hlabels⟩ := @lastStored?_pickPuts ids tickets names labels
  constructor
  · exact ((hanswers "ids").integers ids).2 hids
  · exact ((hanswers "tickets").parcelables Ticket.codec).decoded _ _ htickets
      (Ticket.mapM_ofParcel_toParcel h)
  · exact ((hanswers "names").strings names).2 hnames
  · have hown : Function.Injective Extra.charSequenceList := fun _ _ => Extra.charSequenceList.inj
    exact (hanswers "labels").charSequences.eq_of_map hown hlabels

end Picking

/-- **Requests give back what they were made of.** All three requests go to the detail screen from
the package of the context, and nothing is stored in them except for the arguments that are there,
each under its own key. If the label of the ticket is without zero characters and notes are read
back from their documents, the getters give back what is shown, and if the labels of all tickets are
without them, what there is to pick from, in its order; an argument that is absent is given back as
absent, and the count as what is given for it. -/
theorem answers_arguments (notes : DocumentCodec Note) (context : Context) (title : String)
    (count : Option Int32) (ticket : Ticket) (payload : Option Note) (ids : List Int32)
    (tickets : List Ticket) (names : List String) (labels : Option (List String)) :
    let shown := showTicket notes context title count ticket payload
    let picked := pickFrom context ids tickets names labels
    Travels (openScreen context) context [] ∧
      Travels shown context
        ("title" :: keyOf "count" count ++ "ticket" :: keyOf "payload" payload) ∧
      Travels picked context ("ids" :: "tickets" :: "names" :: keyOf "labels" labels) ∧
      (notes.RoundTrips → '\x00' ∉ ticket.label.toList →
        Shows notes shown title count ticket payload) ∧
      ((∀ ticket ∈ tickets, '\x00' ∉ ticket.label.toList) →
        Offers picked ids tickets names labels) :=
  ⟨travels_openScreen context, travels_showTicket, travels_pickFrom, shows_showTicket,
    offers_pickFrom⟩

/-- A ticket without a count and with a note, and lists of which one is empty and one is missing.
The document of a note is an object whose only member is its text. -/
theorem answers_arguments_gate :
    let notes : DocumentCodec Note :=
      { encode := fun note => some (.obj [("data", .str note.data)])
        decode := fun document =>
          match document with
          | .obj [("data", .str data)] => .ok ⟨data⟩
          | _ => .error "missing field" }
    let context : Context := ⟨"app"⟩
    let shown := showTicket notes context "Boarding" none ⟨7, "seat 12A"⟩ (some ⟨"gate \x00 B"⟩)
    let picked := pickFrom context [3, -1, 3] [⟨1, ""⟩, ⟨4294967295, "🍕"⟩] [] none
    shown.getInt "count" 5 = 5 ∧
      shown.getParcelable "ticket" Ticket.codec = .ok (some ⟨7, "seat 12A"⟩) ∧
      shown.extra? "payload" =
        some (.scalar (.serialized (.obj [("data", .str "gate \x00 B")]))) ∧
      shown.getDocument "payload" notes.decode = .ok (some ⟨"gate \x00 B"⟩) ∧
      shown.extraCount = 3 ∧
      picked.getParcelables "tickets" Ticket.codec =
        .ok (some [⟨1, ""⟩, ⟨4294967295, "🍕"⟩]) ∧
      picked.getStrings? "names" = some [] ∧ picked.getCharSequences? "labels" = none ∧
      picked.hasExtra "labels" = false := by
  intro notes context shown picked
  have hnotes : notes.RoundTrips := fun note => ⟨_, rfl, rfl⟩
  have hlabel : '\x00' ∉ "seat 12A".toList := by decide
  have hlabels : ∀ ticket ∈ [Ticket.mk 1 "", Ticket.mk 4294967295 "🍕"],
      '\x00' ∉ ticket.label.toList := by
    decide
  obtain ⟨-, hshown, hpicked, hshows, hoffers⟩ := answers_arguments notes context "Boarding" none
    ⟨7, "seat 12A"⟩ (some ⟨"gate \x00 B"⟩) [3, -1, 3] [⟨1, ""⟩, ⟨4294967295, "🍕"⟩] [] none
  replace hshows := hshows hnotes hlabel
  replace hoffers := hoffers hlabels
  refine ⟨hshows.int 5, hshows.parcelable, rfl, hshows.document, hshown.extraCount,
    hoffers.parcelables, hoffers.strings, hoffers.charSequences, ?_⟩
  have hnone : ¬picked.hasExtra "labels" = true := fun h =>
    absurd ((hpicked.hasExtra_iff "labels").1 h) (by decide)
  exact eq_false_of_ne_true hnone

end DetailRouter

end RequestRouter
