import RequestRouter.Boarding.DetailRouter
import RequestRouter.Proofs.Payload.Carrying

/-!
# Tickets in requests

Tickets are stored in a request one by one or in lists, and read back from it after anything was
stored under other keys. A ticket is read back *exactly* if its label is without zero characters
(`RequestRouter.Request.getParcelable_ticket_iff`), for a label with one looks like two texts in a
row: the reader takes the first for the label, and finds the second left over. So a getter gives
what was stored or an error, and never another ticket.
-/

namespace RequestRouter

/-- **A zero character ends a text**: the bytes of a text with one are those of the texts in front
of it and behind it. -/
theorem Wire.stringBytes_append_zero (front back : List Char) :
    stringBytes (String.ofList (front ++ '\x00' :: back)) =
      stringBytes (String.ofList front) ++ stringBytes (String.ofList back) := by
  have hzero : String.utf8EncodeChar '\x00' = [0] := by decide
  simp [stringBytes, Text.utf8Bytes, hzero]

namespace Ticket

variable {ticket found : Ticket}

/-- Whatever follows, the label ends with the first zero byte. -/
theorem takes_decode (id : UInt32) {label : String} (h : '\x00' ∉ label.toList) :
    codec.decode.Takes (codec.encode ⟨id, label⟩) ⟨id, label⟩ :=
  (Read.takes_uint id).bind ((Read.takes_string h).bind_pure (Ticket.mk id))

/-- A zero character ends the label: what is behind the first one is left over. -/
theorem ofParcel_toParcel_of_zero (id : UInt32) (front back : List Char) (h : '\x00' ∉ front) :
    codec.ofParcel (codec.toParcel ⟨id, String.ofList (front ++ '\x00' :: back)⟩) =
      .error (.trailing (Wire.stringBytes (String.ofList back)).length) := by
  have hbytes : codec.toParcel ⟨id, String.ofList (front ++ '\x00' :: back)⟩ =
      ⟨codec.encode ⟨id, String.ofList front⟩ ++ Wire.stringBytes (String.ofList back)⟩ := by
    change Parcel.mk (Wire.uintBytes id ++ Wire.stringBytes _) =
      ⟨Wire.uintBytes id ++ Wire.stringBytes (String.ofList front) ++ _⟩
    rw [Wire.stringBytes_append_zero, List.append_assoc]
  have hread : codec.decode.Takes (codec.encode ⟨id, String.ofList front⟩)
      ⟨id, String.ofList front⟩ := takes_decode id (by rwa [String.toList_ofList])
  rw [hbytes, Codec.ofParcel_of_takes hread]
  simp [Wire.stringBytes]

/-- **A ticket is read back** exactly if its label is without zero characters; any other ticket is
refused. -/
theorem ofParcel_toParcel_eq_ok_iff :
    codec.ofParcel (codec.toParcel ticket) = .ok found ↔
      found = ticket ∧ '\x00' ∉ ticket.label.toList := by
  obtain ⟨id, label⟩ := ticket
  by_cases hzero : '\x00' ∈ label.toList
  · obtain ⟨front, back, hlabel, hfront⟩ := List.eq_append_cons_of_mem hzero
    have hread := ofParcel_toParcel_of_zero id front back hfront
    rw [← hlabel, String.ofList_toList] at hread
    rw [hread]
    simp [hzero]
  · rw [Codec.ofParcel_toParcel (takes_decode id hzero)]
    simp [hzero, eq_comm]

/-- Of a list, all tickets are read back or none. -/
theorem forall₂_ofParcel_toParcel_iff {tickets founds : List Ticket} :
    List.Forall₂ (fun ticket found => codec.ofParcel (codec.toParcel ticket) = .ok found)
        tickets founds ↔
      founds = tickets ∧ ∀ ticket ∈ tickets, '\x00' ∉ ticket.label.toList := by
  simp only [ofParcel_toParcel_eq_ok_iff]
  induction tickets generalizing founds with
  | nil => simp
  | cons ticket tickets ih =>
    cases founds with
    | nil => simp
    | cons found founds =>
      rw [List.forall₂_cons, ih, List.forall_mem_cons, List.cons.injEq]
      exact and_and_and_comm

end Ticket

/-- **Which tickets survive a request**. A ticket is stored under one key and a list of tickets
under another, and after anything was stored under other keys, the getters are asked for them. They
give the ticket exactly if its label is without zero characters, and the list, in its order, exactly
if all labels are; otherwise they give an error, and never anything else. -/
theorem Request.getParcelable_ticket_iff (request : Request) (key listKey : String)
    (hkeys : key ≠ listKey) (ticket : Ticket) (tickets : List Ticket) (later : List Put)
    (hlater : ∀ put ∈ later, put.key ≠ key ∧ put.key ≠ listKey) :
    let stored := (request.putValue key ticket.value).putParcelables listKey Ticket.codec tickets
    let single := (stored.putAll later).getParcelable key Ticket.codec
    let list := (stored.putAll later).getParcelables listKey Ticket.codec
    (single = .ok (some ticket) ↔ '\x00' ∉ ticket.label.toList) ∧
      (list = .ok (some tickets) ↔ ∀ ticket ∈ tickets, '\x00' ∉ ticket.label.toList) ∧
      (∀ found, single = .ok found → found = some ticket) ∧
      ∀ found, list = .ok found → found = some tickets := by
  intro stored single list
  have hsingle : (stored.putAll later).extra? key =
      some (.scalar (.ofParcelable Ticket.codec ticket)) := by
    rw [extra?_putAll_of_ne fun put hput => (hlater put hput).1]
    exact (extra?_put_of_ne hkeys _ _).trans (extra?_put_self request key _)
  have hlist : (stored.putAll later).extra? listKey =
      some (.parcelableList (tickets.map Ticket.codec.toParcel)) := by
    rw [extra?_putAll_of_ne fun put hput => (hlater put hput).2]
    exact extra?_put_self _ listKey _
  have hone : ∀ found, single = .ok found ↔
      found = some ticket ∧ '\x00' ∉ ticket.label.toList := by
    intro found
    rw [getParcelable_eq_ok_iff hsingle]
    simp [Ticket.ofParcel_toParcel_eq_ok_iff, and_comm]
  have hall : ∀ found, list = .ok found ↔
      found = some tickets ∧ ∀ ticket ∈ tickets, '\x00' ∉ ticket.label.toList := by
    intro found
    rw [getParcelables_eq_ok_iff hlist]
    simp [Ticket.forall₂_ofParcel_toParcel_iff, and_comm]
  refine ⟨?_, ?_, fun found hfound => ((hone found).1 hfound).1,
    fun found hfound => ((hall found).1 hfound).1⟩
  · rw [hone]
    exact and_iff_right rfl
  · rw [hall]
    exact and_iff_right rfl

/-- A request of the sample application. -/
def ticketRequest : Request := Request.create ⟨"app"⟩ ⟨"app::screens", "Detail"⟩

/-- A character of four bytes, the greatest number and an empty label, with something stored
afterwards. -/
theorem Request.getParcelable_ticket_seat :
    let tickets : List Ticket := [⟨4294967295, "🍕"⟩, ⟨0, ""⟩]
    let later : List Put := [.strings "names" ["k1", "k2"], .integers "" [1, -1]]
    let stored := (ticketRequest.putValue "k1" (Ticket.mk 7 "seat 12A").value).putParcelables "k2"
      Ticket.codec tickets
    (∀ put ∈ later, put.key ≠ "k1" ∧ put.key ≠ "k2") ∧
      (stored.putAll later).getParcelable "k1" Ticket.codec = .ok (some ⟨7, "seat 12A"⟩) ∧
      (stored.putAll later).getParcelables "k2" Ticket.codec = .ok (some tickets) := by
  intro tickets later stored
  have hlater : ∀ put ∈ later, put.key ≠ "k1" ∧ put.key ≠ "k2" := by simp [later, Put.key]
  obtain ⟨hsingle, hlist, -⟩ := Request.getParcelable_ticket_iff ticketRequest "k1" "k2" (by decide)
    ⟨7, "seat 12A"⟩ tickets later hlater
  exact ⟨hlater, hsingle.2 (by decide +kernel), hlist.2 (by decide +kernel)⟩

/-- **A zero character is not survived**: both getters find bytes left over. -/
theorem Request.getParcelable_ticket_zero :
    let ticket : Ticket := ⟨7, "a\x00b"⟩
    let stored := (ticketRequest.putValue "k1" ticket.value).putParcelables "k2" Ticket.codec
      [ticket]
    stored.getParcelable "k1" Ticket.codec = .error (.parcel "k1" (.trailing 2)) ∧
      stored.getParcelables "k2" Ticket.codec = .error (.parcel "k2" (.trailing 2)) := by
  intro ticket stored
  have hread : Ticket.codec.ofParcel (Ticket.codec.toParcel ticket) = .error (.trailing 2) :=
    Ticket.ofParcel_toParcel_of_zero 7 ['a'] ['b'] (by decide)
  have hsingle : stored.extra? "k1" = some (.scalar (.ofParcelable Ticket.codec ticket)) :=
    (extra?_put_of_ne (by decide) _ _).trans (extra?_put_self ticketRequest "k1" _)
  have hlist : stored.extra? "k2" = some (.parcelableList [Ticket.codec.toParcel ticket]) :=
    extra?_put_self _ "k2" _
  constructor
  · rw [Request.getParcelable, hsingle, PayloadValue.ofParcelable]
    simp only [hread]
  · rw [Request.getParcelables, hlist]
    simp only [List.mapM_cons, hread]
    rfl

end RequestRouter
