import RequestRouter.Payload.Request

/-!
# The router of the sample application

Requests to the detail screen of the sample application. They carry, among other things, tickets,
which travel as parcels, and notes, which travel as documents. The documents of notes are a
parameter here. Arguments that are absent leave no extra behind.
-/

namespace RequestRouter

/-- A ticket. -/
structure Ticket where
  /-- The number. -/
  id : UInt32
  /-- The label; one with a zero character in it cannot be read back. -/
  label : String
deriving DecidableEq

namespace Ticket

/-- A ticket travels as its number and its label. -/
def codec : Codec Ticket where
  encode ticket := Wire.uintBytes ticket.id ++ Wire.stringBytes ticket.label
  decode := do
    let id ← Read.uint
    let label ← Read.string
    return ⟨id, label⟩

/-- The ticket as a value of a request. -/
def value (ticket : Ticket) : PayloadValue := .ofParcelable codec ticket

/-- The ticket as it is shown for inspection. -/
def inspect (ticket : Ticket) : String :=
  "TestParcelable \x7b id: " ++ toString ticket.id.toNat ++ ", label: "
    ++ Text.stringLiteral ticket.label ++ " \x7d"

end Ticket

/-- A note. -/
structure Note where
  /-- The text. -/
  data : String
deriving DecidableEq

/-- The note as it is shown for inspection. -/
def Note.inspect (note : Note) : String :=
  "TestSerializable \x7b data: " ++ Text.stringLiteral note.data ++ " \x7d"

namespace DetailRouter

/-- The screen that the requests go to. -/
def destination : ClassName := ⟨"screens", "DetailScreen"⟩

/-- The request with what `store` makes of an argument, if that is there. -/
def storeSome {α : Type} (store : Request → α → Request) (argument : Option α)
    (request : Request) : Request :=
  match argument with
  | none => request
  | some a => store request a

/-- Opens the screen. -/
def openScreen (context : Context) : Request := Request.create context destination

/-- Shows a ticket on the screen. -/
def showTicket (notes : DocumentCodec Note) (context : Context) (title : String)
    (count : Option Int32) (ticket : Ticket) (payload : Option Note) : Request :=
  let request := Request.create context destination
  let request := request.putValue "title" (.string title)
  let request := storeSome (fun r n => r.putValue "count" (.int n)) count request
  let request := request.putValue "ticket" ticket.value
  storeSome (fun r note => r.putValue "payload" (.ofSerializable notes note)) payload request

/-- Lets the screen pick from lists. -/
def pickFrom (context : Context) (ids : List Int32) (tickets : List Ticket)
    (names : List String) (labels : Option (List String)) : Request :=
  let request := Request.create context destination
  let request := request.putIntegers "ids" ids
  let request := request.putParcelables "tickets" Ticket.codec tickets
  let request := request.putStrings "names" names
  storeSome (fun r texts => r.putCharSequences "labels" texts) labels request

end DetailRouter

end RequestRouter
