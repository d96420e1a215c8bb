import RequestRouter.Boarding.DetailRouter

/-!
# A tour of the sample application

One request of each method of the sample router, and what is read back from it, a line
for each.
-/

namespace RequestRouter

namespace Tour

/-- A value that may be absent, shown for inspection. -/
def inspectOption {α : Type} (inspect : α → String) : Option α → String
  | none => "None"
  | some a => "Some(" ++ inspect a ++ ")"

/-- A list, shown for inspection. -/
def inspectList {α : Type} (inspect : α → String) (items : List α) : String :=
  Extra.bracketedTexts (items.map inspect)

/-- The context of all requests. -/
def context : Context := ⟨"example"⟩

/-- The request that shows a ticket. -/
def shown (notes : DocumentCodec Note) : Request :=
  DetailRouter.showTicket notes context "Boarding pass" (some 3) ⟨7, "seat 12A"⟩
    (some ⟨"gate B"⟩)

/-- The request that picks from lists. -/
def picked : Request :=
  DetailRouter.pickFrom context [1, 2, 3] [⟨1, "a"⟩] ["first", "second"] none

/-- The request that opens the screen. -/
def opened : Request := DetailRouter.openScreen context

/-- The lines of the tour, unless a payload cannot be read back. -/
def lines (notes : DocumentCodec Note) : Except ExtraError (List String) := do
  let shown := shown notes
  let ticket ← shown.getParcelable "ticket" Ticket.codec
  let payload ← shown.getDocument "payload" notes.decode
  return [
    "destination = " ++ shown.destination.canonical,
    "title       = " ++ inspectOption Text.stringLiteral (shown.getString? "title"),
    "count       = " ++ toString (shown.getInt "count" 0).toInt,
    "ticket      = " ++ inspectOption Ticket.inspect ticket,
    "payload     = " ++ inspectOption Note.inspect payload,
    "ids         = " ++ inspectOption (inspectList fun i => toString i.toInt)
      (picked.getIntegers? "ids"),
    "names       = " ++ inspectOption (inspectList Text.stringLiteral)
      (picked.getStrings? "names"),
    "has labels  = " ++ (if picked.hasExtra "labels" then "true" else "false"),
    "extras      = " ++ toString picked.extraCount,
    "open        = " ++ opened.destination.canonical ++ " with " ++ toString opened.extraCount
      ++ " extras"]

/-- What the tour prints, and its exit status. -/
def printed (notes : DocumentCodec Note) : Nat × String :=
  match lines notes with
  | .ok lines => (0, String.join (lines.map fun line => line ++ "\n"))
  | .error _ => (1, "")

end Tour

end RequestRouter
