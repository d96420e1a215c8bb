import RequestRouter.Payload.Extra
import RequestRouter.Text.Segments

/-!
# Requests

A request to go somewhere: where it comes from, where it goes, and extras under keys.
Storing under a key that is there replaces what it held; extras are listed in the order
of their keys.

The getters ask for an extra of one kind. Those that only read answer nothing where
there is no extra or one of another kind; those that decode tell the two apart, and say
why an extra cannot be decoded (`RequestRouter.ExtraError`).
-/

namespace RequestRouter

/-- What a request is built from: the package that it comes from. -/
structure Context where
  /-- The package. -/
  package : String
deriving DecidableEq

/-- A request. -/
structure Request where
  /-- The package of the context that it was built from. -/
  origin : String
  /-- The type that it goes to. -/
  destination : ClassName
  /-- What it carries. -/
  extras : KeyMap Extra

/-- Why an extra cannot be read as what was asked for. -/
inductive ExtraError where
  /-- It holds something else. -/
  | typeMismatch (key expected found : String)
  /-- Its parcel is no value of the type. -/
  | parcel (key : String) (cause : ParcelError)
  /-- Its document is no value of the type. -/
  | serialized (key cause : String)

/-- The error in words. The key is not escaped. -/
def ExtraError.message : ExtraError → String
  | .typeMismatch key expected found =>
    "Extra \"" ++ key ++ "\" holds " ++ found ++ ", expected " ++ expected
  | .parcel key cause => "Extra \"" ++ key ++ "\" could not be unparceled: " ++ cause.message
  | .serialized key cause => "Extra \"" ++ key ++ "\" could not be deserialized: " ++ cause

namespace Request

/-- The request from a context to a destination, without extras. -/
def create (context : Context) (destination : ClassName) : Request :=
  ⟨context.package, destination, KeyMap.empty⟩

/-! ### Storing -/

/-- The request with an extra under `key`. -/
def put (request : Request) (key : String) (extra : Extra) : Request :=
  { request with extras := request.extras.insert key extra }

/-- The request with a single value. -/
def putValue (request : Request) (key : String) (value : PayloadValue) : Request :=
  request.put key (.scalar value)

/-- The request with a list of integers. -/
def putIntegers (request : Request) (key : String) (values : List Int32) : Request :=
  request.put key (.integerList values)

/-- The request with a list of values that travel as parcels. -/
def putParcelables {α : Type} (request : Request) (key : String) (codec : Codec α)
    (values : List α) : Request :=
  request.put key (.parcelableList (values.map codec.toParcel))

/-- The request with a list of strings. -/
def putStrings (request : Request) (key : String) (values : List String) : Request :=
  request.put key (.stringList values)

/-- The request with a list of character sequences. -/
def putCharSequences (request : Request) (key : String) (values : List String) : Request :=
  request.put key (.charSequenceList values)

/-! ### Reading -/

/-- The extra under a key. -/
def extra? (request : Request) (key : String) : Option Extra := request.extras.get? key

/-- Whether there is an extra under a key. -/
def hasExtra (request : Request) (key : String) : Bool := (request.extra? key).isSome

/-- The number of extras. -/
def extraCount (request : Request) : Nat := request.extras.size

/-- The single value under a key. -/
def value? (request : Request) (key : String) : Option PayloadValue :=
  match request.extra? key with
  | some (.scalar value) => some value
  | _ => none

/-- The integer under a key, or else `default`. -/
def getInt (request : Request) (key : String) (default : Int32) : Int32 :=
  ((request.value? key).bind PayloadValue.int?).getD default

/-- The text under a key. -/
def getString? (request : Request) (key : String) : Option String :=
  (request.value? key).bind PayloadValue.string?

/-- The list of integers under a key. -/
def getIntegers? (request : Request) (key : String) : Option (List Int32) :=
  match request.extra? key with
  | some (.integerList values) => some values
  | _ => none

/-- The list of strings under a key. -/
def getStrings? (request : Request) (key : String) : Option (List String) :=
  match request.extra? key with
  | some (.stringList values) => some values
  | _ => none

/-- The list of character sequences under a key. -/
def getCharSequences? (request : Request) (key : String) : Option (List String) :=
  match request.extra? key with
  | some (.charSequenceList values) => some values
  | _ => none

/-- The value under a key that travels as a parcel. -/
def getParcelable {α : Type} (request : Request) (key : String) (codec : Codec α) :
    Except ExtraError (Option α) :=
  match request.extra? key with
  | none => .ok none
  | some (.scalar (.parcel parcel)) =>
    match codec.ofParcel parcel with
    | .ok a => .ok (some a)
    | .error cause => .error (.parcel key cause)
  | some other => .error (.typeMismatch key PayloadKind.parcel.text other.kindText)

/-- The values under a key that travel as parcels; the first that cannot be read stops. -/
def getParcelables {α : Type} (request : Request) (key : String) (codec : Codec α) :
    Except ExtraError (Option (List α)) :=
  match request.extra? key with
  | none => .ok none
  | some (.parcelableList parcels) =>
    match parcels.mapM codec.ofParcel with
    | .ok values => .ok (some values)
    | .error cause => .error (.parcel key cause)
  | some other => .error (.typeMismatch key "parcelable list" other.kindText)

/-- The value under a key that travels as a document. -/
def getDocument {α : Type} (request : Request) (key : String) (decoder : Decoder α) :
    Except ExtraError (Option α) :=
  match request.extra? key with
  | none => .ok none
  | some (.scalar (.serialized document)) =>
    match decoder document with
    | .ok a => .ok (some a)
    | .error cause => .error (.serialized key cause)
  | some other => .error (.typeMismatch key PayloadKind.serialized.text other.kindText)

/-! ### Comparing and showing -/

/-- Equality of lists of entries. -/
def equalEntries : List (String × Extra) → List (String × Extra) → Bool
  | [], [] => true
  | a :: as, b :: bs => a.1 == b.1 && a.2.equal b.2 && equalEntries as bs
  | _, _ => false

/-- Equality of requests. -/
def equal (a b : Request) : Bool :=
  a.origin == b.origin && a.destination == b.destination
    && equalEntries a.extras.entries b.extras.entries

end Request

/-- The type as the destination of a request, shown for inspection. -/
def ClassName.inspectDestination (name : ClassName) : String :=
  "Destination \x7b package: " ++ Text.stringLiteral name.package ++ ", name: "
    ++ Text.stringLiteral name.simple ++ " \x7d"

/-- The request as it is shown for inspection. -/
def Request.inspect (request : Request) : String :=
  let entries := request.extras.entries.map fun entry =>
    Text.stringLiteral entry.1 ++ ": " ++ entry.2.inspect
  "Request \x7b origin: " ++ Text.stringLiteral request.origin ++ ", destination: "
    ++ request.destination.inspectDestination ++ ", extras: \x7b" ++ ", ".intercalate entries
    ++ "\x7d \x7d"

end RequestRouter
