import RequestRouter.Json.Printer
import RequestRouter.Payload.Reader
import RequestRouter.Text.Literal

/-!
# Payload values

A single value that a request carries: one of the basic types, a text, a parcel, or a
document. Two values are equal if they are of the same kind and equal in it; numbers
are compared as numbers, so a value that is no number differs from itself.

Values of other types travel as parcels or as documents. A `RequestRouter.Codec` says how they are
flattened into bytes and read back; a parcel holds a value of the type if reading it uses up all its
bytes. A `RequestRouter.DocumentCodec` says which documents they have. Which ones these are is left
to the type: nothing here depends on it.
-/

namespace RequestRouter

/-! ### Types that travel -/

/-- How values of a type travel as parcels. -/
structure Codec (α : Type) where
  /-- The bytes of a value. -/
  encode : α → List UInt8
  /-- Reads a value. -/
  decode : Read α

namespace Codec

variable {α : Type}

/-- The parcel of a value. -/
def toParcel (codec : Codec α) (a : α) : Parcel := ⟨codec.encode a⟩

/-- The value in a parcel. -/
def ofParcel (codec : Codec α) (parcel : Parcel) : Except ParcelError α :=
  match codec.decode.startAt parcel.reader with
  | (.error e, _) => .error e
  | (.ok a, reader) =>
    if reader.isExhausted then .ok a else .error (.trailing reader.rest.length)

/-- Records with fields of the given kinds. -/
def fields (kinds : List WireKind) : Codec (List WireValue) where
  encode values := values.flatMap WireValue.bytes
  decode := Read.values kinds

end Codec

/-- Takes a value of a type out of documents, or says what is wrong with one. -/
abbrev Decoder (α : Type) := Json → Except String α

/-- How values of a type travel as documents. -/
structure DocumentCodec (α : Type) where
  /-- The document of a value, if it has one. -/
  encode : α → Option Json
  /-- Reads a value. -/
  decode : Decoder α

/-- Every value has a document that it is read back from. -/
def DocumentCodec.RoundTrips {α : Type} (codec : DocumentCodec α) : Prop :=
  ∀ a, ∃ document, codec.encode a = some document ∧ codec.decode document = .ok a

/-! ### Values -/

/-- A value that a request carries. -/
inductive PayloadValue where
  /-- A truth value. -/
  | bool (value : Bool)
  /-- A signed integer of 8 bits. -/
  | byte (value : Int8)
  /-- A character. -/
  | char (value : Char)
  /-- A signed integer of 16 bits. -/
  | short (value : Int16)
  /-- A signed integer of 32 bits. -/
  | int (value : Int32)
  /-- A signed integer of 64 bits. -/
  | long (value : Int64)
  /-- A number of the 32-bit format. -/
  | float (value : Binary32)
  /-- A number of the 64-bit format. -/
  | double (value : Binary64)
  /-- A text. -/
  | string (value : String)
  /-- A value of some type, flattened. -/
  | parcel (value : Parcel)
  /-- A document. -/
  | serialized (value : Json)

/-- The kinds of payload values. -/
inductive PayloadKind where
  /-- A truth value. -/
  | bool
  /-- A signed integer of 8 bits. -/
  | byte
  /-- A character. -/
  | char
  /-- A signed integer of 16 bits. -/
  | short
  /-- A signed integer of 32 bits. -/
  | int
  /-- A signed integer of 64 bits. -/
  | long
  /-- A number of the 32-bit format. -/
  | float
  /-- A number of the 64-bit format. -/
  | double
  /-- A text. -/
  | string
  /-- A flattened value. -/
  | parcel
  /-- A document. -/
  | serialized
deriving DecidableEq

/-- The name of the kind in messages. -/
def PayloadKind.text : PayloadKind → String
  | .bool => "bool"
  | .byte => "byte"
  | .char => "char"
  | .short => "short"
  | .int => "int"
  | .long => "long"
  | .float => "float"
  | .double => "double"
  | .string => "string"
  | .parcel => "parcel"
  | .serialized => "serialized"

namespace PayloadValue

/-- The kind of the value. -/
def kind : PayloadValue → PayloadKind
  | .bool _ => .bool
  | .byte _ => .byte
  | .char _ => .char
  | .short _ => .short
  | .int _ => .int
  | .long _ => .long
  | .float _ => .float
  | .double _ => .double
  | .string _ => .string
  | .parcel _ => .parcel
  | .serialized _ => .serialized

/-- The value of a type that travels as a parcel. -/
def ofParcelable {α : Type} (codec : Codec α) (a : α) : PayloadValue := .parcel (codec.toParcel a)

/-- The value of a payload by its document; one that has no document is stored as
`null`. -/
def ofDocument (document : Option Json) : PayloadValue := .serialized (document.getD .null)

/-- The value of a type that travels as a document. -/
def ofSerializable {α : Type} (codec : DocumentCodec α) (a : α) : PayloadValue :=
  .ofDocument (codec.encode a)

/-- The integer, if the value is one of 32 bits. -/
def int? : PayloadValue → Option Int32
  | .int value => some value
  | _ => none

/-- The text, if the value is one. -/
def string? : PayloadValue → Option String
  | .string value => some value
  | _ => none

/-- Equality of values. -/
def equal : PayloadValue → PayloadValue → Bool
  | .bool a, .bool b => a == b
  | .byte a, .byte b => a == b
  | .char a, .char b => a == b
  | .short a, .short b => a == b
  | .int a, .int b => a == b
  | .long a, .long b => a == b
  | .float a, .float b => a.equal b
  | .double a, .double b => a.equal b
  | .string a, .string b => a == b
  | .parcel a, .parcel b => a == b
  | .serialized a, .serialized b => a.equal b
  | _, _ => false

/-- The value as it is shown for inspection. -/
def inspect : PayloadValue → String
  | .bool value => if value then "true" else "false"
  | .byte value => toString value.toInt
  | .char value => Text.charLiteral value
  | .short value => toString value.toInt
  | .int value => toString value.toInt
  | .long value => toString value.toInt
  | .float value => value.inspect
  | .double value => value.inspect
  | .string value => Text.stringLiteral value
  | .parcel value => "Parcel(" ++ toString value.size ++ " bytes)"
  | .serialized value => value.compact

end PayloadValue

/-- The document of a map whose keys are documents, if they are texts. -/
def Json.ofMap? (entries : List (Json × Json)) : Option Json :=
  (entries.mapM fun (entry : Json × Json) =>
    match entry.1 with
    | .str key => some (key, entry.2)
    | _ => none).map Json.object

end RequestRouter
