import RequestRouter.Payload.Value
import RequestRouter.Router.ExtraKind

/-!
# Extras

What a request holds under one key: a single value, or a list of one of four kinds. The
kind of an extra is that of the operation that stored it, so a reader that asks for a
list is never given a single value, and lists of strings and of character sequences
stay apart.
-/

namespace RequestRouter

/-- An entry of a request. -/
inductive Extra where
  /-- A single value. -/
  | scalar (value : PayloadValue)
  /-- A list of 32-bit integers. -/
  | integerList (values : List Int32)
  /-- A list of parcels. -/
  | parcelableList (values : List Parcel)
  /-- A list of strings. -/
  | stringList (values : List String)
  /-- A list of character sequences. -/
  | charSequenceList (values : List String)

namespace Extra

/-- The operation that stored the extra. -/
def kind : Extra → ExtraKind
  | .scalar _ => .scalar
  | .integerList _ => .integerList
  | .parcelableList _ => .parcelableList
  | .stringList _ => .stringList
  | .charSequenceList _ => .charSequenceList

/-- The name in messages of what the extra holds. -/
def kindText : Extra → String
  | .scalar value => value.kind.text
  | .integerList _ => "integer list"
  | .parcelableList _ => "parcelable list"
  | .stringList _ => "string list"
  | .charSequenceList _ => "char sequence list"

/-- Equality of extras. -/
def equal : Extra → Extra → Bool
  | .scalar a, .scalar b => a.equal b
  | .integerList a, .integerList b => a == b
  | .parcelableList a, .parcelableList b => a == b
  | .stringList a, .stringList b => a == b
  | .charSequenceList a, .charSequenceList b => a == b
  | _, _ => false

/-- Texts in brackets with commas between them. -/
def bracketedTexts (texts : List String) : String := "[" ++ ", ".intercalate texts ++ "]"

/-- The parcel as it is shown in a list. -/
def inspectParcel (parcel : Parcel) : String :=
  "Parcel \x7b data: " ++ bracketedTexts (parcel.bytes.map fun b => toString b.toNat) ++ " \x7d"

/-- The extra as it is shown for inspection. -/
def inspect : Extra → String
  | .scalar value => "Scalar(" ++ value.inspect ++ ")"
  | .integerList values =>
    "IntegerList(" ++ bracketedTexts (values.map fun i => toString i.toInt) ++ ")"
  | .parcelableList values => "ParcelableList(" ++ bracketedTexts (values.map inspectParcel) ++ ")"
  | .stringList values => "StringList(" ++ bracketedTexts (values.map Text.stringLiteral) ++ ")"
  | .charSequenceList values =>
    "CharSequenceList(" ++ bracketedTexts (values.map Text.stringLiteral) ++ ")"

end Extra

end RequestRouter
