/-!
# The kinds of extras

A parameter that is passed on in a request is stored as an extra of one of five kinds.
A mark of the kind's name in front of the parameter chooses the kind, and each kind has
an operation of requests that stores it. Where several marks apply, the first kind in
the order of `RequestRouter.ExtraKind.all` wins.
-/

namespace RequestRouter

/-- How a parameter is stored in a request. -/
inductive ExtraKind where
  /-- A single value. -/
  | scalar
  /-- A list of 32-bit integers. -/
  | integerList
  /-- A list of parcels. -/
  | parcelableList
  /-- A list of strings. -/
  | stringList
  /-- A list of character sequences. -/
  | charSequenceList
deriving DecidableEq, Repr

namespace ExtraKind

/-- The kinds, in order of priority. -/
def all : List ExtraKind :=
  [.scalar, .integerList, .parcelableList, .stringList, .charSequenceList]

/-- The name of the mark that chooses the kind. -/
def markName : ExtraKind → String
  | .scalar => "Extra"
  | .integerList => "IntegerArrayListExtra"
  | .parcelableList => "ParcelableArrayListExtra"
  | .stringList => "StringArrayListExtra"
  | .charSequenceList => "CharSequenceArrayListExtra"

/-- The operation that stores an extra of the kind. -/
def storeOperation : ExtraKind → String
  | .scalar => "put_extra"
  | .integerList => "put_integer_array_list_extra"
  | .parcelableList => "put_parcelable_array_list_extra"
  | .stringList => "put_string_array_list_extra"
  | .charSequenceList => "put_char_sequence_array_list_extra"

end ExtraKind

end RequestRouter
