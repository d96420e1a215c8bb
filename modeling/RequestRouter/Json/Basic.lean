import RequestRouter.Floating.Layout
import RequestRouter.KeyMap

/-!
# JSON documents

Documents as trees. The members of an object are kept as a list, in the order in which
they are printed; `RequestRouter.Json.object` puts them in key order and keeps, of two
members with one key, the later one, as reading a text does.

A number is an integer or a 64-bit floating-point number, and the two are never equal:
the document `1` differs from `1.0`.
-/

namespace RequestRouter

/-- A JSON document. -/
inductive Json where
  /-- The document `null`. -/
  | null
  /-- A truth value. -/
  | bool (value : Bool)
  /-- An integer. -/
  | int (value : Int)
  /-- A number with a fraction or an exponent. -/
  | float (value : Binary64)
  /-- A text. -/
  | str (value : String)
  /-- A list of documents. -/
  | arr (items : List Json)
  /-- Documents under keys. -/
  | obj (members : List (String × Json))

namespace Json

/-- The object with the given members, in key order and the later of two with one key. -/
def object (members : List (String × Json)) : Json :=
  .obj (members.foldl (fun entries m => KeyMap.insertEntry m.1 m.2 entries) [])

/-- A natural number. -/
def nat (n : Nat) : Json := .int n

/-- The text, or `null` where there is none. -/
def ofText? : Option String → Json
  | none => .null
  | some s => .str s

/-- The member of an object under `key`; any other document has none. -/
def member? (key : String) : Json → Option Json
  | .obj members => KeyMap.find? key members
  | _ => none

mutual

/-- Equality of documents. Floating-point numbers are compared as numbers, all else by
its parts. -/
def equal : Json → Json → Bool
  | .null, .null => true
  | .bool a, .bool b => a == b
  | .int a, .int b => a == b
  | .float a, .float b => a.equal b
  | .str a, .str b => a == b
  | .arr a, .arr b => equalItems a b
  | .obj a, .obj b => equalMembers a b
  | _, _ => false

/-- Equality of lists of documents. -/
def equalItems : List Json → List Json → Bool
  | [], [] => true
  | a :: as, b :: bs => equal a b && equalItems as bs
  | _, _ => false

/-- Equality of lists of members. -/
def equalMembers : List (String × Json) → List (String × Json) → Bool
  | [], [] => true
  | (k, a) :: as, (l, b) :: bs => k == l && equal a b && equalMembers as bs
  | _, _ => false

end

end Json

end RequestRouter
