import RequestRouter.Json.Basic
import RequestRouter.Text.Quoted

/-!
# The text of a JSON document

Two forms: `RequestRouter.Json.compact` has no blanks at all, and `RequestRouter.Json.indented`
has every item and member on a line of its own, two spaces deeper than the brackets
around it. Empty brackets stay together in both.
-/

namespace RequestRouter

namespace Json

/-- `parts` with `between` after each but the last. -/
def joinChars (between : List Char) : List (List Char) → List Char
  | [] => []
  | [part] => part
  | part :: rest => part ++ between ++ joinChars between rest

/-- The text of a document that has no parts. -/
def scalarChars : Json → List Char
  | .bool true => ['t', 'r', 'u', 'e']
  | .bool false => ['f', 'a', 'l', 's', 'e']
  | .int value => (toString value).toList
  | .float value => value.document.toList
  | .str value => Text.quotedChars value.toList
  | _ => ['n', 'u', 'l', 'l']

mutual

/-- The document without blanks. -/
def compactChars : Json → List Char
  | .arr items => '[' :: (joinChars [','] (compactItems items) ++ [']'])
  | .obj members => '\x7b' :: (joinChars [','] (compactMembers members) ++ ['\x7d'])
  | .null => scalarChars .null
  | .bool value => scalarChars (.bool value)
  | .int value => scalarChars (.int value)
  | .float value => scalarChars (.float value)
  | .str value => scalarChars (.str value)

/-- The items without blanks. -/
def compactItems : List Json → List (List Char)
  | [] => []
  | item :: rest => compactChars item :: compactItems rest

/-- The members without blanks. -/
def compactMembers : List (String × Json) → List (List Char)
  | [] => []
  | (key, value) :: rest =>
    (Text.quotedChars key.toList ++ ':' :: compactChars value) :: compactMembers rest

end

/-- The document without blanks. -/
def compact (document : Json) : String := String.ofList (compactChars document)

/-- The start of a line at the given depth. -/
def lineStart (depth : Nat) : List Char := '\n' :: List.replicate (2 * depth) ' '

/-- `parts` between brackets, each on a line of its own one step deeper. -/
def bracketed (opening closing : Char) (depth : Nat) (parts : List (List Char)) : List Char :=
  if parts.isEmpty then [opening, closing]
  else
    opening :: (lineStart (depth + 1) ++ joinChars (',' :: lineStart (depth + 1)) parts
      ++ lineStart depth ++ [closing])

mutual

/-- The document with its parts on lines of their own. -/
def indentedChars (depth : Nat) : Json → List Char
  | .arr items => bracketed '[' ']' depth (indentedItems (depth + 1) items)
  | .obj members => bracketed '\x7b' '\x7d' depth (indentedMembers (depth + 1) members)
  | .null => scalarChars .null
  | .bool value => scalarChars (.bool value)
  | .int value => scalarChars (.int value)
  | .float value => scalarChars (.float value)
  | .str value => scalarChars (.str value)

/-- The items at the given depth. -/
def indentedItems (depth : Nat) : List Json → List (List Char)
  | [] => []
  | item :: rest => indentedChars depth item :: indentedItems depth rest

/-- The members at the given depth. -/
def indentedMembers (depth : Nat) : List (String × Json) → List (List Char)
  | [] => []
  | (key, value) :: rest =>
    (Text.quotedChars key.toList ++ [':', ' '] ++ indentedChars depth value)
      :: indentedMembers depth rest

end

/-- The document with its parts on lines of their own. -/
def indented (document : Json) : String := String.ofList (indentedChars 0 document)

end Json

end RequestRouter
