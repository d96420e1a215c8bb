/-!
# Names in segments

Qualified names are segments joined by `::`. A name is cut in two ways here: at its
*last* separator, which parts a type from the package that holds it, and at *every*
separator from left to right, which gives the directories of the package. In a run
of more than two colons the ways differ: the last separator is the last two colons,
while cutting from the left takes the first two.

A type is named by the package that holds it and its simple name (`RequestRouter.ClassName`); a name
without separator lies in the root package.
-/

namespace RequestRouter

namespace Text

/-- The separator between two segments. -/
def separator : String := "::"

/-- The parts of `s` before and after its last separator, if it has one. -/
def splitLast? : List Char → Option (List Char × List Char)
  | [] => none
  | c :: rest =>
    match splitLast? rest with
    | some (before, after) => some (c :: before, after)
    | none => if c = ':' && rest.head? = some ':' then some ([], rest.tail) else none

/-- The parts of `s` between its separators, taken from the left. -/
def segments : List Char → List (List Char)
  | [] => [[]]
  | ':' :: ':' :: rest => [] :: segments rest
  | c :: rest =>
    match segments rest with
    | [] => [[c]]
    | first :: others => (c :: first) :: others

/-- `name` inside `package`: the two joined by the separator, and `name` alone in the
root package, whose name is empty. -/
def qualify (package name : String) : String :=
  if package.isEmpty then name else package ++ separator ++ name

@[simp] theorem qualify_root (name : String) : qualify "" name = name := rfl

end Text

/-- A type, named by its package and its simple name. -/
structure ClassName where
  /-- The package; empty for the root package. -/
  package : String
  /-- The name inside the package. -/
  simple : String
deriving DecidableEq, Repr

namespace ClassName

/-- The type with the given qualified name. -/
def ofQualified (qualified : String) : ClassName :=
  match Text.splitLast? qualified.toList with
  | some (package, simple) => ⟨String.ofList package, String.ofList simple⟩
  | none => ⟨"", qualified⟩

/-- The qualified name. -/
def canonical (name : ClassName) : String := Text.qualify name.package name.simple

end ClassName

end RequestRouter
