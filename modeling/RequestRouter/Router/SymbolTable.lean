import RequestRouter.Router.Lookup

/-!
# The symbol table of a round

The types declared by the files of a round are still being compiled while the round
runs; types of earlier rounds are compiled. A reference is looked up under one
qualified name: a reference with separators under itself, another one under the
first of the imports that ends with it, or else as a type of the same package. A name
that was written out in full – in the reference or in an import – is trusted even if
the table does not have it.
-/

namespace RequestRouter

/-- The types that a round knows. -/
structure SymbolTable where
  /-- The qualified names declared in the round. -/
  pending : List String
  /-- The qualified names compiled earlier. -/
  compiled : List String

namespace SymbolTable

/-- The table of a round of `files`, with the names compiled earlier. -/
def ofFiles (files : List SourceFile) (compiled : List String) : SymbolTable :=
  ⟨(files.flatMap SourceFile.elements).map Element.qualifiedName, compiled⟩

/-- Whether the type is declared in the round. -/
def isPending (table : SymbolTable) (qualified : String) : Bool :=
  table.pending.contains qualified

/-- Whether the type was compiled earlier. -/
def isCompiled (table : SymbolTable) (qualified : String) : Bool :=
  table.compiled.contains qualified

/-- What the table has under a qualified name. A type that was compiled earlier counts
as compiled even if the round declares it anew. -/
def find? (table : SymbolTable) (qualified : String) : Option Lookup :=
  if table.isCompiled qualified then some (.found (.ofQualified qualified))
  else if table.isPending qualified then some (.deferred qualified)
  else none

/-- What the table answers about a name that was written out in full. -/
def trusted (table : SymbolTable) (qualified : String) : Lookup :=
  (table.find? qualified).getD (.deferred qualified)

/-- Whether the reference has segments. -/
def isQualified (reference : String) : Bool := (Text.splitLast? reference.toList).isSome

/-- Whether the last segment of the import is the reference. -/
def importsAs (reference imported : String) : Bool :=
  (Text.separator ++ reference).toList.isSuffixOf imported.toList

/-- What the table answers about a reference inside `scope`. -/
def resolve (table : SymbolTable) (reference : String) (scope : Element) : Lookup :=
  if isQualified reference then table.trusted reference
  else
    match scope.imports.find? (importsAs reference) with
    | some imported => table.trusted imported
    | none =>
      (table.find? (Text.qualify scope.package reference)).getD (.unknown reference)

/-- The host of a plain round. -/
def host (table : SymbolTable) : Host := ⟨Element.package, table.resolve⟩

end SymbolTable

end RequestRouter
