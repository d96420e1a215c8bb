import RequestRouter.Declaration.SourceFile
import RequestRouter.Router.Fault
import RequestRouter.Text.Ranges

/-!
# Looking up types

The host that runs a round knows which types there are. It answers a reference with a
type, or says that the type is still being compiled and gives its qualified name, or
that it knows none (`RequestRouter.Lookup`). A host is a value of two functions, so any pure
host can be reasoned about; the host of a plain round is
`RequestRouter.SymbolTable.host`.

The destination of a router is the path in its marker, looked up by the host. A type
that is still being compiled is named well enough by its qualified name.
-/

namespace RequestRouter

/-- What a host answers about a reference. -/
inductive Lookup where
  /-- The type. -/
  | found (name : ClassName)
  /-- The type is still being compiled; its qualified name. -/
  | deferred (descriptor : String)
  /-- There is no such type. -/
  | unknown (name : String)
deriving DecidableEq

/-- What the host of a round knows. -/
structure Host where
  /-- The package of an element. -/
  packageOf : Element → String
  /-- The type of a reference, as written inside an element. -/
  resolve : (reference : String) → (scope : Element) → Lookup

/-- The type that a descriptor names; blanks around it do not count. -/
def ClassName.ofDescriptor (descriptor : String) : ClassName :=
  .ofQualified (String.ofList (Text.trim descriptor.toList))

/-- The type that is found or still being compiled. -/
def Lookup.className : Lookup → Except Fault ClassName
  | .found name => .ok name
  | .deferred descriptor => .ok (.ofDescriptor descriptor)
  | .unknown name => .error (.unresolved name)

/-- The first marker of the element. -/
def Element.routerMark? (element : Element) : Option Mark := findMark? routerMark element.marks

/-- The type that requests of the router go to. -/
def Element.destination (host : Host) (element : Element) : Except Fault ClassName :=
  match element.routerMark? with
  | none => .error (.unmarked element.name)
  | some mark =>
    match mark.path? with
    | none => .error (.noDestination element.name)
    | some reference => (host.resolve reference element).className

end RequestRouter
