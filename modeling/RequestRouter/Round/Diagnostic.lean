import RequestRouter.Json.Basic
import RequestRouter.Router.Basic

/-!
# Diagnostics

A fault is reported as a diagnostic at the declaration that it concerns. Faults name
methods and parameters, and the report looks them up by these names
(`RequestRouter.Element.locate`): the first method of the name, and in it the first
parameter of the name. A fault that concerns no member is reported at the element.
-/

namespace RequestRouter

/-- How severe a diagnostic is. -/
inductive Severity where
  /-- Something has to be mended. -/
  | error
  /-- Something may have to be mended. -/
  | warning
  /-- Something may be of interest. -/
  | note
deriving DecidableEq

/-- What a diagnostic points at: a declaration or one of its members. -/
structure Location where
  /-- The name of what is pointed at. -/
  symbol : String
  /-- Where it is declared. -/
  position : Position
deriving DecidableEq

/-- A message about a declaration. -/
structure Diagnostic where
  /-- How severe it is. -/
  severity : Severity
  /-- The message. -/
  message : String
  /-- What it points at, if anything. -/
  location : Option Location
deriving DecidableEq

/-- The severity in messages. -/
def Severity.text : Severity → String
  | .error => "error"
  | .warning => "warning"
  | .note => "note"

/-- The name of the severity in documents. -/
def Severity.label : Severity → String
  | .error => "Error"
  | .warning => "Warning"
  | .note => "Note"

namespace Diagnostic

/-- Whether something has to be mended. -/
def isError (diagnostic : Diagnostic) : Bool := diagnostic.severity == .error

/-- The diagnostic on one line. -/
def display (diagnostic : Diagnostic) : String :=
  let severity := diagnostic.severity.text
  let message := diagnostic.message
  match diagnostic.location with
  | none => s!"{severity}: {message}"
  | some location =>
    let line := location.position.line
    let column := location.position.column
    let symbol := location.symbol
    s!"{severity}:{line}:{column}: {message} ({symbol})"

end Diagnostic

/-- The document of a location. -/
def Location.document (location : Location) : Json :=
  .obj [("symbol", .str location.symbol), ("line", .nat location.position.line),
    ("column", .nat location.position.column)]

/-- The document of a diagnostic. -/
def Diagnostic.document (diagnostic : Diagnostic) : Json :=
  .obj [("kind", .str diagnostic.severity.label), ("message", .str diagnostic.message),
    ("location", (diagnostic.location.map Location.document).getD .null)]

/-! ### Where a fault is reported -/

namespace Element

/-- The first method of the name. -/
def method? (element : Element) (name : String) : Option Method :=
  element.methods.find? fun method => method.name == name

/-- The element itself as a location. -/
def location (element : Element) : Location := ⟨element.qualifiedName, element.position⟩

/-- A method of the element as a location. -/
def methodLocation (element : Element) (method : Method) : Location :=
  ⟨element.qualifiedName ++ Text.separator ++ method.name, method.position⟩

/-- A parameter of the named method as a location. -/
def paramLocation (element : Element) (method : String) (param : Param) : Location :=
  ⟨element.qualifiedName ++ Text.separator ++ method ++ "(" ++ param.name ++ ")", param.position⟩

/-- The member that the fault names, if it names one. -/
def memberLocation? (element : Element) : Fault → Option Location
  | .missingContext method => (element.method? method).map element.methodLocation
  | .wrongReturn method _ => (element.method? method).map element.methodLocation
  | .missingBinding method parameter =>
    (element.method? method).bind fun found =>
      (found.params.find? fun param => param.name == parameter).map
        (element.paramLocation method)
  | _ => none

/-- What the fault points at. -/
def locate (element : Element) (fault : Fault) : Location :=
  (element.memberLocation? fault).getD element.location

/-- The diagnostic of the fault. -/
def report (element : Element) (fault : Fault) : Diagnostic :=
  ⟨.error, fault.message, some (element.locate fault)⟩

end Element

end RequestRouter
