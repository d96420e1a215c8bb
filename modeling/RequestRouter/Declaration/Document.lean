import RequestRouter.Declaration.SourceFile
import RequestRouter.Json.Basic

/-!
# Declaration files as JSON documents

The document of a file shows everything that was read, members in a fixed order, with
the line and the column of every declaration and mark beside its name.
-/

namespace RequestRouter

/-- The members that show a position. -/
def Position.members (position : Position) : List (String × Json) :=
  [("line", .nat position.line), ("column", .nat position.column)]

mutual

/-- The document of a type. -/
def TypeRef.document : TypeRef → Json
  | ⟨path, args, nullable⟩ =>
    .obj [("path", .str path), ("args", .arr (documents args)), ("nullable", .bool nullable)]

/-- The documents of types. -/
def TypeRef.documents : List TypeRef → List Json
  | [] => []
  | type :: rest => document type :: documents rest

end

/-- The document of an argument: its value under the name of its kind. -/
def MarkArg.document : MarkArg → Json
  | .text value => .obj [("Str", .str value)]
  | .int value => .obj [("Int", .int value)]
  | .path value => .obj [("Path", .str value)]

/-- The document of a mark. -/
def Mark.document (mark : Mark) : Json :=
  .obj ([("name", .str mark.name)] ++ mark.position.members
    ++ [("args", .arr (mark.args.map MarkArg.document))])

/-- The document of a parameter. -/
def Param.document (param : Param) : Json :=
  .obj ([("name", .str param.name)] ++ param.position.members
    ++ [("annotations", .arr (param.marks.map Mark.document)), ("type_", param.type.document),
        ("default", .ofText? param.default)])

/-- The document of a method. -/
def Method.document (method : Method) : Json :=
  .obj ([("name", .str method.name)] ++ method.position.members
    ++ [("annotations", .arr (method.marks.map Mark.document)),
        ("params", .arr (method.params.map Param.document)),
        ("return_type", (method.returnType.map TypeRef.document).getD .null)])

/-- The document of a property. -/
def Field.document (field : Field) : Json :=
  .obj ([("name", .str field.name)] ++ field.position.members
    ++ [("type_", field.type.document)])

/-- The name of a kind in documents. -/
def ElementKind.label : ElementKind → String
  | .interfaceType => "Interface"
  | .classType => "Class"
  | .objectType => "Object"

/-- The document of a list of names. -/
def namesDocument (names : List String) : Json := .arr (names.map Json.str)

/-- The document of a declared type. -/
def Element.document (element : Element) : Json :=
  .obj ([("name", .str element.name), ("package", .str element.package),
      ("imports", namesDocument element.imports)] ++ element.position.members
    ++ [("kind", .str element.kind.label),
        ("annotations", .arr (element.marks.map Mark.document)),
        ("methods", .arr (element.methods.map Method.document)),
        ("fields", .arr (element.fields.map Field.document))])

/-- The document of a file. -/
def SourceFile.document (file : SourceFile) : Json :=
  .obj [("package", .ofText? file.package), ("imports", namesDocument file.imports),
    ("elements", .arr (file.elements.map Element.document))]

end RequestRouter
