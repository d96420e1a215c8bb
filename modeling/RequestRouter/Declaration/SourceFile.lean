import RequestRouter.Declaration.TypeRef
import RequestRouter.Text.Segments

/-!
# Declaration files

What a declaration file holds once it is read: its package and imports, and the types
that it declares. Every declared type carries the package and the imports of its file,
so that it can be looked at without the file; every declaration and every mark carries
the position that it was written at.
-/

namespace RequestRouter

/-- A place in a text; lines and columns count from 1, columns by characters. -/
structure Position where
  /-- The line. -/
  line : Nat
  /-- The column. -/
  column : Nat
deriving DecidableEq, Repr

/-- An argument of a mark. -/
inductive MarkArg where
  /-- A string literal, by its value. -/
  | text (value : String)
  /-- An integer literal. -/
  | int (value : Int)
  /-- A path. -/
  | path (value : String)

/-- A mark in front of a declaration: an at sign, a name and arguments. -/
structure Mark where
  /-- The last segment of the written name. -/
  name : String
  /-- The position of the at sign. -/
  position : Position
  /-- The arguments. -/
  args : List MarkArg

/-- The string that is the only argument of the mark. -/
def Mark.text? (mark : Mark) : Option String :=
  match mark.args with
  | [.text value] => some value
  | _ => none

/-- The path that is the only argument of the mark. -/
def Mark.path? (mark : Mark) : Option String :=
  match mark.args with
  | [.path value] => some value
  | _ => none

/-- The first mark of the given name. -/
def findMark? (name : String) (marks : List Mark) : Option Mark :=
  marks.find? fun mark => mark.name == name

/-- A parameter of a method. -/
structure Param where
  /-- The name. -/
  name : String
  /-- The position of the name. -/
  position : Position
  /-- The marks in front of it. -/
  marks : List Mark
  /-- The type as written. -/
  type : TypeRef
  /-- The default value as written; generated source has no use for it. -/
  default : Option String

/-- The mark that makes the type of a parameter nullable. -/
def nullableMark : String := "Nullable"

/-- The type of a parameter: absent values are allowed by a question mark or by a mark. -/
def Param.declaredType (param : Param) : TypeRef :=
  if (findMark? nullableMark param.marks).isSome then { param.type with nullable := true }
  else param.type

/-- A method. -/
structure Method where
  /-- The name. -/
  name : String
  /-- The position of the name. -/
  position : Position
  /-- The marks in front of it. -/
  marks : List Mark
  /-- The parameters. -/
  params : List Param
  /-- The type of the result, if one is written. -/
  returnType : Option TypeRef

/-- A stored property. -/
structure Field where
  /-- The name. -/
  name : String
  /-- The position of the name. -/
  position : Position
  /-- The type as written. -/
  type : TypeRef

/-- The three kinds of declared types. -/
inductive ElementKind where
  /-- An interface. -/
  | interfaceType
  /-- A class. -/
  | classType
  /-- An object. -/
  | objectType
deriving DecidableEq

/-- A declared type. -/
structure Element where
  /-- The simple name. -/
  name : String
  /-- The package of the file; empty when it has none. -/
  package : String
  /-- The imports of the file. -/
  imports : List String
  /-- The position of the name. -/
  position : Position
  /-- What is declared. -/
  kind : ElementKind
  /-- The marks in front of it. -/
  marks : List Mark
  /-- The methods. -/
  methods : List Method
  /-- The stored properties. -/
  fields : List Field

/-- The name of the type with its package. -/
def Element.qualifiedName (element : Element) : String :=
  Text.qualify element.package element.name

/-- A declaration file. -/
structure SourceFile where
  /-- The package, if one is written. -/
  package : Option String
  /-- The imports. -/
  imports : List String
  /-- The declared types. -/
  elements : List Element

end RequestRouter
