import RequestRouter.Declaration.Cursor

/-!
# The grammar of declaration files

One function for each part of the grammar; each reads its part at a cursor and answers
it with the cursor behind it, or with the fault at the first token that does not fit.

* a *file* is `package path ;`, then any number of `use path ;`, then elements;
* an *element* is marks, one of `interface`, `class`, `object`, a name, and either a
  semicolon or members between braces;
* a *member* is marks and either `fn`, a name, parameters, perhaps an arrow with a type,
  and a semicolon; or a name, a colon, a type and a semicolon;
* a *parameter* is marks, a name, a colon, a type and perhaps a default;
* a *mark* is an at sign, a path and perhaps arguments;
* a *type* is a path, perhaps arguments between angle brackets, perhaps a question mark.

Keywords are ordinary names everywhere else. A file is read by
`RequestRouter.SourceFile.parse`.
-/

namespace RequestRouter

namespace Grammar

/-! ### Paths and types -/

/-- A segment of a path behind a separator. -/
def pathSegment (c : Cursor) : Parsed (Option String × Cursor) :=
  match c.eat? (Token.is Text.separator) with
  | none => .ok (none, c)
  | some c => do
    let (name, c) ← c.expect Token.isIdentifier .identifier
    .ok (some name.text, c)

/-- A path: names with separators between them. -/
def path (c : Cursor) : Parsed (String × Cursor) := do
  let (first, c) ← c.expect Token.isIdentifier .identifier
  let (rest, c) ← many pathSegment c
  .ok (Text.separator.intercalate (first.text :: rest), c)

/-- The question mark behind a type, if there is one. -/
def nullability (c : Cursor) : Bool × Cursor :=
  match c.eat? (Token.is "?") with
  | some c => (true, c)
  | none => (false, c)

/-- The type that is finished behind its path and arguments. -/
def closeType (path : String) (args : List TypeRef) (c : Cursor) : TypeRef × Cursor :=
  let (nullable, c) := nullability c
  (⟨path, args, nullable⟩, c)

mutual

/-- A written type. -/
def typeRef (c : Cursor) : Parsed (TypeRef × Cursor) := do
  let (name, behind) ← path c
  match behind.eat? (Token.is "<") with
  | none => .ok (closeType name [] behind)
  | some next =>
    if next.left < c.left then do
      let (args, c) ← typeArgs next
      let c ← c.expectSymbol ">"
      .ok (closeType name args c)
    else .error (next.expected .identifier)
termination_by (c.left, 0)

/-- The arguments of a type, with commas between them. -/
def typeArgs (c : Cursor) : Parsed (List TypeRef × Cursor) := do
  let (arg, behind) ← typeRef c
  match behind.eat? (Token.is ",") with
  | none => .ok ([arg], behind)
  | some next =>
    if next.left < c.left then do
      let (rest, c) ← typeArgs next
      .ok (arg :: rest, c)
    else .error (next.expected .identifier)
termination_by (c.left, 1)

end

/-! ### Marks -/

/-- An argument of a mark. -/
def markArg (c : Cursor) : Parsed (MarkArg × Cursor) :=
  let token := c.current
  if token.isString then .ok (.text (stringValue token.text), c.advance)
  else if token.isInteger then
    match integerValue? token.text with
    | some value => .ok (.int value, c.advance)
    | none => .error ⟨.invalidInteger token.text, token.position⟩
  else if token.isIdentifier then do
    let (name, c) ← path c
    .ok (.path name, c)
  else .error c.unexpected

/-- The arguments of a mark, if it has any. -/
def markArgs (c : Cursor) : Parsed (List MarkArg × Cursor) :=
  match c.eat? (Token.is "(") with
  | some c => listed markArg c
  | none => .ok ([], c)

/-- A mark, if one stands here. -/
def mark (c : Cursor) : Parsed (Option Mark × Cursor) :=
  match c.eat? (Token.is "@") with
  | none => .ok (none, c)
  | some next => do
    let (name, behind) ← path next
    let (args, behind) ← markArgs behind
    .ok (some ⟨(ClassName.ofQualified name).simple, c.current.position, args⟩, behind)

/-- The marks in front of a declaration. -/
def marks (c : Cursor) : Parsed (List Mark × Cursor) := many mark c

/-! ### Members -/

/-- Whether the token is a default value that is kept as it is written. -/
def isLiteral (token : Token) : Bool :=
  token.isString || token.isInteger || token.isFloat || token.isCharacter

/-- A default value: a literal or a path. -/
def defaultValue (c : Cursor) : Parsed (String × Cursor) :=
  if isLiteral c.current then .ok (c.current.text, c.advance)
  else if c.current.isIdentifier then path c
  else .error c.unexpected

/-- The default value behind an equals sign, if there is one. -/
def defaultPart (c : Cursor) : Parsed (Option String × Cursor) :=
  match c.eat? (Token.is "=") with
  | none => .ok (none, c)
  | some c => do
    let (value, c) ← defaultValue c
    .ok (some value, c)

/-- A parameter. -/
def param (c : Cursor) : Parsed (Param × Cursor) := do
  let (marks, c) ← marks c
  let (name, c) ← c.expect Token.isIdentifier .parameterName
  let c ← c.expectSymbol ":"
  let (type, c) ← typeRef c
  let (default, c) ← defaultPart c
  .ok (⟨name.text, name.position, marks, type, default⟩, c)

/-- The parameters of a method. -/
def params (c : Cursor) : Parsed (List Param × Cursor) := do
  let c ← c.expectSymbol "("
  listed param c

/-- The type of the result behind an arrow, if there is one. -/
def returnType (c : Cursor) : Parsed (Option TypeRef × Cursor) :=
  match c.eat? (Token.is "->") with
  | none => .ok (none, c)
  | some c => do
    let (type, c) ← typeRef c
    .ok (some type, c)

/-- A method, behind its keyword. -/
def method (marks : List Mark) (c : Cursor) : Parsed (Method × Cursor) := do
  let (name, c) ← c.expect Token.isIdentifier .methodName
  let (params, c) ← params c
  let (returnType, c) ← returnType c
  let c ← c.expectSymbol ";"
  .ok (⟨name.text, name.position, marks, params, returnType⟩, c)

/-- A stored property. The marks in front of it are not kept. -/
def field (c : Cursor) : Parsed (Field × Cursor) := do
  let (name, c) ← c.expect Token.isIdentifier .member
  let c ← c.expectSymbol ":"
  let (type, c) ← typeRef c
  let c ← c.expectSymbol ";"
  .ok (⟨name.text, name.position, type⟩, c)

/-- A member of a declared type. -/
inductive Member where
  /-- A method. -/
  | method (method : Method)
  /-- A stored property. -/
  | field (field : Field)

/-- The method, if the member is one. -/
def Member.method? : Member → Option Method
  | .method m => some m
  | .field _ => none

/-- The property, if the member is one. -/
def Member.field? : Member → Option Field
  | .method _ => none
  | .field f => some f

/-- A member, unless the closing brace stands here. -/
def member (c : Cursor) : Parsed (Option Member × Cursor) :=
  match c.eat? (Token.is "\x7d") with
  | some next => .ok (none, next)
  | none =>
    if c.atEnd then .error c.unexpected
    else do
      let (marks, c) ← marks c
      match c.eat? (Token.is "fn") with
      | some c => do
        let (method, c) ← method marks c
        .ok (some (.method method), c)
      | none => do
        let (field, c) ← field c
        .ok (some (.field field), c)

/-- What stands behind the name of a declared type: nothing, or its members. -/
def members (c : Cursor) : Parsed (List Member × Cursor) :=
  match c.eat? (Token.is ";") with
  | some c => .ok ([], c)
  | none => do
    let c ← c.expectSymbol "\x7b"
    many member c

/-! ### Elements and files -/

/-- The keyword of a declared type. -/
def elementKind (c : Cursor) : Parsed (ElementKind × Cursor) :=
  if c.current.is "interface" then .ok (.interfaceType, c.advance)
  else if c.current.is "class" then .ok (.classType, c.advance)
  else if c.current.is "object" then .ok (.objectType, c.advance)
  else .error c.unexpected

/-- A declared type of a file with the given package and imports. -/
def element (package : String) (imports : List String) (c : Cursor) :
    Parsed (Element × Cursor) := do
  let (marks, c) ← marks c
  let (kind, c) ← elementKind c
  let (name, c) ← c.expect Token.isIdentifier .identifier
  let (members, c) ← members c
  .ok
    ({ name := name.text
       package := package
       imports := imports
       position := name.position
       kind := kind
       marks := marks
       methods := members.filterMap Member.method?
       fields := members.filterMap Member.field? },
      c)

/-- A declared type, unless the file ends here. -/
def elementBeforeEnd (package : String) (imports : List String) (c : Cursor) :
    Parsed (Option Element × Cursor) :=
  if c.atEnd then .ok (none, c)
  else do
    let (element, c) ← element package imports c
    .ok (some element, c)

/-- A path behind the given keyword and in front of a semicolon, if the keyword stands
here. -/
def clause (keyword : String) (c : Cursor) : Parsed (Option String × Cursor) :=
  match c.eat? (Token.is keyword) with
  | none => .ok (none, c)
  | some c => do
    let (name, c) ← path c
    let c ← c.expectSymbol ";"
    .ok (some name, c)

/-- A declaration file. -/
def sourceFile (c : Cursor) : Parsed (SourceFile × Cursor) := do
  let (package, c) ← clause "package" c
  let (imports, c) ← many (clause "use") c
  let (elements, c) ← many (elementBeforeEnd (package.getD "") imports) c
  .ok (⟨package, imports, elements⟩, c)

end Grammar

namespace SourceFile

/-- The file that a list of tokens spells. Nothing is read behind an empty token. -/
def ofTokens : List Token → Except ParseFault SourceFile
  | [] => .error ⟨.noTokens, ⟨0, 0⟩⟩
  | first :: later => (Grammar.sourceFile (.start first later)).map Prod.fst

/-- The file that a text holds. -/
def parse (text : String) : Except ParseFault SourceFile := do
  ofTokens (← tokens text)

end SourceFile

end RequestRouter
