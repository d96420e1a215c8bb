import RequestRouter.Proofs.Declaration.Lookahead

/-!
# Walks over a list of tokens

The readers of the grammar go on only while tokens are used up, and so they come to an end by the
way they are written. Here the grammar is written once more without that: a walk keeps a number, the
index of the token at hand, and its repetitions go on as long as they are told to
(`RequestRouter.Walk.repeated`). A walk need not come to an end; whether it does, and where, is to
be shown. It also gives up without an answer where it would look at a token outside the list, or
move its index beyond a limit.

The index is not tied to the list. Behind the last token it counts on, and every token looked at is
the last one again. So what is left of the list does not tell whether a repetition makes headway;
the index does. Main statement: `RequestRouter.Walk.roundsGain`, by which every round of every
repetition moves the index, on all lists, from all indices.
-/

namespace RequestRouter

variable {α β : Type}

/-- A list of tokens, and how far an index into it may be moved. -/
structure Tape where
  /-- The tokens. -/
  tokens : List Token
  /-- The bound of the index. -/
  limit : Nat

/-- What is read of a tape from an index on. It gives a result or a fault, with the index where it
stops; or it gives up or goes on for ever, which is not told apart. -/
abbrev Walk := ReaderT Tape (ExceptT ParseFault (StateT Nat Option))

namespace Walk

/-- The outcome of a walk from the index. -/
def run (walk : Walk α) (tape : Tape) (i : Nat) : Option (Except ParseFault α × Nat) := walk tape i

/-! ### Steps -/

/-- The token at the index; the last one, if the index is behind it. -/
def current : Walk Token := fun tape i =>
  (tape.tokens[min i (tape.tokens.length - 1)]?).map fun token => (.ok token, i)

/-- One token further on. -/
def advance : Walk Unit := fun tape i => if i < tape.limit then some (.ok (), i + 1) else none

/-- Whether the index is at the last token or behind it, or at an empty one. -/
def atEnd : Walk Bool := do
  let token ← current
  fun tape i => some (.ok (decide (tape.tokens.length - 1 ≤ i) || token.isEnd), i)

/-- Whether the token passes the test. -/
def peek (test : Token → Bool) : Walk Bool := return test (← current)

/-- Moves on if the token passes the test, and tells whether it does. -/
def eat (test : Token → Bool) : Walk Bool := do
  if ← peek test then
    advance
    return true
  else
    return false

/-- The token, which has to pass the test. -/
def expect (test : Token → Bool) (what : Expectation) : Walk Token := do
  let token ← current
  if ← eat test then
    return token
  else
    throw ⟨.expected what token.text, token.position⟩

/-- A symbol that has to stand here. -/
def symbol (text : String) : Walk Unit := do
  let _ ← expect (Token.is text) (.symbol text)

/-- Nothing can start here. -/
def unexpected : Walk α := do
  let token ← current
  throw ⟨.unexpected token.text, token.position⟩

/-- Items in a row, as long as there is one. -/
def repeated (item : Walk (Option α)) : Walk (List α) := do
  match ← item with
  | none => return []
  | some a =>
    let rest ← item |>.repeated
    return a :: rest
partial_fixpoint

/-- Items between commas up to a closing parenthesis. -/
def listed (item : Walk α) : Walk (List α) := do
  if ← eat (Token.is ")") then
    return []
  else
    let a ← item
    if ← eat (Token.is ",") then
      let rest ← item |>.listed
      return a :: rest
    else
      symbol ")"
      return [a]
partial_fixpoint

/-! ### The grammar -/

/-- A segment of a path behind a separator. -/
def pathSegment : Walk (Option String) := do
  if ← eat (Token.is Text.separator) then
    let name ← expect Token.isIdentifier .identifier
    return some name.text
  else
    return none

/-- A path. -/
def path : Walk String := do
  let first ← expect Token.isIdentifier .identifier
  let rest ← repeated pathSegment
  return Text.separator.intercalate (first.text :: rest)

/-- The type that is finished behind its path and arguments. -/
def closeType (name : String) (args : List TypeRef) : Walk TypeRef := do
  let nullable ← eat (Token.is "?")
  return ⟨name, args, nullable⟩

mutual

/-- A type whose names are read by the walk `name`. -/
def typeOf (name : Walk String) : Walk TypeRef := do
  let text ← name
  if ← eat (Token.is "<") then
    let args ← name |>.typesOf
    symbol ">"
    closeType text args
  else
    closeType text []
partial_fixpoint

/-- The arguments of such a type. -/
def typesOf (name : Walk String) : Walk (List TypeRef) := do
  let arg ← name |>.typeOf
  if ← eat (Token.is ",") then
    let rest ← name |>.typesOf
    return arg :: rest
  else
    return [arg]
partial_fixpoint

end

/-- A written type. -/
def typeRef : Walk TypeRef := typeOf path

/-- The arguments of a type. -/
def typeArgs : Walk (List TypeRef) := typesOf path

theorem typeRef_eq : typeRef = (do
    let name ← path
    if ← eat (Token.is "<") then
      let args ← typeArgs
      symbol ">"
      closeType name args
    else
      closeType name []) :=
  typeOf.eq_1 path

theorem typeArgs_eq : typeArgs = (do
    let arg ← typeRef
    if ← eat (Token.is ",") then
      let rest ← typeArgs
      return arg :: rest
    else
      return [arg]) :=
  typesOf.eq_1 path

/-- An argument of a mark. -/
def markArg : Walk MarkArg := do
  let token ← current
  if ← eat Token.isString then
    return .text (stringValue token.text)
  else if ← eat Token.isInteger then
    match integerValue? token.text with
    | some value => return .int value
    | none => throw ⟨.invalidInteger token.text, token.position⟩
  else if ← peek Token.isIdentifier then
    let name ← path
    return .path name
  else
    unexpected

/-- The arguments of a mark, if it has any. -/
def markArgs : Walk (List MarkArg) := do
  if ← eat (Token.is "(") then
    listed markArg
  else
    return []

/-- A mark, if one stands here. -/
def mark : Walk (Option Mark) := do
  let token ← current
  if ← eat (Token.is "@") then
    let name ← path
    let args ← markArgs
    return some ⟨(ClassName.ofQualified name).simple, token.position, args⟩
  else
    return none

/-- The marks in front of a declaration. -/
def marks : Walk (List Mark) := repeated mark

/-- A default value. -/
def defaultValue : Walk String := do
  let token ← current
  if ← eat Grammar.isLiteral then
    return token.text
  else if ← peek Token.isIdentifier then
    path
  else
    unexpected

/-- The default value behind an equals sign, if there is one. -/
def defaultPart : Walk (Option String) := do
  if ← eat (Token.is "=") then
    let value ← defaultValue
    return some value
  else
    return none

/-- A parameter. -/
def param : Walk Param := do
  let marks ← marks
  let name ← expect Token.isIdentifier .parameterName
  symbol ":"
  let type ← typeRef
  let default ← defaultPart
  return ⟨name.text, name.position, marks, type, default⟩

/-- The parameters of a method. -/
def params : Walk (List Param) := do
  symbol "("
  listed param

/-- The type of the result behind an arrow, if there is one. -/
def returnType : Walk (Option TypeRef) := do
  if ← eat (Token.is "->") then
    let type ← typeRef
    return some type
  else
    return none

/-- A method, behind its keyword. -/
def method (marks : List Mark) : Walk Method := do
  let name ← expect Token.isIdentifier .methodName
  let params ← params
  let returnType ← returnType
  symbol ";"
  return ⟨name.text, name.position, marks, params, returnType⟩

/-- A stored property. -/
def field : Walk Field := do
  let name ← expect Token.isIdentifier .member
  symbol ":"
  let type ← typeRef
  symbol ";"
  return ⟨name.text, name.position, type⟩

/-- A member, unless the closing brace stands here. -/
def member : Walk (Option Grammar.Member) := do
  if ← eat (Token.is "\x7d") then
    return none
  else if ← atEnd then
    unexpected
  else
    let marks ← marks
    if ← eat (Token.is "fn") then
      let method ← method marks
      return some (.method method)
    else
      let field ← field
      return some (.field field)

/-- What stands behind the name of a declared type. -/
def members : Walk (List Grammar.Member) := do
  if ← eat (Token.is ";") then
    return []
  else
    symbol "\x7b"
    repeated member

/-- The keyword of a declared type. -/
def elementKind : Walk ElementKind := do
  if ← eat (Token.is "interface") then
    return .interfaceType
  else if ← eat (Token.is "class") then
    return .classType
  else if ← eat (Token.is "object") then
    return .objectType
  else
    unexpected

/-- A declared type of a file with the given package and imports. -/
def element (package : String) (imports : List String) : Walk Element := do
  let marks ← marks
  let kind ← elementKind
  let name ← expect Token.isIdentifier .identifier
  let members ← members
  return {
    name := name.text
    package := package
    imports := imports
    position := name.position
    kind := kind
    marks := marks
    methods := members.filterMap Grammar.Member.method?
    fields := members.filterMap Grammar.Member.field? }

/-- A declared type, unless the file ends here. -/
def elementBeforeEnd (package : String) (imports : List String) : Walk (Option Element) := do
  if ← atEnd then
    return none
  else
    let element ← element package imports
    return some element

/-- A path behind the given keyword and in front of a semicolon, if the keyword stands here. -/
def clause (keyword : String) : Walk (Option String) := do
  if ← eat (Token.is keyword) then
    let name ← path
    symbol ";"
    return some name
  else
    return none

/-- A declaration file. -/
def sourceFile : Walk SourceFile := do
  let package ← clause "package"
  let imports ← repeated (clause "use")
  let elements ← repeated (elementBeforeEnd (package.getD "") imports)
  return ⟨package, imports, elements⟩

/-! ### Headway -/

/-- If the walk from the index ends with a result, it has moved the index by at least what the
result tells, and not beyond the limit of the tape. -/
def GainsAt (walk : Walk α) (gain : α → Nat) (tape : Tape) (i : Nat) : Prop :=
  ∀ a j, walk.run tape i = some (.ok a, j) → i + gain a ≤ j ∧ j ≤ max i tape.limit

/-- The same, from all indices of all tapes. -/
def Gains (walk : Walk α) (gain : α → Nat) : Prop := ∀ tape i, walk.GainsAt gain tape i

/-- One for an item, and nothing for the lack of one. -/
def found (item : Option α) : Nat := item.isSome.toNat

theorem run_bind_eq_ok {walk : Walk α} {next : α → Walk β} {tape : Tape} {i j : Nat} {b : β}
    (h : (walk >>= next).run tape i = some (.ok b, j)) :
    ∃ a k, walk.run tape i = some (.ok a, k) ∧ (next a).run tape k = some (.ok b, j) := by
  change (walk.run tape i).bind _ = _ at h
  obtain ⟨⟨result, k⟩, hrun, hnext⟩ := Option.bind_eq_some_iff.1 h
  cases result with
  | error fault => cases hnext
  | ok a => exact ⟨a, k, hrun, hnext⟩

namespace GainsAt

variable {walk : Walk α} {gain : α → Nat} {total : β → Nat} {tape : Tape} {i : Nat}

theorem mono (h : walk.GainsAt gain tape i) {less : α → Nat} (hle : ∀ a, less a ≤ gain a) :
    walk.GainsAt less tape i := by
  intro a j hrun
  obtain ⟨hgain, hlimit⟩ := h a j hrun
  have hless := hle a
  omega

theorem pure {a : α} (h : gain a = 0) : (Pure.pure a : Walk α).GainsAt gain tape i := by
  rintro _ _ ⟨⟩
  omega

/-- The second walk begins where the first one has ended, and has to make up for what that does not
gain. -/
theorem bind (h : walk.GainsAt gain tape i) {next : α → Walk β}
    (hnext : ∀ a j, i + gain a ≤ j → j ≤ max i tape.limit →
      (next a).GainsAt (fun b => total b - gain a) tape j) :
    (walk >>= next).GainsAt total tape i := by
  intro b j hrun
  obtain ⟨a, k, hfirst, hsecond⟩ := run_bind_eq_ok hrun
  obtain ⟨hgain, hlimit⟩ := h a k hfirst
  have hrest : k + (total b - gain a) ≤ j ∧ j ≤ max k tape.limit :=
    hnext a k hgain hlimit b j hsecond
  omega

end GainsAt

namespace Gains

variable {walk : Walk α} {gain : α → Nat} {total : β → Nat}

theorem mono (h : walk.Gains gain) {less : α → Nat} (hle : ∀ a, less a ≤ gain a) :
    walk.Gains less :=
  fun tape i => (h tape i).mono hle

theorem pure {a : α} (h : gain a = 0) : (Pure.pure a : Walk α).Gains gain :=
  fun _ _ => .pure h

theorem throw (fault : ParseFault) : (MonadExcept.throw fault : Walk α).Gains gain := by
  rintro tape i _ _ ⟨⟩

theorem bind (h : walk.Gains gain) {next : α → Walk β}
    (hnext : ∀ a, (next a).Gains fun b => total b - gain a) : (walk >>= next).Gains total :=
  fun tape i => (h tape i).bind fun a j _ _ => hnext a tape j

/-- A question that moves nothing. -/
theorem ite_ask {ask : Walk Bool} (hask : ask.Gains fun _ => 0) {yes no : Walk β}
    (hyes : yes.Gains total) (hno : no.Gains total) :
    (ask >>= fun answer => if answer = true then yes else no).Gains total := by
  refine hask.bind fun answer => ?_
  cases answer with
  | true => exact hyes
  | false => exact hno

theorem advance : advance.Gains fun _ => 1 := by
  intro tape i a j hrun
  rw [run, Walk.advance] at hrun
  split at hrun
  · cases hrun
    exact ⟨Nat.le_refl _, by omega⟩
  · cases hrun

theorem current : current.Gains fun _ => 0 := by
  intro tape i a j hrun
  obtain ⟨token, -, hpair⟩ := Option.map_eq_some_iff.1 hrun
  cases hpair
  exact ⟨Nat.le_refl _, by omega⟩

theorem peek (test : Token → Bool) : (peek test).Gains fun _ => 0 :=
  current.bind fun _ => .pure rfl

theorem atEnd : atEnd.Gains fun _ => 0 := by
  refine current.bind fun token tape i a j hrun => ?_
  cases hrun
  exact ⟨Nat.le_refl _, by omega⟩

theorem eat (test : Token → Bool) : (eat test).Gains Bool.toNat :=
  ite_ask (.peek test) (advance.bind fun _ => .pure rfl) (.pure rfl)

end Gains

/-- What is behind a token that is eaten begins further on, and need not gain as much. -/
theorem GainsAt.ite_eat {total : β → Nat} {tape : Tape} {i : Nat} {test : Token → Bool}
    {yes no : Walk β}
    (hyes : ∀ j, i < j → j ≤ max i tape.limit → yes.GainsAt (fun b => total b - 1) tape j)
    (hno : ∀ j, i ≤ j → no.GainsAt total tape j) :
    (eat test >>= fun answer => if answer = true then yes else no).GainsAt total tape i := by
  refine (Gains.eat test tape i).bind fun answer j hgain hlimit => ?_
  cases answer with
  | true => exact hyes j hgain hlimit
  | false => exact hno j hgain

namespace Gains

theorem ite_eat {total : β → Nat} {test : Token → Bool} {yes no : Walk β}
    (hyes : yes.Gains fun b => total b - 1) (hno : no.Gains total) :
    (Walk.eat test >>= fun answer => if answer = true then yes else no).Gains total :=
  fun tape _ => .ite_eat (fun j _ _ => hyes tape j) fun j _ => hno tape j

theorem expect (test : Token → Bool) (what : Expectation) :
    (expect test what).Gains fun _ => 1 :=
  current.bind fun _ => .ite_eat (.pure rfl) (.throw _)

theorem symbol (text : String) : (symbol text).Gains fun _ => 1 :=
  (expect _ _).bind fun _ => .pure rfl

theorem unexpected {gain : α → Nat} : (unexpected : Walk α).Gains gain :=
  current.bind fun _ => .throw _

end Gains

/-! ### Headway of the grammar -/

/-- A repetition does not move back, if its rounds move on. They have less and less room. -/
theorem gainsAt_repeated {item : Walk (Option α)} (h : item.Gains found) (tape : Tape) (i : Nat) :
    (repeated item).GainsAt (fun _ => 0) tape i := by
  rw [repeated]
  refine (h tape i).bind fun answer j hgain hlimit => ?_
  cases answer with
  | none => exact .pure rfl
  | some a =>
    have hmoved : i + 1 ≤ j := hgain
    exact ((gainsAt_repeated h tape j).mono fun _ => Nat.zero_le _).bind fun _ _ _ _ => .pure rfl
termination_by tape.limit - i

theorem gainsAt_listed {item : Walk α} (h : item.Gains fun _ => 1) (tape : Tape) (i : Nat) :
    (listed item).GainsAt (fun _ => 0) tape i := by
  rw [listed]
  refine .ite_eat (fun _ _ _ => .pure rfl) fun j hj => (h tape j).bind fun a k hgain hlimit => ?_
  refine .ite_eat (fun l hl hlimit => ?_) fun l hl => ?_
  · exact ((gainsAt_listed h tape l).mono fun _ => Nat.zero_le _).bind fun _ _ _ _ => .pure rfl
  · exact (Gains.symbol ")" tape l).bind fun _ _ _ _ => .pure rfl
termination_by tape.limit - i

theorem gains_repeated {item : Walk (Option α)} (h : item.Gains found) :
    (repeated item).Gains fun _ => 0 := gainsAt_repeated h

theorem gains_listed {item : Walk α} (h : item.Gains fun _ => 1) :
    (listed item).Gains fun _ => 0 := gainsAt_listed h

theorem gains_pathSegment : pathSegment.Gains found :=
  .ite_eat ((Gains.expect _ _).bind fun _ => .pure rfl) (.pure rfl)

theorem gains_path : path.Gains fun _ => 1 :=
  (Gains.expect _ _).bind fun _ => (gains_repeated gains_pathSegment).bind fun _ => .pure rfl

theorem gains_closeType (name : String) (args : List TypeRef) :
    (closeType name args).Gains fun _ => 0 :=
  (Gains.eat _).bind fun _ => .pure (Nat.zero_sub _)

mutual

theorem gainsAt_typeRef (tape : Tape) (i : Nat) : typeRef.GainsAt (fun _ => 1) tape i := by
  rw [typeRef_eq]
  refine (gains_path tape i).bind fun name j hgain hlimit => ?_
  refine .ite_eat (fun k hk hlimit => ?_) fun k _ => gains_closeType name [] tape k
  refine (gainsAt_typeArgs tape k).bind fun args l _ _ => ?_
  refine (Gains.symbol ">" tape l).bind fun _ m _ _ => ?_
  exact gains_closeType name args tape m
termination_by (tape.limit - i, 0)

theorem gainsAt_typeArgs (tape : Tape) (i : Nat) : typeArgs.GainsAt (fun _ => 0) tape i := by
  rw [typeArgs_eq]
  refine (gainsAt_typeRef tape i).bind fun arg j hgain hlimit => ?_
  refine .ite_eat (fun k hk hlimit => ?_) fun k _ => .pure rfl
  exact ((gainsAt_typeArgs tape k).mono fun _ => Nat.zero_le _).bind fun rest l _ _ => .pure rfl
termination_by (tape.limit - i, 1)

end

/-- **A type moves the index**, and so does every type among its arguments. -/
theorem gains_typeRef : typeRef.Gains fun _ => 1 := gainsAt_typeRef

theorem gains_markArg : markArg.Gains fun _ => 1 := by
  refine Gains.current.bind fun token =>
    .ite_eat (.pure rfl) (.ite_eat ?_ (.ite_ask (.peek _) ?_ .unexpected))
  · cases integerValue? token.text with
    | none => exact .throw _
    | some value => exact .pure rfl
  · exact gains_path.bind fun _ => .pure rfl

theorem gains_markArgs : markArgs.Gains fun _ => 0 :=
  .ite_eat (gains_listed gains_markArg) (.pure rfl)

theorem gains_mark : mark.Gains found := by
  refine Gains.current.bind fun token => .ite_eat ?_ (.pure rfl)
  exact gains_path.bind fun _ => gains_markArgs.bind fun _ => .pure rfl

theorem gains_marks : marks.Gains fun _ => 0 := gains_repeated gains_mark

theorem gains_defaultValue : defaultValue.Gains fun _ => 1 := by
  refine Gains.current.bind fun token => .ite_eat (.pure rfl) (.ite_ask (.peek _) ?_ .unexpected)
  exact gains_path

theorem gains_defaultPart : defaultPart.Gains fun _ => 0 :=
  .ite_eat ((gains_defaultValue.mono fun _ => Nat.zero_le _).bind fun _ => .pure rfl) (.pure rfl)

theorem gains_param : param.Gains fun _ => 1 :=
  gains_marks.bind fun _ => (Gains.expect _ _).bind fun _ => (Gains.symbol _).bind fun _ =>
    gains_typeRef.bind fun _ => gains_defaultPart.bind fun _ => .pure rfl

theorem gains_params : params.Gains fun _ => 0 :=
  (Gains.symbol _).bind fun _ => gains_listed gains_param

theorem gains_returnType : returnType.Gains fun _ => 0 :=
  .ite_eat (gains_typeRef.bind fun _ => .pure rfl) (.pure rfl)

theorem gains_method (marks : List Mark) : (method marks).Gains fun _ => 1 :=
  (Gains.expect _ _).bind fun _ => gains_params.bind fun _ => gains_returnType.bind fun _ =>
    (Gains.symbol _).bind fun _ => .pure rfl

theorem gains_field : field.Gains fun _ => 1 :=
  (Gains.expect _ _).bind fun _ => (Gains.symbol _).bind fun _ => gains_typeRef.bind fun _ =>
    (Gains.symbol _).bind fun _ => .pure rfl

/-- A member moves the index, although its marks may be missing. -/
theorem gains_member : member.Gains found := by
  refine .ite_eat (.pure rfl) (.ite_ask .atEnd .unexpected (gains_marks.bind fun marks => ?_))
  refine .ite_eat ?_ ?_
  · exact (gains_method _).bind fun _ => .pure rfl
  · exact gains_field.bind fun _ => .pure rfl

theorem gains_members : members.Gains fun _ => 0 :=
  .ite_eat (.pure rfl) ((Gains.symbol _).bind fun _ => gains_repeated gains_member)

theorem gains_elementKind : elementKind.Gains fun _ => 1 :=
  .ite_eat (.pure rfl) (.ite_eat (.pure rfl) (.ite_eat (.pure rfl) .unexpected))

theorem gains_element (package : String) (imports : List String) :
    (element package imports).Gains fun _ => 1 :=
  gains_marks.bind fun _ => gains_elementKind.bind fun _ => (Gains.expect _ _).bind fun _ =>
    gains_members.bind fun _ => .pure rfl

theorem gains_elementBeforeEnd (package : String) (imports : List String) :
    (elementBeforeEnd package imports).Gains found :=
  .ite_ask .atEnd (.pure rfl) ((gains_element package imports).bind fun _ => .pure rfl)

theorem gains_clause (keyword : String) : (clause keyword).Gains found :=
  .ite_eat (gains_path.bind fun _ => (Gains.symbol _).bind fun _ => .pure rfl) (.pure rfl)

/-- Every round of every repetition of the grammar moves the index, if it comes to no fault: a
segment of a path, a type among the arguments of another, a mark, an argument of one, a parameter, a
member, an import and an element. -/
structure RoundsGain : Prop where
  /-- The rounds of paths. -/
  pathSegment : pathSegment.Gains found
  /-- The rounds of the arguments of types; also, every call of the reader of types by itself. -/
  typeRef : typeRef.Gains fun _ => 1
  /-- The rounds of marks. -/
  mark : mark.Gains found
  /-- The rounds of the arguments of marks. -/
  markArg : markArg.Gains fun _ => 1
  /-- The rounds of parameters. -/
  param : param.Gains fun _ => 1
  /-- The rounds of members. -/
  member : member.Gains found
  /-- The rounds of imports. -/
  clause (keyword : String) : (clause keyword).Gains found
  /-- The rounds of elements. -/
  element (package : String) (imports : List String) :
    (elementBeforeEnd package imports).Gains found

/-- **Rounds make headway**, from all indices of all tapes, also of such as no walk comes to. -/
theorem roundsGain : RoundsGain where
  pathSegment := gains_pathSegment
  typeRef := gains_typeRef
  mark := gains_mark
  markArg := gains_markArg
  param := gains_param
  member := gains_member
  clause := gains_clause
  element := gains_elementBeforeEnd

end Walk

end RequestRouter
