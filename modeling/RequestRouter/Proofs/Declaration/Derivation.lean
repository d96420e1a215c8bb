import RequestRouter.Declaration.Grammar

/-!
# Derivations of declaration files

The grammar of declaration files, as relations between lists of tokens and the trees that
they spell. A relation holds of exactly the tokens of its part, without any that stand behind
it, so nothing here knows about reading from left to right, about looking ahead, or about
where a reader stops:

* `file := (package path ;)? (use path ;)* element*`
* `element := mark* (interface | class | object) NAME (; | { member* })`
* `member := mark* fn NAME ( (param (, param)* ,?)? ) (-> type)? ;`, or
  `member := mark* NAME : type ;` where the name is not `fn`
* `param := mark* NAME : type (= default)?`
* `default := STRING | INTEGER | FLOAT | CHARACTER | path`
* `mark := @ path (( (arg (, arg)* ,?)? ))?`
* `arg := STRING | INTEGER | path`, where the integer is one of 64 bits
* `type := path (< type (, type)* >)?` and perhaps a question mark
* `path := NAME (:: NAME)*`

That the reader of `RequestRouter.Grammar` reads a list of tokens as a tree exactly when this
grammar derives it is `RequestRouter.SourceFile.ofTokens_eq_ok_iff`.
-/

namespace RequestRouter

/-! ### Integers -/

/-- The text is an integer in ASCII digits, with a minus sign in front of them or not. -/
def IsDecimal (text : String) (value : Int) : Prop :=
  ∃ digits : List Char, digits ≠ [] ∧ (∀ d ∈ digits, d.isDigit = true) ∧
    (text.toList = digits ∧ value = Nat.ofDigitChars 10 digits 0 ∨
      text.toList = '-' :: digits ∧ value = -(Nat.ofDigitChars 10 digits 0 : Int))

/-- The integers of 64 bits. -/
def IsWord (value : Int) : Prop :=
  -9223372036854775808 ≤ value ∧ value ≤ 9223372036854775807

instance (value : Int) : Decidable (IsWord value) :=
  inferInstanceAs (Decidable (_ ∧ _))

namespace Derives

variable {α : Type}

/-! ### Ways to put parts together -/

/-- A part behind a symbol or a keyword: `text part`. -/
inductive Behind (text : String) (part : List Token → α → Prop) : List Token → α → Prop
  /-- The symbol, and the part. -/
  | intro {token : Token} {ts : List Token} {a : α} :
    token.text = text → part ts a → Behind text part (token :: ts) a

/-- A part that may be missing: `part?`. -/
inductive Maybe (part : List Token → α → Prop) : List Token → Option α → Prop
  /-- No part. -/
  | none : Maybe part [] none
  /-- The part. -/
  | some {ts : List Token} {a : α} : part ts a → Maybe part ts (some a)

/-- Parts in a row: `part*`. -/
inductive Row (part : List Token → α → Prop) : List Token → List α → Prop
  /-- No part. -/
  | nil : Row part [] []
  /-- One part more in front. -/
  | cons {ts us : List Token} {a : α} {as : List α} :
    part ts a → Row part us as → Row part (ts ++ us) (a :: as)

/-- Parts with commas between them: `part (, part)*`. -/
inductive Commas (part : List Token → α → Prop) : List Token → List α → Prop
  /-- A single part. -/
  | single {ts : List Token} {a : α} : part ts a → Commas part ts [a]
  /-- One part more in front. -/
  | cons {ts us : List Token} {comma : Token} {a : α} {as : List α} :
    part ts a → comma.text = "," → Commas part us as →
      Commas part (ts ++ comma :: us) (a :: as)

/-- Parts in front of a closing parenthesis: `(part (, part)* ,?)? )`. -/
inductive Closed (part : List Token → α → Prop) : List Token → List α → Prop
  /-- Only the parenthesis. -/
  | empty {closing : Token} : closing.text = ")" → Closed part [closing] []
  /-- Parts, and no comma behind the last. -/
  | parts {closing : Token} {ts : List Token} {as : List α} :
    Commas part ts as → closing.text = ")" → Closed part (ts ++ [closing]) as
  /-- Parts, and a comma behind the last. -/
  | trailing {comma closing : Token} {ts : List Token} {as : List α} :
    Commas part ts as → comma.text = "," → closing.text = ")" →
      Closed part (ts ++ [comma, closing]) as

/-! ### Paths and types -/

/-- `path := NAME (:: NAME)*`, with its names. Keywords are names, too. -/
inductive Path : List Token → List String → Prop
  /-- A single name. -/
  | single {name : Token} : name.isIdentifier → Path [name] [name.text]
  /-- One name more in front. -/
  | cons {name separator : Token} {ts : List Token} {names : List String} :
    name.isIdentifier → separator.text = "::" → Path ts names →
      Path (name :: separator :: ts) (name.text :: names)

/-- The names of a path as one text. -/
def joined (names : List String) : String := "::".intercalate names

/-- A question mark, if values may be absent. -/
inductive Absence : List Token → Bool → Prop
  /-- No question mark. -/
  | never : Absence [] false
  /-- A question mark. -/
  | allowed {question : Token} : question.text = "?" → Absence [question] true

/-- `type := path (< type (, type)* >)?`, and perhaps a question mark. -/
inductive Written : List Token → TypeRef → Prop
  /-- A type without arguments. -/
  | plain {ts us : List Token} {names : List String} {nullable : Bool} :
    Path ts names → Absence us nullable → Written (ts ++ us) ⟨joined names, [], nullable⟩
  /-- A type with arguments. -/
  | applied {ts us vs : List Token} {opening closing : Token} {names : List String}
      {args : List TypeRef} {nullable : Bool} :
    Path ts names → opening.text = "<" → Commas Written us args → closing.text = ">" →
      Absence vs nullable →
      Written (ts ++ opening :: (us ++ closing :: vs)) ⟨joined names, args, nullable⟩

/-! ### Marks -/

/-- `arg := STRING | INTEGER | path`, where the integer is one of 64 bits. -/
inductive MarkArgument : List Token → MarkArg → Prop
  /-- A string, by its value. -/
  | text {token : Token} : token.isString → MarkArgument [token] (.text (stringValue token.text))
  /-- An integer, by its value. -/
  | int {token : Token} {value : Int} :
    token.isInteger → IsDecimal token.text value → IsWord value →
      MarkArgument [token] (.int value)
  /-- A path. -/
  | path {ts : List Token} {names : List String} :
    Path ts names → MarkArgument ts (.path (joined names))

/-- `mark := @ path (( (arg (, arg)* ,?)? ))?`. It is named by the last name of its path, and
stands where its at sign does. -/
inductive Marked : List Token → Mark → Prop
  /-- A mark without parentheses. -/
  | bare {sign : Token} {ts : List Token} {front : List String} {name : String} :
    sign.text = "@" → Path ts (front ++ [name]) → Marked (sign :: ts) ⟨name, sign.position, []⟩
  /-- A mark with parentheses. -/
  | called {sign : Token} {ts us : List Token} {front : List String} {name : String}
      {args : List MarkArg} :
    sign.text = "@" → Path ts (front ++ [name]) → Behind "(" (Closed MarkArgument) us args →
      Marked (sign :: (ts ++ us)) ⟨name, sign.position, args⟩

/-! ### Members -/

/-- `default := STRING | INTEGER | FLOAT | CHARACTER | path`, kept as it is written. -/
inductive Default : List Token → String → Prop
  /-- A literal. -/
  | literal {token : Token} :
    token.isString ∨ token.isInteger ∨ token.isFloat ∨ token.isCharacter →
      Default [token] token.text
  /-- A path. -/
  | path {ts : List Token} {names : List String} : Path ts names → Default ts (joined names)

/-- `param := mark* NAME : type (= default)?`. It stands where its name does. -/
inductive Parameter : List Token → Param → Prop
  /-- A parameter. -/
  | intro {ms ts ds : List Token} {marks : List Mark} {name colon : Token} {type : TypeRef}
      {default : Option String} :
    Row Marked ms marks → name.isIdentifier → colon.text = ":" → Written ts type →
      Maybe (Behind "=" Default) ds default →
      Parameter (ms ++ name :: colon :: (ts ++ ds))
        ⟨name.text, name.position, marks, type, default⟩

/-- `member := mark* fn NAME ( (param (, param)* ,?)? ) (-> type)? ;`, or
`member := mark* NAME : type ;` where the name is not `fn`. It stands where its name does. -/
inductive Member : List Token → Grammar.Member → Prop
  /-- A method. -/
  | method {ms ps rs : List Token} {marks : List Mark} {keyword name semicolon : Token}
      {params : List Param} {result : Option TypeRef} :
    Row Marked ms marks → keyword.text = "fn" → name.isIdentifier →
      Behind "(" (Closed Parameter) ps params → Maybe (Behind "->" Written) rs result →
      semicolon.text = ";" →
      Member (ms ++ keyword :: name :: (ps ++ (rs ++ [semicolon])))
        (.method ⟨name.text, name.position, marks, params, result⟩)
  /-- A property. The marks in front of it are not kept. -/
  | field {ms ts : List Token} {marks : List Mark} {name colon semicolon : Token}
      {type : TypeRef} :
    Row Marked ms marks → name.isIdentifier → name.text ≠ "fn" → colon.text = ":" →
      Written ts type → semicolon.text = ";" →
      Member (ms ++ name :: colon :: (ts ++ [semicolon]))
        (.field ⟨name.text, name.position, type⟩)

/-! ### Elements and files -/

/-- The keyword that declares a type of the given kind. -/
def keyword : ElementKind → String
  | .interfaceType => "interface"
  | .classType => "class"
  | .objectType => "object"

/-- `; | { member* }` -/
inductive Body : List Token → List Grammar.Member → Prop
  /-- No body. -/
  | none {semicolon : Token} : semicolon.text = ";" → Body [semicolon] []
  /-- Members between braces. -/
  | members {opening closing : Token} {ts : List Token} {members : List Grammar.Member} :
    opening.text = "\x7b" → Row Member ts members → closing.text = "\x7d" →
      Body (opening :: (ts ++ [closing])) members

/-- `element := mark* (interface | class | object) NAME (; | { member* })`, in a file with the
given package and imports. It stands where its name does. -/
inductive Declared (package : String) (imports : List String) : List Token → Element → Prop
  /-- A declared type. -/
  | intro {ms bs : List Token} {marks : List Mark} {kind : ElementKind} {word name : Token}
      {members : List Grammar.Member} :
    Row Marked ms marks → word.text = keyword kind → name.isIdentifier → Body bs members →
      Declared package imports (ms ++ word :: name :: bs)
        { name := name.text
          package := package
          imports := imports
          position := name.position
          kind := kind
          marks := marks
          methods := members.filterMap Grammar.Member.method?
          fields := members.filterMap Grammar.Member.field? }

/-- `path ;` -/
inductive Statement : List Token → String → Prop
  /-- A path and a semicolon. -/
  | intro {semicolon : Token} {ts : List Token} {names : List String} :
    Path ts names → semicolon.text = ";" → Statement (ts ++ [semicolon]) (joined names)

/-- `file := (package path ;)? (use path ;)* element*`. Every element carries the package,
which is empty if there is none, and the imports. -/
inductive File : List Token → SourceFile → Prop
  /-- A file. -/
  | intro {ps us es : List Token} {package : Option String} {imports : List String}
      {elements : List Element} :
    Maybe (Behind "package" Statement) ps package → Row (Behind "use" Statement) us imports →
      Row (Declared (package.getD "") imports) es elements →
      File (ps ++ (us ++ es)) ⟨package, imports, elements⟩

end Derives

end RequestRouter
