import RequestRouter.Declaration.Token

/-!
# Reading a list of tokens

A cursor stands at a token and knows those behind it. It never runs off the list: at
the last token it can be moved on, and then stands at that same token again – so the
token that ends a file answers every question that is asked too late, and a list that
lacks it is read as if its last token were repeated. The cursor counts its moves; the
moves past the last token count too.

Two forms of repetition cover the grammar: `RequestRouter.many` reads items as long as
there are any, and `RequestRouter.listed` reads items between commas up to a closing
parenthesis. Both go on only while tokens are used up, which is what ends them; no
item of the grammar uses up none.
-/

namespace RequestRouter

/-- A place in a list of tokens. -/
structure Cursor where
  /-- The token at the cursor. -/
  current : Token
  /-- The tokens behind it. -/
  later : List Token
  /-- How often the cursor was moved on. -/
  index : Nat
  /-- The number of tokens behind the current one. It is kept, for every step of a
  repetition asks for it. -/
  left : Nat
  /-- The number is right. -/
  left_eq : left = later.length

namespace Cursor

/-- The cursor at the first of the given tokens. -/
def start (first : Token) (later : List Token) : Cursor := ⟨first, later, 0, later.length, rfl⟩

/-- One token further on; at the last token, that token again. -/
def advance (c : Cursor) : Cursor :=
  match h : c.later with
  | [] => ⟨c.current, [], c.index + 1, 0, rfl⟩
  | token :: later =>
    ⟨token, later, c.index + 1, c.left - 1, by rw [c.left_eq, h, List.length_cons]; rfl⟩

/-- Whether the file ends here: at the last token, or at an empty one. -/
def atEnd (c : Cursor) : Bool := c.later.isEmpty || c.current.isEnd

/-- The cursor behind the current token, if that passes the test. -/
def eat? (test : Token → Bool) (c : Cursor) : Option Cursor :=
  if test c.current then some c.advance else none

/-- The fault that `what` is needed here. -/
def expected (what : Expectation) (c : Cursor) : ParseFault :=
  ⟨.expected what c.current.text, c.current.position⟩

/-- The fault that nothing can start here. -/
def unexpected (c : Cursor) : ParseFault :=
  ⟨.unexpected c.current.text, c.current.position⟩

/-- The current token, which has to pass the test, and the cursor behind it. -/
def expect (test : Token → Bool) (what : Expectation) (c : Cursor) :
    Except ParseFault (Token × Cursor) :=
  match c.eat? test with
  | some next => .ok (c.current, next)
  | none => .error (c.expected what)

/-- The cursor behind a symbol that has to stand here. -/
def expectSymbol (text : String) (c : Cursor) : Except ParseFault Cursor :=
  match c.eat? (Token.is text) with
  | some next => .ok next
  | none => .error (c.expected (.symbol text))

@[simp] theorem advance_index (c : Cursor) : c.advance.index = c.index + 1 := by
  rw [advance]
  split <;> rfl

@[simp] theorem current_start (first : Token) (later : List Token) :
    (start first later).current = first := rfl

@[simp] theorem left_start (first : Token) (later : List Token) :
    (start first later).left = later.length := rfl

theorem left_advance (c : Cursor) : c.advance.left = c.left - 1 := by
  rw [advance]
  split
  · next h => simp [c.left_eq, h]
  · rfl

end Cursor

/-- What reading declarations gives: a result, or the fault that stops it. -/
abbrev Parsed := Except ParseFault

variable {α : Type}

/-- The items in a row, as long as `item` finds one. -/
def many (item : Cursor → Parsed (Option α × Cursor)) (c : Cursor) : Parsed (List α × Cursor) :=
  match item c with
  | .error fault => .error fault
  | .ok (none, next) => .ok ([], next)
  | .ok (some a, next) =>
    if next.left < c.left then
      match many item next with
      | .error fault => .error fault
      | .ok (rest, last) => .ok (a :: rest, last)
    else .ok ([a], next)
termination_by c.left

/-- The items between commas up to a closing parenthesis, which is used up. A comma may
follow the last item. -/
def listed (item : Cursor → Parsed (α × Cursor)) (c : Cursor) : Parsed (List α × Cursor) :=
  match c.eat? (Token.is ")") with
  | some next => .ok ([], next)
  | none =>
    match item c with
    | .error fault => .error fault
    | .ok (a, behind) =>
      match behind.eat? (Token.is ",") with
      | none =>
        match behind.expectSymbol ")" with
        | .error fault => .error fault
        | .ok last => .ok ([a], last)
      | some next =>
        if next.left < c.left then
          match listed item next with
          | .error fault => .error fault
          | .ok (rest, last) => .ok (a :: rest, last)
        else .error next.unexpected
termination_by c.left

end RequestRouter
