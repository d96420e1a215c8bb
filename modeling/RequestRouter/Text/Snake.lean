import RequestRouter.Text.LetterCase

/-!
# Snake case

A name in camel case becomes words joined by underscores. A word starts at a
capital letter that follows a character which is none, or that a small letter
follows: so a run of capitals stays together, and its last capital opens the next
word (`HTTPRouter` is `http_router`).
-/

namespace RequestRouter

namespace Text

/-- Whether a capital between `before` and `after` opens a new word. The first
character of a name opens none. -/
def opensWord : (before : Option Char) → (after : List Char) → Bool
  | none, _ => false
  | some b, after => !isUppercase b || after.head?.any isLowercase

/-- The characters that `c` becomes between `before` and `after`. -/
def snakeChar (before : Option Char) (c : Char) (after : List Char) : List Char :=
  if isUppercase c then
    if opensWord before after then '_' :: lowercase c else lowercase c
  else [c]

/-- The snake case of the rest of a name that follows `before`. -/
def snakeAfter (before : Option Char) : List Char → List Char
  | [] => []
  | c :: rest => snakeChar before c rest ++ snakeAfter (some c) rest

@[simp] theorem snakeAfter_nil (before : Option Char) : snakeAfter before [] = [] := rfl

@[simp] theorem snakeAfter_cons (before : Option Char) (c : Char) (rest : List Char) :
    snakeAfter before (c :: rest) = snakeChar before c rest ++ snakeAfter (some c) rest := rfl

/-- The snake case of `name`. -/
def snakeCase (name : String) : String :=
  String.ofList (snakeAfter none name.toList)

end Text

end RequestRouter
