/-!
# The arguments of a command

What the command line can ask for is to generate the source of the routers of some declaration
files, to check the files only, or to print what was read from one file (`RequestRouter.Command`).
Here are the rules by which arguments spell a command.

The first word that is not an option names the action; its options follow. A value stands in an
argument of its own or is attached to the option: behind an equals sign, or right behind the letter
of a short option. An option that takes several values takes all arguments up to the next option,
but of an attached value only that one. A flag takes no value; flags, and options that take one
path, may not be repeated. A path is not empty, and an argument that starts with a dash and goes on
is never a value. Everything else is a misuse, for which there is no command.
-/

namespace RequestRouter

/-! ### Commands -/

/-- What a round over files is given. -/
structure RoundArguments where
  /-- The paths of the declaration files. -/
  inputs : List String
  /-- The qualified names of types compiled earlier. -/
  compiled : List String
  /-- Whether to go on after an interface that failed. -/
  keepGoing : Bool

/-- What is asked for. -/
inductive Action where
  /-- To generate sources, under the output directory or else in the standard output. -/
  | generate (round : RoundArguments) (output : Option String)
  /-- To check without writing. -/
  | check (round : RoundArguments)
  /-- To print the declarations of one file as a document. -/
  | dump (input : String)

/-- The paths of the declaration files that are asked about. -/
def Action.inputs : Action → List String
  | .generate round _ => round.inputs
  | .check round => round.inputs
  | .dump input => [input]

/-- A command. -/
structure Command where
  /-- Whether diagnostics are printed as a document. -/
  json : Bool
  /-- What is asked for. -/
  action : Action

/-! ### Arguments -/

/-- The word that names an action. -/
inductive Verb where
  /-- To generate sources. -/
  | generate
  /-- To check only. -/
  | check
  /-- To print what was read. -/
  | dump
deriving DecidableEq

/-- The verb that a word names. -/
def Verb.ofWord? : String → Option Verb
  | "generate" => some .generate
  | "check" => some .check
  | "dump" => some .dump
  | _ => none

/-- An option of some action. -/
inductive OptionName where
  /-- Print diagnostics as a document. -/
  | json
  /-- Go on after failures. -/
  | keepGoing
  /-- The declaration files. -/
  | input
  /-- A type compiled earlier. -/
  | compiled
  /-- The output directory. -/
  | output
deriving DecidableEq

/-- The options of an action with their long names. -/
def Verb.longNames : Verb → List (String × OptionName)
  | .generate =>
    [("json", .json), ("keep-going", .keepGoing), ("input", .input), ("extern", .compiled),
      ("output", .output)]
  | .check =>
    [("json", .json), ("keep-going", .keepGoing), ("input", .input), ("extern", .compiled)]
  | .dump => [("json", .json), ("input", .input)]

/-- The options of an action with their letters. -/
def Verb.letters : Verb → List (Char × OptionName)
  | .generate => [('i', .input), ('o', .output)]
  | _ => [('i', .input)]

/-- What an argument is by its form. -/
inductive Argument where
  /-- A long option, perhaps with an attached value. -/
  | long (name : String) (attached : Option String)
  /-- A short option, perhaps with an attached value. -/
  | short (letter : Char) (attached : Option String)
  /-- The mark behind which no options are read. -/
  | stop
  /-- A value. -/
  | value (text : String)

/-- The text behind an equals sign, if one stands in front. -/
def behindEquals : List Char → Option String
  | '=' :: rest => some (String.ofList rest)
  | _ => none

/-- The form of an argument. -/
def Argument.ofText (text : String) : Argument :=
  match text.toList with
  | ['-', '-'] => .stop
  | '-' :: '-' :: rest =>
    .long (String.ofList (rest.takeWhile (· != '='))) (behindEquals (rest.dropWhile (· != '=')))
  | '-' :: letter :: rest =>
    if rest.isEmpty then .short letter none
    else .short letter (some ((behindEquals rest).getD (String.ofList rest)))
  | _ => .value text

/-- The options read so far. -/
structure Gathered where
  /-- Whether diagnostics are printed as a document. -/
  json : Bool := false
  /-- Whether to go on after failures. -/
  keepGoing : Bool := false
  /-- The declaration files. -/
  inputs : List String := []
  /-- The types compiled earlier. -/
  compiled : List String := []
  /-- The output directory. -/
  output : Option String := none
  /-- The option that takes the next value, and whether it has taken one. -/
  awaiting : Option (OptionName × Bool) := none

namespace Gathered

/-- The options when no more values come for the last of them; it must have had one. -/
def settle (g : Gathered) : Option Gathered :=
  match g.awaiting with
  | some (_, false) => none
  | _ => some { g with awaiting := none }

/-- The options with a value for `name`. -/
def store (g : Gathered) (name : OptionName) (value : String) : Option Gathered :=
  match name with
  | .input => if value.isEmpty then none else some { g with inputs := g.inputs ++ [value] }
  | .output => if value.isEmpty then none else some { g with output := some value }
  | .compiled => some { g with compiled := g.compiled ++ [value] }
  | _ => none

/-- Whether the option takes all values that come. -/
def takesMany (verb : Verb) (name : OptionName) : Bool := name == .input && verb != .dump

/-- Whether the option was given and may not be given again. -/
def isSpent (g : Gathered) (verb : Verb) (name : OptionName) : Bool :=
  match name with
  | .json => g.json
  | .keepGoing => g.keepGoing
  | .output => g.output.isSome
  | .input => verb == .dump && !g.inputs.isEmpty
  | .compiled => false

/-- The options with one more, and its attached value if it has one. -/
def take (g : Gathered) (verb : Verb) (name : OptionName) (attached : Option String) :
    Option Gathered :=
  if g.isSpent verb name then none
  else
    match name, attached with
    | .json, none => some { g with json := true }
    | .keepGoing, none => some { g with keepGoing := true }
    | .json, some _ => none
    | .keepGoing, some _ => none
    | name, some value => g.store name value
    | name, none => some { g with awaiting := some (name, false) }

/-- The options with one more value. -/
def takeValue (g : Gathered) (verb : Verb) (value : String) : Option Gathered :=
  match g.awaiting with
  | none => none
  | some (name, _) =>
    ({ g with awaiting := if takesMany verb name then some (name, true) else none }).store name
      value

/-- The options with those of further arguments. -/
def gather (verb : Verb) : List String → Gathered → Option Gathered
  | [], g => g.settle
  | argument :: rest, g =>
    match Argument.ofText argument with
    | .stop => if rest.isEmpty then g.settle else none
    | .value text => (g.takeValue verb text).bind (gather verb rest)
    | .long name attached => do
      let g ← g.settle
      let option ← verb.longNames.lookup name
      let g ← g.take verb option attached
      gather verb rest g
    | .short letter attached => do
      let g ← g.settle
      let option ← verb.letters.lookup letter
      let g ← g.take verb option attached
      gather verb rest g

/-- The action with these options; it needs an input. -/
def action? (g : Gathered) : Verb → Option Action
  | .generate =>
    if g.inputs.isEmpty then none
    else some (.generate ⟨g.inputs, g.compiled, g.keepGoing⟩ g.output)
  | .check =>
    if g.inputs.isEmpty then none else some (.check ⟨g.inputs, g.compiled, g.keepGoing⟩)
  | .dump => g.inputs.head?.map .dump

end Gathered

namespace Command

/-- The command behind the option for documents, if that was given. -/
def parseAfter (json : Bool) : List String → Option Command
  | [] => none
  | argument :: rest =>
    if argument = "--json" then if json then none else parseAfter true rest
    else do
      let verb ← Verb.ofWord? argument
      let g ← Gathered.gather verb rest {}
      let action ← g.action? verb
      some ⟨json || g.json, action⟩

/-- The command that the arguments spell; none if they are a misuse. -/
def parse? (arguments : List String) : Option Command := parseAfter false arguments

end Command

end RequestRouter
