import RequestRouter.Command.Arguments
import RequestRouter.Declaration.Document
import RequestRouter.Disk.Basic
import RequestRouter.Json.Printer
import RequestRouter.Round.Basic

/-!
# Carrying out a command

A command reads its files from a disk, and everything it does is in its result
(`RequestRouter.CommandResult`): the exit status, what it prints, and the disk afterwards.
A file that cannot be read ends it at once. The diagnostics of a round are printed with
the file of the declaration that they point at, which is found by name
(`RequestRouter.declaringInput?`); a round without errors succeeds.
-/

namespace RequestRouter

/-- What a command did. -/
structure CommandResult where
  /-- The exit status. -/
  exit : Nat
  /-- The standard output. -/
  stdout : String
  /-- The standard error. -/
  stderr : String
  /-- The files afterwards. -/
  disk : Disk

/-- The exit status of a misuse of the command line. -/
def misuseExit : Nat := 2

/-- A declaration file and the path it was read from. -/
structure Input where
  /-- The path as it was given. -/
  path : String
  /-- The file. -/
  file : SourceFile

/-! ### Files that cannot be read -/

/-- Why a declaration file cannot be read. -/
inductive InputCause where
  /-- The system cannot read it. -/
  | system (cause : SystemError)
  /-- Its text is no declaration file. -/
  | parse (fault : ParseFault)

/-- A path whose file cannot be read, and why. -/
structure InputFault where
  /-- The path. -/
  path : String
  /-- Why it cannot be read. -/
  cause : InputCause

/-- The line and the column of the fault; zero where there are none. -/
def InputCause.position : InputCause → Position
  | .system _ => ⟨0, 0⟩
  | .parse fault => fault.position

/-- The cause in words, without a position. -/
def InputCause.message : InputCause → String
  | .system cause => (Fault.storage cause.message).message
  | .parse fault => fault.reason.text

namespace InputFault

/-- The fault as a document. -/
def document (fault : InputFault) : Json :=
  .arr [.object
    [("file", .str fault.path), ("kind", .str Severity.error.label),
      ("message", .str fault.cause.message),
      ("location", .object fault.cause.position.members)]]

/-- The fault on one line. -/
def line (fault : InputFault) : String :=
  let path := fault.path
  let message := fault.cause.message
  let row := fault.cause.position.line
  let column := fault.cause.position.column
  if 0 < row then s!"error: {path}:{row}:{column}: {message}" else s!"error: {path}: {message}"

/-- What the command prints about the fault. -/
def printed (fault : InputFault) (json : Bool) : String :=
  (if json then fault.document.compact else fault.line) ++ "\n"

end InputFault

/-- Reads the declaration file at a path. -/
def readInput (disk : Disk) (path : String) : Except InputFault Input :=
  match disk.readText path with
  | .error cause => .error ⟨path, .system cause⟩
  | .ok text =>
    match SourceFile.parse text with
    | .error fault => .error ⟨path, .parse fault⟩
    | .ok file => .ok ⟨path, file⟩

/-! ### Diagnostics -/

/-- Whether the symbol is the element of the qualified name or belongs to it. -/
def belongsTo (symbol qualified : String) : Bool :=
  symbol == qualified || (qualified ++ Text.separator).toList.isPrefixOf symbol.toList

/-- The first input with an element that the diagnostic can point at. -/
def declaringInput? (inputs : List Input) (diagnostic : Diagnostic) : Option Input :=
  diagnostic.location.bind fun location =>
    inputs.find? fun input =>
      input.file.elements.any fun element => belongsTo location.symbol element.qualifiedName

/-- The diagnostic as a document, with the path of its file. -/
def Diagnostic.documentIn (inputs : List Input) (diagnostic : Diagnostic) : Json :=
  .object
    [("file", .ofText? ((declaringInput? inputs diagnostic).map Input.path)),
      ("kind", .str diagnostic.severity.label), ("message", .str diagnostic.message),
      ("location",
        match diagnostic.location with
        | none => .null
        | some location => .object (("symbol", .str location.symbol) :: location.position.members))]

/-- The diagnostic on one line, with the path of its file. -/
def Diagnostic.lineIn (inputs : List Input) (diagnostic : Diagnostic) : String :=
  match declaringInput? inputs diagnostic, diagnostic.location with
  | some input, some location =>
    let severity := if diagnostic.isError then "error" else "warning"
    let path := input.path
    let row := location.position.line
    let column := location.position.column
    let message := diagnostic.message
    let symbol := location.symbol
    s!"{severity}: {path}:{row}:{column}: {message} ({symbol})"
  | _, _ => diagnostic.display

/-- What the command prints about the diagnostics of a round. -/
def printedDiagnostics (inputs : List Input) (diagnostics : List Diagnostic) (json : Bool) :
    String :=
  if json then (Json.arr (diagnostics.map fun d => d.documentIn inputs)).compact ++ "\n"
  else String.join (diagnostics.map fun d => d.lineIn inputs ++ "\n")

/-! ### Carrying out -/

/-- Runs a round over inputs with the given sink. -/
def runRound {σ : Type} (inputs : List Input) (round : RoundArguments) (sink : Sink σ)
    (store : σ) : Outcome σ :=
  let files := inputs.map Input.file
  let env : Environment σ :=
    ⟨(SymbolTable.ofFiles files round.compiled).host, sink, ⟨round.keepGoing⟩⟩
  env.processRound files ⟨store, []⟩

/-- The exit status of a round: it fails if a diagnostic is an error. -/
def Outcome.exit {σ : Type} (outcome : Outcome σ) : Nat := if outcome.hasErrors then 1 else 0

/-- The result of a command that an input ends. -/
def CommandResult.ofFault (disk : Disk) (json : Bool) (fault : InputFault) : CommandResult :=
  ⟨1, "", fault.printed json, disk⟩

/-- Carries out a round whose files are given by their paths. -/
def executeRound (disk : Disk) (json : Bool) (round : RoundArguments)
    (finish : List Input → CommandResult) : CommandResult :=
  match round.inputs.mapM (readInput disk) with
  | .error fault => .ofFault disk json fault
  | .ok inputs => finish inputs

namespace Command

/-- Carries out a command. -/
def execute (command : Command) (disk : Disk) : CommandResult :=
  match command.action with
  | .generate round (some output) =>
    executeRound disk command.json round fun inputs =>
      let outcome := runRound inputs round (Disk.sink output) disk
      ⟨outcome.exit, "", printedDiagnostics inputs outcome.diagnostics command.json, outcome.store⟩
  | .generate round none =>
    executeRound disk command.json round fun inputs =>
      let outcome := runRound inputs round Store.sink []
      ⟨outcome.exit, String.join (outcome.store.map fun file => file.source ++ "\n"),
        printedDiagnostics inputs outcome.diagnostics command.json, disk⟩
  | .check round =>
    executeRound disk command.json round fun inputs =>
      let outcome := runRound inputs round Store.sink []
      ⟨outcome.exit, "", printedDiagnostics inputs outcome.diagnostics command.json, disk⟩
  | .dump path =>
    match readInput disk path with
    | .error fault => .ofFault disk command.json fault
    | .ok input => ⟨0, input.file.document.indented ++ "\n", "", disk⟩

/-- Carries out the command that the arguments spell; a misuse does nothing. -/
def run (arguments : List String) (disk : Disk) : CommandResult :=
  match parse? arguments with
  | none => ⟨misuseExit, "", "", disk⟩
  | some command => command.execute disk

end Command

end RequestRouter
