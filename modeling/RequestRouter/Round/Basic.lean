import RequestRouter.Declaration.Grammar
import RequestRouter.Json.Basic
import RequestRouter.Round.Diagnostic
import RequestRouter.Round.Store
import RequestRouter.Router.SymbolTable

/-!
# Rounds

A round takes the elements of its files that carry the marker of routers, in their
order, and turns each into a generated file or into diagnostics. After an element that
failed the round ends, unless its options say that it is to go on and report every failure.
Everything a round does to its surroundings is in what it returns (`RequestRouter.Outcome`): the
contents of the sink and the diagnostics.

As a document, options are an object whose member `keep_going` may be missing, or an array of at
most that one value; members of other names do not count.
-/

namespace RequestRouter

/-! ### Options -/

/-- How a round deals with failures. -/
structure Options where
  /-- Whether the round goes on after an element that failed. -/
  keepGoing : Bool := false

/-- The options in a document. -/
def Options.ofDocument? : Json → Option Options
  | .obj members =>
    match KeyMap.find? "keep_going" members with
    | none => some {}
    | some (.bool keepGoing) => some ⟨keepGoing⟩
    | some _ => none
  | .arr [] => some {}
  | .arr [.bool keepGoing] => some ⟨keepGoing⟩
  | _ => none

/-! ### Elements one after the other -/

/-- What rounds run in: a host, a sink and options. -/
structure Environment (σ : Type) where
  /-- Looks up types. -/
  host : Host
  /-- Takes generated files. -/
  sink : Sink σ
  /-- How failures are dealt with. -/
  options : Options

/-- The contents of the sink and the diagnostics so far. -/
structure Outcome (σ : Type) where
  /-- The contents of the sink. -/
  store : σ
  /-- The diagnostics, the oldest first. -/
  diagnostics : List Diagnostic

/-- Whether a diagnostic is an error. -/
def Outcome.hasErrors {σ : Type} (outcome : Outcome σ) : Bool :=
  outcome.diagnostics.any Diagnostic.isError

/-- The elements of `files` with a mark of the given name, in their order. -/
def markedElements (name : String) (files : List SourceFile) : List Element :=
  (files.flatMap SourceFile.elements).filter fun element =>
    (findMark? name element.marks).isSome

/-- The elements that are to become routers. -/
def candidates (files : List SourceFile) : List Element := markedElements routerMark files

theorem candidates_eq (files : List SourceFile) :
    candidates files = (files.flatMap SourceFile.elements).filter fun element =>
      element.marks.any fun mark => mark.name == "Intention" :=
  List.filter_congr fun _ _ => List.isSome_find?

/-- There is nothing to do if nothing is marked. -/
theorem candidates_ne_nil_iff {files : List SourceFile} :
    candidates files ≠ [] ↔ ∃ element ∈ files.flatMap SourceFile.elements,
      ∃ mark ∈ element.marks, mark.name = "Intention" := by
  rw [candidates_eq, ne_eq, List.filter_eq_nil_iff]
  simp only [List.any_eq_true, beq_iff_eq, Classical.not_forall, Classical.not_not, exists_prop]

namespace Environment

variable {σ : Type}

/-- Turns an element into a file in the sink, or says why that fails. -/
def processElement (env : Environment σ) (element : Element) (store : σ) :
    Except (List Fault) Unit × σ :=
  match element.router env.host with
  | .error faults => (.error faults, store)
  | .ok router =>
    let (result, store) := env.sink.create router.emit store
    (single result, store)

/-- Turns elements into files one after the other. -/
def processElements (env : Environment σ) : List Element → Outcome σ → Outcome σ
  | [], outcome => outcome
  | element :: rest, outcome =>
    match env.processElement element outcome.store with
    | (.ok (), store) => env.processElements rest ⟨store, outcome.diagnostics⟩
    | (.error faults, store) =>
      let reported := outcome.diagnostics ++ faults.map element.report
      if env.options.keepGoing then env.processElements rest ⟨store, reported⟩
      else ⟨store, reported⟩

/-- Runs a round over `files`. -/
def processRound (env : Environment σ) (files : List SourceFile) (outcome : Outcome σ) :
    Outcome σ :=
  env.processElements (candidates files) outcome

end Environment

/-- Runs one round in memory. The names in `compiled` were compiled earlier. -/
def compileRound (files : List SourceFile) (compiled : List String) (options : Options) :
    Outcome Store :=
  let env : Environment Store := ⟨(SymbolTable.ofFiles files compiled).host, Store.sink, options⟩
  env.processRound files ⟨[], []⟩

/-- Reads texts as declaration files; the first text that is none stops it. -/
def parseAll (texts : List String) : Except ParseFault (List SourceFile) :=
  texts.mapM SourceFile.parse

/-- Reads texts and runs one round over them in memory. -/
def compileTexts (texts : List String) : Except ParseFault (Outcome Store) :=
  (parseAll texts).map fun files => compileRound files [] {}

end RequestRouter
