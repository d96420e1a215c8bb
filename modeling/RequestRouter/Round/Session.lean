import RequestRouter.Round.Basic

/-!
# Sessions

A session is started once, with the environment that all its rounds run in, and then
runs any number of rounds. Files and diagnostics add up over its rounds. A round before
the start and a second start are refused and change nothing.
-/

namespace RequestRouter

/-- Rounds that share an environment, a sink and diagnostics. -/
structure Session (σ : Type) where
  /-- The environment, once the session is started. -/
  environment : Option (Environment σ)
  /-- The contents of the sink and the diagnostics so far. -/
  outcome : Outcome σ

namespace Session

variable {σ : Type}

/-- A session that is not started, whose sink holds `store`. -/
def fresh (store : σ) : Session σ := ⟨none, ⟨store, []⟩⟩

/-- Whether the session is started. -/
def isStarted (session : Session σ) : Bool := session.environment.isSome

/-- The names of the marks that a session takes care of. -/
def supportedMarks : List String := [routerMark]

/-- Starts the session. -/
def start (session : Session σ) (env : Environment σ) : Except Fault Unit × Session σ :=
  match session.environment with
  | some _ => (.error .alreadyInitialized, session)
  | none => (.ok (), { session with environment := some env })

/-- Runs a round; the result claims the marks for the session. -/
def process (session : Session σ) (files : List SourceFile) : Except Fault Bool × Session σ :=
  match session.environment with
  | none => (.error .notInitialized, session)
  | some env => (.ok true, { session with outcome := env.processRound files session.outcome })

/-- How many diagnostics are errors. -/
def errorCount (session : Session σ) : Nat :=
  session.outcome.diagnostics.countP Diagnostic.isError

end Session

end RequestRouter
