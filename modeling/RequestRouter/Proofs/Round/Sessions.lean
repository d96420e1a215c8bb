import RequestRouter.Proofs.Disk.Generated
import RequestRouter.Proofs.Round.Memory
import RequestRouter.Round.Session

/-!
# Sessions in memory

A session takes calls: starts and rounds, in any order. Until the first start nothing happens; from
then on the environment is that of the first start, and further starts are refused
(`RequestRouter.Session.environment_after`). Only rounds change files and diagnostics, and they only
add to them (`RequestRouter.Session.growsTo_after`). Together these say what every call of every
session does (`RequestRouter.Session.after_calls`).

A round whose files were processed before in the session is a replay. Whatever the first round came
to, it fails from then on; so the replay adds no file, and it reports errors unless the round has
nothing to process (`RequestRouter.Session.process_again`). If the round stops at the first failure,
the replay already stops at the first candidate, so it cannot come to one that the first round did
not reach.
-/

namespace RequestRouter

/-- A call on a session whose files are kept in memory. -/
inductive Call where
  /-- Starts the session with what a host provides, and options. -/
  | start (facilities : Facilities) (options : Options)
  /-- Runs a round. -/
  | process (sources : List SourceFile)

/-- The environment that the call starts a session with, if it is a start. -/
def Call.environment? : Call → Option (Environment Store)
  | .start facilities options => some (facilities.environment options)
  | .process _ => none

/-- The environment of the first start among the calls. -/
def firstStart? (calls : List Call) : Option (Environment Store) :=
  calls.findSome? Call.environment?

theorem firstStart?_cons (call : Call) (calls : List Call) :
    firstStart? (call :: calls) = call.environment?.or (firstStart? calls) := by
  cases call with
  | start facilities options => rfl
  | process sources => rfl

namespace Session

/-- The session behind the call. -/
def behind (session : Session Store) : Call → Session Store
  | .start facilities options => (session.start (facilities.environment options)).2
  | .process sources => (session.process sources).2

/-- The session behind calls, one after another. -/
def after (session : Session Store) (calls : List Call) : Session Store :=
  calls.foldl behind session

variable {session : Session Store} {env : Environment Store}

@[simp] theorem after_nil (session : Session Store) : session.after [] = session := rfl

@[simp] theorem after_cons (session : Session Store) (call : Call) (calls : List Call) :
    session.after (call :: calls) = (session.behind call).after calls := rfl

/-! ### One call -/

theorem start_of_none (h : session.environment = none) (env : Environment Store) :
    session.start env = (.ok (), ⟨some env, session.outcome⟩) := by
  rw [start, h]

theorem start_of_some (h : session.environment = some env) (other : Environment Store) :
    session.start other = (.error .alreadyInitialized, session) := by
  rw [start, h]

theorem process_of_none (h : session.environment = none) (sources : List SourceFile) :
    session.process sources = (.error .notInitialized, session) := by
  rw [process, h]

theorem process_of_some (h : session.environment = some env) (sources : List SourceFile) :
    session.process sources =
      (.ok true, ⟨some env, env.processRound sources session.outcome⟩) := by
  rw [process, h]

/-- **The step of a session**: a call is refused, or starts the session, or runs a round. -/
theorem behind_cases (session : Session Store) (call : Call) :
    session.behind call = session ∨
      (∃ facilities options, session.environment = none ∧
        call = .start facilities options ∧
        session.behind call = ⟨some (facilities.environment options), session.outcome⟩) ∨
      ∃ env sources, session.environment = some env ∧ call = .process sources ∧
        session.behind call = ⟨some env, env.processRound sources session.outcome⟩ := by
  cases h : session.environment with
  | none =>
    cases call with
    | start facilities options =>
      exact .inr (.inl ⟨facilities, options, rfl, rfl, by rw [behind, start_of_none h]⟩)
    | process sources => exact .inl (by rw [behind, process_of_none h])
  | some env =>
    cases call with
    | start facilities options => exact .inl (by rw [behind, start_of_some h])
    | process sources =>
      exact .inr (.inr ⟨env, sources, rfl, rfl, by rw [behind, process_of_some h]⟩)

theorem environment_behind (session : Session Store) (call : Call) :
    (session.behind call).environment = session.environment.or call.environment? := by
  cases h : session.environment with
  | none =>
    cases call with
    | start facilities options => rw [behind, start_of_none h]; rfl
    | process sources => rw [behind, process_of_none h, h]; rfl
  | some env =>
    cases call with
    | start facilities options => rw [behind, start_of_some h, h]; rfl
    | process sources => rw [behind, process_of_some h]; rfl

/-! ### Sessions that keep their files in memory -/

/-- The session is not started, or its files are kept in memory. -/
def InMemory (session : Session Store) : Prop :=
  ∀ env ∈ session.environment, ∃ facilities options, env = Facilities.environment facilities options

theorem inMemory_of_none (outcome : Outcome Store) : InMemory ⟨none, outcome⟩ := nofun

theorem inMemory_of_environment (facilities : Facilities) (options : Options)
    (outcome : Outcome Store) : InMemory ⟨some (facilities.environment options), outcome⟩ := by
  rintro env ⟨⟩
  exact ⟨facilities, options, rfl⟩

theorem InMemory.behind (h : session.InMemory) (call : Call) : (session.behind call).InMemory := by
  rcases session.behind_cases call with hsame | ⟨facilities, options, -, -, hstart⟩ |
    ⟨env, sources, henv, -, hround⟩
  · rwa [hsame]
  · rw [hstart]
    exact inMemory_of_environment facilities options _
  · obtain ⟨facilities, options, rfl⟩ := h env henv
    rw [hround]
    exact inMemory_of_environment facilities options _

theorem InMemory.growsTo_behind (h : session.InMemory) (call : Call) :
    session.outcome.GrowsTo (session.behind call).outcome := by
  rcases session.behind_cases call with hsame | ⟨facilities, options, -, -, hstart⟩ |
    ⟨env, sources, henv, -, hround⟩
  · rw [hsame]
    exact .refl _
  · rw [hstart]
    exact .refl _
  · obtain ⟨facilities, options, rfl⟩ := h env henv
    rw [hround]
    exact facilities.growsTo_processElements options (candidates sources) session.outcome

theorem InMemory.nodup_keys_behind (h : session.InMemory) (call : Call)
    (hkeys : (session.outcome.store.map EmittedFile.key).Nodup) :
    ((session.behind call).outcome.store.map EmittedFile.key).Nodup := by
  rcases session.behind_cases call with hsame | ⟨facilities, options, -, -, hstart⟩ |
    ⟨env, sources, henv, -, hround⟩
  · rwa [hsame]
  · rwa [hstart]
  · obtain ⟨facilities, options, rfl⟩ := h env henv
    rw [hround]
    exact facilities.nodup_keys_processElements options (candidates sources) session.outcome hkeys

/-! ### Any calls -/

theorem InMemory.after (h : session.InMemory) (calls : List Call) :
    (session.after calls).InMemory := by
  induction calls generalizing session with
  | nil => exact h
  | cons call calls ih => exact ih (h.behind call)

/-- **Calls only add** to files and diagnostics. -/
theorem InMemory.growsTo_after (h : session.InMemory) (calls : List Call) :
    session.outcome.GrowsTo (session.after calls).outcome := by
  induction calls generalizing session with
  | nil => exact .refl _
  | cons call calls ih => exact (h.growsTo_behind call).trans (ih (h.behind call))

/-- **Calls keep files apart** by package or name. -/
theorem InMemory.nodup_keys_after (h : session.InMemory) (calls : List Call)
    (hkeys : (session.outcome.store.map EmittedFile.key).Nodup) :
    ((session.after calls).outcome.store.map EmittedFile.key).Nodup := by
  induction calls generalizing session with
  | nil => exact hkeys
  | cons call calls ih => exact ih (h.behind call) (h.nodup_keys_behind call hkeys)

/-- **The first start counts**: it gives the environment, unless the session is started already. -/
theorem environment_after (session : Session Store) (calls : List Call) :
    (session.after calls).environment = session.environment.or (firstStart? calls) := by
  induction calls generalizing session with
  | nil => exact Option.or_none.symm
  | cons call calls ih =>
    rw [after_cons, ih, environment_behind, Option.or_assoc, firstStart?_cons]

/-- Without a start nothing happens. -/
theorem after_of_firstStart?_eq_none {calls : List Call} (h : firstStart? calls = none)
    (hnone : session.environment = none) : session.after calls = session := by
  induction calls with
  | nil => rfl
  | cons call calls ih =>
    rw [firstStart?_cons, Option.or_eq_none_iff] at h
    cases call with
    | start facilities options => cases h.1
    | process sources =>
      rw [after_cons, behind, process_of_none hnone]
      exact ih h.2

/-- **What every call of a session does.** Let a session that is not started take any calls. If
there is no start among them, nothing has changed, a round is refused, and a start succeeds.
Otherwise a start is refused, and a round succeeds, in the environment of the first start; what its
sink refuses does not change what is held. In any case the files held differ in package or name, and
whatever calls follow, files and diagnostics only grow at their ends. -/
theorem after_calls (outcome : Outcome Store)
    (hkeys : (outcome.store.map EmittedFile.key).Nodup) (calls later : List Call) :
    let session := (Session.mk none outcome).after calls
    (firstStart? calls = none →
      session = ⟨none, outcome⟩ ∧
        (∀ sources, session.process sources = (.error .notInitialized, session)) ∧
        ∀ env, session.start env = (.ok (), ⟨some env, session.outcome⟩)) ∧
      (∀ env, firstStart? calls = some env →
        (∀ other, session.start other = (.error .alreadyInitialized, session)) ∧
          (∀ sources, session.process sources =
            (.ok true, ⟨some env, env.processRound sources session.outcome⟩)) ∧
          ∀ file store fault, (env.sink.create file store).1 = .error fault →
            (env.sink.create file store).2 = store) ∧
      (session.outcome.store.map EmittedFile.key).Nodup ∧
      session.outcome.GrowsTo (session.after later).outcome := by
  intro session
  have hmemory : session.InMemory := (inMemory_of_none outcome).after calls
  have henv : session.environment = firstStart? calls := environment_after _ calls
  refine ⟨fun hnone => ?_, fun env hsome => ?_,
    (inMemory_of_none outcome).nodup_keys_after calls hkeys, hmemory.growsTo_after later⟩
  · rw [hnone] at henv
    exact ⟨after_of_firstStart?_eq_none hnone rfl, process_of_none henv, start_of_none henv⟩
  · rw [hsome] at henv
    refine ⟨start_of_some henv, process_of_some henv, fun file store fault hrefused => ?_⟩
    obtain ⟨facilities, options, rfl⟩ := hmemory env henv
    exact Store.create_guardedSink_of_error hrefused

/-- What a host provides that knows no type and refuses every file. -/
def noFacilities : Facilities :=
  ⟨⟨Element.package, fun reference _ => .unknown reference⟩, fun _ => some (.storage "disk full")⟩

/-- A round before the start and a second start do not count: the round behind them resolves its
type and adds its file, next to one of the same name in another package. -/
theorem after_calls_plain :
    let facilities := Facilities.ofHost (SymbolTable.ofFiles [plainFile] []).host
    let outcome : Outcome Store := ⟨[⟨"app", "RUtil", "// x"⟩], []⟩
    let calls : List Call :=
      [.process [plainFile], .start facilities {}, .start noFacilities { keepGoing := true }]
    let session := (Session.mk none outcome).after calls
    (outcome.store.map EmittedFile.key).Nodup ∧
      firstStart? calls = some (facilities.environment {}) ∧
      session.process [plainFile] = (.ok true, ⟨some (facilities.environment {}),
        ⟨outcome.store ++ [(plainRouter "R").emit], []⟩⟩) := by
  intro facilities outcome calls session
  have hkeys : (outcome.store.map EmittedFile.key).Nodup := List.nodup_singleton _
  obtain ⟨-, hstarted, -⟩ := after_calls outcome hkeys calls []
  obtain ⟨-, hprocess, -⟩ := hstarted (facilities.environment {}) rfl
  have hadded : facilities.added? (plainInterface "R" 10 34) outcome.store =
      some (plainRouter "R").emit :=
    Facilities.added?_eq_some_iff.2 ⟨Element.emitted?_of_ok router_plainFile, by decide +kernel⟩
  have hround : (facilities.environment {}).processRound [plainFile] outcome =
      ⟨outcome.store ++ [(plainRouter "R").emit], []⟩ := by
    rw [Environment.processRound, candidates_plainFile, Facilities.processElements_cons, hadded]
    rfl
  refine ⟨hkeys, rfl, (hprocess [plainFile]).trans ?_⟩
  rw [← hround]
  rfl

/-! ### Replays -/

/-- **A replay of a round** of a session, after any calls in between, adds no file. What it adds are
errors, and it adds some exactly if some element of the files is marked. -/
theorem process_again (facilities : Facilities) (options : Options) (outcome : Outcome Store)
    (sources : List SourceFile) (between : List Call) :
    let started : Session Store := ⟨some (facilities.environment options), outcome⟩
    let session := (started.process sources).2.after between
    ∃ reports, session.process sources = (.ok true, ⟨some (facilities.environment options),
        ⟨session.outcome.store, session.outcome.diagnostics ++ reports⟩⟩) ∧
      (∀ report ∈ reports, report.isError = true) ∧
      (reports ≠ [] ↔ ∃ element ∈ sources.flatMap SourceFile.elements,
        ∃ mark ∈ element.marks, mark.name = "Intention") := by
  intro started session
  have hstarted : started.InMemory := inMemory_of_environment facilities options outcome
  have hprocessed : (started.process sources).2.InMemory := hstarted.behind (.process sources)
  have henv : session.environment = some (facilities.environment options) := by
    rw [environment_after, process_of_some rfl, Option.some_or]
  obtain ⟨reports, hagain, herrors, hnil⟩ := facilities.processElements_again options
    (candidates sources) outcome session.outcome (hprocessed.growsTo_after between)
  refine ⟨reports, ?_, herrors, hnil.not.trans candidates_ne_nil_iff⟩
  rw [process_of_some henv, Environment.processRound, hagain]

end Session

end RequestRouter
