import RequestRouter.Proofs.Round.Refusals

/-!
# Rounds in memory

Of a round that keeps its files in memory, an element either adds its file at the end of the store,
or has faults and adds nothing; which of the two depends on the store alone
(`RequestRouter.Facilities.processElements_cons`). So files and diagnostics only grow at their ends
(`RequestRouter.Facilities.growsTo_processElements`), and files that differ in package or name stay
so (`RequestRouter.Facilities.nodup_keys_processElements`).

An element that adds nothing to a store adds nothing to one that has grown
(`RequestRouter.Facilities.added?_eq_none_of_grown`), and one that adds its file adds nothing any
more (`RequestRouter.Facilities.added?_eq_none_of_added`): whatever a round has come to fails from
then on.
-/

namespace RequestRouter

/-! ### Stores that only grow -/

namespace Store

variable {refusal : EmittedFile → Option Fault} {file : EmittedFile} {store later : Store}

/-- Whether a store takes the file, of a host that refuses some files. -/
def takes (refusal : EmittedFile → Option Fault) (store : Store) (file : EmittedFile) : Bool :=
  (refusal file).isNone && !store.holds file

/-- A file that is taken is the last of the store. -/
theorem create_eq_of_takes (h : store.takes refusal file = true) :
    (guardedSink refusal).create file store = (.ok (), store ++ [file]) := by
  rw [takes, Bool.and_eq_true, Option.isNone_iff_eq_none, Bool.not_eq_true'] at h
  simp [guardedSink, h.1, create_of_not_holds h.2]

/-- A file that is refused leaves the store as it was. -/
theorem exists_create_eq_of_not_takes (h : store.takes refusal file = false) :
    ∃ fault, (guardedSink refusal).create file store = (.error fault, store) := by
  cases hrefusal : refusal file with
  | some fault => exact ⟨fault, by simp [guardedSink, hrefusal]⟩
  | none =>
    have hholds : store.holds file = true := by simpa [takes, hrefusal] using h
    exact ⟨.recreated file.name, by simp [guardedSink, hrefusal, create_of_holds hholds]⟩

/-- Whatever is refused, the store is as it was. -/
theorem create_guardedSink_of_error {fault : Fault}
    (h : ((guardedSink refusal).create file store).1 = .error fault) :
    ((guardedSink refusal).create file store).2 = store := by
  cases htakes : store.takes refusal file with
  | true =>
    rw [create_eq_of_takes htakes] at h
    cases h
  | false =>
    obtain ⟨found, hcreate⟩ := exists_create_eq_of_not_takes htakes
    rw [hcreate]

/-- What a store holds, it still holds when it has grown. -/
theorem holds_of_grown (hgrown : store <+: later) (h : store.holds file = true) :
    later.holds file = true := by
  obtain ⟨files, rfl⟩ := hgrown
  rw [holds, List.any_append, Bool.or_eq_true]
  exact .inl h

theorem holds_of_mem (h : file ∈ store) : store.holds file = true :=
  holds_iff_mem_keys.2 (List.mem_map_of_mem h)

/-- What a store does not take, it does not take when it has grown. -/
theorem takes_eq_false_of_grown (hgrown : store <+: later)
    (h : store.takes refusal file = false) : later.takes refusal file = false := by
  rw [takes, Bool.and_eq_false_iff, Bool.not_eq_false'] at h ⊢
  exact h.imp_right (holds_of_grown hgrown)

/-- No file is taken twice. -/
theorem takes_eq_false_of_mem (h : file ∈ store) : store.takes refusal file = false := by
  rw [takes, holds_of_mem h]
  exact Bool.and_false _

/-- A file that is taken differs from the others in its package or its name. -/
theorem nodup_keys_of_takes (hkeys : (store.map EmittedFile.key).Nodup)
    (h : store.takes refusal file = true) :
    ((store ++ [file]).map EmittedFile.key).Nodup := by
  rw [takes, Bool.and_eq_true, Bool.not_eq_true', ← Bool.not_eq_true, holds_iff_mem_keys] at h
  rw [List.map_append, List.map_singleton]
  exact List.nodup_append.2 ⟨hkeys, List.nodup_singleton _, fun key hkey other hother hsame =>
    h.2 (List.mem_singleton.1 hother ▸ hsame ▸ hkey)⟩

end Store

/-- What is reported are errors. -/
theorem Element.isError_of_mem_reports {element : Element} {faults : List Fault} :
    ∀ report ∈ faults.map element.report, report.isError = true :=
  List.forall_mem_map.2 fun _ _ => rfl

/-- The later outcome has the files and the diagnostics of the earlier one, and behind them files
and errors that came since. -/
def Outcome.GrowsTo (earlier later : Outcome Store) : Prop :=
  ∃ files reports, later = ⟨earlier.store ++ files, earlier.diagnostics ++ reports⟩ ∧
    ∀ report ∈ reports, report.isError = true

namespace Outcome.GrowsTo

variable {first second third : Outcome Store}

theorem refl (outcome : Outcome Store) : outcome.GrowsTo outcome :=
  ⟨[], [], by rw [List.append_nil, List.append_nil], nofun⟩

theorem trans (hfirst : first.GrowsTo second) (hsecond : second.GrowsTo third) :
    first.GrowsTo third := by
  obtain ⟨files, reports, rfl, herrors⟩ := hfirst
  obtain ⟨files', reports', rfl, herrors'⟩ := hsecond
  refine ⟨files ++ files', reports ++ reports', ?_, ?_⟩
  · rw [List.append_assoc, List.append_assoc]
  · exact List.forall_mem_append.2 ⟨herrors, herrors'⟩

theorem prefix_store (h : first.GrowsTo second) : first.store <+: second.store := by
  obtain ⟨files, reports, rfl, -⟩ := h
  exact List.prefix_append _ _

/-- A file has been added. -/
theorem of_file (outcome : Outcome Store) (file : EmittedFile) :
    outcome.GrowsTo ⟨outcome.store ++ [file], outcome.diagnostics⟩ :=
  ⟨[file], [], by rw [List.append_nil], nofun⟩

/-- Faults have been reported. -/
theorem of_faults (outcome : Outcome Store) (element : Element) (faults : List Fault) :
    outcome.GrowsTo ⟨outcome.store, outcome.diagnostics ++ faults.map element.report⟩ :=
  ⟨[], faults.map element.report, by rw [List.append_nil], Element.isError_of_mem_reports⟩

end Outcome.GrowsTo

/-! ### What a host provides -/

/-- What a host provides for rounds that keep their files in memory: the types that it knows, and
the files that it refuses. -/
structure Facilities where
  /-- Looks up types. -/
  host : Host
  /-- The fault of a file that the host refuses, whatever the store holds. -/
  refusal : EmittedFile → Option Fault

namespace Facilities

/-- The environment of rounds with the given options. -/
def environment (facilities : Facilities) (options : Options) : Environment Store :=
  ⟨facilities.host, Store.guardedSink facilities.refusal, options⟩

/-- What a host provides that refuses no file. -/
def ofHost (host : Host) : Facilities := ⟨host, fun _ => none⟩

/-! ### One element -/

/-- The file that the element adds to the store: if it passes its checks, and its file is taken. -/
def added? (facilities : Facilities) (element : Element) (store : Store) : Option EmittedFile :=
  (element.emitted? facilities.host).filter (store.takes facilities.refusal)

/-- The faults that a round finds at the element. -/
def faults (facilities : Facilities) (element : Element) (store : Store) : List Fault :=
  faultsOf ((facilities.environment {}).processElement element store).1

variable {facilities : Facilities} {options : Options} {element : Element} {store later : Store}
  {file : EmittedFile}

theorem added?_eq_some_iff : facilities.added? element store = some file ↔
    element.emitted? facilities.host = some file ∧ store.takes facilities.refusal file = true :=
  Option.filter_eq_some_iff

/-- An element that fails its checks leaves the store as it was. -/
theorem processElement_of_router_eq_error {faults : List Fault}
    (h : element.router facilities.host = .error faults) (options : Options) (store : Store) :
    (facilities.environment options).processElement element store = (.error faults, store) := by
  -- The host is spelled out, since unification would unfold the router to find it.
  have hrouter : element.router (facilities.environment options).host = .error faults := h
  exact Environment.processElement_of_error hrouter store

/-- An element that passes its checks is up to the store. -/
theorem processElement_of_router_eq_ok {router : Router}
    (h : element.router facilities.host = .ok router) (options : Options) (store : Store) :
    (facilities.environment options).processElement element store =
      (single ((Store.guardedSink facilities.refusal).create router.emit store).1,
        ((Store.guardedSink facilities.refusal).create router.emit store).2) := by
  have hrouter : element.router (facilities.environment options).host = .ok router := h
  exact Environment.processElement_of_ok hrouter store

/-- An element that adds its file has no faults. -/
theorem processElement_of_added (options : Options)
    (h : facilities.added? element store = some file) :
    (facilities.environment options).processElement element store =
      (.ok (), store ++ [file]) := by
  obtain ⟨hemitted, htakes⟩ := added?_eq_some_iff.1 h
  cases hrouter : element.router facilities.host with
  | error faults =>
    rw [Element.emitted?_of_error hrouter] at hemitted
    cases hemitted
  | ok router =>
    rw [Element.emitted?_of_ok hrouter] at hemitted
    cases hemitted
    rw [processElement_of_router_eq_ok hrouter, Store.create_eq_of_takes htakes]
    rfl

/-- An element that adds no file has faults, and leaves the store as it was. -/
theorem processElement_of_not_added (options : Options)
    (h : facilities.added? element store = none) :
    facilities.faults element store ≠ [] ∧
      (facilities.environment options).processElement element store =
        (.error (facilities.faults element store), store) := by
  cases hrouter : element.router facilities.host with
  | error faults =>
    rw [Facilities.faults, processElement_of_router_eq_error hrouter,
      processElement_of_router_eq_error hrouter]
    exact ⟨Element.ne_nil_of_router_eq_error hrouter, rfl⟩
  | ok router =>
    rw [added?, Element.emitted?_of_ok hrouter, Option.filter_eq_none_iff] at h
    obtain ⟨fault, hcreate⟩ :=
      Store.exists_create_eq_of_not_takes (Bool.eq_false_of_not_eq_true (h router.emit rfl))
    have hprocess (options : Options) :
        (facilities.environment options).processElement element store =
          (.error [fault], store) := by
      rw [processElement_of_router_eq_ok hrouter, hcreate]
      rfl
    rw [Facilities.faults, hprocess, hprocess]
    exact ⟨List.cons_ne_nil _ _, rfl⟩

/-- **The step of a round in memory**: the first element adds its file, or its faults are reported;
then the round goes on or ends. -/
theorem processElements_cons (facilities : Facilities) (options : Options) (element : Element)
    (rest : List Element) (outcome : Outcome Store) :
    (facilities.environment options).processElements (element :: rest) outcome =
      match facilities.added? element outcome.store with
      | some file => (facilities.environment options).processElements rest
          ⟨outcome.store ++ [file], outcome.diagnostics⟩
      | none =>
        let next : Outcome Store := ⟨outcome.store, outcome.diagnostics ++
          (facilities.faults element outcome.store).map element.report⟩
        if options.keepGoing then (facilities.environment options).processElements rest next
        else next := by
  rw [Environment.processElements]
  cases h : facilities.added? element outcome.store with
  | some file => rw [processElement_of_added options h]
  | none =>
    rw [(processElement_of_not_added options h).2]
    rfl

/-! ### What fails from then on -/

/-- An element that adds nothing adds nothing when the store has grown. -/
theorem added?_eq_none_of_grown (hgrown : store <+: later)
    (h : facilities.added? element store = none) : facilities.added? element later = none := by
  rw [added?, Option.filter_eq_none_iff] at h ⊢
  intro file hfile htakes
  rw [Store.takes_eq_false_of_grown hgrown (Bool.eq_false_of_not_eq_true (h file hfile))] at htakes
  cases htakes

/-- An element that has added its file adds nothing any more. -/
theorem added?_eq_none_of_added (h : facilities.added? element store = some file)
    (hgrown : store ++ [file] <+: later) : facilities.added? element later = none := by
  have hmem : file ∈ later :=
    hgrown.subset (List.mem_append_right _ (List.mem_singleton_self file))
  rw [added?, (added?_eq_some_iff.1 h).1, Option.filter_some, Store.takes_eq_false_of_mem hmem]
  rfl

/-! ### All elements -/

/-- **A round only adds**: by induction over the elements, files and errors come behind those that
were there. -/
theorem growsTo_processElements (facilities : Facilities) (options : Options)
    (elements : List Element) (outcome : Outcome Store) :
    outcome.GrowsTo ((facilities.environment options).processElements elements outcome) := by
  induction elements generalizing outcome with
  | nil => exact .refl outcome
  | cons element rest ih =>
    rw [processElements_cons]
    split
    · next file _ => exact (Outcome.GrowsTo.of_file outcome file).trans (ih _)
    · have hreported := Outcome.GrowsTo.of_faults outcome element
        (facilities.faults element outcome.store)
      dsimp only
      split
      · exact hreported.trans (ih _)
      · exact hreported

/-- **A round keeps files apart** by package or name. -/
theorem nodup_keys_processElements (facilities : Facilities) (options : Options)
    (elements : List Element) (outcome : Outcome Store)
    (h : (outcome.store.map EmittedFile.key).Nodup) :
    (((facilities.environment options).processElements elements outcome).store.map
      EmittedFile.key).Nodup := by
  induction elements generalizing outcome with
  | nil => exact h
  | cons element rest ih =>
    rw [processElements_cons]
    split
    · next file hadded => exact ih _ (Store.nodup_keys_of_takes h (added?_eq_some_iff.1 hadded).2)
    · dsimp only
      split
      · exact ih _ h
      · exact h

/-! ### Elements that come again -/

/-- **A replay fails.** When a round runs over elements that a round has run over before, each that
it comes to adds nothing and has faults: one whose file was added is refused now, and one that
failed fails again. By induction over the elements, for a round comes to the next element only if the
round before did. -/
theorem processElements_again (facilities : Facilities) (options : Options)
    (elements : List Element) (outcome later : Outcome Store)
    (h : ((facilities.environment options).processElements elements outcome).GrowsTo later) :
    ∃ reports, (facilities.environment options).processElements elements later =
        ⟨later.store, later.diagnostics ++ reports⟩ ∧
      (∀ report ∈ reports, report.isError = true) ∧ (reports = [] ↔ elements = []) := by
  induction elements generalizing outcome later with
  | nil => exact ⟨[], by rw [List.append_nil]; rfl, nofun, by simp⟩
  | cons element rest ih =>
    -- Whatever the round before made of the element, it adds nothing now.
    obtain ⟨hnone, behind, hbehind⟩ : facilities.added? element later.store = none ∧
        ∃ behind, options.keepGoing = true →
          ((facilities.environment options).processElements rest behind).GrowsTo later := by
      rw [processElements_cons] at h
      split at h
      · next file hadded =>
        have hgrown := (growsTo_processElements facilities options rest _).trans h
        exact ⟨added?_eq_none_of_added hadded hgrown.prefix_store, _, fun _ => h⟩
      · next hadded =>
        dsimp only at h
        split at h
        · have hgrown := (growsTo_processElements facilities options rest _).trans h
          exact ⟨added?_eq_none_of_grown hgrown.prefix_store hadded, _, fun _ => h⟩
        · next hstops =>
          exact ⟨added?_eq_none_of_grown h.prefix_store hadded, outcome,
            fun hgo => absurd hgo hstops⟩
    have hfaults := (processElement_of_not_added options hnone).1
    have hreported := Outcome.GrowsTo.of_faults later element
      (facilities.faults element later.store)
    rw [processElements_cons, hnone]
    dsimp only
    split
    · next hgo =>
      obtain ⟨reports, hrun, herrors, -⟩ := ih behind _ ((hbehind hgo).trans hreported)
      refine ⟨(facilities.faults element later.store).map element.report ++ reports, ?_,
        List.forall_mem_append.2 ⟨Element.isError_of_mem_reports, herrors⟩, ?_⟩
      · rw [hrun, List.append_assoc]
      · simp [hfaults]
    · exact ⟨_, rfl, Element.isError_of_mem_reports, by simp [hfaults]⟩

end Facilities

end RequestRouter
