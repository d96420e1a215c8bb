import RequestRouter.Proofs.Router.Acceptance
import RequestRouter.Round.Basic

/-!
# The visits of a round

A round comes to one element after the other, finds faults in it or none, and reports them. Its
diagnostics are the reports of these visits in a row
(`RequestRouter.Environment.diagnostics_processElements`), so whatever is said about diagnostics is
said about visits, one at a time. If the round goes on after failures, all of its elements are
visited (`RequestRouter.Environment.map_element_visits`).

The faults of a visit come from the checks of the element or, if it passes them, from the sink.
As long as the sink takes what it is given, the round is a matter of the checks alone: what it
comes to (`RequestRouter.reached`), what it reports, and which files it makes
(`RequestRouter.generated`) do not depend on the sink any more.
-/

namespace RequestRouter

/-- What a round finds at an element that it comes to. -/
structure Visit where
  /-- The element. -/
  element : Element
  /-- Its faults. -/
  faults : List Fault

/-- What is reported about the element. -/
def Visit.diagnostics (visit : Visit) : List Diagnostic := visit.faults.map visit.element.report

/-- The faults that a check ends with. -/
def faultsOf {α : Type} : Except (List Fault) α → List Fault
  | .ok _ => []
  | .error faults => faults

@[simp] theorem faultsOf_ok {α : Type} (a : α) : faultsOf (.ok a) = [] := rfl

@[simp] theorem faultsOf_error {α : Type} (faults : List Fault) :
    faultsOf (.error faults : Except (List Fault) α) = faults := rfl

/-- What the checks find at the element. -/
def Element.visit (host : Host) (element : Element) : Visit :=
  ⟨element, faultsOf (element.router host)⟩

theorem Element.faultsOf_router_eq_nil_iff {host : Host} {element : Element} :
    faultsOf (element.router host) = [] ↔ ∃ router, element.router host = .ok router := by
  cases h : element.router host with
  | ok router => exact ⟨fun _ => ⟨router, rfl⟩, fun _ => rfl⟩
  | error faults => exact ⟨fun hnil => absurd hnil (ne_nil_of_router_eq_error h), nofun⟩

namespace Environment

variable {σ : Type} {env : Environment σ}

/-! ### One visit -/

/-- What the round finds at the element. -/
def visit (env : Environment σ) (element : Element) (store : σ) : Visit :=
  ⟨element, faultsOf (env.processElement element store).1⟩

/-- The contents of the sink behind the element. -/
def storeAfter (env : Environment σ) (element : Element) (store : σ) : σ :=
  (env.processElement element store).2

/-- Whether the round goes on behind the visit. -/
def goesOn (env : Environment σ) (visit : Visit) : Bool :=
  visit.faults.isEmpty || env.options.keepGoing

/-- An element that fails its checks leaves the sink alone. -/
theorem processElement_of_error {element : Element} {faults : List Fault}
    (h : element.router env.host = .error faults) (store : σ) :
    env.processElement element store = (.error faults, store) := by
  rw [processElement, h]

/-- An element that passes its checks is up to the sink. -/
theorem processElement_of_ok {element : Element} {router : Router}
    (h : element.router env.host = .ok router) (store : σ) :
    env.processElement element store =
      (single (env.sink.create router.emit store).1, (env.sink.create router.emit store).2) := by
  rw [processElement, h]

theorem storeAfter_of_error {element : Element} {faults : List Fault}
    (h : element.router env.host = .error faults) (store : σ) :
    env.storeAfter element store = store := by
  rw [storeAfter, processElement_of_error h]

theorem storeAfter_of_ok {element : Element} {router : Router}
    (h : element.router env.host = .ok router) (store : σ) :
    env.storeAfter element store = (env.sink.create router.emit store).2 := by
  rw [storeAfter, processElement_of_ok h]

/-- What fails has faults. -/
theorem ne_nil_of_processElement_eq_error {element : Element} {store store' : σ}
    {faults : List Fault} (h : env.processElement element store = (.error faults, store')) :
    faults ≠ [] := by
  cases hrouter : element.router env.host with
  | error found =>
    cases (processElement_of_error hrouter store).symm.trans h
    exact Element.ne_nil_of_router_eq_error hrouter
  | ok router =>
    rw [processElement_of_ok hrouter] at h
    cases hcreate : (env.sink.create router.emit store).1 with
    | ok _ =>
      rw [hcreate] at h
      cases h
    | error fault =>
      rw [hcreate] at h
      cases h
      exact List.cons_ne_nil _ _

/-- **The step of a round**: the visit of the first element is reported, and the round goes on
behind it or not. -/
theorem processElements_cons (env : Environment σ) (element : Element) (rest : List Element)
    (outcome : Outcome σ) :
    env.processElements (element :: rest) outcome =
      let visit := env.visit element outcome.store
      let next : Outcome σ :=
        ⟨env.storeAfter element outcome.store, outcome.diagnostics ++ visit.diagnostics⟩
      if env.goesOn visit then env.processElements rest next else next := by
  rw [processElements, visit, storeAfter]
  cases h : env.processElement element outcome.store with
  | mk result store =>
    cases result with
    | ok _ => simp [goesOn, Visit.diagnostics]
    | error faults =>
      have hne : faults ≠ [] := ne_nil_of_processElement_eq_error h
      simp [goesOn, Visit.diagnostics, hne]

/-! ### All visits -/

/-- The visits of a round, in their order. -/
def visits (env : Environment σ) : List Element → σ → List Visit
  | [], _ => []
  | element :: rest, store =>
    env.visit element store ::
      if env.goesOn (env.visit element store) then env.visits rest (env.storeAfter element store)
      else []

/-- **The diagnostics of a round** are the reports of its visits. -/
theorem diagnostics_processElements (env : Environment σ) (elements : List Element)
    (outcome : Outcome σ) :
    (env.processElements elements outcome).diagnostics =
      outcome.diagnostics ++ (env.visits elements outcome.store).flatMap Visit.diagnostics := by
  induction elements generalizing outcome with
  | nil => exact (List.append_nil _).symm
  | cons element rest ih =>
    rw [processElements_cons, visits, List.flatMap_cons, ← List.append_assoc]
    by_cases hgo : env.goesOn (env.visit element outcome.store) = true
    · simp [hgo, ih]
    · simp [hgo]

/-- All that a round reports are errors: it has none exactly if it reports nothing. -/
theorem hasErrors_processElements (elements : List Element) (store : σ) :
    (env.processElements elements ⟨store, []⟩).hasErrors = false ↔
      (env.visits elements store).flatMap Visit.diagnostics = [] := by
  rw [Outcome.hasErrors, diagnostics_processElements, List.nil_append, List.any_eq_false]
  refine ⟨fun h => List.eq_nil_iff_forall_not_mem.2 fun diagnostic hmem => ?_, fun h => ?_⟩
  · obtain ⟨visit, -, hreport⟩ := List.mem_flatMap.1 hmem
    obtain ⟨fault, -, rfl⟩ := List.mem_map.1 hreport
    exact h _ hmem rfl
  · rw [h]
    exact nofun

/-- If the round goes on after failures, every element is visited. -/
theorem map_element_visits (h : env.options.keepGoing = true) (elements : List Element)
    (store : σ) : (env.visits elements store).map Visit.element = elements := by
  induction elements generalizing store with
  | nil => rfl
  | cons element rest ih =>
    have hgo : env.goesOn (env.visit element store) = true := by
      rw [goesOn, h, Bool.or_true]
    rw [visits, if_pos hgo, List.map_cons, ih]
    rfl

/-- Every visit of a round is the visit of one of its elements, with some contents of the sink. -/
theorem exists_of_mem_visits {elements : List Element} {store : σ} {visit : Visit}
    (h : visit ∈ env.visits elements store) :
    ∃ element ∈ elements, ∃ store', visit = env.visit element store' := by
  induction elements generalizing store with
  | nil => cases h
  | cons element rest ih =>
    rw [visits] at h
    rcases List.mem_cons.1 h with rfl | h
    · exact ⟨element, List.mem_cons_self, store, rfl⟩
    · split at h
      · obtain ⟨other, hmem, hvisit⟩ := ih h
        exact ⟨other, List.mem_cons_of_mem _ hmem, hvisit⟩
      · cases h

/-- An element that fails its checks is visited with the faults that these find. -/
theorem visit_of_error {element : Element} {faults : List Fault}
    (h : element.router env.host = .error faults) (store : σ) :
    env.visit element store = ⟨element, faults⟩ := by
  rw [visit, processElement_of_error h]
  rfl

/-- What the checks find is found by the visit. -/
theorem mem_faults_visit {element : Element} {fault : Fault}
    (h : fault ∈ faultsOf (element.router env.host)) (store : σ) :
    fault ∈ (env.visit element store).faults := by
  cases hrouter : element.router env.host with
  | ok router =>
    rw [hrouter] at h
    cases h
  | error faults =>
    rw [visit_of_error hrouter]
    rw [hrouter] at h
    exact h

end Environment

/-! ### Rounds whose files are taken -/

/-- The file that is made of the element, if it passes its checks. -/
def Element.emitted? (host : Host) (element : Element) : Option EmittedFile :=
  match element.router host with
  | .ok router => some router.emit
  | .error _ => none

/-- The elements that a round comes to as long as its files are taken: all of them, or those up
to the first that fails its checks. -/
def reached (host : Host) (keepGoing : Bool) : List Element → List Element
  | [] => []
  | element :: rest =>
    element ::
      if (element.emitted? host).isSome || keepGoing then reached host keepGoing rest else []

theorem mem_of_mem_reached {host : Host} {keepGoing : Bool} {elements : List Element}
    {element : Element} (h : element ∈ reached host keepGoing elements) : element ∈ elements := by
  induction elements with
  | nil => cases h
  | cons first rest ih =>
    rw [reached] at h
    split at h
    · rcases List.mem_cons.1 h with rfl | hrest
      · exact List.mem_cons_self
      · exact List.mem_cons_of_mem _ (ih hrest)
    · rw [List.mem_singleton.1 h]
      exact List.mem_cons_self

/-- A round comes to all elements if each passes its checks. -/
theorem reached_eq_self {host : Host} {elements : List Element}
    (h : ∀ element ∈ elements, ∃ router, element.router host = .ok router) (keepGoing : Bool) :
    reached host keepGoing elements = elements := by
  induction elements with
  | nil => rfl
  | cons element rest ih =>
    obtain ⟨⟨router, hrouter⟩, hrest⟩ := List.forall_mem_cons.1 h
    have hemitted : (element.emitted? host).isSome = true := by
      rw [Element.emitted?, hrouter]
      rfl
    rw [reached, hemitted, Bool.true_or, if_pos rfl, ih hrest]

/-- The files that are made of the elements. -/
def generated (host : Host) (elements : List Element) : List EmittedFile :=
  elements.filterMap (Element.emitted? host)

namespace Sink

variable {σ : Type}

/-- The sink takes the files, one after the other. -/
def TakesAll (sink : Sink σ) : List EmittedFile → σ → Prop
  | [], _ => True
  | file :: rest, store =>
    (sink.create file store).1 = .ok () ∧ sink.TakesAll rest (sink.create file store).2

/-- The contents of the sink behind the files. -/
def fill (sink : Sink σ) (files : List EmittedFile) (store : σ) : σ :=
  files.foldl (fun store file => (sink.create file store).2) store

end Sink

theorem Element.emitted?_of_ok {host : Host} {element : Element} {router : Router}
    (h : element.router host = .ok router) : element.emitted? host = some router.emit := by
  rw [emitted?, h]

theorem Element.emitted?_of_error {host : Host} {element : Element} {faults : List Fault}
    (h : element.router host = .error faults) : element.emitted? host = none := by
  rw [emitted?, h]

@[simp] theorem generated_nil (host : Host) : generated host [] = [] := rfl

theorem generated_cons_of_ok {host : Host} {element : Element} {router : Router}
    (h : element.router host = .ok router) (rest : List Element) :
    generated host (element :: rest) = router.emit :: generated host rest :=
  List.filterMap_cons_some (Element.emitted?_of_ok h)

theorem generated_cons_of_error {host : Host} {element : Element} {faults : List Fault}
    (h : element.router host = .error faults) (rest : List Element) :
    generated host (element :: rest) = generated host rest :=
  List.filterMap_cons_none (Element.emitted?_of_error h)

namespace Environment

variable {σ : Type} {env : Environment σ}

/-- An element whose file is taken is visited without a fault. -/
theorem visit_of_taken {element : Element} {router : Router} {store : σ}
    (h : element.router env.host = .ok router)
    (htaken : (env.sink.create router.emit store).1 = .ok ()) :
    env.visit element store = ⟨element, []⟩ := by
  rw [visit, processElement_of_ok h, htaken]
  rfl

/-- A visit without a fault is that of an element whose file is taken. -/
theorem taken_of_faults_visit_eq_nil {element : Element} {store : σ}
    (h : (env.visit element store).faults = []) :
    ∃ router, element.router env.host = .ok router ∧
      (env.sink.create router.emit store).1 = .ok () := by
  cases hrouter : element.router env.host with
  | error faults =>
    rw [visit_of_error hrouter] at h
    exact absurd h (Element.ne_nil_of_router_eq_error hrouter)
  | ok router =>
    refine ⟨router, rfl, ?_⟩
    rw [visit, processElement_of_ok hrouter] at h
    cases hcreate : (env.sink.create router.emit store).1 with
    | ok _ => rfl
    | error fault =>
      rw [hcreate] at h
      cases h

/-- **A round whose files are taken** finds what the checks find. -/
theorem visits_of_takesAll {elements : List Element} {store : σ}
    (h : env.sink.TakesAll (generated env.host (reached env.host env.options.keepGoing elements))
      store) :
    env.visits elements store =
      (reached env.host env.options.keepGoing elements).map (Element.visit env.host) := by
  induction elements generalizing store with
  | nil => rfl
  | cons element rest ih =>
    rw [reached] at h
    rw [visits, reached, List.map_cons, Element.visit]
    cases hrouter : element.router env.host with
    | error faults =>
      rw [generated_cons_of_error hrouter, Element.emitted?_of_error hrouter] at h
      rw [Element.emitted?_of_error hrouter, visit_of_error hrouter, storeAfter_of_error hrouter]
      -- The sink is not asked about an element that fails its checks.
      have hne : faults ≠ [] := Element.ne_nil_of_router_eq_error hrouter
      cases hkeep : env.options.keepGoing with
      | false => simp [goesOn, hkeep, hne]
      | true =>
        rw [hkeep] at h ih
        have hrest := ih h
        simp [goesOn, hkeep, hrest]
    | ok router =>
      rw [generated_cons_of_ok hrouter, Element.emitted?_of_ok hrouter] at h
      obtain ⟨htaken, hrest⟩ := h
      rw [Element.emitted?_of_ok hrouter, visit_of_taken hrouter htaken, storeAfter_of_ok hrouter]
      have hvisits := ih hrest
      simp [goesOn, hvisits]

/-- **A round without diagnostics** makes a file of every element, and its files are taken. -/
theorem takesAll_of_diagnostics_eq_nil {elements : List Element} {store : σ}
    (h : (env.visits elements store).flatMap Visit.diagnostics = [])
    (diagnostics : List Diagnostic) :
    (∀ element ∈ elements, ∃ router, element.router env.host = .ok router) ∧
      env.sink.TakesAll (generated env.host elements) store ∧
      (env.processElements elements ⟨store, diagnostics⟩).store =
        env.sink.fill (generated env.host elements) store := by
  induction elements generalizing store diagnostics with
  | nil => exact ⟨nofun, trivial, rfl⟩
  | cons element rest ih =>
    rw [visits, List.flatMap_cons, List.append_eq_nil_iff] at h
    obtain ⟨hfirst, hothers⟩ := h
    have hfaults : (env.visit element store).faults = [] := List.map_eq_nil_iff.1 hfirst
    have hgo : env.goesOn (env.visit element store) = true := by
      rw [goesOn, hfaults]
      rfl
    -- The first element has its file taken, so the others start from what is in the sink then.
    obtain ⟨router, hrouter, htaken⟩ := taken_of_faults_visit_eq_nil hfaults
    rw [if_pos hgo, storeAfter_of_ok hrouter] at hothers
    obtain ⟨hrouters, htakes, hfill⟩ :=
      ih hothers (diagnostics ++ (env.visit element store).diagnostics)
    rw [generated_cons_of_ok hrouter]
    refine ⟨List.forall_mem_cons.2 ⟨⟨router, hrouter⟩, hrouters⟩, ⟨htaken, htakes⟩, ?_⟩
    rw [processElements_cons]
    simp only [hgo, storeAfter_of_ok hrouter, if_true]
    exact hfill

/-- A round reports nothing if every element passes its checks and every file is taken. -/
theorem diagnostics_eq_nil_of_takesAll {elements : List Element} {store : σ}
    (hrouters : ∀ element ∈ elements, ∃ router, element.router env.host = .ok router)
    (h : env.sink.TakesAll (generated env.host elements) store) :
    (env.visits elements store).flatMap Visit.diagnostics = [] := by
  have hreached := reached_eq_self hrouters env.options.keepGoing
  rw [← hreached] at h
  rw [visits_of_takesAll h, hreached, List.flatMap_map]
  refine List.flatMap_eq_nil_iff.2 fun element helement => List.map_eq_nil_iff.2 ?_
  exact Element.faultsOf_router_eq_nil_iff.2 (hrouters element helement)

end Environment

end RequestRouter
