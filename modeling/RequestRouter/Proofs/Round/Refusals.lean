import RequestRouter.Proofs.Round.Locations

/-!
# Files that a sink refuses

What a round reports is what the checks find, and what the sink refuses. As long as the sink takes
all files, the sink does not show (`RequestRouter.Environment.visits_of_takesAll`); otherwise there
is a visit whose only fault is the sink's (`RequestRouter.Environment.exists_refusal`).

The store in memory takes files of different packages or names, and no others
(`RequestRouter.Store.takesAll_iff`). It words its refusal in a way that no check does, so it can be
told from the diagnostics of a round whether there was one
(`RequestRouter.Fault.message_ne_recreated`).
-/

namespace RequestRouter

namespace Environment

variable {σ : Type}

/-- **What is refused is reported**: if the sink does not take all files, the round comes to one
that it refuses. By induction over the elements: those in front of it are visited as if there were
no sink. -/
theorem exists_refusal (env : Environment σ) {elements : List Element} {store : σ}
    (h : ¬env.sink.TakesAll
      (generated env.host (reached env.host env.options.keepGoing elements)) store) :
    ∃ visit ∈ env.visits elements store, ∃ file store' fault,
      (env.sink.create file store').1 = .error fault ∧ visit.faults = [fault] := by
  induction elements generalizing store with
  | nil => exact absurd trivial h
  | cons element rest ih =>
    rw [reached] at h
    rw [visits]
    cases hrouter : element.router env.host with
    | error faults =>
      rw [generated_cons_of_error hrouter, Element.emitted?_of_error hrouter] at h
      cases hkeep : env.options.keepGoing with
      | false =>
        rw [hkeep] at h
        exact absurd trivial h
      | true =>
        rw [hkeep] at h ih
        obtain ⟨visit, hvisit, hrefused⟩ := ih h
        have hgo : env.goesOn (env.visit element store) = true := by
          rw [goesOn, hkeep, Bool.or_true]
        rw [if_pos hgo, storeAfter_of_error hrouter]
        exact ⟨visit, List.mem_cons_of_mem _ hvisit, hrefused⟩
    | ok router =>
      rw [generated_cons_of_ok hrouter, Element.emitted?_of_ok hrouter] at h
      cases hcreate : (env.sink.create router.emit store).1 with
      | error fault =>
        refine ⟨_, List.mem_cons_self, router.emit, store, fault, hcreate, ?_⟩
        rw [visit, processElement_of_ok hrouter, hcreate]
        rfl
      | ok _ =>
        -- This file is taken, so it is one behind it that is not.
        obtain ⟨visit, hvisit, hrefused⟩ := ih fun hrest => h ⟨hcreate, hrest⟩
        rw [visit_of_taken hrouter hcreate, storeAfter_of_ok hrouter]
        exact ⟨visit, List.mem_cons_of_mem _ hvisit, hrefused⟩

end Environment

/-! ### The store in memory -/

/-- What the store tells files apart by. -/
def EmittedFile.key (file : EmittedFile) : String × String := (file.package, file.name)

namespace Store

theorem holds_iff_mem_keys {store : Store} {file : EmittedFile} :
    store.holds file = true ↔ file.key ∈ store.map EmittedFile.key := by
  simp [holds, EmittedFile.key, List.any_eq_true]

/-- The store refuses nothing but files that were created before. -/
theorem eq_recreated_of_create {file : EmittedFile} {store : Store} {fault : Fault}
    (h : (sink.create file store).1 = .error fault) : fault = .recreated file.name := by
  rw [sink_create] at h
  cases hholds : store.holds file with
  | true =>
    rw [create_of_holds hholds] at h
    cases h
    rfl
  | false =>
    rw [create_of_not_holds hholds] at h
    cases h

/-- **The store takes** files of different packages or names, and no others. -/
theorem takesAll_iff {files : List EmittedFile} {store : Store}
    (h : (store.map EmittedFile.key).Nodup) :
    sink.TakesAll files store ↔ ((store ++ files).map EmittedFile.key).Nodup := by
  induction files generalizing store with
  | nil =>
    rw [List.append_nil]
    exact ⟨fun _ => h, fun _ => trivial⟩
  | cons file rest ih =>
    have hkeys : ((store ++ file :: rest).map EmittedFile.key).Nodup →
        file.key ∉ store.map EmittedFile.key := by
      intro hnodup hmem
      rw [List.map_append, List.map_cons] at hnodup
      exact (List.nodup_append.1 hnodup).2.2 _ hmem _ List.mem_cons_self rfl
    rw [Sink.TakesAll, sink_create]
    cases hholds : store.holds file with
    | true =>
      rw [create_of_holds hholds]
      refine ⟨fun htakes => absurd htakes.1 nofun, fun hnodup => ?_⟩
      exact absurd (holds_iff_mem_keys.1 hholds) (hkeys hnodup)
    | false =>
      have hnew : file.key ∉ store.map EmittedFile.key := by
        rw [← holds_iff_mem_keys, hholds]
        exact Bool.false_ne_true
      have hnodup : ((store ++ [file]).map EmittedFile.key).Nodup := by
        rw [List.map_append, List.map_singleton, List.nodup_append]
        refine ⟨h, by simp, fun key hkey other hother => ?_⟩
        rw [List.mem_singleton.1 hother]
        rintro rfl
        exact hnew hkey
      rw [create_of_not_holds hholds, ih hnodup, List.append_assoc, List.singleton_append]
      exact ⟨And.right, fun hrest => ⟨rfl, hrest⟩⟩

end Store

/-! ### What checks say -/

/-- Whether the fault is one that the checks of a marked element find. -/
def Fault.isOfChecks : Fault → Bool
  | .notInterface _ => true
  | .missingContext _ => true
  | .missingBinding _ _ => true
  | .wrongReturn _ _ => true
  | .unresolved _ => true
  | .noDestination _ => true
  | .noKey _ _ => true
  | _ => false

theorem head?_toList_append {s : String} {c : Char} (h : s.toList.head? = some c) (t : String) :
    (s ++ t).toList.head? = some c := by
  rw [String.toList_append, List.head?_append, h]
  rfl

/-- The message of a check starts with another character than that of a file that is refused. -/
theorem Fault.exists_head?_message {fault : Fault} (h : fault.isOfChecks = true) :
    ∃ c, fault.message.toList.head? = some c ∧ c ≠ 'A' := by
  have hmark : "@".toList.head? = some '@' := by decide +kernel
  cases fault with
  | storage | alreadyInitialized | notInitialized | unmarked | recreated | refused => cases h
  | notInterface =>
    have htext : "marker only works on interfaces".toList.head? = some 'm' := by
      decide +kernel
    exact ⟨'m', htext, by decide⟩
  | missingContext =>
    have htext : "context parameter must not be null".toList.head? = some 'c' := by
      decide +kernel
    exact ⟨'c', htext, by decide⟩
  | missingBinding =>
    have htext : "parameter must carry an extra-binding annotation".toList.head? = some 'p' := by
      decide +kernel
    exact ⟨'p', htext, by decide⟩
  | wrongReturn method found =>
    have htext : "routing method must return Request, found ".toList.head? = some 'r' := by
      decide +kernel
    exact ⟨'r', head?_toList_append htext found, by decide⟩
  | unresolved name =>
    have htext : "Cannot resolve type ".toList.head? = some 'C' := by
      decide +kernel
    exact ⟨'C', head?_toList_append htext name, by decide⟩
  | noDestination element =>
    exact ⟨'@', head?_toList_append (head?_toList_append (head?_toList_append
      (head?_toList_append hmark _) _) _) _, by decide⟩
  | noKey kind parameter =>
    exact ⟨'@', head?_toList_append (head?_toList_append (head?_toList_append
      (head?_toList_append hmark _) _) _) _, by decide⟩

/-- No check words its faults like a file that is refused. -/
theorem Fault.message_ne_recreated {fault : Fault} (h : fault.isOfChecks = true) (name : String) :
    fault.message ≠ (Fault.recreated name).message := by
  have hrecreated : "Attempt to recreate a file for type ".toList.head? = some 'A' := by
    decide +kernel
  obtain ⟨c, hhead, hne⟩ := exists_head?_message h
  intro hsame
  have hhead' := head?_toList_append hrecreated name
  change (Fault.recreated name).message.toList.head? = some 'A' at hhead'
  rw [hsame, hhead'] at hhead
  exact hne (Option.some.inj hhead).symm

theorem Element.isOfChecks_of_destination {host : Host} {element : Element} {fault : Fault}
    (hmarked : element.routerMark?.isSome = true) (h : element.destination host = .error fault) :
    fault.isOfChecks = true := by
  rw [destination] at h
  split at h
  · next hnone =>
    rw [hnone] at hmarked
    cases hmarked
  · split at h
    · cases h
      rfl
    · next reference _ =>
      cases hresolve : host.resolve reference element with
      | found name =>
        rw [hresolve] at h
        cases h
      | deferred descriptor =>
        rw [hresolve] at h
        cases h
      | unknown name =>
        rw [hresolve] at h
        cases h
        rfl

/-- **The faults of a marked element** are those of its checks. -/
theorem Element.isOfChecks_of_mem_router {host : Host} {element : Element}
    (hmarked : element.routerMark?.isSome = true) {fault : Fault}
    (h : fault ∈ faultsOf (element.router host)) : fault.isOfChecks = true := by
  rcases element.router_cases host with ⟨found, hcheck, hrouter⟩ | ⟨found, hcheck, hrouter⟩ |
    ⟨faults, hroutes, hrouter⟩ | ⟨_, _, -, -, -, hrouter⟩
  · rw [hrouter, faultsOf_error, List.mem_singleton] at h
    rw [checkInterface] at hcheck
    split at hcheck
    · cases hcheck
    · cases hcheck
      rw [h]
      rfl
  · rw [hrouter, faultsOf_error, List.mem_singleton] at h
    exact h ▸ isOfChecks_of_destination hmarked hcheck
  · have hall := faultsOf_routesOf element.methods
    rw [hroutes, faultsOf_error] at hall
    rw [hrouter, faultsOf_error, hall] at h
    obtain ⟨method, -, hfault⟩ := List.mem_flatMap.1 h
    rcases Method.eq_of_mem_faults hfault with ⟨_, -, rfl⟩ | ⟨_, _, -, rfl⟩ | rfl | rfl
    · rfl
    · rfl
    · rfl
    · rfl
  · rw [hrouter] at h
    cases h

end RequestRouter
