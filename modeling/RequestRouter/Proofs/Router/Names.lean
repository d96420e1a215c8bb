import RequestRouter.Proofs.Rust.Statements
import RequestRouter.Router.Emission

/-!
# Names in generated source

The names that generated source makes up from those of a declaration. Names stay names when the
source writes them (`RequestRouter.isIdentifier_emittedName`). The request gets the first of its
names that no parameter has (`RequestRouter.exists_freshName_eq`), so it is a name that a variable
may have and differs from every parameter.

The fresh name is found by taking out of the list what was passed once. A loop that asks every
parameter in every round finds it, too, and in no more rounds than there are parameters
(`RequestRouter.Route.requestName_search`): each round passes another of their names.
-/

namespace RequestRouter

open Rust

variable {name : String} {taken : List String}

/-! ### Underscores -/

theorem isIdentifier_append (h : isIdentifier name = true) {part : String}
    (hpart : part.toList.all isNamePart = true) : isIdentifier (name ++ part) = true := by
  obtain ⟨c, rest, heq, hc, hrest⟩ := isIdentifier_iff.1 h
  refine isIdentifier_iff.2 ⟨c, rest ++ part.toList, ?_, hc, fun d hd => ?_⟩
  · rw [String.toList_append, heq, List.cons_append]
  · rcases List.mem_append.1 hd with hd | hd
    · exact hrest d hd
    · exact List.all_eq_true.1 hpart d hd

/-- A name stays one as generated source writes it. -/
theorem isIdentifier_emittedName (h : isIdentifier name = true) :
    isIdentifier (emittedName name) = true := by
  rw [emittedName]
  split
  · exact isIdentifier_append h (by decide)
  · exact h

/-- The name with `k` underscores at its end. -/
def underscored (name : String) (k : Nat) : String := name ++ String.ofList (List.replicate k '_')

theorem underscored_zero : underscored name 0 = name := String.append_empty

theorem underscored_succ {k : Nat} : underscored name (k + 1) = underscored (name ++ "_") k := by
  apply String.toList_inj.1
  simp [underscored, List.replicate_succ]

theorem ne_underscored {k : Nat} : name ≠ underscored (name ++ "_") k := by
  intro h
  have hlen := congrArg (fun s : String => s.toList.length) h
  simp [underscored] at hlen

/-- **The first name that is not taken.** The fresh name is the name with the least number of
underscores for which it is not taken, and there are no more of them than taken names. -/
theorem exists_freshName_eq (name : String) (taken : List String) :
    ∃ k, k ≤ taken.length ∧ freshName name taken = underscored name k ∧
      underscored name k ∉ taken ∧ ∀ j < k, underscored name j ∈ taken := by
  induction h : taken.length generalizing name taken with
  | zero =>
    have hnil := List.length_eq_zero_iff.1 h
    subst hnil
    refine ⟨0, Nat.le_refl _, ?_, List.not_mem_nil, fun j hj => absurd hj (Nat.not_lt_zero _)⟩
    rw [freshName, dif_neg List.not_mem_nil, underscored_zero]
  | succ n ih =>
    rw [freshName]
    split
    · next hmem =>
      have hlen : (taken.erase name).length = n := by
        rw [List.length_erase_of_mem hmem, h]
        rfl
      obtain ⟨k, hk, heq, hfresh, hbelow⟩ := ih (name ++ "_") (taken.erase name) hlen
      -- `name` itself was only taken out of the list, and no longer name is equal to it.
      refine ⟨k + 1, Nat.succ_le_succ hk, ?_, ?_, fun j hj => ?_⟩
      · rw [heq, underscored_succ]
      · rw [underscored_succ]
        exact fun hin => hfresh ((List.mem_erase_of_ne ne_underscored.symm).2 hin)
      · cases j with
        | zero => rwa [underscored_zero]
        | succ j =>
          rw [underscored_succ]
          exact List.mem_of_mem_erase (hbelow j (Nat.lt_of_succ_lt_succ hj))
    · next hfree =>
      exact ⟨0, Nat.zero_le _, underscored_zero.symm, by rwa [underscored_zero],
        fun j hj => absurd hj (Nat.not_lt_zero _)⟩

theorem freshName_notMem (name : String) (taken : List String) : freshName name taken ∉ taken := by
  obtain ⟨k, -, heq, hfresh, -⟩ := exists_freshName_eq name taken
  rwa [heq]

/-! ### The name of the request -/

/-- No word that Rust keeps to itself starts like the name of the request. -/
theorem isLegal_underscored_request {k : Nat} : isLegal (underscored "request" k) = true := by
  have hpart : (String.ofList (List.replicate k '_')).toList.all isNamePart = true := by
    rw [String.toList_ofList, List.all_eq_true]
    intro d hd
    rw [List.eq_of_mem_replicate hd]
    rfl
  have hid : isIdentifier (underscored "request" k) = true :=
    isIdentifier_append (by decide) hpart
  have hfront : ['r', 'e', 'q'] <+: (underscored "request" k).toList := by
    rw [underscored, String.toList_append]
    exact List.IsPrefix.trans (by decide) (List.prefix_append ..)
  have hwords : ∀ word ∈ "_" :: keywords, ¬['r', 'e', 'q'] <+: word.toList := by decide
  have hmem : underscored "request" k ∉ "_" :: keywords := fun h => hwords _ h hfront
  rw [List.mem_cons, not_or] at hmem
  exact (isLegal_iff hid).2 hmem.symm

namespace Route

variable {route : Route}

/-- A variable may have the name of the request. -/
theorem isLegal_requestName : isLegal route.requestName = true := by
  obtain ⟨k, -, heq, -⟩ := exists_freshName_eq "request" (route.params.map RouteParam.emittedName)
  rw [requestName, heq]
  exact isLegal_underscored_request

/-- **No parameter hides the request.** -/
theorem requestName_ne {param : RouteParam} (h : param ∈ route.params) :
    route.requestName ≠ param.emittedName := by
  intro heq
  refine freshName_notMem "request" (route.params.map RouteParam.emittedName) ?_
  rw [← requestName, heq]
  exact List.mem_map_of_mem h

end Route

/-! ### The rounds of a loop -/

/-- The loop that goes on with `step` comes from the first state to the other in the given number of
rounds, and ends there. -/
inductive EndsAfter {α : Type} (step : α → Option α) : Nat → α → α → Prop where
  /-- There is no next state. -/
  | stop {a : α} (h : step a = none) : EndsAfter step 0 a a
  /-- A round, and those behind it. -/
  | round {rounds : Nat} {a b last : α} (h : step a = some b)
      (hrest : EndsAfter step rounds b last) : EndsAfter step (rounds + 1) a last

/-- A loop ends once, if it ends. -/
theorem EndsAfter.unique {α : Type} {step : α → Option α} {m n : Nat} {a last other : α}
    (h : EndsAfter step m a last) (h' : EndsAfter step n a other) : m = n ∧ last = other := by
  induction h generalizing n other with
  | stop hnone =>
    rcases h' with hnone' | ⟨hsome', -⟩
    · exact ⟨rfl, rfl⟩
    · rw [hnone] at hsome'
      cases hsome'
  | round hsome _ ih =>
    rcases h' with hnone' | ⟨hsome', hrest'⟩
    · rw [hsome] at hnone'
      cases hnone'
    · obtain rfl := Option.some.inj (hsome.symm.trans hsome')
      obtain ⟨rfl, rfl⟩ := ih hrest'
      exact ⟨rfl, rfl⟩

/-- The next name to try, if the name is one of those that are taken. -/
def lengthened? (taken : List String) (name : String) : Option String :=
  if name ∈ taken then some (name ++ "_") else none

/-- Names that are taken are passed one after the other. -/
theorem endsAfter_lengthened? {k : Nat} (hfresh : underscored name k ∉ taken)
    (hbelow : ∀ j < k, underscored name j ∈ taken) :
    EndsAfter (lengthened? taken) k name (underscored name k) := by
  induction k generalizing name with
  | zero =>
    rw [underscored_zero] at hfresh ⊢
    exact .stop (if_neg hfresh)
  | succ k ih =>
    have htaken : name ∈ taken := by
      have hfirst := hbelow 0 k.succ_pos
      rwa [underscored_zero] at hfirst
    rw [underscored_succ] at hfresh ⊢
    refine .round (if_pos htaken) (ih hfresh fun j hj => ?_)
    rw [← underscored_succ]
    exact hbelow (j + 1) (Nat.succ_lt_succ hj)

/-- **The search for the name of the request.** The loop that starts with `request` and adds an
underscore as long as some parameter is emitted under the name ends, after no more rounds than there
are parameters, and only with the name of the request. This is `request` with one underscore for
each round: no parameter is emitted under it, and some parameter is under each name with fewer. -/
theorem Route.requestName_search (route : Route) :
    ∃ k ≤ route.params.length,
      EndsAfter (lengthened? (route.params.map RouteParam.emittedName)) k "request"
        route.requestName ∧
      (∀ n name,
        EndsAfter (lengthened? (route.params.map RouteParam.emittedName)) n "request" name →
          n = k ∧ name = route.requestName) ∧
      route.requestName = "request" ++ String.ofList (List.replicate k '_') ∧
      (∀ param ∈ route.params, param.emittedName ≠ underscored "request" k) ∧
      ∀ j < k, ∃ param ∈ route.params, param.emittedName = underscored "request" j := by
  obtain ⟨k, hk, heq, hfresh, hbelow⟩ :=
    exists_freshName_eq "request" (route.params.map RouteParam.emittedName)
  rw [List.length_map] at hk
  have hends := endsAfter_lengthened? hfresh hbelow
  rw [← heq] at hends
  refine ⟨k, hk, hends, fun n name hends' => ?_, heq, fun param hparam hsame => ?_, fun j hj => ?_⟩
  · obtain ⟨rfl, rfl⟩ := hends'.unique hends
    exact ⟨rfl, rfl⟩
  · exact hfresh (hsame ▸ List.mem_map_of_mem hparam)
  · obtain ⟨param, hparam, hsame⟩ := List.mem_map.1 (hbelow j hj)
    exact ⟨param, hparam, hsame⟩

/-- Repeated names, and a reserved word, which is emitted with an underscore. -/
example : freshName "request" (["request_", "type", "request_", "request"].map emittedName) =
    "request__" := by
  cbv

end RequestRouter
