import Mathlib.Data.List.Forall2
import RequestRouter.Proofs.Router.Acceptance

/-!
# What is reported about a method

Checking a method reports everything that is wrong with it, in a fixed order: what each parameter
lacks that has to be an extra, then that there is no context, then that no request is returned.
Nothing that is found hides anything behind it. Here this list is said in terms of what is
declared (`RequestRouter.Method.Reports`), and so is the route that comes out if the list is empty
(`RequestRouter.Method.IsRoutedAs`).

Main statement: there is exactly one such list for a method, and checking the method answers with
the route if it is empty, and else with the list (`RequestRouter.Method.route_determined`).
-/

namespace RequestRouter

/-! ### Parameters that have to be extras -/

/-- What the parameter lacks to be an extra of the named method. A kind of higher priority is the
only one to count, even if its mark has no key and one of a lower priority has. -/
inductive Param.Lacks (method : String) (param : Param) : Fault → Prop
  /-- A mark of some kind of extra. -/
  | mark : (∀ kind : ExtraKind, ∀ mark ∈ param.marks, mark.name ≠ kind.markName) →
      Lacks method param (.missingBinding method param.name)
  /-- A key: the first mark of the kind that counts has other arguments than one string. -/
  | key {higher lower : List ExtraKind} {kind : ExtraKind} {mark : Mark} :
      ExtraKind.all = higher ++ kind :: lower →
      (∀ other ∈ higher, ∀ mark ∈ param.marks, mark.name ≠ other.markName) →
      FirstMark kind.markName param.marks mark → (∀ key, mark.args ≠ [.text key]) →
      Lacks method param (.noKey kind param.name)

/-- What parameters lack to be extras of the named method, in their order. -/
inductive Param.LackInOrder (method : String) : List Param → List Fault → Prop
  /-- No parameters lack nothing. -/
  | nil : LackInOrder method [] []
  /-- A parameter that is marked as an extra. -/
  | bound {param : Param} {params : List Param} {faults : List Fault} {binding : Binding} :
      param.IsBoundTo binding → LackInOrder method params faults →
      LackInOrder method (param :: params) faults
  /-- A parameter that lacks something. -/
  | lacks {param : Param} {params : List Param} {fault : Fault} {faults : List Fault} :
      param.Lacks method fault → LackInOrder method params faults →
      LackInOrder method (param :: params) (fault :: faults)

/-- The parameter of a route that the parameter becomes as an extra. -/
def Param.IsRoutedAs (param : Param) (routed : RouteParam) : Prop :=
  ∃ binding, param.IsBoundTo binding ∧
    routed = ⟨param.name, param.declaredType.normalize, .extra binding⟩

theorem ExtraKind.mem_all (kind : ExtraKind) : kind ∈ all := by
  cases kind <;> decide

theorem Mark.text?_eq_none_iff {mark : Mark} :
    mark.text? = none ↔ ∀ key, mark.args ≠ [.text key] := by
  rw [Option.eq_none_iff_forall_ne_some]
  exact forall_congr' fun key => not_congr text?_eq_some_iff

namespace Param

variable {method : String} {param : Param} {params : List Param}

theorem extraMark?_eq_none_iff :
    param.extraMark? = none ↔
      ∀ kind : ExtraKind, ∀ mark ∈ param.marks, mark.name ≠ kind.markName := by
  rw [extraMark?, List.findSome?_eq_none_iff]
  constructor
  · intro h kind
    exact findMark?_eq_none_iff.1 (Option.map_eq_none_iff.1 (h kind kind.mem_all))
  · intro h kind _
    exact Option.map_eq_none_iff.2 (findMark?_eq_none_iff.2 (h kind))

/-- **A parameter is refused for what it lacks.** -/
theorem binding_eq_error_iff {fault : Fault} :
    param.binding method = .error fault ↔ param.Lacks method fault := by
  rw [binding]
  constructor
  · intro h
    split at h
    · next hnone =>
      cases h
      exact .mark (extraMark?_eq_none_iff.1 hnone)
    · next kind mark hmark =>
      obtain ⟨higher, lower, hall, hhigher, hfirst⟩ := extraMark?_eq_some_iff.1 hmark
      split at h
      · cases h
      · next htext =>
        cases h
        exact .key hall hhigher hfirst (Mark.text?_eq_none_iff.1 htext)
  · rintro (hnone | ⟨hall, hhigher, hfirst, hargs⟩)
    · rw [extraMark?_eq_none_iff.2 hnone]
    · simp only [extraMark?_eq_some_iff.2 ⟨_, _, hall, hhigher, hfirst⟩,
        Mark.text?_eq_none_iff.2 hargs]

theorem asExtra_eq_error_iff {fault : Fault} :
    param.asExtra method = .error fault ↔ param.Lacks method fault := by
  rw [← binding_eq_error_iff, asExtra]
  cases param.binding method <;> simp [Except.map]

theorem asExtra_eq_ok_iff_isRoutedAs {routed : RouteParam} :
    param.asExtra method = .ok routed ↔ param.IsRoutedAs routed := by
  simp only [IsRoutedAs, ← @binding_eq_ok_iff method, asExtra]
  cases param.binding method <;> simp [Except.map, inRole, eq_comm]

/-- What is found wrong with parameters is what they lack. -/
theorem lackInOrder_iff {faults : List Fault} :
    LackInOrder method params faults ↔
      (params.map (Param.asExtra method)).filterMap fault? = faults := by
  constructor
  · intro h
    induction h with
    | nil => rfl
    | @bound param _ _ _ hbound _ ih =>
      have hok : param.asExtra method = .ok _ := asExtra_eq_ok_iff_isRoutedAs.2 ⟨_, hbound, rfl⟩
      rw [List.map_cons, hok]
      exact ih
    | lacks hlacks _ ih =>
      rw [List.map_cons, asExtra_eq_error_iff.2 hlacks]
      exact congrArg _ ih
  · rintro rfl
    induction params with
    | nil => exact .nil
    | cons param rest ih =>
      rw [List.map_cons]
      cases hextra : param.asExtra method with
      | ok routed =>
        obtain ⟨binding, hbound, -⟩ := asExtra_eq_ok_iff_isRoutedAs.1 hextra
        exact .bound hbound ih
      | error fault => exact .lacks (asExtra_eq_error_iff.1 hextra) ih

theorem forall₂_isRoutedAs_iff {routed : List RouteParam} :
    List.Forall₂ IsRoutedAs params routed ↔
      params.map (Param.asExtra method) = routed.map .ok := by
  rw [← List.forall₂_eq_eq_eq, List.forall₂_map_left_iff, List.forall₂_map_right_iff]
  simp only [asExtra_eq_ok_iff_isRoutedAs]

end Param

/-! ### Methods -/

namespace Method

/-- The parameters of the method that have to be extras, and what is wrong with its context. -/
inductive LeavesExtras (method : Method) : List Param → List Fault → Prop
  /-- All but the first that can be the context. -/
  | context {before after : List Param} {context : Param} :
    method.params = before ++ context :: after → (∀ param ∈ before, ¬param.MayBeContext) →
      context.MayBeContext → LeavesExtras method (before ++ after) []
  /-- All, and there is no context. -/
  | missing : (∀ param ∈ method.params, ¬param.MayBeContext) →
    LeavesExtras method method.params [.missingContext method.name]

/-- What is wrong with the type that the method returns. -/
inductive Returns (method : Method) : List Fault → Prop
  /-- Nothing, if it is a request. -/
  | request {type : TypeRef} :
    method.returnType = some type → type.IsNamed requestTypes → Returns method []
  /-- It is another type, or none is written. -/
  | other : (∀ type, method.returnType = some type → ¬type.IsNamed requestTypes) →
    Returns method [.wrongReturn method.name method.returnText]

/-- The faults are all that is wrong with the method, in the order in which it is reported: what its
parameters lack, then the context, then the type of the result. -/
def Reports (method : Method) (faults : List Fault) : Prop :=
  ∃ extras lacking missing wrong, method.LeavesExtras extras missing ∧
    Param.LackInOrder method.name extras lacking ∧ method.Returns wrong ∧
    faults = lacking ++ missing ++ wrong

/-- The route has the parameters of the method in their order, with their names and their types in
value form: the first that can be the context is the context, and all others are extras. -/
def IsRoutedAs (method : Method) (route : Route) : Prop :=
  ∃ before context after front back, method.params = before ++ context :: after ∧
    (∀ param ∈ before, ¬param.MayBeContext) ∧ context.MayBeContext ∧
    List.Forall₂ Param.IsRoutedAs before front ∧ List.Forall₂ Param.IsRoutedAs after back ∧
    route = ⟨method.name, context.name,
      front ++ ⟨context.name, context.declaredType.normalize, .context⟩ :: back⟩

variable {method : Method}

/-! ### The list of faults -/

theorem context?_eq_none_iff :
    method.context? = none ↔ ∀ param ∈ method.params, ¬param.MayBeContext := by
  rw [context?, List.find?_eq_none]
  simp only [Param.isContext_iff]

/-- Without a context, every parameter has to be an extra. -/
theorem checkedParams_eq_map (h : ∀ param ∈ method.params, ¬param.MayBeContext) :
    method.checkedParams = method.params.map (Param.asExtra method.name) := by
  have hparams := checkParams_append method.name [] h
  rwa [List.append_nil, checkParams, List.append_nil] at hparams

/-- What is found wrong with the parameters concerns those that have to be extras. -/
theorem LeavesExtras.eq {extras : List Param} {missing : List Fault}
    (h : method.LeavesExtras extras missing) :
    method.checkedParams.filterMap fault? =
        (extras.map (Param.asExtra method.name)).filterMap fault? ∧
      (if method.context?.isSome then [] else [.missingContext method.name]) = missing := by
  rcases h with ⟨hparams, hbefore, hcontext⟩ | hnone
  · rw [checkedParams_eq hparams hbefore hcontext,
      context?_eq_some_iff.2 ⟨_, _, hparams, hbefore, hcontext⟩, List.map_append,
      List.filterMap_append, List.filterMap_append, List.filterMap_cons_none rfl]
    exact ⟨rfl, rfl⟩
  · rw [checkedParams_eq_map hnone, context?_eq_none_iff.2 hnone]
    exact ⟨rfl, rfl⟩

theorem exists_leavesExtras (method : Method) :
    ∃ extras missing, method.LeavesExtras extras missing := by
  cases hcontext : method.context? with
  | none => exact ⟨_, _, .missing (context?_eq_none_iff.1 hcontext)⟩
  | some context =>
    obtain ⟨before, after, hparams, hbefore, hmay⟩ := context?_eq_some_iff.1 hcontext
    exact ⟨_, _, .context hparams hbefore hmay⟩

theorem returns_iff {wrong : List Fault} :
    method.Returns wrong ↔ (fault? method.checkReturn).toList = wrong := by
  by_cases hrequest : ∃ type, method.returnType = some type ∧ type.IsNamed requestTypes
  · obtain ⟨_, hok⟩ := checkReturn_eq_ok_iff.2 hrequest
    obtain ⟨type, htype, hnamed⟩ := hrequest
    rw [hok]
    constructor
    · rintro (_ | hother)
      · rfl
      · exact absurd hnamed (hother type htype)
    · rintro rfl
      exact .request htype hnamed
  · have herror : method.checkReturn = .error (.wrongReturn method.name method.returnText) := by
      cases hcheck : method.checkReturn with
      | ok a => exact absurd (checkReturn_eq_ok_iff.1 ⟨a, hcheck⟩) hrequest
      | error fault => rw [eq_of_checkReturn_eq_error hcheck]
    rw [herror]
    constructor
    · rintro (⟨htype, hnamed⟩ | _)
      · exact absurd ⟨_, htype, hnamed⟩ hrequest
      · rfl
    · rintro rfl
      exact .other fun type htype hnamed => hrequest ⟨type, htype, hnamed⟩

/-- **All that is wrong with a method is found**, and nothing else. -/
theorem reports_iff {faults : List Fault} : method.Reports faults ↔ method.faults = faults := by
  rw [Method.faults]
  constructor
  · rintro ⟨extras, lacking, missing, wrong, hextras, hlacking, hwrong, rfl⟩
    obtain ⟨hparams, hmissing⟩ := hextras.eq
    rw [hparams, hmissing, Param.lackInOrder_iff.1 hlacking, returns_iff.1 hwrong]
  · rintro rfl
    obtain ⟨extras, missing, hextras⟩ := method.exists_leavesExtras
    obtain ⟨hparams, hmissing⟩ := hextras.eq
    refine ⟨extras, _, missing, _, hextras, Param.lackInOrder_iff.2 rfl, returns_iff.2 rfl, ?_⟩
    rw [hparams, hmissing]

/-! ### The route -/

/-- Checks that find nothing wrong all have a result. -/
theorem eq_map_of_filterMap_fault? {α : Type} {checks : List (Except Fault α)}
    (h : checks.filterMap fault? = []) : checks = (checks.filterMap result?).map .ok := by
  induction checks with
  | nil => rfl
  | cons check rest ih =>
    cases check with
    | ok a => exact congrArg _ (ih h)
    | error fault => cases h

theorem filterMap_result?_map_ok {α : Type} (as : List α) :
    (as.map (Except.ok (ε := Fault))).filterMap result? = as := by
  rw [List.filterMap_map]
  exact List.filterMap_some

/-- The parameters of a route are what the checks of those of its method come to. -/
theorem IsRoutedAs.eq {route : Route} (h : method.IsRoutedAs route) :
    ∃ context, method.context? = some context ∧
      route = ⟨method.name, context.name, method.checkedParams.filterMap result?⟩ := by
  obtain ⟨before, context, after, front, back, hparams, hbefore, hmay, hfront, hback, rfl⟩ := h
  have hchecked : method.checkedParams =
      (front ++ context.inRole .context :: back).map .ok := by
    rw [checkedParams_eq hparams hbefore hmay, Param.forall₂_isRoutedAs_iff.1 hfront,
      Param.forall₂_isRoutedAs_iff.1 hback, List.map_append, List.map_cons]
  refine ⟨context, context?_eq_some_iff.2 ⟨_, _, hparams, hbefore, hmay⟩, ?_⟩
  rw [hchecked, filterMap_result?_map_ok]
  rfl

theorem IsRoutedAs.unique {route other : Route} (h : method.IsRoutedAs route)
    (hother : method.IsRoutedAs other) : other = route := by
  obtain ⟨context, hcontext, rfl⟩ := h.eq
  obtain ⟨context', hcontext', rfl⟩ := hother.eq
  cases hcontext.symm.trans hcontext'
  rfl

/-- A method in which nothing is wrong is routed. -/
theorem isRoutedAs_of_faults_eq_nil {context : Param} (hcontext : method.context? = some context)
    (h : method.faults = []) :
    method.IsRoutedAs ⟨method.name, context.name, method.checkedParams.filterMap result?⟩ := by
  obtain ⟨before, after, hparams, hbefore, hmay⟩ := context?_eq_some_iff.1 hcontext
  have hnone : method.checkedParams.filterMap fault? = [] :=
    (List.append_eq_nil_iff.1 (List.append_eq_nil_iff.1 h).1).1
  have hchecked := eq_map_of_filterMap_fault? hnone
  -- the checks in front of the context, that of the context, and those behind it all passed
  rw [checkedParams_eq hparams hbefore hmay] at hchecked ⊢
  obtain ⟨front, rest, hrouted, hfront, hrest⟩ := List.map_eq_append_iff.1 hchecked.symm
  obtain ⟨middle, back, rfl, hmiddle, hback⟩ := List.map_eq_cons_iff.1 hrest
  cases hmiddle
  rw [hrouted]
  exact ⟨before, context, after, front, back, hparams, hbefore, hmay,
    Param.forall₂_isRoutedAs_iff.2 hfront.symm, Param.forall₂_isRoutedAs_iff.2 hback.symm, rfl⟩

theorem isRoutedAs_of_route_eq_ok {route : Route} (h : method.route = .ok route) :
    method.IsRoutedAs route := by
  rcases method.route_cases with ⟨context, hcontext, hnil, hroute⟩ | ⟨-, hroute⟩
  · cases hroute.symm.trans h
    exact isRoutedAs_of_faults_eq_nil hcontext hnil
  · cases hroute.symm.trans h

/-- **Checking a method is determined by what it declares.** There is one list of what is wrong with
it, in order; if it is empty, the check answers with the one route that the method declares, and
else with this list. -/
theorem route_determined (method : Method) :
    ∃ faults, method.Reports faults ∧ (∀ others, method.Reports others → others = faults) ∧
      ((faults = [] ∧ ∃ route, method.route = .ok route ∧ method.IsRoutedAs route ∧
          ∀ other, method.IsRoutedAs other → other = route) ∨
        (faults ≠ [] ∧ method.route = .error faults)) := by
  refine ⟨method.faults, reports_iff.2 rfl, fun others h => (reports_iff.1 h).symm, ?_⟩
  rcases method.route_cases with ⟨context, hcontext, hnil, hroute⟩ | ⟨hne, hroute⟩
  · have hrouted := isRoutedAs_of_faults_eq_nil hcontext hnil
    exact .inl ⟨hnil, _, hroute, hrouted, fun other hother => hrouted.unique hother⟩
  · exact .inr ⟨hne, hroute⟩

/-- All is found at once: the mark that counts has no key, though the one in front of it has; and
there is neither a context nor a request. -/
example :
    (Method.mk "go" ⟨1, 4⟩ [] [⟨"a", ⟨1, 60⟩,
      [⟨"StringArrayListExtra", ⟨1, 8⟩, [.text "k"]⟩, ⟨"Extra", ⟨1, 40⟩, []⟩],
      ⟨"Int", [], false⟩, none⟩] none).faults =
    [.noKey .scalar "a", .missingContext "go", .wrongReturn "go" "()"] := by
  decide

end Method

end RequestRouter
