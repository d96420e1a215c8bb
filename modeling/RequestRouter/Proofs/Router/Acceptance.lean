import RequestRouter.Proofs.Router.References
import RequestRouter.Router.Basic

/-!
# Which interfaces become routers

The checks of a routing interface are spread over its kind, its marker, the symbol table, and
the parameters and results of all its methods. Here the condition that they come to is said
without them, in terms of what is declared (`RequestRouter.Element.IsRoutable`):

* a *context parameter* is written without a question mark, without arguments and without a
  mark that allows absent values, and its type is one of the names of the context;
* a *bound parameter* has a mark of some kind of extra and none of a kind of higher priority,
  and the first of these marks has one string as its arguments;
* a *routable method* has a context parameter, all its parameters but the first of these are
  bound, and it returns a request.

Main statements: an element becomes a router exactly if it is routable
(`RequestRouter.Element.router_eq_ok_iff`), and if it does not, there is a fault to report
(`RequestRouter.Element.ne_nil_of_router_eq_error`).
-/

namespace RequestRouter

/-! ### First marks -/

/-- The mark is the first of its name. -/
def FirstMark (name : String) (marks : List Mark) (mark : Mark) : Prop :=
  ∃ front back, marks = front ++ mark :: back ∧ mark.name = name ∧
    ∀ other ∈ front, other.name ≠ name

theorem findMark?_eq_some_iff {name : String} {marks : List Mark} {mark : Mark} :
    findMark? name marks = some mark ↔ FirstMark name marks mark := by
  rw [findMark?, List.find?_eq_some_iff_append]
  constructor
  · rintro ⟨hname, front, back, hmarks, hfront⟩
    refine ⟨front, back, hmarks, eq_of_beq hname, fun other hother hsame => ?_⟩
    have hnot := hfront other hother
    rw [hsame, beq_self_eq_true] at hnot
    cases hnot
  · rintro ⟨front, back, hmarks, hname, hfront⟩
    refine ⟨beq_iff_eq.2 hname, front, back, hmarks, fun other hother => ?_⟩
    rw [beq_eq_false_iff_ne.2 (hfront other hother)]
    rfl

theorem findMark?_eq_none_iff {name : String} {marks : List Mark} :
    findMark? name marks = none ↔ ∀ mark ∈ marks, mark.name ≠ name := by
  rw [findMark?, List.find?_eq_none]
  constructor
  · intro h mark hmem hname
    exact h mark hmem (beq_iff_eq.2 hname)
  · intro h mark hmem hname
    exact h mark hmem (eq_of_beq hname)

/-! ### Types -/

/-- The type is one of the names, without arguments and never absent. -/
def TypeRef.IsNamed (names : List String) (type : TypeRef) : Prop :=
  type.nullable = false ∧ type.args = [] ∧ type.path ∈ names

theorem TypeRef.isPlainly_iff {names : List String} {type : TypeRef} :
    type.isPlainly names = true ↔ type.IsNamed names := by
  rw [isPlainly, IsNamed, Bool.and_eq_true, Bool.and_eq_true, Bool.not_eq_true',
    List.isEmpty_iff, List.contains_iff_mem, and_assoc]

/-! ### Parameters -/

/-- The parameter can be the context of its method. -/
def Param.MayBeContext (param : Param) : Prop :=
  (∀ mark ∈ param.marks, mark.name ≠ "Nullable") ∧ param.type.IsNamed contextTypes

theorem Param.isContext_iff {param : Param} : param.isContext = true ↔ param.MayBeContext := by
  rw [isContext, TypeRef.isContext, TypeRef.isPlainly_iff, declaredType]
  split
  · next hnullable =>
    constructor
    · rintro ⟨hfalse, -⟩
      cases hfalse
    · rintro ⟨hmarks, -⟩
      rw [nullableMark, findMark?_eq_none_iff.2 hmarks] at hnullable
      cases hnullable
  · next hnot =>
    have hnone : findMark? nullableMark param.marks = none := by
      rwa [Option.not_isSome_iff_eq_none] at hnot
    exact ⟨fun h => ⟨findMark?_eq_none_iff.1 hnone, h⟩, And.right⟩

/-- The parameter is marked as the given extra: with a mark of its kind and none of a kind of
higher priority, and the first such mark has the key as its only argument. -/
def Param.IsBoundTo (param : Param) (binding : Binding) : Prop :=
  ∃ higher lower mark, ExtraKind.all = higher ++ binding.kind :: lower ∧
    (∀ kind ∈ higher, ∀ other ∈ param.marks, other.name ≠ kind.markName) ∧
    FirstMark binding.kind.markName param.marks mark ∧ mark.args = [.text binding.key]

theorem Mark.text?_eq_some_iff {mark : Mark} {key : String} :
    mark.text? = some key ↔ mark.args = [.text key] := by
  rw [text?]
  split
  · next value heq => simp [heq]
  · next hnot =>
    constructor
    · rintro ⟨⟩
    · intro heq
      exact absurd heq (hnot key)

theorem Param.extraMark?_eq_some_iff {param : Param} {kind : ExtraKind} {mark : Mark} :
    param.extraMark? = some (kind, mark) ↔
      ∃ higher lower, ExtraKind.all = higher ++ kind :: lower ∧
        (∀ other ∈ higher, ∀ m ∈ param.marks, m.name ≠ other.markName) ∧
        FirstMark kind.markName param.marks mark := by
  rw [extraMark?, List.findSome?_eq_some_iff]
  constructor
  · rintro ⟨higher, kind', lower, hall, hmark, hhigher⟩
    obtain ⟨mark', hfirst, hpair⟩ := Option.map_eq_some_iff.1 hmark
    obtain ⟨rfl, rfl⟩ := Prod.mk.inj hpair
    refine ⟨higher, lower, hall, fun other hother => ?_, findMark?_eq_some_iff.1 hfirst⟩
    exact findMark?_eq_none_iff.1 (Option.map_eq_none_iff.1 (hhigher other hother))
  · rintro ⟨higher, lower, hall, hhigher, hfirst⟩
    refine ⟨higher, kind, lower, hall, ?_, fun other hother => ?_⟩
    · rw [findMark?_eq_some_iff.2 hfirst]
      rfl
    · rw [findMark?_eq_none_iff.2 (hhigher other hother)]
      rfl

theorem Param.binding_eq_ok_iff {method : String} {param : Param} {binding : Binding} :
    param.binding method = .ok binding ↔ param.IsBoundTo binding := by
  obtain ⟨kind, key⟩ := binding
  rw [Param.binding]
  constructor
  · intro h
    split at h
    · cases h
    · next kind' mark hmark =>
      split at h
      · next key' htext =>
        cases h
        obtain ⟨higher, lower, hall, hhigher, hfirst⟩ := extraMark?_eq_some_iff.1 hmark
        exact ⟨higher, lower, mark, hall, hhigher, hfirst, Mark.text?_eq_some_iff.1 htext⟩
      · cases h
  · rintro ⟨higher, lower, mark, hall, hhigher, hfirst, hargs⟩
    simp only [extraMark?_eq_some_iff.2 ⟨higher, lower, hall, hhigher, hfirst⟩,
      Mark.text?_eq_some_iff.2 hargs]

/-! ### Methods -/

/-- The method can be a route: a first parameter can be the context, all others are marked as
extras, and a request is returned. -/
def Method.IsRoutable (method : Method) : Prop :=
  (∃ before context after, method.params = before ++ context :: after ∧
    (∀ param ∈ before, ¬param.MayBeContext) ∧ context.MayBeContext ∧
    ∀ param ∈ before ++ after, ∃ binding, param.IsBoundTo binding) ∧
  ∃ type, method.returnType = some type ∧ type.IsNamed requestTypes

theorem fault?_eq_none_iff {α : Type} {check : Except Fault α} :
    fault? check = none ↔ ∃ a, check = .ok a := by
  cases check with
  | ok a => exact ⟨fun _ => ⟨a, rfl⟩, fun _ => rfl⟩
  | error fault => exact ⟨nofun, nofun⟩

theorem fault?_eq_some_iff {α : Type} {check : Except Fault α} {fault : Fault} :
    fault? check = some fault ↔ check = .error fault := by
  cases check with
  | ok a => exact ⟨nofun, nofun⟩
  | error found =>
    exact Option.some_inj.trans ⟨congrArg Except.error, Except.error.inj⟩

theorem Param.asExtra_eq_ok_iff (method : String) {param : Param} :
    (∃ routed, param.asExtra method = .ok routed) ↔ ∃ binding, param.IsBoundTo binding := by
  rw [asExtra]
  constructor
  · rintro ⟨routed, hrouted⟩
    cases hbinding : param.binding method with
    | ok binding => exact ⟨binding, binding_eq_ok_iff.1 hbinding⟩
    | error fault =>
      rw [hbinding] at hrouted
      cases hrouted
  · rintro ⟨binding, hbound⟩
    rw [binding_eq_ok_iff.2 hbound]
    exact ⟨_, rfl⟩

/-- Behind the context, every parameter is an extra. -/
theorem checkParams_true (method : String) (params : List Param) :
    checkParams method true params = params.map (Param.asExtra method) := by
  induction params with
  | nil => rfl
  | cons param rest ih =>
    rw [checkParams, Bool.not_true, Bool.false_and, if_neg Bool.false_ne_true, ih, List.map_cons]

/-- In front of the context, every parameter is an extra. -/
theorem checkParams_append (method : String) {before : List Param} (rest : List Param)
    (hbefore : ∀ param ∈ before, ¬param.MayBeContext) :
    checkParams method false (before ++ rest) =
      before.map (Param.asExtra method) ++ checkParams method false rest := by
  induction before with
  | nil => rfl
  | cons param before ih =>
    have hparam : param.isContext = false := by
      rw [← Bool.not_eq_true, Param.isContext_iff]
      exact hbefore param List.mem_cons_self
    rw [List.cons_append, checkParams, hparam, Bool.and_false, if_neg Bool.false_ne_true,
      ih fun p hp => hbefore p (List.mem_cons_of_mem _ hp), List.map_cons, List.cons_append]

namespace Method

theorem context?_eq_some_iff {method : Method} {context : Param} :
    method.context? = some context ↔
      ∃ before after, method.params = before ++ context :: after ∧
        (∀ param ∈ before, ¬param.MayBeContext) ∧ context.MayBeContext := by
  rw [context?, List.find?_eq_some_iff_append, Param.isContext_iff]
  constructor
  · rintro ⟨hcontext, before, after, hparams, hbefore⟩
    refine ⟨before, after, hparams, fun param hparam hmay => ?_, hcontext⟩
    have hnot := hbefore param hparam
    rw [Param.isContext_iff.2 hmay] at hnot
    cases hnot
  · rintro ⟨before, after, hparams, hbefore, hcontext⟩
    refine ⟨hcontext, before, after, hparams, fun param hparam => ?_⟩
    rw [Bool.not_eq_true', ← Bool.not_eq_true, Param.isContext_iff]
    exact hbefore param hparam

/-- The context stands where the first parameter that can be one does, and all others are
extras. -/
theorem checkedParams_eq {method : Method} {before after : List Param} {context : Param}
    (hparams : method.params = before ++ context :: after)
    (hbefore : ∀ param ∈ before, ¬param.MayBeContext) (hcontext : context.MayBeContext) :
    method.checkedParams =
      before.map (Param.asExtra method.name) ++
        .ok (context.inRole .context) :: after.map (Param.asExtra method.name) := by
  rw [checkedParams, hparams, checkParams_append _ _ hbefore, checkParams,
    Param.isContext_iff.2 hcontext, checkParams_true]
  rfl

theorem checkReturn_eq_ok_iff {method : Method} :
    (∃ a, method.checkReturn = .ok a) ↔
      ∃ type, method.returnType = some type ∧ type.IsNamed requestTypes := by
  rw [checkReturn]
  cases method.returnType with
  | none =>
    constructor
    · rintro ⟨a, ha⟩
      cases ha
    · rintro ⟨type, htype, -⟩
      cases htype
  | some type =>
    rw [Option.any_some, TypeRef.isRequest]
    constructor
    · rintro ⟨a, ha⟩
      split at ha
      · next hplain => exact ⟨type, rfl, TypeRef.isPlainly_iff.1 hplain⟩
      · cases ha
    · rintro ⟨_, ⟨⟩, hnamed⟩
      rw [if_pos (TypeRef.isPlainly_iff.2 hnamed)]
      exact ⟨(), rfl⟩

/-- There is one fault that can be found in what is returned. -/
theorem eq_of_checkReturn_eq_error {method : Method} {fault : Fault}
    (h : method.checkReturn = .error fault) :
    fault = .wrongReturn method.name method.returnText := by
  rw [checkReturn] at h
  split at h
  · cases h
  · cases h
    rfl

/-- **A method without faults** is routable, and the other way round. -/
theorem faults_eq_nil_iff {method : Method} : method.faults = [] ↔ method.IsRoutable := by
  rw [faults, List.append_eq_nil_iff, List.append_eq_nil_iff, List.filterMap_eq_nil_iff,
    Option.toList_eq_nil_iff, fault?_eq_none_iff, checkReturn_eq_ok_iff, IsRoutable]
  -- What is returned is checked apart from the parameters.
  refine and_congr_left fun _ => ?_
  constructor
  · rintro ⟨hparams, hcontext⟩
    split at hcontext
    · next hsome =>
      obtain ⟨context, hfound⟩ := Option.isSome_iff_exists.1 hsome
      obtain ⟨before, after, hsplit, hbefore, hmay⟩ := context?_eq_some_iff.1 hfound
      refine ⟨before, context, after, hsplit, hbefore, hmay, fun param hparam => ?_⟩
      have hchecked := checkedParams_eq hsplit hbefore hmay
      refine (Param.asExtra_eq_ok_iff method.name).1 (fault?_eq_none_iff.1 ?_)
      refine hparams _ ?_
      rw [hchecked, List.mem_append, List.mem_cons]
      rcases List.mem_append.1 hparam with hmem | hmem
      · exact .inl (List.mem_map_of_mem hmem)
      · exact .inr (.inr (List.mem_map_of_mem hmem))
    · cases hcontext
  · rintro ⟨before, context, after, hsplit, hbefore, hmay, hothers⟩
    have hfound := context?_eq_some_iff.2 ⟨before, after, hsplit, hbefore, hmay⟩
    refine ⟨fun check hcheck => fault?_eq_none_iff.2 ?_, by rw [hfound]; rfl⟩
    rw [checkedParams_eq hsplit hbefore hmay, List.mem_append, List.mem_cons] at hcheck
    -- A check is that of a parameter in front of the context, of the context, or of one behind it.
    rcases hcheck with hmem | rfl | hmem
    · obtain ⟨param, hparam, rfl⟩ := List.mem_map.1 hmem
      exact (Param.asExtra_eq_ok_iff method.name).2 (hothers param (List.mem_append_left _ hparam))
    · exact ⟨_, rfl⟩
    · obtain ⟨param, hparam, rfl⟩ := List.mem_map.1 hmem
      exact (Param.asExtra_eq_ok_iff method.name).2 (hothers param (List.mem_append_right _ hparam))

/-- **What the check of a method comes to**: a route, if there is no fault, and else all faults. -/
theorem route_cases (method : Method) :
    (∃ context, method.context? = some context ∧ method.faults = [] ∧
      method.route = .ok ⟨method.name, context.name, method.checkedParams.filterMap result?⟩) ∨
    (method.faults ≠ [] ∧ method.route = .error method.faults) := by
  rw [route]
  cases hcontext : method.context? with
  | some context =>
    by_cases hfaults : method.faults = []
    · exact .inl ⟨context, rfl, hfaults, by simp [hfaults]⟩
    · exact .inr ⟨hfaults, by simp [hfaults]⟩
  | none =>
    -- That there is no context is a fault itself.
    have hne : method.faults ≠ [] := by
      simp [faults, hcontext]
    exact .inr ⟨hne, rfl⟩

theorem route_eq_ok_iff {method : Method} :
    (∃ route, method.route = .ok route) ↔ method.IsRoutable := by
  rw [← faults_eq_nil_iff]
  rcases method.route_cases with ⟨context, -, hnil, hroute⟩ | ⟨hne, hroute⟩
  · exact ⟨fun _ => hnil, fun _ => ⟨_, hroute⟩⟩
  · rw [hroute]
    exact ⟨nofun, fun hnil => absurd hnil hne⟩

theorem ne_nil_of_route_eq_error {method : Method} {faults : List Fault}
    (h : method.route = .error faults) : faults ≠ [] := by
  rcases method.route_cases with ⟨_, -, -, hroute⟩ | ⟨hne, hroute⟩
  · cases hroute.symm.trans h
  · cases hroute.symm.trans h
    exact hne

end Method

/-- The methods are routes exactly if each is routable. -/
theorem routesOf_eq_ok_iff {methods : List Method} :
    (∃ routes, routesOf methods = .ok routes) ↔ ∀ method ∈ methods, method.IsRoutable := by
  induction methods with
  | nil => exact ⟨fun _ _ hmem => absurd hmem List.not_mem_nil, fun _ => ⟨[], rfl⟩⟩
  | cons method rest ih =>
    rw [List.forall_mem_cons, ← ih, ← Method.route_eq_ok_iff, routesOf]
    cases method.route with
    | ok route =>
      cases routesOf rest with
      | ok routes => simp
      | error faults => simp
    | error faults =>
      cases routesOf rest with
      | ok routes => simp
      | error others => simp

theorem ne_nil_of_routesOf_eq_error {methods : List Method} {faults : List Fault}
    (h : routesOf methods = .error faults) : faults ≠ [] := by
  induction methods generalizing faults with
  | nil => cases h
  | cons method rest ih =>
    rw [routesOf] at h
    split at h
    · cases h
    · next hrest =>
      cases h
      exact ih hrest
    · next hroute _ =>
      cases h
      exact Method.ne_nil_of_route_eq_error hroute
    · next hroute _ =>
      cases h
      exact List.append_ne_nil_of_left_ne_nil (Method.ne_nil_of_route_eq_error hroute) _

/-! ### Destinations -/

theorem Mark.path?_eq_some_iff {mark : Mark} {reference : String} :
    mark.path? = some reference ↔ mark.args = [.path reference] := by
  rw [path?]
  split
  · next value heq => simp [heq]
  · next hnot =>
    constructor
    · rintro ⟨⟩
    · intro heq
      exact absurd heq (hnot reference)

/-- The element can be a router: it is an interface without properties, its first marker has a
path as its only argument, and the path leads to a type, and its methods can be routes. -/
def Element.IsRoutable (declared compiled : List String) (element : Element) : Prop :=
  element.kind = .interfaceType ∧ element.fields = [] ∧
    (∃ mark reference, FirstMark "Intention" element.marks mark ∧ mark.args = [.path reference] ∧
      element.Reaches declared compiled reference) ∧
    ∀ method ∈ element.methods, method.IsRoutable

/-- A destination is a path, alone in the first marker, that the host knows. -/
theorem Element.destination_eq_ok_iff {host : Host} {element : Element} :
    (∃ destination, element.destination host = .ok destination) ↔
      ∃ mark reference, FirstMark "Intention" element.marks mark ∧
        mark.args = [.path reference] ∧
        ∃ destination, (host.resolve reference element).className = .ok destination := by
  rw [destination]
  constructor
  · rintro ⟨destination, h⟩
    split at h
    · cases h
    · next mark hmark =>
      split at h
      · cases h
      · next reference hpath =>
        exact ⟨mark, reference, findMark?_eq_some_iff.1 hmark, Mark.path?_eq_some_iff.1 hpath,
          destination, h⟩
  · rintro ⟨mark, reference, hmark, hargs, destination, h⟩
    have hfound : element.routerMark? = some mark := findMark?_eq_some_iff.2 hmark
    simp only [hfound, Mark.path?_eq_some_iff.2 hargs]
    exact ⟨destination, h⟩

theorem Element.checkInterface_eq_ok_iff {element : Element} :
    element.checkInterface = .ok () ↔ element.kind = .interfaceType ∧ element.fields = [] := by
  have hcheck : (decide (element.kind = .interfaceType) && element.fields.isEmpty) = true ↔
      element.kind = .interfaceType ∧ element.fields = [] := by
    rw [Bool.and_eq_true, decide_eq_true_iff, List.isEmpty_iff]
  rw [checkInterface, ← hcheck]
  split
  · next hboth => exact ⟨fun _ => hboth, fun _ => rfl⟩
  · next hnot => exact ⟨nofun, fun hboth => absurd hboth hnot⟩

/-- The checks of an element stop at the first that fails, with the faults of that check. -/
theorem Element.router_cases (host : Host) (element : Element) :
    (∃ fault, element.checkInterface = .error fault ∧ element.router host = .error [fault]) ∨
    (∃ fault, element.destination host = .error fault ∧
      element.router host = .error [fault]) ∨
    (∃ faults, routesOf element.methods = .error faults ∧
      element.router host = .error faults) ∨
    ∃ destination routes, element.checkInterface = .ok () ∧
      element.destination host = .ok destination ∧ routesOf element.methods = .ok routes ∧
      element.router host = .ok
        ⟨element.name, host.packageOf element, element.imports, destination, routes⟩ := by
  rw [router]
  cases hinterface : element.checkInterface with
  | error fault => exact .inl ⟨fault, rfl, rfl⟩
  | ok _ =>
    cases hdestination : element.destination host with
    | error fault => exact .inr (.inl ⟨fault, rfl, rfl⟩)
    | ok destination =>
      cases hroutes : routesOf element.methods with
      | error faults => exact .inr (.inr (.inl ⟨faults, rfl, rfl⟩))
      | ok routes => exact .inr (.inr (.inr ⟨destination, routes, rfl, rfl, rfl, rfl⟩))

/-- **What becomes of an element**: an interface without properties, with a destination that the
host knows and with routable methods, is a router. -/
theorem Element.router_eq_ok_iff_of_host {host : Host} {element : Element} :
    (∃ router, element.router host = .ok router) ↔
      element.kind = .interfaceType ∧ element.fields = [] ∧
        (∃ mark reference, FirstMark "Intention" element.marks mark ∧
          mark.args = [.path reference] ∧
          ∃ destination, (host.resolve reference element).className = .ok destination) ∧
        ∀ method ∈ element.methods, method.IsRoutable := by
  rw [← destination_eq_ok_iff, ← routesOf_eq_ok_iff, ← and_assoc, ← checkInterface_eq_ok_iff]
  -- Each failing check contradicts its own part of the condition.
  rcases element.router_cases host with ⟨fault, hcheck, hrouter⟩ | ⟨fault, hcheck, hrouter⟩ |
    ⟨faults, hcheck, hrouter⟩ | ⟨destination, routes, hinterface, hdestination, hroutes, hrouter⟩
  · simp [hcheck, hrouter]
  · simp [hcheck, hrouter]
  · simp [hcheck, hrouter]
  · simp [hinterface, hdestination, hroutes, hrouter]

/-- An element that becomes no router has a fault. -/
theorem Element.ne_nil_of_router_eq_error {host : Host} {element : Element} {faults : List Fault}
    (h : element.router host = .error faults) : faults ≠ [] := by
  rcases element.router_cases host with ⟨fault, -, hrouter⟩ | ⟨fault, -, hrouter⟩ |
    ⟨others, hroutes, hrouter⟩ | ⟨_, _, -, -, -, hrouter⟩
  · cases hrouter.symm.trans h
    exact List.cons_ne_nil _ _
  · cases hrouter.symm.trans h
    exact List.cons_ne_nil _ _
  · cases hrouter.symm.trans h
    exact ne_nil_of_routesOf_eq_error hroutes
  · cases hrouter.symm.trans h

/-- A router is named as its element, and lies in the package that the host gives. -/
theorem Element.name_of_router_eq_ok {host : Host} {element : Element} {router : Router}
    (h : element.router host = .ok router) :
    router.name = element.name ∧ router.package = host.packageOf element := by
  rcases element.router_cases host with ⟨_, -, hrouter⟩ | ⟨_, -, hrouter⟩ | ⟨_, -, hrouter⟩ |
    ⟨destination, routes, -, -, -, hrouter⟩
  · cases hrouter.symm.trans h
  · cases hrouter.symm.trans h
  · cases hrouter.symm.trans h
  · cases hrouter.symm.trans h
    exact ⟨rfl, rfl⟩

/-- **An element becomes a router exactly if it is routable**, in a round of the given files. -/
theorem Element.router_eq_ok_iff {files : List SourceFile} {compiled : List String}
    {element : Element} :
    (∃ router, element.router (SymbolTable.ofFiles files compiled).host = .ok router) ↔
      element.IsRoutable ((files.flatMap SourceFile.elements).map Element.qualifiedName)
        compiled := by
  rw [router_eq_ok_iff_of_host, IsRoutable]
  refine and_congr_right fun _ => and_congr_right fun _ => and_congr_left fun _ => ?_
  constructor
  · rintro ⟨mark, reference, hmark, hargs, hknown⟩
    exact ⟨mark, reference, hmark, hargs, SymbolTable.className_resolve_eq_ok_iff.1 hknown⟩
  · rintro ⟨mark, reference, hmark, hargs, hreaches⟩
    exact ⟨mark, reference, hmark, hargs, SymbolTable.className_resolve_eq_ok_iff.2 hreaches⟩

end RequestRouter
