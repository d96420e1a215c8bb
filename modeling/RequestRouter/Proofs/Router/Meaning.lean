import RequestRouter.Proofs.Router.Files

/-!
# What generated routers do

A generated method is called with a context and the values of the extras. What it should return is
told by the declaration alone: a request from the context to the destination of the router, with
the value of each extra stored under its key by the operation of its kind, in the order of the
parameters, and nothing stored for a value that is absent (`RequestRouter.storeAll`).

What it does return is told by its source. `RequestRouter.Router.emit_meaning` says that the two
agree: the source is read as Rust, the method is found in it, and its body is run. While the body
runs, the request holds what the parameters so far have stored, and every parameter that is still
to come has its argument; `RequestRouter.exec_statementOf` is the step for one extra, and
`RequestRouter.execAll_statementsOf` the run. This needs that the parameters differ from each other
and from the request: a guard binds the name of its own parameter again, and hides no other.
-/

namespace RequestRouter

open Rust

/-! ### What a call should return -/

namespace ExtraKind

/-- The content is of the form that the kind stores. -/
def Holds : ExtraKind → Content → Prop
  | scalar, .value _ | integerList, .integers _ | parcelableList, .parcelables _ _ => True
  | stringList, .texts _ | charSequenceList, .texts _ => True
  | _, _ => False

/-- The request with content stored under a key by the operation of the kind, if the content is
of its form. -/
def put (kind : ExtraKind) (key : String) (content : Content) (request : Request) :
    Option Request :=
  match kind, content with
  | scalar, .value value => some (request.putValue key value)
  | integerList, .integers values => some (request.putIntegers key values)
  | parcelableList, .parcelables codec values => some (request.putParcelables key codec values)
  | stringList, .texts values => some (request.putStrings key values)
  | charSequenceList, .texts values => some (request.putCharSequences key values)
  | _, _ => none

variable {kind : ExtraKind} {key : String} {content : Content} {request changed : Request}

theorem exists_put_eq_some (h : kind.Holds content) (key : String) (request : Request) :
    ∃ changed, kind.put key content request = some changed := by
  cases kind <;> cases content <;> first | exact ⟨_, rfl⟩ | exact absurd h id

/-- **Each kind is stored by its operation.** -/
theorem perform_storeOperation :
    perform kind.storeOperation key content request = kind.put key content request := by
  cases kind <;> cases content <;> rfl

/-- Storing changes neither where the request comes from nor where it goes. -/
theorem origin_put (h : kind.put key content request = some changed) :
    changed.origin = request.origin ∧ changed.destination = request.destination := by
  cases kind <;> cases content <;> cases h <;> exact ⟨rfl, rfl⟩

end ExtraKind

namespace RouteParam

/-- The arguments that the parameter takes in a call from `context`: the context itself, or
content of the form of its kind, which may be absent where the type says so. -/
inductive Takes (context : Context) (param : RouteParam) : Value → Prop where
  /-- The context. -/
  | context : param.role = .context → Takes context param (.context context)
  /-- Content. -/
  | content {binding : Binding} {content : Content} : param.role = .extra binding →
      param.type.nullable = false → binding.kind.Holds content →
      Takes context param (.content content)
  /-- Content that may be absent. -/
  | optional {binding : Binding} {content? : Option Content} : param.role = .extra binding →
      param.type.nullable = true → (∀ content ∈ content?, binding.kind.Holds content) →
      Takes context param (.optional content?)

/-- The request with the argument stored, unless it is the context or absent. -/
def store (param : RouteParam) (argument : Value) (request : Request) : Option Request :=
  match param.role, argument with
  | .context, _ => some request
  | .extra binding, .content content => binding.kind.put binding.key content request
  | .extra binding, .optional (some content) => binding.kind.put binding.key content request
  | .extra _, .optional none => some request
  | .extra _, _ => none

end RouteParam

/-- The arguments are those of a call of a method with the given parameters, one for each. -/
inductive TakesAll (context : Context) : List RouteParam → List Value → Prop where
  /-- No parameters. -/
  | nil : TakesAll context [] []
  /-- A parameter in front of others. -/
  | cons {param : RouteParam} {argument : Value} {params : List RouteParam}
      {arguments : List Value} : param.Takes context argument →
      TakesAll context params arguments →
      TakesAll context (param :: params) (argument :: arguments)

/-- The request with the arguments stored one after another. -/
def storeAll : List RouteParam → List Value → Request → Option Request
  | param :: params, argument :: arguments, request =>
    (param.store argument request).bind (storeAll params arguments)
  | [], [], request => some request
  | _, _, _ => none

/-- The route has one context, the parameter that it names, and in generated source its parameters
have different names that variables may have. -/
structure Route.IsCallable (route : Route) : Prop where
  context : (route.params.filter fun param => param.role = .context).map RouteParam.name =
    [route.context]
  legal : ∀ param ∈ route.params, isLegal param.emittedName = true
  distinct : (route.params.map RouteParam.emittedName).Nodup

variable {context : Context} {request : Request}

theorem origin_store {param : RouteParam} {argument : Value} {changed : Request}
    (h : param.store argument request = some changed) :
    changed.origin = request.origin ∧ changed.destination = request.destination := by
  rw [RouteParam.store.eq_def] at h
  split at h
  · cases h
    exact ⟨rfl, rfl⟩
  · exact ExtraKind.origin_put h
  · exact ExtraKind.origin_put h
  · cases h
    exact ⟨rfl, rfl⟩
  · cases h

theorem origin_storeAll {params : List RouteParam} {arguments : List Value} {changed : Request}
    (h : storeAll params arguments request = some changed) :
    changed.origin = request.origin ∧ changed.destination = request.destination := by
  induction params generalizing arguments request with
  | nil =>
    cases arguments with
    | nil =>
      cases h
      exact ⟨rfl, rfl⟩
    | cons _ _ => cases h
  | cons param params ih =>
    cases arguments with
    | nil => cases h
    | cons argument arguments =>
      rw [storeAll] at h
      obtain ⟨middle, hfirst, hrest⟩ := Option.bind_eq_some_iff.1 h
      have hmiddle := origin_store hfirst
      have hchanged := ih hrest
      exact ⟨hchanged.1.trans hmiddle.1, hchanged.2.trans hmiddle.2⟩

/-! ### Running the stores -/

section Running

variable {name : String} {param : RouteParam} {binding : Binding} {argument : Value}
  {scope : List Variable}

/-- What is left of a scope in which the request `name` was changed by the argument of `param`. -/
structure Advances (name : String) (param : RouteParam) (changed : Request)
    (scope later : List Variable) : Prop where
  request : lookup name later = some ⟨name, true, some (.request changed)⟩
  others : ∀ m, m ≠ name → m ≠ param.emittedName → value? m later = value? m scope

theorem advances_update {changed : Request} (hname : name ≠ param.emittedName)
    (hrequest : lookup name scope = some ⟨name, true, some (.request request)⟩) :
    Advances name param changed scope
      (update name (some (.request changed)) (update param.emittedName none scope)) where
  request := lookup_update_self ((lookup_update_of_ne hname).trans hrequest)
  others m hm hm' := by
    rw [value?_update_of_ne hm, value?_update_of_ne hm']

/-- **The statement of an extra stores its argument**, if there is one, and leaves the other
variables alone. -/
theorem exec_statementOf (hrole : param.role = .extra binding)
    (hargument : param.Takes context argument) (hname : name ≠ param.emittedName)
    (hvalue : value? param.emittedName scope = some argument)
    (hrequest : lookup name scope = some ⟨name, true, some (.request request)⟩) :
    ∃ changed later, param.store argument request = some changed ∧
      (Route.statementOf name param binding).exec scope = some later ∧
      Advances name param changed scope later := by
  -- The form of the argument is that of the statement: a call, or a guard around one.
  cases hargument with
  | context hcontext => exact absurd (hcontext.symm.trans hrole) (by simp)
  | @content binding' content hrole' hnullable hholds =>
    obtain rfl : binding = binding' := by
      rw [hrole] at hrole'
      exact Role.extra.inj hrole'
    obtain ⟨changed, hput⟩ := ExtraKind.exists_put_eq_some hholds binding.key request
    have hperform := ExtraKind.perform_storeOperation.trans hput
    refine ⟨changed, _, ?_, ?_, advances_update hname hrequest⟩
    · simp only [RouteParam.store, hrole, hput]
    · rw [Route.statementOf, hnullable, if_neg Bool.false_ne_true, Statement.exec]
      have hcall : (Route.callOf name param binding).exec scope = _ :=
        Call.exec_eq hrequest hvalue hperform
      exact hcall
  | @optional binding' content? hrole' hnullable hholds =>
    obtain rfl : binding = binding' := by
      rw [hrole] at hrole'
      exact Role.extra.inj hrole'
    rw [Route.statementOf, hnullable, if_pos rfl]
    cases content? with
    | none =>
      -- Nothing is stored, but the variable of the parameter is spent all the same.
      refine ⟨request, _, ?_, Statement.exec_guarded_none hvalue, ?_, ?_⟩
      · simp only [RouteParam.store, hrole]
      · exact (lookup_update_of_ne hname).trans hrequest
      · exact fun m _ hm => value?_update_of_ne hm
    | some content =>
      obtain ⟨changed, hput⟩ :=
        ExtraKind.exists_put_eq_some (hholds content rfl) binding.key request
      have hperform := ExtraKind.perform_storeOperation.trans hput
      refine ⟨changed, _, ?_, ?_, advances_update hname hrequest⟩
      · simp only [RouteParam.store, hrole, hput]
      · have hguard : (Statement.guarded (Route.callOf name param binding).argument
            param.emittedName (Route.callOf name param binding)).exec scope = _ :=
          Statement.exec_guarded_some hname hname hrequest hvalue hperform
        exact hguard

/-- The statements that store the extras among the parameters. -/
def statementsOf (name : String) (params : List RouteParam) : List Statement :=
  params.flatMap fun param =>
    match param.role with
    | .context => []
    | .extra binding => [Route.statementOf name param binding]

/-- The parameters have the values of the arguments. -/
def Bound (scope : List Variable) (params : List RouteParam) (arguments : List Value) : Prop :=
  ∀ pair ∈ params.zip arguments, value? pair.1.emittedName scope = some pair.2

theorem Advances.bound {changed : Request} {later : List Variable} {params : List RouteParam}
    {arguments : List Value} (h : Advances name param changed scope later)
    (hname : ∀ other ∈ params, name ≠ other.emittedName)
    (hdistinct : ∀ other ∈ params, param.emittedName ≠ other.emittedName)
    (hbound : Bound scope params arguments) : Bound later params arguments := by
  intro pair hpair
  have hmem : pair.1 ∈ params := (List.of_mem_zip hpair).1
  rw [h.others _ (hname _ hmem).symm (hdistinct _ hmem).symm]
  exact hbound pair hpair

/-- **The statements of the extras store the arguments** in the order of the parameters. -/
theorem execAll_statementsOf {mutable : Bool} {params : List RouteParam} {arguments : List Value}
    (harguments : TakesAll context params arguments)
    (hname : ∀ param ∈ params, name ≠ param.emittedName)
    (hdistinct : (params.map RouteParam.emittedName).Nodup)
    (hmutable : ∀ param ∈ params, param.role ≠ .context → mutable = true)
    (hbound : Bound scope params arguments)
    (hrequest : lookup name scope = some ⟨name, mutable, some (.request request)⟩) :
    ∃ changed later, storeAll params arguments request = some changed ∧
      execAll (statementsOf name params) scope = some later ∧
      lookup name later = some ⟨name, mutable, some (.request changed)⟩ := by
  -- A statement touches the request and the variable of its own parameter only, so what is
  -- bound for the parameters behind it stays bound.
  induction harguments generalizing scope request with
  | nil => exact ⟨request, scope, rfl, rfl, hrequest⟩
  | @cons param argument params arguments hargument _ ih =>
    rw [List.forall_mem_cons] at hname hmutable
    rw [List.map_cons, List.nodup_cons] at hdistinct
    have hvalue := hbound (param, argument) (List.mem_cons_self ..)
    have hrest : Bound scope params arguments :=
      fun pair hpair => hbound pair (List.mem_cons_of_mem _ hpair)
    cases hrole : param.role with
    | context =>
      obtain ⟨changed, later, hstore, hexec, hlater⟩ :=
        ih hname.2 hdistinct.2 hmutable.2 hrest hrequest
      refine ⟨changed, later, ?_, ?_, hlater⟩
      · simp only [storeAll, RouteParam.store, hrole, Option.bind_some, hstore]
      · rw [statementsOf, List.flatMap_cons, hrole, List.nil_append]
        exact hexec
    | extra binding =>
      -- There is an extra to store, so the request was bound as a variable that may change.
      obtain rfl : mutable = true := hmutable.1 (by rw [hrole]; simp)
      obtain ⟨middle, next, hfirst, hstep, hadvances⟩ :=
        exec_statementOf hrole hargument hname.1 hvalue hrequest
      have hne : ∀ other ∈ params, param.emittedName ≠ other.emittedName := by
        intro other hother heq
        exact hdistinct.1 (heq ▸ List.mem_map_of_mem hother)
      obtain ⟨changed, later, hstore, hexec, hlater⟩ :=
        ih hname.2 hdistinct.2 hmutable.2 (hadvances.bound hname.2 hne hrest) hadvances.request
      refine ⟨changed, later, ?_, ?_, hlater⟩
      · rw [storeAll, hfirst, Option.bind_some, hstore]
      · rw [statementsOf, List.flatMap_cons, hrole, List.singleton_append, execAll, hstep,
          Option.bind_some]
        exact hexec

end Running

/-! ### Calls -/

/-- Parameters that are bound one after another have their arguments. -/
theorem bound_zipWith {params : List RouteParam} (arguments : List Value)
    (hdistinct : (params.map RouteParam.emittedName).Nodup) :
    Bound (List.zipWith (fun name value => ⟨name, false, some value⟩)
      (params.map RouteParam.emittedName) arguments) params arguments := by
  induction params generalizing arguments with
  | nil =>
    intro pair hpair
    cases hpair
  | cons param params ih =>
    rw [List.map_cons, List.nodup_cons] at hdistinct
    cases arguments with
    | nil =>
      intro pair hpair
      cases hpair
    | cons argument arguments =>
      intro pair hpair
      rw [List.zip_cons_cons, List.mem_cons] at hpair
      rw [List.map_cons, List.zipWith_cons_cons, value?]
      rcases hpair with rfl | hpair
      · rw [lookup_cons_self]
        rfl
      · -- The name of the first parameter hides none of those behind it.
        have hne : param.emittedName ≠ pair.1.emittedName := fun heq =>
          hdistinct.1 (heq ▸ List.mem_map_of_mem (List.of_mem_zip hpair).1)
        rw [lookup_cons_of_ne hne]
        exact ih arguments hdistinct.2 pair hpair

namespace Route

variable {route : Route} {destination : ClassName} {arguments : List Value}

theorem map_statementOf_extras : (route.extras.map fun extra =>
    statementOf route.requestName extra.1 extra.2) =
      statementsOf route.requestName route.params := by
  rw [extras, statementsOf, List.map_filterMap]
  induction route.params with
  | nil => rfl
  | cons param params ih =>
    rw [List.filterMap_cons, List.flatMap_cons, ← ih, RouteParam.binding?]
    cases param.role <;> rfl

theorem length_eq_of_takesAll {params : List RouteParam} (h : TakesAll context params arguments) :
    params.length = arguments.length := by
  induction h with
  | nil => rfl
  | cons _ _ ih => rw [List.length_cons, List.length_cons, ih]

theorem exists_mem_zip {params : List RouteParam} (h : TakesAll context params arguments)
    {param : RouteParam} (hparam : param ∈ params) :
    ∃ argument, (param, argument) ∈ params.zip arguments ∧ param.Takes context argument := by
  induction h with
  | nil => cases hparam
  | @cons first argument params arguments hfirst _ ih =>
    rw [List.zip_cons_cons]
    rcases List.mem_cons.1 hparam with rfl | hrest
    · exact ⟨argument, List.mem_cons_self .., hfirst⟩
    · obtain ⟨other, hmem, htakes⟩ := ih hrest
      exact ⟨other, List.mem_cons_of_mem _ hmem, htakes⟩

/-- The context that the route names is one of its parameters. -/
theorem IsCallable.exists_context (h : route.IsCallable) :
    ∃ param ∈ route.params, param.role = .context ∧ param.name = route.context := by
  have hmem : route.context ∈
      (route.params.filter fun param => param.role = .context).map RouteParam.name := by
    rw [h.context]
    exact List.mem_singleton.2 rfl
  obtain ⟨param, hfilter, hname⟩ := List.mem_map.1 hmem
  obtain ⟨hparam, hrole⟩ := List.mem_filter.1 hfilter
  exact ⟨param, hparam, of_decide_eq_true hrole, hname⟩

/-- The argument of the context parameter is the context. -/
theorem value?_context {scope : List Variable} (h : route.IsCallable)
    (harguments : TakesAll context route.params arguments)
    (hbound : Bound scope route.params arguments) :
    value? (RequestRouter.emittedName route.context) scope = some (.context context) := by
  obtain ⟨param, hparam, hrole, hname⟩ := h.exists_context
  obtain ⟨argument, hzip, htakes⟩ := exists_mem_zip harguments hparam
  have hvalue := hbound _ hzip
  rw [RouteParam.emittedName, hname] at hvalue
  cases htakes with
  | context _ => exact hvalue
  | content hextra _ _ => exact absurd (hrole.symm.trans hextra) (by simp)
  | optional hextra _ _ => exact absurd (hrole.symm.trans hextra) (by simp)

/-- The statement of an extra uses names that variables may have. -/
theorem isLegal_statementOf {name : String} {param : RouteParam} {binding : Binding}
    (hname : isLegal name = true) (hparam : isLegal param.emittedName = true) :
    (statementOf name param binding).IsLegal := by
  have hcall : (callOf name param binding).IsLegal :=
    ⟨hname, isLegal_storeOperation _, hparam⟩
  rw [statementOf]
  split
  · exact ⟨hparam, hparam, hcall⟩
  · exact hcall

theorem isLegal_context (h : route.IsCallable) :
    isLegal (RequestRouter.emittedName route.context) = true := by
  obtain ⟨param, hparam, -, hname⟩ := h.exists_context
  rw [← hname]
  exact h.legal param hparam

/-- The statements of a body use names that variables may have, if the parameters do. -/
theorem isLegal_of_mem_blockOf
    (hcontext : isLegal (RequestRouter.emittedName route.context) = true)
    (hlegal : ∀ param ∈ route.params, isLegal param.emittedName = true) :
    ∀ statement ∈ (route.blockOf destination).statements, statement.IsLegal := by
  rw [blockOf, List.forall_mem_cons]
  refine ⟨⟨isLegal_requestName, hcontext⟩, fun statement hstatement => ?_⟩
  obtain ⟨extra, hextra, rfl⟩ := List.mem_map.1 hstatement
  exact isLegal_statementOf isLegal_requestName (hlegal _ (mem_params_of_mem_extras hextra))

/-- The body of a method is read back from its pieces. -/
theorem readBlock_blockOf (h : route.IsCallable) :
    readBlock (route.blockOf destination).pieces = some (route.blockOf destination) :=
  readBlock_pieces (isLegal_of_mem_blockOf (isLegal_context h) h.legal) isLegal_requestName

/-- Where there is an extra, the request may change. -/
theorem extras_ne_nil {param : RouteParam} (hparam : param ∈ route.params)
    (hrole : param.role ≠ .context) : (!route.extras.isEmpty) = true := by
  cases hbinding : param.role with
  | context => exact absurd hbinding hrole
  | extra binding =>
    have hmem := mem_extras_of_role hparam hbinding
    cases hextras : route.extras with
    | nil =>
      rw [hextras] at hmem
      cases hmem
    | cons _ _ => rfl

/-- **The body of a method stores the arguments of a call.** -/
theorem run_blockOf {scope : List Variable} (h : route.IsCallable)
    (harguments : TakesAll context route.params arguments)
    (hbound : Bound scope route.params arguments) :
    ∃ request, (route.blockOf destination).run scope = some request ∧
      storeAll route.params arguments (Request.create context destination) = some request := by
  have hname : ∀ param ∈ route.params, route.requestName ≠ param.emittedName :=
    fun param hparam => requestName_ne hparam
  have hcreate : (Statement.create (!route.extras.isEmpty) route.requestName
      (RequestRouter.emittedName route.context) destination).exec scope =
        some (⟨route.requestName, !route.extras.isEmpty,
          some (.request (Request.create context destination))⟩ :: scope) := by
    rw [Statement.exec, value?_context h harguments hbound]
  -- The new variable has a name of its own, so it hides no parameter.
  have hinside : Bound (⟨route.requestName, !route.extras.isEmpty,
      some (.request (Request.create context destination))⟩ :: scope) route.params arguments := by
    intro pair hpair
    rw [value?, lookup_cons_of_ne (hname _ (List.of_mem_zip hpair).1)]
    exact hbound pair hpair
  obtain ⟨request, later, hstore, hexec, hlater⟩ := execAll_statementsOf harguments hname h.distinct
    (fun param hparam hrole => extras_ne_nil hparam hrole) hinside lookup_cons_self
  refine ⟨request, ?_, hstore⟩
  rw [Block.run, blockOf, map_statementOf_extras, execAll, hcreate, Option.bind_some, hexec,
    Option.bind_some, value?, hlater]
  rfl

/-- **A generated method does what its route says.** -/
theorem call_methodOf (h : route.IsCallable)
    (harguments : TakesAll context route.params arguments) :
    ∃ request, (route.methodOf destination).call arguments = some request ∧
      storeAll route.params arguments (Request.create context destination) = some request := by
  have hnames : (route.methodOf destination).signature.params.map Prod.fst =
      route.params.map RouteParam.emittedName := by
    rw [methodOf, syntaxOf, List.map_map]
    rfl
  have hlegal : (route.params.map RouteParam.emittedName).all isLegal = true := by
    rw [List.all_map, List.all_eq_true]
    exact h.legal
  have hlength : (route.params.map RouteParam.emittedName).length = arguments.length := by
    rw [List.length_map, length_eq_of_takesAll harguments]
  obtain ⟨request, hrun, hstore⟩ :=
    run_blockOf h harguments (bound_zipWith arguments h.distinct)
  refine ⟨request, ?_, hstore⟩
  rw [Rust.Method.call, hnames]
  simp only [if_pos (And.intro hlegal (And.intro h.distinct hlength)), methodOf,
    readBlock_blockOf h, Option.bind_some, hrun]

end Route

/-! ### Generated files -/

/-- The trait, if the item is one. -/
def Rust.Item.trait? : Item → Option (String × List Signature)
  | .trait name signatures => some (name, signatures)
  | _ => none

/-- The implementation, if the item is one. -/
def Rust.Item.impl? : Item → Option (String × String × List Rust.Method)
  | .impl name target methods => some (name, target, methods)
  | _ => none

/-- The signature is that of the route. -/
structure Route.Signed (route : Route) (signature : Signature) : Prop where
  name : signature.name = RequestRouter.emittedName route.name
  params : signature.params.map Prod.fst = route.params.map RouteParam.emittedName
  types : signature.params.map (fun param => some param.2) =
    route.params.map fun param => lex param.emittedType

theorem Route.HasNames.signed {route : Route} (h : route.HasNames) :
    route.Signed route.syntaxOf where
  name := rfl
  params := by
    rw [syntaxOf, List.map_map]
    rfl
  types := by
    rw [syntaxOf, List.map_map]
    refine List.map_congr_left fun param hparam => ?_
    obtain ⟨pieces, hscan, -⟩ := (h.params param hparam).exists_scansBefore
    rw [hscan.lex_eq, Function.comp_apply, RouteParam.syntaxOf, hscan.piecesOf_eq]

/-- Calls of the method return what the route says: a request from the context to the destination,
with the arguments stored one after another. -/
def Route.IsDoneBy (route : Route) (destination : ClassName) (method : Rust.Method) : Prop :=
  ∀ (context : Context) (arguments : List Value), TakesAll context route.params arguments →
    ∃ request, method.call arguments = some request ∧ request.origin = context.package ∧
      request.destination = destination ∧
      storeAll route.params arguments (Request.create context destination) = some request

theorem Route.isDoneBy_methodOf {route : Route} {destination : ClassName} (h : route.IsCallable) :
    route.IsDoneBy destination (route.methodOf destination) := by
  intro context arguments harguments
  obtain ⟨request, hcall, hstore⟩ := Route.call_methodOf h harguments
  have horigin := origin_storeAll hstore
  exact ⟨request, hcall, horigin.1, horigin.2, hstore⟩

namespace Router

variable {router : Router}

/-- Above the trait there are attributes and imports. -/
theorem eq_of_mem_preambleItems {item : Item} (h : item ∈ router.preambleItems) :
    ∃ pieces, item = .mark pieces ∨ item = .use pieces := by
  rw [preambleItems, List.mem_append, List.mem_cons, List.mem_singleton, List.mem_flatMap] at h
  rcases h with (rfl | rfl) | ⟨imported, _, hitem⟩
  · exact ⟨_, .inl rfl⟩
  · exact ⟨_, .inr rfl⟩
  · rw [importItems, List.mem_cons, List.mem_singleton] at hitem
    rcases hitem with rfl | rfl
    · exact ⟨_, .inl rfl⟩
    · exact ⟨_, .inr rfl⟩

theorem filterMap_preambleItems {α : Type} {f : Item → Option α} (hmark : ∀ l, f (.mark l) = none)
    (huse : ∀ l, f (.use l) = none) : router.preambleItems.filterMap f = [] := by
  rw [List.filterMap_eq_nil_iff]
  intro item hitem
  obtain ⟨pieces, rfl | rfl⟩ := eq_of_mem_preambleItems hitem
  · exact hmark _
  · exact huse _

theorem filterMap_trait?_itemsOf : router.itemsOf.filterMap Item.trait? =
    [(router.name, router.routes.map Route.syntaxOf)] := by
  have hpreamble : router.preambleItems.filterMap Item.trait? = [] :=
    filterMap_preambleItems (fun _ => rfl) fun _ => rfl
  rw [itemsOf, List.filterMap_append, List.filterMap_append, List.filterMap_append, hpreamble]
  rfl

theorem filterMap_impl?_itemsOf : router.itemsOf.filterMap Item.impl? =
    [(router.name, router.utilName,
      router.routes.map fun route => route.methodOf router.destination)] := by
  have hpreamble : router.preambleItems.filterMap Item.impl? = [] :=
    filterMap_preambleItems (fun _ => rfl) fun _ => rfl
  rw [itemsOf, List.filterMap_append, List.filterMap_append, List.filterMap_append, hpreamble]
  rfl

/-- **Generated routers do what their declaration says.** The source of a router whose names are
names is read as items, among them one trait and one implementation of it. Both have the same
signatures: one for each route, in order. The body of each method is what the lines of the route
are read as, and a call of the method with arguments that its route takes returns a request from
the context to the destination of the router, with the arguments stored one after another. -/
theorem emit_meaning (h : router.HasNames) :
    ∃ (items : List Item) (methods : List Rust.Method), Rust.read router.emit.source = some items ∧
      items.filterMap Item.trait? = [(router.name, methods.map Rust.Method.signature)] ∧
      items.filterMap Item.impl? = [(router.name, router.utilName, methods)] ∧
      methods.length = router.routes.length ∧
      ∀ (i : Nat) (route : Route), router.routes[i]? = some route →
        ∃ method, methods[i]? = some method ∧ route.Signed method.signature ∧
          lex (unlines (route.body router.destination)) = some method.body ∧
          (route.IsCallable → route.IsDoneBy router.destination method) := by
  refine ⟨_, router.routes.map fun route => route.methodOf router.destination, read_emit h, ?_,
    filterMap_impl?_itemsOf, List.length_map .., fun i route hroute => ?_⟩
  · rw [filterMap_trait?_itemsOf, List.map_map]
    rfl
  · have hnames := h.routes route (List.mem_of_getElem? hroute)
    refine ⟨route.methodOf router.destination, ?_, hnames.signed,
      (Route.writes_body hnames).lex_unlines_eq, Route.isDoneBy_methodOf⟩
    rw [List.getElem?_map, hroute, Option.map_some]

/-- A route with a parameter named like the request, one named by a keyword, and a key that has
quotes in it. -/
def orderRoute : Route :=
  { name := "order"
    context := "context"
    params :=
      [ ⟨"context", .named "Context", .context⟩,
        ⟨"request", .named "String", .extra ⟨.scalar, "the \"first\" key"⟩⟩,
        ⟨"type", ⟨"Vec", [.named "i32"], true⟩, .extra ⟨.integerList, "numbers"⟩⟩ ] }

/-- A router with that route. -/
def orderRouter : Router :=
  ⟨"Orders", "shop", ["shop::data::Item"], ⟨"shop", "Target"⟩, [orderRoute]⟩

theorem hasNames_orderRoute : orderRoute.HasNames where
  name := by decide
  context := by decide
  params := by
    have hinteger : (TypeRef.named "i32").HasPaths := ⟨.name (by decide), trivial⟩
    have hcontext : RouteParam.HasNames ⟨"context", .named "Context", .context⟩ :=
      ⟨by decide, fun h => absurd rfl h⟩
    have hrequest : isIdentifier "request" = true := by decide
    have htext {binding : Binding} :
        RouteParam.HasNames ⟨"request", .named "String", .extra binding⟩ :=
      ⟨hrequest, fun _ => ⟨.name (by decide), trivial⟩⟩
    have htype : isIdentifier "type" = true := by decide
    have hlist {binding : Binding} :
        RouteParam.HasNames ⟨"type", ⟨"Vec", [.named "i32"], true⟩, .extra binding⟩ :=
      ⟨htype, fun _ => ⟨.name (by decide), hinteger, trivial⟩⟩
    simp [orderRoute, hcontext, htext, hlist]

theorem hasNames_orderRouter : orderRouter.HasNames where
  name := by decide
  package := .inr (.name (by decide))
  imports := by
    have himport : "shop::data::Item" =
        "shop" ++ Text.separator ++ ("data" ++ Text.separator ++ "Item") := by decide
    have hpath : IsPath "shop::data::Item" := by
      rw [himport]
      exact .join (by decide) (.join (by decide) (.name (by decide)))
    simp [orderRouter, hpath]
  routes := by simp [orderRouter, hasNames_orderRoute]

/-- A call without the list: the text is stored, and nothing is for the list. -/
theorem emit_meaning_orderRouter : orderRouter.HasNames ∧ orderRoute.IsCallable ∧
    ∃ (items : List Item) (methods : List Rust.Method) (method : Rust.Method) (request : Request),
      Rust.read orderRouter.emit.source = some items ∧
      items.filterMap Item.impl? = [("Orders", "OrdersUtil", methods)] ∧
      methods[0]? = some method ∧
      method.call [.context ⟨"app"⟩, .content (.value (.string "tea")), .optional none] =
        some request ∧
      request.origin = "app" ∧ request.destination = ⟨"shop", "Target"⟩ ∧
      request.extra? "the \"first\" key" = some (.scalar (.string "tea")) ∧
      request.extra? "numbers" = none ∧ request.extraCount = 1 := by
  have hnames : orderRouter.HasNames := hasNames_orderRouter
  have hcallable : orderRoute.IsCallable := ⟨by decide, by decide, by decide⟩
  have harguments : TakesAll ⟨"app"⟩ orderRoute.params
      [.context ⟨"app"⟩, .content (.value (.string "tea")), .optional none] :=
    .cons (.context rfl) (.cons (.content rfl rfl trivial) (.cons (.optional rfl rfl nofun) .nil))
  obtain ⟨items, methods, hread, -, himpl, -, hroutes⟩ := emit_meaning hnames
  obtain ⟨method, hmethod, -, -, hdone⟩ := hroutes 0 orderRoute rfl
  obtain ⟨request, hcall, horigin, hdestination, hstore⟩ := hdone hcallable _ _ harguments
  obtain rfl : (Request.create ⟨"app"⟩ ⟨"shop", "Target"⟩).putValue "the \"first\" key"
      (.string "tea") = request := Option.some.inj hstore
  exact ⟨hnames, hcallable, items, methods, method, _, hread, himpl, hmethod, hcall, horigin,
    hdestination, rfl, rfl, rfl⟩

end Router

end RequestRouter
