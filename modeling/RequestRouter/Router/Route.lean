import RequestRouter.Declaration.SourceFile
import RequestRouter.Router.Fault
import RequestRouter.Router.ValueType

/-!
# Routes

A routing method that passed its checks: its context parameter is known, and every
other parameter is bound to a kind of extra and a key. `RequestRouter.Method.route` checks
a method. It looks at every parameter and at the type of the result whatever it finds,
so that all faults of a method are known at once: those of the parameters in their
order, then a missing context, then the result.
-/

namespace RequestRouter

/-- The extra that a parameter is stored as. -/
structure Binding where
  /-- How it is stored. -/
  kind : ExtraKind
  /-- The key that it is stored under. -/
  key : String
deriving DecidableEq, Repr

/-- What a parameter of a route is for. -/
inductive Role where
  /-- The context that the request comes from. -/
  | context
  /-- An extra of the request. -/
  | extra (binding : Binding)
deriving DecidableEq

/-- A parameter of a route. -/
structure RouteParam where
  /-- The name. -/
  name : String
  /-- The type, with boxed types in their value form. -/
  type : TypeRef
  /-- What it is for. -/
  role : Role

/-- The extra that the parameter is stored as, if it is one. -/
def RouteParam.binding? (param : RouteParam) : Option Binding :=
  match param.role with
  | .context => none
  | .extra binding => some binding

/-- A checked routing method. -/
structure Route where
  /-- The name. -/
  name : String
  /-- The name of the context parameter. -/
  context : String
  /-- The parameters, the context among them. -/
  params : List RouteParam

/-- The parameters that are extras, with their bindings. -/
def Route.extras (route : Route) : List (RouteParam × Binding) :=
  route.params.filterMap fun param => param.binding?.map fun binding => (param, binding)

/-! ### Checking a method -/

/-- The first kind in order of priority that a mark of the parameter chooses, with the
first such mark. -/
def Param.extraMark? (param : Param) : Option (ExtraKind × Mark) :=
  ExtraKind.all.findSome? fun kind =>
    (findMark? kind.markName param.marks).map fun mark => (kind, mark)

/-- The extra that the parameter of the named method is stored as. -/
def Param.binding (method : String) (param : Param) : Except Fault Binding :=
  match param.extraMark? with
  | none => .error (.missingBinding method param.name)
  | some (kind, mark) =>
    match mark.text? with
    | some key => .ok ⟨kind, key⟩
    | none => .error (.noKey kind param.name)

/-- Whether the parameter can be a context. -/
def Param.isContext (param : Param) : Bool := param.declaredType.isContext

/-- The parameter in the given role. -/
def Param.inRole (param : Param) (role : Role) : RouteParam :=
  ⟨param.name, param.declaredType.normalize, role⟩

/-- The parameter as an extra of the named method. -/
def Param.asExtra (method : String) (param : Param) : Except Fault RouteParam :=
  (param.binding method).map fun binding => param.inRole (.extra binding)

/-- What becomes of the parameters of the named method: the first that can be a context
is the context, unless one was found before, and all others are extras. -/
def checkParams (method : String) : (found : Bool) → List Param → List (Except Fault RouteParam)
  | _, [] => []
  | found, param :: rest =>
    if !found && param.isContext then
      .ok (param.inRole .context) :: checkParams method true rest
    else param.asExtra method :: checkParams method found rest

/-- The fault, if the check failed. -/
def fault? {α : Type} : Except Fault α → Option Fault
  | .ok _ => none
  | .error fault => some fault

/-- The result, if the check passed. -/
def result? {α : Type} : Except Fault α → Option α
  | .ok a => some a
  | .error _ => none

namespace Method

/-- The type of the result in messages. -/
def returnText (method : Method) : String :=
  match method.returnType with
  | none => "()"
  | some type => type.display

/-- Checks that the method returns a request. -/
def checkReturn (method : Method) : Except Fault Unit :=
  if method.returnType.any TypeRef.isRequest then .ok ()
  else .error (.wrongReturn method.name method.returnText)

/-- The parameter that is the context. -/
def context? (method : Method) : Option Param := method.params.find? Param.isContext

/-- What becomes of the parameters. -/
def checkedParams (method : Method) : List (Except Fault RouteParam) :=
  checkParams method.name false method.params

/-- Every fault of the method. -/
def faults (method : Method) : List Fault :=
  method.checkedParams.filterMap fault?
    ++ (if method.context?.isSome then [] else [.missingContext method.name])
    ++ (fault? method.checkReturn).toList

/-- The route of the method, or all its faults. -/
def route (method : Method) : Except (List Fault) Route :=
  match method.context? with
  | some context =>
    if method.faults.isEmpty then
      .ok ⟨method.name, context.name, method.checkedParams.filterMap result?⟩
    else .error method.faults
  | none => .error method.faults

end Method

end RequestRouter
