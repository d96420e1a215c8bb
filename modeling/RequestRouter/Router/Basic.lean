import RequestRouter.Router.Lookup
import RequestRouter.Router.Route

/-!
# Routers

A router is an interface that passed every check: it has no properties, its marker
names a destination that resolves, and each of its methods is a route.
`RequestRouter.Element.router` makes the checks in this order. The first two stop it with
one fault; the methods are all checked, so their faults come together.
-/

namespace RequestRouter

/-- A checked routing interface. -/
structure Router where
  /-- The name of the interface. -/
  name : String
  /-- The package of the interface. -/
  package : String
  /-- The imports of its file. -/
  imports : List String
  /-- The type that its requests go to. -/
  destination : ClassName
  /-- Its methods. -/
  routes : List Route

/-- Checks that the element is an interface without properties. -/
def Element.checkInterface (element : Element) : Except Fault Unit :=
  if element.kind = .interfaceType && element.fields.isEmpty then .ok ()
  else .error (.notInterface element.qualifiedName)

/-- The routes of methods, or all faults of all of them. -/
def routesOf : List Method → Except (List Fault) (List Route)
  | [] => .ok []
  | method :: rest =>
    match method.route, routesOf rest with
    | .ok route, .ok routes => .ok (route :: routes)
    | .ok _, .error faults => .error faults
    | .error faults, .ok _ => .error faults
    | .error faults, .error others => .error (faults ++ others)

/-- A single fault as a list of faults. -/
def single {α : Type} (check : Except Fault α) : Except (List Fault) α :=
  check.mapError fun fault => [fault]

@[simp] theorem single_ok {α : Type} (a : α) : single (.ok a) = .ok a := rfl

@[simp] theorem single_error {α : Type} (fault : Fault) :
    single (.error fault : Except Fault α) = .error [fault] := rfl

/-- The router that the element declares, or why it declares none. -/
def Element.router (host : Host) (element : Element) : Except (List Fault) Router := do
  single element.checkInterface
  let destination ← single (element.destination host)
  let routes ← routesOf element.methods
  .ok
    { name := element.name
      package := host.packageOf element
      imports := element.imports
      destination := destination
      routes := routes }

end RequestRouter
