import RequestRouter.Router.ExtraKind

/-!
# Why a router cannot be built

The faults of processing declarations. Some are faults of a declaration, which its
author can mend (`RequestRouter.Fault.isValidation`); the others concern the surroundings:
a name that cannot be resolved, a file that cannot be stored, a session that was not
started. `RequestRouter.Fault.message` words them.
-/

namespace RequestRouter

/-- Why processing a declaration fails. -/
inductive Fault where
  /-- A file cannot be written; the cause is the system's. -/
  | storage (cause : String)
  /-- The marked element is no interface, or an interface with properties. -/
  | notInterface (element : String)
  /-- The method has no context parameter. -/
  | missingContext (method : String)
  /-- The parameter of the method is neither its context nor marked as an extra. -/
  | missingBinding (method parameter : String)
  /-- The method returns `found` and not a request. -/
  | wrongReturn (method found : String)
  /-- Nothing is known of the name. -/
  | unresolved (name : String)
  /-- The session was started before. -/
  | alreadyInitialized
  /-- The session was not started. -/
  | notInitialized
  /-- The element lacks the marker of routers. -/
  | unmarked (element : String)
  /-- The marker of the element does not have one path as its argument. -/
  | noDestination (element : String)
  /-- The mark of the kind on the parameter does not have one string as its argument. -/
  | noKey (kind : ExtraKind) (parameter : String)
  /-- A file of the name was stored before in the same package. -/
  | recreated (name : String)
  /-- The surroundings refuse, with words of their own. -/
  | refused (cause : String)
deriving DecidableEq

/-- The name of the marker of routers. -/
def routerMark : String := "Intention"

namespace Fault

/-- Whether the fault lies in a declaration. -/
def isValidation : Fault → Bool
  | .notInterface _ => true
  | .missingContext _ => true
  | .missingBinding _ _ => true
  | .wrongReturn _ _ => true
  | _ => false

/-- The fault in words. -/
def message : Fault → String
  | .storage cause => "I/O error: " ++ cause
  | .notInterface _ => "marker only works on interfaces"
  | .missingContext _ => "context parameter must not be null"
  | .missingBinding _ _ => "parameter must carry an extra-binding annotation"
  | .wrongReturn _ found => "routing method must return Request, found " ++ found
  | .unresolved name => "Cannot resolve type " ++ name
  | .alreadyInitialized => "Processor is already initialized"
  | .notInitialized => "Processor used before init"
  | .unmarked element => element ++ " is not marked with @" ++ routerMark
  | .noDestination element => "@" ++ routerMark ++ " on " ++ element ++ " needs a destination type"
  | .noKey kind parameter =>
    "@" ++ kind.markName ++ " on " ++ parameter ++ " needs a single string key"
  | .recreated name => "Attempt to recreate a file for type " ++ name
  | .refused cause => cause

end Fault

end RequestRouter
