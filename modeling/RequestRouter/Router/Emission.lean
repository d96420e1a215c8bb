import RequestRouter.Router.Basic
import RequestRouter.Text.Literal

/-!
# Generated source

The Rust source of a router: a trait with the methods of the interface, a unit type
named after it, and the implementation of the trait for that type. Each method builds
a request to the destination of the router, stores its extras in the order of its
parameters, and returns the request. An extra whose value may be absent is stored only
where there is a value.

Names that the language reserves get an underscore at the end, in signatures and bodies
alike; the request gets underscores until its name differs from every parameter
(`RequestRouter.freshName`), so that no parameter hides it.
-/

namespace RequestRouter

/-- A generated source file. -/
structure EmittedFile where
  /-- The package that it belongs to. -/
  package : String
  /-- The name of the type that it defines. -/
  name : String
  /-- The source. -/
  source : String
deriving DecidableEq

/-! ### Names -/

/-- The words that cannot be names. -/
def reservedWords : List String :=
  [ "as", "async", "await", "break", "const", "continue", "crate", "dyn", "else", "enum",
    "extern", "false", "fn", "for", "if", "impl", "in", "let", "loop", "match", "mod", "move",
    "mut", "pub", "ref", "return", "self", "Self", "static", "struct", "super", "trait", "true",
    "type", "unsafe", "use", "where", "while" ]

/-- The name as generated source writes it. -/
def emittedName (name : String) : String :=
  if reservedWords.contains name then name ++ "_" else name

/-- The first of `name`, `name_`, `name__` and so on that is not `taken`. A taken name is
passed once and never met again, for the names grow. -/
def freshName (name : String) (taken : List String) : String :=
  if _h : name ∈ taken then freshName (name ++ "_") (taken.erase name) else name
termination_by taken.length
decreasing_by
  rw [List.length_erase_of_mem _h]
  have := List.length_pos_of_mem _h
  omega

/-- The roots of paths that lead out of the crate of the generated source. -/
def externalRoots : List String := ["crate::", "std::", "core::", "alloc::", "intention::"]

/-- The path of an import as generated source writes it. -/
def importPath (imported : String) : String :=
  if externalRoots.any fun root => root.toList.isPrefixOf imported.toList then imported
  else "crate::" ++ imported

namespace Router

/-- The name of the type that implements the router. -/
def utilName (router : Router) : String := router.name ++ "Util"

end Router

/-! ### Methods -/

namespace RouteParam

/-- The name of the parameter as generated source writes it. -/
def emittedName (param : RouteParam) : String := RequestRouter.emittedName param.name

/-- The type of the parameter as generated source writes it. -/
def emittedType (param : RouteParam) : String :=
  match param.role with
  | .context => "&Context"
  | .extra _ => param.type.emitted

end RouteParam

namespace Route

/-- The name of the request in the body. -/
def requestName (route : Route) : String :=
  freshName "request" (route.params.map RouteParam.emittedName)

/-- The signature of the method, with `ending` behind it. -/
def signature (route : Route) (ending : String) : List String :=
  ["    fn " ++ emittedName route.name ++ "(", "        &self,"]
    ++ route.params.map (fun param =>
      "        " ++ param.emittedName ++ ": " ++ param.emittedType ++ ",")
    ++ ["    ) -> Request" ++ ending]

/-- The statement that builds the request. -/
def opening (route : Route) (destination : ClassName) : String :=
  let mutability := if route.extras.isEmpty then "" else "mut "
  "        let " ++ mutability ++ route.requestName ++ " = Request::new("
    ++ emittedName route.context ++ ", Destination::new("
    ++ Text.stringLiteral destination.package ++ ", "
    ++ Text.stringLiteral destination.simple ++ "));"

/-- The statement that stores an extra in the named request. -/
def storeStatement (request : String) (param : RouteParam) (binding : Binding) : String :=
  request ++ "." ++ binding.kind.storeOperation ++ "(" ++ Text.stringLiteral binding.key
    ++ ", " ++ param.emittedName ++ ");"

/-- The lines that store an extra in the named request. -/
def storeLines (request : String) (param : RouteParam) (binding : Binding) : List String :=
  let statement := storeStatement request param binding
  if param.type.nullable then
    [ "        if let Some(" ++ param.emittedName ++ ") = " ++ param.emittedName ++ " \x7b",
      "            " ++ statement,
      "        \x7d" ]
  else ["        " ++ statement]

/-- The body of the method. -/
def body (route : Route) (destination : ClassName) : List String :=
  route.opening destination
    :: route.extras.flatMap (fun extra => storeLines route.requestName extra.1 extra.2)
    ++ ["        " ++ route.requestName]

/-- The method with its body. -/
def implementation (route : Route) (destination : ClassName) : List String :=
  route.signature " \x7b" ++ route.body destination ++ ["    \x7d"]

end Route

/-! ### Files -/

/-- The lines of several parts with an empty line between two of them. -/
def separated : List (List String) → List String
  | [] => []
  | [part] => part
  | part :: rest => part ++ [""] ++ separated rest

namespace Router

/-- The lines above the trait: where the source comes from, and its imports. -/
def preamble (router : Router) : List String :=
  [ "// @generated by intention-compiler from " ++ Text.qualify router.package router.name
      ++ ". Do not edit.",
    "",
    "#[allow(unused_imports)]",
    "use intention::\x7bContext, Destination, Request\x7d;" ]
    ++ router.imports.flatMap (fun imported =>
      ["#[allow(unused_imports)]", "use " ++ importPath imported ++ ";"])

/-- The trait. -/
def traitLines (router : Router) : List String :=
  ["#[allow(non_snake_case)]", "pub trait " ++ router.name ++ " \x7b"]
    ++ router.routes.flatMap (fun route => route.signature ";")
    ++ ["\x7d"]

/-- The implementation of the trait. -/
def implLines (router : Router) : List String :=
  [ "#[allow(non_snake_case)]",
    "impl " ++ router.name ++ " for " ++ router.utilName ++ " \x7b" ]
    ++ separated (router.routes.map fun route => route.implementation router.destination)
    ++ ["\x7d"]

/-- The lines of the source; the last is empty, so that the text ends with a line end. -/
def lines (router : Router) : List String :=
  router.preamble ++ [""] ++ router.traitLines
    ++ ["", "pub struct " ++ router.utilName ++ ";", ""]
    ++ router.implLines ++ [""]

/-- The generated file. -/
def emit (router : Router) : EmittedFile :=
  ⟨router.package, router.utilName, "\n".intercalate router.lines⟩

end Router

end RequestRouter
