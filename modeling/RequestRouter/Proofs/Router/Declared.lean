import Mathlib.Data.List.Forall2
import RequestRouter.Proofs.Round.Destinations
import RequestRouter.Proofs.Router.Syntax

/-!
# Routers of declaration files

A router keeps what its interface declares: a route for each method, named as the method, and a
parameter for each parameter of the method, with its name and its type in their place
(`RequestRouter.Element.forall₂_isOf_of_router_eq_ok`).

Generated source is read as Rust where the names of its router are names
(`RequestRouter.Router.HasNames`). This is so for every router that a declaration file declares
(`RequestRouter.Router.hasNames_of_parse`): whatever is named there is named by a token, and paths
are names with separators between them, also those of types in types.
-/

namespace RequestRouter

open Rust

/-! ### Routes of methods -/

/-- The route has the name of the method, and its parameters in some roles; one of them is the
context. -/
structure Route.IsOf (route : Route) (method : Method) : Prop where
  name : route.name = method.name
  context : route.context ∈ method.params.map Param.name
  params : List.Forall₂ (fun param routed => ∃ role, routed = param.inRole role)
    method.params route.params

theorem exists_mem_of_forall₂ {α β : Type} {related : α → β → Prop} {as : List α} {bs : List β}
    (h : List.Forall₂ related as bs) {b : β} (hb : b ∈ bs) : ∃ a ∈ as, related a b := by
  induction h with
  | nil => cases hb
  | @cons a _ _ _ ha _ ih =>
    rcases List.mem_cons.1 hb with rfl | hb
    · exact ⟨a, List.mem_cons_self, ha⟩
    · obtain ⟨other, hother, hrelated⟩ := ih hb
      exact ⟨other, List.mem_cons_of_mem _ hother, hrelated⟩

theorem Param.exists_inRole_of_asExtra_eq_ok {method : String} {param : Param}
    {routed : RouteParam} (h : param.asExtra method = .ok routed) :
    ∃ role, routed = param.inRole role := by
  rw [asExtra] at h
  cases hbinding : param.binding method with
  | ok binding =>
    rw [hbinding] at h
    cases h
    exact ⟨.extra binding, rfl⟩
  | error fault =>
    rw [hbinding] at h
    cases h

/-- Checks that all pass give each parameter a role. -/
theorem forall₂_inRole_checkParams {method : String} {found : Bool} {params : List Param}
    (h : ∀ check ∈ checkParams method found params, fault? check = none) :
    List.Forall₂ (fun param routed => ∃ role, routed = param.inRole role) params
      ((checkParams method found params).filterMap result?) := by
  induction params generalizing found with
  | nil => exact .nil
  | cons param rest ih =>
    rw [checkParams] at h ⊢
    split at h
    · next hcontext =>
      rw [if_pos hcontext]
      exact .cons ⟨.context, rfl⟩ (ih fun check hcheck => h check (List.mem_cons_of_mem _ hcheck))
    · next hcontext =>
      rw [if_neg hcontext]
      have hrest := ih fun check hcheck => h check (List.mem_cons_of_mem _ hcheck)
      obtain ⟨routed, hrouted⟩ := fault?_eq_none_iff.1 (h _ List.mem_cons_self)
      rw [List.filterMap_cons, hrouted]
      exact .cons (Param.exists_inRole_of_asExtra_eq_ok hrouted) hrest

theorem Method.isOf_of_route_eq_ok {method : Method} {route : Route}
    (h : method.route = .ok route) : route.IsOf method := by
  rcases method.route_cases with ⟨context, hcontext, hnil, hroute⟩ | ⟨-, hroute⟩
  · cases hroute.symm.trans h
    have hparams := (List.append_eq_nil_iff.1 (List.append_eq_nil_iff.1 hnil).1).1
    exact ⟨rfl, List.mem_map_of_mem (List.mem_of_find?_eq_some hcontext),
      forall₂_inRole_checkParams (List.filterMap_eq_nil_iff.1 hparams)⟩
  · cases hroute.symm.trans h

theorem forall₂_route_of_routesOf_eq_ok {methods : List Method} {routes : List Route}
    (h : routesOf methods = .ok routes) :
    List.Forall₂ (fun method route => method.route = .ok route) methods routes := by
  induction methods generalizing routes with
  | nil =>
    cases h
    exact .nil
  | cons method rest ih =>
    rw [routesOf] at h
    split at h
    · next hroute hrest =>
      cases h
      exact .cons hroute (ih hrest)
    · cases h
    · cases h
    · cases h

/-- **A router has the imports of its interface, and the route of each method.** -/
theorem Element.forall₂_route_of_router_eq_ok {host : Host} {element : Element} {router : Router}
    (h : element.router host = .ok router) : router.imports = element.imports ∧
      List.Forall₂ (fun method route => method.route = .ok route) element.methods router.routes := by
  rcases element.router_cases host with ⟨_, -, hrouter⟩ | ⟨_, -, hrouter⟩ | ⟨_, -, hrouter⟩ |
    ⟨destination, routes, -, -, hroutes, hrouter⟩
  · cases hrouter.symm.trans h
  · cases hrouter.symm.trans h
  · cases hrouter.symm.trans h
  · cases hrouter.symm.trans h
    exact ⟨rfl, forall₂_route_of_routesOf_eq_ok hroutes⟩

/-- These are routes of the methods as far as names and parameters go. -/
theorem Element.forall₂_isOf_of_router_eq_ok {host : Host} {element : Element} {router : Router}
    (h : element.router host = .ok router) : router.imports = element.imports ∧
      List.Forall₂ (fun method route => route.IsOf method) element.methods router.routes := by
  obtain ⟨himports, hroutes⟩ := Element.forall₂_route_of_router_eq_ok h
  exact ⟨himports, hroutes.imp fun _ _ hroute => Method.isOf_of_route_eq_ok hroute⟩

theorem Route.IsOf.map_name_params {route : Route} {method : Method} (h : route.IsOf method) :
    route.params.map RouteParam.name = method.params.map Param.name := by
  rw [← List.forall₂_eq_eq_eq, List.forall₂_map_left_iff, List.forall₂_map_right_iff]
  refine List.Forall₂.flip (h.params.imp ?_)
  rintro param _ ⟨role, rfl⟩
  rfl

/-! ### Names that are written -/

theorem IsName.isIdentifier {text : String} (h : IsName text) : isIdentifier text = true := by
  have htoken : (⟨text, .first⟩ : Token).isIdentifier = true := h
  exact isIdentifier_iff.2 (Token.exists_of_isIdentifier htoken)

theorem isName_of_isIdentifier {text : String} (h : isIdentifier text = true) : IsName text := by
  obtain ⟨c, rest, hlist, hc, hrest⟩ := isIdentifier_iff.1 h
  exact LexemeKind.spans_iff.2 (readIdentifier_eq_some_iff.2
    ⟨c, rest, hlist, (List.append_nil _).symm, hc, hrest, nofun⟩)

theorem isPath_joined {names : List String} (hne : names ≠ [])
    (h : ∀ name ∈ names, IsName name) : IsPath (Derives.joined names) := by
  induction names with
  | nil => exact absurd rfl hne
  | cons name rest ih =>
    obtain ⟨hname, hrest⟩ := List.forall_mem_cons.1 h
    by_cases hnil : rest = []
    · rw [hnil, joined_singleton]
      exact .name hname.isIdentifier
    · rw [← List.singleton_append, joined_append (List.cons_ne_nil _ _) hnil, joined_singleton]
      exact .join hname.isIdentifier (ih hnil hrest)

theorem IsQualified.isPath {text : String} (h : IsQualified text) : IsPath text := by
  obtain ⟨names, hne, hnames, rfl⟩ := h
  exact isPath_joined hne hnames

theorem IsPath.isQualified {path : String} (h : IsPath path) : IsQualified path := by
  induction h with
  | name hname =>
    have hnames := List.forall_mem_singleton.2 (isName_of_isIdentifier hname)
    exact ⟨_, List.cons_ne_nil _ _, hnames, (joined_singleton _).symm⟩
  | @join name _ hname _ ih =>
    obtain ⟨names, hne, hnames, rfl⟩ := ih
    refine ⟨name :: names, List.cons_ne_nil _ _,
      List.forall_mem_cons.2 ⟨isName_of_isIdentifier hname, hnames⟩, ?_⟩
    rw [← List.singleton_append, joined_append (List.cons_ne_nil _ _) hne, joined_singleton]

theorem IsPackage.eq_empty_or_isPath {text : String} (h : IsPackage text) :
    text = "" ∨ IsPath text := by
  obtain ⟨names, hnames, rfl⟩ := h
  by_cases hnil : names = []
  · rw [hnil]
    exact .inl rfl
  · exact .inr (isPath_joined hnil hnames)

/-! ### Types that are written -/

/-- The types of the parameters in the element are made of names. -/
def Element.HasTypes (element : Element) : Prop :=
  ∀ method ∈ element.methods, ∀ param ∈ method.params, param.type.HasPaths

namespace Derives

mutual

theorem Written.hasPaths : ∀ {ts : List Token} {type : TypeRef}, Written ts type → type.HasPaths
  | _, _, .plain hpath _ => by
    rw [TypeRef.HasPaths]
    exact ⟨hpath.isQualified.isPath, trivial⟩
  | _, _, .applied hpath _ hargs _ _ => by
    rw [TypeRef.HasPaths]
    exact ⟨hpath.isQualified.isPath, havePaths_of_commas hargs⟩

theorem havePaths_of_commas : ∀ {ts : List Token} {types : List TypeRef},
    Commas Written ts types → TypeRef.HavePaths types
  | _, _, .single htype => ⟨htype.hasPaths, trivial⟩
  | _, _, .cons htype _ htypes => ⟨htype.hasPaths, havePaths_of_commas htypes⟩

end

theorem Member.hasTypes {ts : List Token} {member : Grammar.Member} (h : Member ts member) :
    ∀ method ∈ member.method?, ∀ param ∈ method.params, param.type.HasPaths := by
  cases h with
  | method _ _ _ hparams _ _ =>
    obtain ⟨-, hclosed⟩ := hparams
    rintro _ ⟨⟩
    refine hclosed.forall_mem ?_
    rintro _ _ ⟨-, -, -, htype, -⟩
    exact htype.hasPaths
  | field _ _ _ _ _ _ => exact nofun

theorem Declared.hasTypes {package : String} {imports : List String} {ts : List Token}
    {element : Element} (h : Declared package imports ts element) : element.HasTypes := by
  obtain ⟨-, -, -, hbody⟩ := h
  intro method hmethod
  obtain ⟨member, hmember, hsome⟩ := List.mem_filterMap.1 hmethod
  cases hbody with
  | none _ => cases hmember
  | members _ hrow _ =>
    have hall := hrow.forall_mem
      (p := fun member => ∀ method ∈ member.method?, ∀ param ∈ method.params, param.type.HasPaths)
      fun _ _ h => h.hasTypes
    exact hall member hmember method hsome

theorem File.hasTypes {ts : List Token} {file : SourceFile} (h : File ts file) :
    ∀ element ∈ file.elements, element.HasTypes := by
  obtain ⟨-, -, helements⟩ := h
  exact helements.forall_mem fun _ _ helement => helement.hasTypes

end Derives

/-! ### Types that routers write -/

theorem isPath_valueForm {path : String} (h : IsPath path) : IsPath (valueForm path) := by
  have hforms : ∀ boxed ∈ boxedTypes, isIdentifier boxed.2 = true := by decide
  rcases valueForm_cases path with ⟨hsame, -⟩ | ⟨boxed, hboxed, -, hform⟩
  · rwa [hsame]
  · rw [hform]
    exact .name (hforms boxed hboxed)

/-- Types stay made of names if boxed types in them get their value form. -/
theorem TypeRef.hasPaths_normalize (type : TypeRef) (h : type.HasPaths) :
    type.normalize.HasPaths := by
  induction type using TypeRef.induction with
  | written path args nullable ih =>
    rw [HasPaths, havePaths_iff] at h
    obtain ⟨hpath, hargs⟩ := h
    rw [normalize_eq, HasPaths, havePaths_iff]
    constructor
    · split
      · exact isPath_valueForm hpath
      · exact hpath
    · intro arg harg
      obtain ⟨written, hwritten, rfl⟩ := List.mem_map.1 harg
      exact ih written hwritten (hargs written hwritten)

theorem Param.hasPaths_declaredType {param : Param} (h : param.type.HasPaths) :
    param.declaredType.HasPaths := by
  obtain ⟨_, _, _, ⟨path, args, _⟩, _⟩ := param
  rw [TypeRef.HasPaths] at h
  rw [declaredType]
  split
  · rw [TypeRef.HasPaths]
    exact h
  · rw [TypeRef.HasPaths]
    exact h

theorem Route.IsOf.hasNames {route : Route} {method : Method} (h : route.IsOf method)
    (hnames : method.HasNames) (hpaths : ∀ param ∈ method.params, param.type.HasPaths) :
    route.HasNames where
  name := h.name ▸ hnames.name.isIdentifier
  context := by
    obtain ⟨param, hparam, hname⟩ := List.mem_map.1 h.context
    rw [← hname]
    exact (hnames.params param hparam).isIdentifier
  params := by
    intro routed hrouted
    obtain ⟨param, hparam, role, rfl⟩ := exists_mem_of_forall₂ h.params hrouted
    exact ⟨(hnames.params param hparam).isIdentifier, fun _ =>
      TypeRef.hasPaths_normalize _ (Param.hasPaths_declaredType (hpaths param hparam))⟩

/-- **The routers of a declaration file have names that are names.** -/
theorem Router.hasNames_of_parse {text : String} {file : SourceFile} {element : Element}
    {host : Host} {router : Router} (hparse : SourceFile.parse text = .ok file)
    (helement : element ∈ file.elements)
    (hpackage : ∀ element, host.packageOf element = element.package)
    (h : element.router host = .ok router) : router.HasNames := by
  obtain ⟨hname, hrouterPackage⟩ := Element.name_of_router_eq_ok h
  obtain ⟨himports, hroutes⟩ := Element.forall₂_isOf_of_router_eq_ok h
  have hnames := SourceFile.hasNames_of_parse hparse element helement
  obtain ⟨_, _, -, -, hfile⟩ := SourceFile.exists_derives_of_parse hparse
  have hpaths := hfile.hasPaths element helement
  refine ⟨hname ▸ hnames.name.isIdentifier, ?_, ?_, fun route hroute => ?_⟩
  · rw [hrouterPackage, hpackage]
    exact hnames.package.eq_empty_or_isPath
  · rw [himports]
    exact fun imported himported => (hpaths.imports imported himported).isPath
  · obtain ⟨method, hmethod, hof⟩ := exists_mem_of_forall₂ hroutes hroute
    have htypes := hfile.hasTypes element helement
    exact hof.hasNames (hnames.methods method hmethod) (htypes method hmethod)

end RequestRouter
