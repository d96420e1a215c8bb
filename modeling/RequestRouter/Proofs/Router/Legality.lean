import RequestRouter.Proofs.Router.Identifiers
import RequestRouter.Proofs.Router.Reports

/-!
# Names that Rust accepts

A declaration may use any name, and Rust keeps some words to itself: the keywords in use, and those
that it reserves for later. The underscore alone can stand for a variable that is bound, but for
nothing else. Here the names in generated source are collected with their places, as the source is
read (`RequestRouter.Rust.Occurs`): those of the trait, of the type and of the methods, the
parameters, and the variables in the bodies. Paths of imports and of types are left out.

Generated source puts an underscore behind keywords in use, but not behind those that are reserved
for later, and the name of the trait it writes as it is. So the names of the interface decide
whether Rust accepts all names in the source (`RequestRouter.Router.forall_isAccepted_iff`). Names
that generated source makes up itself, those of the type and of the request, are always accepted.

Bodies of methods are kept as pieces when source is read. That is enough to tell their names, since
no two blocks have the same pieces (`RequestRouter.Rust.Block.pieces_inj`).
-/

namespace RequestRouter

open Rust

/-! ### Names in their places -/

namespace Rust

/-- What a name is in its place. -/
inductive Usage where
  /-- The name of a trait, of a type or of a method. -/
  | item
  /-- A variable that is bound. -/
  | bound
  /-- A variable that is read. -/
  | value
deriving DecidableEq

/-- A name in its place. -/
structure Occurrence where
  /-- What the name is there. -/
  usage : Usage
  /-- The name. -/
  name : String
deriving DecidableEq

/-- Rust accepts the name in its place. The underscore alone is accepted only where a variable is
bound. -/
def Occurrence.IsAccepted (occurrence : Occurrence) : Prop :=
  isLegal occurrence.name = true ∨ occurrence.usage = .bound ∧ occurrence.name = "_"

/-- The names in the call. -/
def Call.occurrences (call : Call) : List Occurrence :=
  [⟨.value, call.receiver⟩, ⟨.item, call.operation⟩, ⟨.value, call.argument⟩]

/-- The names in the statement. -/
def Statement.occurrences : Statement → List Occurrence
  | create _ name context _ => [⟨.bound, name⟩, ⟨.value, context⟩]
  | plain call => call.occurrences
  | guarded bound scrutinee call => ⟨.bound, bound⟩ :: ⟨.value, scrutinee⟩ :: call.occurrences

/-- The names in the block. -/
def Block.occurrences (block : Block) : List Occurrence :=
  block.statements.flatMap Statement.occurrences ++ [⟨.value, block.result⟩]

/-- The names in the signature. -/
def Signature.occurrences (signature : Signature) : List Occurrence :=
  ⟨.item, signature.name⟩ :: signature.params.map fun param => ⟨.bound, param.1⟩

/-- The names in the item, apart from those in bodies. -/
def Item.occurrences : Item → List Occurrence
  | mark _ | use _ => []
  | trait name signatures => ⟨.item, name⟩ :: signatures.flatMap Signature.occurrences
  | unit name => [⟨.item, name⟩]
  | impl name target methods =>
    ⟨.item, name⟩ :: ⟨.item, target⟩ :: methods.flatMap fun method => method.signature.occurrences

/-- The name stands in the items. -/
inductive Occurs (items : List Item) (occurrence : Occurrence) : Prop
  /-- Outside of bodies. -/
  | outside {item : Item} : item ∈ items → occurrence ∈ item.occurrences → Occurs items occurrence
  /-- In the body of a method. -/
  | body {name target : String} {methods : List Method} {method : Method} {block : Block} :
      .impl name target methods ∈ items → method ∈ methods → method.body = block.pieces →
      occurrence ∈ block.occurrences → Occurs items occurrence

theorem Occurrence.isAccepted_iff {usage : Usage} {name : String} (h : usage ≠ .bound) :
    (Occurrence.mk usage name).IsAccepted ↔ isLegal name = true :=
  or_iff_left fun hbound => h hbound.1

/-- In a statement that is read, every name is accepted. -/
theorem Statement.IsLegal.isAccepted {statement : Statement} (h : statement.IsLegal) :
    ∀ occurrence ∈ statement.occurrences, occurrence.IsAccepted := by
  have hcall : ∀ {call : Call}, call.IsLegal →
      ∀ occurrence ∈ call.occurrences, occurrence.IsAccepted := by
    intro call hcall
    simp [Call.occurrences, Occurrence.IsAccepted, hcall.receiver, hcall.operation, hcall.argument]
  cases statement with
  | create mutable name context destination =>
    simp [occurrences, Occurrence.IsAccepted, h.1, h.2]
  | plain call => exact hcall h
  | guarded bound scrutinee call =>
    have hrest := hcall h.2.2
    simp only [occurrences, List.forall_mem_cons]
    exact ⟨.inl h.1, .inl h.2.1, hrest⟩

/-! ### Bodies and their pieces -/

theorem Call.pieces_append_inj {call call' : Call} {rest rest' : List Piece}
    (h : call.pieces ++ rest = call'.pieces ++ rest') : call = call' ∧ rest = rest' := by
  obtain ⟨receiver, operation, key, argument⟩ := call
  simp only [pieces, List.cons_append, List.nil_append, List.cons.injEq, Piece.word.injEq,
    Piece.text.injEq, true_and] at h
  obtain ⟨rfl, rfl, rfl, rfl, rfl⟩ := h
  exact ⟨rfl, rfl⟩

/-- **A statement can be told from its pieces**, whatever stands behind it. -/
theorem Statement.pieces_append_inj {s s' : Statement} {rest rest' : List Piece}
    (h : s.pieces ++ rest = s'.pieces ++ rest') : s = s' ∧ rest = rest' := by
  -- The first two pieces tell the forms apart, and the third whether a variable may change.
  cases s with
  | create mutable name context destination =>
    cases s' with
    | create mutable' name' context' destination' =>
      obtain ⟨package, simple⟩ := destination
      cases mutable <;> cases mutable' <;> simp [pieces, creation] at h
      · obtain ⟨rfl, rfl, rfl, rfl, rfl⟩ := h
        exact ⟨rfl, rfl⟩
      · obtain ⟨rfl, rfl, rfl, rfl, rfl⟩ := h
        exact ⟨rfl, rfl⟩
    | plain call' => cases mutable <;> simp [pieces, Call.pieces] at h
    | guarded bound' scrutinee' call' => cases mutable <;> simp [pieces] at h
  | plain call =>
    cases s' with
    | create mutable' name' context' destination' =>
      cases mutable' <;> simp [pieces, Call.pieces] at h
    | plain call' =>
      obtain ⟨rfl, rfl⟩ := Call.pieces_append_inj h
      exact ⟨rfl, rfl⟩
    | guarded bound' scrutinee' call' => simp [pieces, Call.pieces] at h
  | guarded bound scrutinee call =>
    cases s' with
    | create mutable' name' context' destination' => cases mutable' <;> simp [pieces] at h
    | plain call' => simp [pieces, Call.pieces] at h
    | guarded bound' scrutinee' call' =>
      simp only [pieces, List.cons_append, List.nil_append, List.append_assoc, List.cons.injEq,
        Piece.word.injEq, true_and] at h
      obtain ⟨rfl, rfl, hcall⟩ := h
      obtain ⟨rfl, hrest⟩ := Call.pieces_append_inj hcall
      exact ⟨rfl, (List.cons.inj hrest).2⟩

theorem Statement.length_pieces (s : Statement) : 1 < s.pieces.length := by
  cases s with
  | create mutable name context destination => cases mutable <;> simp [pieces, creation]
  | plain call => simp [pieces, Call.pieces]
  | guarded bound scrutinee call => simp [pieces]

/-- **A block can be told from its pieces.** -/
theorem Block.pieces_inj {block block' : Block} (h : block.pieces = block'.pieces) :
    block = block' := by
  obtain ⟨statements, result⟩ := block
  obtain ⟨statements', result'⟩ := block'
  -- The result is one piece, and a statement is more than one.
  induction statements generalizing statements' with
  | nil =>
    cases statements' with
    | nil => simpa [pieces] using h
    | cons s' rest' =>
      have hlength := congrArg List.length h
      have hlong := s'.length_pieces
      simp [pieces] at hlength
      omega
  | cons s rest ih =>
    cases statements' with
    | nil =>
      have hlength := congrArg List.length h
      have hlong := s.length_pieces
      simp [pieces] at hlength
      omega
    | cons s' rest' =>
      simp only [pieces, List.flatMap_cons, List.append_assoc] at h
      obtain ⟨rfl, hrest⟩ := Statement.pieces_append_inj h
      obtain ⟨rfl, rfl⟩ := Block.mk.inj (ih rest' hrest)
      rfl

end Rust

/-! ### Names that can be used -/

/-- The keywords that are reserved for later. -/
def laterWords : List String :=
  [ "abstract", "become", "box", "do", "final", "macro", "override", "priv", "try", "typeof",
    "unsized", "virtual", "yield" ]

theorem keywords_eq : keywords = reservedWords ++ laterWords := rfl

/-- Generated source can use the name, perhaps with an underscore behind it. -/
def IsUsable (name : String) : Prop := name ∉ laterWords ∧ name ≠ "_"

instance : DecidablePred IsUsable := fun _ => inferInstanceAs (Decidable (_ ∧ _))

/-- The names of the method and of its parameters can be used. -/
structure Method.HasUsableNames (method : Method) : Prop where
  name : IsUsable method.name
  params : ∀ param ∈ method.params, IsUsable param.name

/-- The names of the interface can be used, and its own name needs no underscore. -/
structure Element.HasUsableNames (element : Element) : Prop where
  name : element.name ∉ keywords ∧ element.name ≠ "_"
  methods : ∀ method ∈ element.methods, method.HasUsableNames

/-- **Which names an underscore makes legal**: all but those that are reserved for later, which get
none, and the underscore itself. -/
theorem isLegal_emittedName_iff {name : String} (h : isIdentifier name = true) :
    isLegal (emittedName name) = true ↔ IsUsable name := by
  by_cases hword : name ∈ reservedWords
  · have hall : ∀ word ∈ reservedWords, isLegal (word ++ "_") = true ∧ IsUsable word := by
      decide +kernel
    rw [emittedName_of_mem hword]
    exact iff_of_true (hall name hword).1 (hall name hword).2
  · rw [emittedName_of_notMem hword, isLegal_iff h, keywords_eq, List.mem_append, IsUsable,
      or_iff_right hword]

/-! ### Methods -/

/-- The one parameter that is a context is the one that the route names. -/
structure Route.HasContext (route : Route) : Prop where
  exists_context : ∃ param ∈ route.params, param.role = .context
  name_eq : ∀ param ∈ route.params, param.role = .context → param.name = route.context

theorem Method.IsRoutedAs.hasContext {method : Method} {route : Route}
    (h : method.IsRoutedAs route) : route.HasContext := by
  obtain ⟨before, context, after, front, back, -, -, -, hfront, hback, rfl⟩ := h
  have hextra : ∀ {params : List Param} {routed : List RouteParam},
      List.Forall₂ Param.IsRoutedAs params routed → ∀ param ∈ routed, param.role ≠ .context := by
    intro params routed hrouted param hmem
    obtain ⟨_, -, binding, -, rfl⟩ := exists_mem_of_forall₂ hrouted hmem
    exact nofun
  refine ⟨⟨_, List.mem_append_right _ List.mem_cons_self, rfl⟩, fun param hparam hrole => ?_⟩
  rcases List.mem_append.1 hparam with hmem | hmem
  · exact absurd hrole (hextra hfront param hmem)
  · rcases List.mem_cons.1 hmem with rfl | hmem
    · rfl
    · exact absurd hrole (hextra hback param hmem)

namespace Route

variable {route : Route} {destination : ClassName}

/-- The names in the method of the route. -/
def occurrences (route : Route) (destination : ClassName) : List Occurrence :=
  route.syntaxOf.occurrences ++ (route.blockOf destination).occurrences

/-- **Every parameter is read** in the body. -/
theorem value_mem_occurrences (h : route.HasContext) {param : RouteParam}
    (hparam : param ∈ route.params) :
    ⟨.value, param.emittedName⟩ ∈ (route.blockOf destination).occurrences := by
  cases hrole : param.role with
  | context =>
    have hname : param.emittedName = RequestRouter.emittedName route.context := by
      rw [RouteParam.emittedName, h.name_eq param hparam hrole]
    simp [blockOf, Block.occurrences, Statement.occurrences, hname]
  | extra binding =>
    have hvalue : ⟨.value, param.emittedName⟩ ∈
        (statementOf route.requestName param binding).occurrences := by
      rw [statementOf]
      split <;> simp [Statement.occurrences, Call.occurrences, callOf]
    refine List.mem_append_left _ (List.mem_flatMap.2 ⟨_, List.mem_cons_of_mem _ ?_, hvalue⟩)
    exact List.mem_map.2 ⟨_, mem_extras_of_role hparam hrole, rfl⟩

/-- The names of the method and its parameters can be used. -/
structure HasUsableNames (route : Route) : Prop where
  name : IsUsable route.name
  params : ∀ param ∈ route.params, IsUsable param.name

/-- In a body all names are accepted if the names of the parameters are. -/
theorem isAccepted_blockOf (h : route.HasContext)
    (hlegal : ∀ param ∈ route.params, isLegal param.emittedName = true) :
    ∀ occurrence ∈ (route.blockOf destination).occurrences, occurrence.IsAccepted := by
  obtain ⟨context, hcontext, hrole⟩ := h.exists_context
  have hfrom : isLegal (RequestRouter.emittedName route.context) = true := by
    rw [← h.name_eq context hcontext hrole]
    exact hlegal context hcontext
  intro occurrence hoccurrence
  rcases List.mem_append.1 hoccurrence with hmem | hmem
  · obtain ⟨statement, hstatement, hmem⟩ := List.mem_flatMap.1 hmem
    exact (isLegal_of_mem_blockOf hfrom hlegal statement hstatement).isAccepted occurrence hmem
  · rw [List.mem_singleton] at hmem
    subst hmem
    exact .inl isLegal_requestName

/-- **Whether all names in a method are accepted** depends on those that are declared. -/
theorem forall_isAccepted_occurrences_iff (hnames : route.HasNames) (h : route.HasContext) :
    (∀ occurrence ∈ route.occurrences destination, occurrence.IsAccepted) ↔
      route.HasUsableNames := by
  rw [occurrences, List.forall_mem_append, Signature.occurrences, List.forall_mem_cons]
  constructor
  · rintro ⟨⟨hname, -⟩, hbody⟩
    refine ⟨?_, fun param hparam => ?_⟩
    · have hlegal := (Occurrence.isAccepted_iff (by decide)).1 hname
      exact (isLegal_emittedName_iff hnames.name).1 hlegal
    · have hvalue := hbody _ (value_mem_occurrences h hparam)
      have hlegal := (Occurrence.isAccepted_iff (by decide)).1 hvalue
      exact (isLegal_emittedName_iff (hnames.params param hparam).name).1 hlegal
  · intro husable
    have hlegal : ∀ param ∈ route.params, isLegal param.emittedName = true := fun param hparam =>
      (isLegal_emittedName_iff (hnames.params param hparam).name).2 (husable.params param hparam)
    refine ⟨⟨.inl ((isLegal_emittedName_iff hnames.name).2 husable.name), ?_⟩,
      isAccepted_blockOf h hlegal⟩
    rw [syntaxOf, List.map_map, List.forall_mem_map]
    exact fun param hparam => .inl (hlegal param hparam)

end Route

/-! ### Files -/

namespace Router

variable {router : Router}

/-- No keyword ends like the name of the type. -/
theorem isLegal_utilName (h : router.HasNames) : isLegal router.utilName = true := by
  have hwords : ∀ word ∈ "_" :: keywords, ¬"Util".toList <:+ word.toList := by decide +kernel
  have hback : "Util".toList <:+ router.utilName.toList := by
    rw [utilName, String.toList_append]
    exact List.suffix_append ..
  have hmem : router.utilName ∉ "_" :: keywords := fun hmem => hwords _ hmem hback
  rw [List.mem_cons, not_or] at hmem
  exact (isLegal_iff (isIdentifier_utilName h)).2 hmem.symm

/-- Outside of bodies there are the names of the trait and of the type, and those of signatures. -/
theorem eq_of_mem_occurrences {item : Item} {occurrence : Occurrence}
    (hitem : item ∈ router.itemsOf) (hmem : occurrence ∈ item.occurrences) :
    occurrence = ⟨.item, router.name⟩ ∨ occurrence = ⟨.item, router.utilName⟩ ∨
      ∃ route ∈ router.routes, occurrence ∈ route.syntaxOf.occurrences := by
  -- In the order of the file. Names occur in the trait, the type and the implementation only.
  simp only [itemsOf, List.mem_append, List.mem_cons, List.not_mem_nil, or_false] at hitem
  rcases hitem with ((hitem | rfl | rfl) | rfl) | rfl | rfl
  · obtain ⟨pieces, rfl | rfl⟩ := eq_of_mem_preambleItems hitem
    · cases hmem
    · cases hmem
  · cases hmem
  · rcases List.mem_cons.1 hmem with rfl | hmem
    · exact .inl rfl
    · obtain ⟨signature, hsignature, hmem⟩ := List.mem_flatMap.1 hmem
      obtain ⟨route, hroute, rfl⟩ := List.mem_map.1 hsignature
      exact .inr (.inr ⟨route, hroute, hmem⟩)
  · exact .inr (.inl (List.mem_singleton.1 hmem))
  · cases hmem
  · rcases List.mem_cons.1 hmem with rfl | hmem
    · exact .inl rfl
    rcases List.mem_cons.1 hmem with rfl | hmem
    · exact .inr (.inl rfl)
    obtain ⟨method, hmethod, hmem⟩ := List.mem_flatMap.1 hmem
    obtain ⟨route, hroute, rfl⟩ := List.mem_map.1 hmethod
    exact .inr (.inr ⟨route, hroute, hmem⟩)

/-- A body in a generated file is that of a route, and no other block has its pieces. -/
theorem exists_blockOf_eq {name target : String} {methods : List Rust.Method}
    {method : Rust.Method} {block : Block} (hitem : .impl name target methods ∈ router.itemsOf)
    (hmethod : method ∈ methods) (hbody : method.body = block.pieces) :
    ∃ route ∈ router.routes, block = route.blockOf router.destination := by
  have hfound : _ ∈ router.itemsOf.filterMap Item.impl? := List.mem_filterMap.2 ⟨_, hitem, rfl⟩
  rw [filterMap_impl?_itemsOf, List.mem_singleton] at hfound
  cases hfound
  obtain ⟨route, hroute, rfl⟩ := List.mem_map.1 hmethod
  exact ⟨route, hroute, (Block.pieces_inj hbody).symm⟩

/-- **The names in a generated file** are those of the trait, of the type and of the methods. -/
theorem occurs_itemsOf_iff {occurrence : Occurrence} :
    Occurs router.itemsOf occurrence ↔
      occurrence = ⟨.item, router.name⟩ ∨ occurrence = ⟨.item, router.utilName⟩ ∨
        ∃ route ∈ router.routes, occurrence ∈ route.occurrences router.destination := by
  have himpl : Item.impl router.name router.utilName
      (router.routes.map fun route => route.methodOf router.destination) ∈ router.itemsOf := by
    simp [itemsOf]
  constructor
  · rintro (⟨hitem, hmem⟩ | ⟨hitem, hmethod, hbody, hmem⟩)
    · rcases eq_of_mem_occurrences hitem hmem with hname | hname | ⟨route, hroute, hmem⟩
      · exact .inl hname
      · exact .inr (.inl hname)
      · exact .inr (.inr ⟨route, hroute, List.mem_append_left _ hmem⟩)
    · obtain ⟨route, hroute, rfl⟩ := exists_blockOf_eq hitem hmethod hbody
      exact .inr (.inr ⟨route, hroute, List.mem_append_right _ hmem⟩)
  · rintro (rfl | rfl | ⟨route, hroute, hmem⟩)
    · exact .outside himpl (List.mem_cons_self ..)
    · exact .outside himpl (List.mem_cons_of_mem _ (List.mem_cons_self ..))
    · have hmethod : route.methodOf router.destination ∈
          router.routes.map fun route => route.methodOf router.destination :=
        List.mem_map_of_mem hroute
      rcases List.mem_append.1 hmem with hmem | hmem
      · refine .outside himpl (List.mem_cons_of_mem _ (List.mem_cons_of_mem _ ?_))
        exact List.mem_flatMap.2 ⟨_, hmethod, hmem⟩
      · exact .body himpl hmethod rfl hmem

theorem forall_isAccepted_itemsOf_iff (hnames : router.HasNames)
    (hcontext : ∀ route ∈ router.routes, route.HasContext) :
    (∀ occurrence, Occurs router.itemsOf occurrence → occurrence.IsAccepted) ↔
      (router.name ∉ keywords ∧ router.name ≠ "_") ∧
        ∀ route ∈ router.routes, route.HasUsableNames := by
  simp only [occurs_itemsOf_iff]
  rw [← isLegal_iff hnames.name]
  constructor
  · intro h
    refine ⟨(Occurrence.isAccepted_iff (by decide)).1 (h _ (.inl rfl)), fun route hroute => ?_⟩
    have hall : ∀ occurrence ∈ route.occurrences router.destination, occurrence.IsAccepted :=
      fun occurrence hmem => h occurrence (.inr (.inr ⟨route, hroute, hmem⟩))
    exact (Route.forall_isAccepted_occurrences_iff (hnames.routes route hroute)
      (hcontext route hroute)).1 hall
  · rintro ⟨hname, hroutes⟩ occurrence (rfl | rfl | ⟨route, hroute, hmem⟩)
    · exact .inl hname
    · exact .inl (isLegal_utilName hnames)
    · exact (Route.forall_isAccepted_occurrences_iff (hnames.routes route hroute)
        (hcontext route hroute)).2 (hroutes route hroute) occurrence hmem

end Router

/-! ### Interfaces -/

theorem Route.IsOf.hasUsableNames_iff {route : Route} {method : Method} (h : route.IsOf method) :
    route.HasUsableNames ↔ method.HasUsableNames := by
  have hroute := List.forall_mem_map (f := RouteParam.name) (l := route.params) (P := IsUsable)
  have hmethod := List.forall_mem_map (f := Param.name) (l := method.params) (P := IsUsable)
  rw [h.map_name_params] at hroute
  have hparams := hroute.symm.trans hmethod
  constructor
  · rintro ⟨hname, hall⟩
    exact ⟨h.name ▸ hname, hparams.1 hall⟩
  · rintro ⟨hname, hall⟩
    exact ⟨h.name.symm ▸ hname, hparams.2 hall⟩

theorem forall_mem_iff_of_forall₂ {α β : Type} {related : α → β → Prop} {p : α → Prop}
    {q : β → Prop} {as : List α} {bs : List β} (h : List.Forall₂ related as bs)
    (hiff : ∀ a b, related a b → (p a ↔ q b)) : (∀ a ∈ as, p a) ↔ ∀ b ∈ bs, q b := by
  induction h with
  | nil => simp
  | cons hrelated _ ih => rw [List.forall_mem_cons, List.forall_mem_cons, hiff _ _ hrelated, ih]

/-- **When Rust accepts the names in generated source.** The source of a router is read as items,
and Rust accepts all names in them in their places exactly if the names that are declared can be
used: no method and no parameter is named by a keyword that is reserved for later, the interface is
named by no keyword at all, and none of them by the underscore alone. -/
theorem Router.forall_isAccepted_iff {text : String} {file : SourceFile} {element : Element}
    {host : Host} {router : Router} (hparse : SourceFile.parse text = .ok file)
    (helement : element ∈ file.elements)
    (hpackage : ∀ element, host.packageOf element = element.package)
    (h : element.router host = .ok router) :
    ∃ items, Rust.read router.emit.source = some items ∧
      ((∀ occurrence, Occurs items occurrence → occurrence.IsAccepted) ↔
        element.HasUsableNames) := by
  have hnames := hasNames_of_parse hparse helement hpackage h
  obtain ⟨-, hroutes⟩ := Element.forall₂_route_of_router_eq_ok h
  have hcontext : ∀ route ∈ router.routes, route.HasContext := by
    intro route hroute
    obtain ⟨method, -, hmethod⟩ := exists_mem_of_forall₂ hroutes hroute
    exact (Method.isRoutedAs_of_route_eq_ok hmethod).hasContext
  have hmethods := forall_mem_iff_of_forall₂ hroutes fun _ _ hroute =>
    (Method.isOf_of_route_eq_ok hroute).hasUsableNames_iff.symm
  refine ⟨router.itemsOf, read_emit hnames, ?_⟩
  rw [forall_isAccepted_itemsOf_iff hnames hcontext, ← hmethods,
    (Element.name_of_router_eq_ok h).1]
  exact ⟨fun ⟨hname, hall⟩ => ⟨hname, hall⟩, fun husable => ⟨husable.name, husable.methods⟩⟩

/-- Rust accepts all names in the source of a method that is named by a keyword in use and has a
parameter of that name. -/
theorem isAccepted_escapedRouter :
    SourceFile.parse escapedText = .ok escapedFile ∧ escapedElement ∈ escapedFile.elements ∧
      escapedElement.router (SymbolTable.ofFiles [escapedFile] []).host = .ok escapedRouter ∧
      ∃ items, Rust.read escapedRouter.emit.source = some items ∧
        ∀ occurrence, Occurs items occurrence → occurrence.IsAccepted := by
  have hmem : escapedElement ∈ escapedFile.elements := List.mem_cons_of_mem _ List.mem_cons_self
  have husable : ∀ method ∈ escapedElement.methods,
      IsUsable method.name ∧ ∀ param ∈ method.params, IsUsable param.name := by decide +kernel
  obtain ⟨items, hread, hiff⟩ := Router.forall_isAccepted_iff parse_escapedText hmem
    (fun _ => rfl) router_escapedElement
  refine ⟨parse_escapedText, hmem, router_escapedElement, items, hread, hiff.2 ⟨?_, ?_⟩⟩
  · decide +kernel
  · exact fun method hmethod => ⟨(husable method hmethod).1, (husable method hmethod).2⟩

/-- An interface with a parameter that is named by a keyword that is reserved for later. -/
def reservedText : String :=
  "class T;\n@Intention(T) interface R \x7b\n" ++
    "fn go(c: Context, @Extra(\"a\") yield: Int) -> Request;\n\x7d"

/-- The interface of the text. -/
def reservedElement : Element where
  name := "R"
  package := ""
  imports := []
  position := ⟨2, 25⟩
  kind := .interfaceType
  marks := [⟨"Intention", ⟨2, 1⟩, [.path "T"]⟩]
  methods :=
    [ ⟨"go", ⟨3, 4⟩, [],
        [ ⟨"c", ⟨3, 7⟩, [], .named "Context", none⟩,
          ⟨"yield", ⟨3, 31⟩, [⟨"Extra", ⟨3, 19⟩, [.text "a"]⟩], .named "Int", none⟩ ],
        some (.named "Request")⟩ ]
  fields := []

/-- The file of the text. -/
def reservedFile : SourceFile :=
  ⟨none, [], [⟨"T", "", [], ⟨1, 7⟩, .classType, [], [], []⟩, reservedElement]⟩

/-- The route of the text. -/
def reservedRoute : Route :=
  ⟨"go", "c",
    [⟨"c", .named "Context", .context⟩, ⟨"yield", .named "i32", .extra ⟨.scalar, "a"⟩⟩]⟩

/-- The router of the text. -/
def reservedRouter : Router := ⟨"R", "", [], ⟨"", "T"⟩, [reservedRoute]⟩

theorem parse_reservedText : SourceFile.parse reservedText = .ok reservedFile := by
  cbv

theorem router_reservedElement :
    reservedElement.router (SymbolTable.ofFiles [reservedFile] []).host = .ok reservedRouter := by
  cbv

/-- **Rust does not accept every name** in generated source: a router is made of the text, and a
keyword stands in its source both where a parameter is bound and where it is read. -/
theorem not_isAccepted_reservedRouter :
    SourceFile.parse reservedText = .ok reservedFile ∧ reservedElement ∈ reservedFile.elements ∧
      reservedElement.router (SymbolTable.ofFiles [reservedFile] []).host = .ok reservedRouter ∧
      ∃ items, Rust.read reservedRouter.emit.source = some items ∧
        Occurs items ⟨.bound, "yield"⟩ ∧ Occurs items ⟨.value, "yield"⟩ ∧ "yield" ∈ keywords := by
  have hmem : reservedElement ∈ reservedFile.elements := List.mem_cons_of_mem _ List.mem_cons_self
  have hnames := Router.hasNames_of_parse parse_reservedText hmem (fun _ => rfl)
    router_reservedElement
  have hroute : reservedRoute ∈ reservedRouter.routes := List.mem_cons_self
  refine ⟨parse_reservedText, hmem, router_reservedElement, _, Router.read_emit hnames,
    Router.occurs_itemsOf_iff.2 (.inr (.inr ⟨_, hroute, ?_⟩)),
    Router.occurs_itemsOf_iff.2 (.inr (.inr ⟨_, hroute, ?_⟩)), by decide⟩
  · decide +kernel
  · decide +kernel

end RequestRouter
