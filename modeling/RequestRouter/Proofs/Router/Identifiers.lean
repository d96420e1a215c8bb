import Mathlib.Data.List.Nodup
import RequestRouter.Proofs.Router.Declared
import RequestRouter.Proofs.Router.Meaning

/-!
# Names that generated source confuses

Names that the language reserves get an underscore in generated source, and a declaration may have
the name with the underscore, too. Then the two are one name in generated source, and these are the
only names that are (`RequestRouter.emittedName_eq_emittedName_iff`). So different names stay
different exactly if none of them is a reserved word with an underscore next to the word itself
(`RequestRouter.nodup_map_emittedName_iff`).

For a router this decides about the parameters of each method and about the methods
(`RequestRouter.Router.nodup_emittedName_iff`), whose names stand in the signatures of the
generated source, in the trait and in its implementation alike.
-/

namespace RequestRouter

open Rust

/-! ### Names -/

/-- The names are different, and no reserved word stands next to the name that it gets. -/
structure Distinguished (names : List String) : Prop where
  nodup : names.Nodup
  escaped : ∀ word ∈ reservedWords, word ∈ names → word ++ "_" ∉ names

theorem emittedName_of_mem {name : String} (h : name ∈ reservedWords) :
    emittedName name = name ++ "_" := by
  rw [emittedName, if_pos (List.contains_iff_mem.2 h)]

theorem emittedName_of_notMem {name : String} (h : name ∉ reservedWords) :
    emittedName name = name := by
  rw [emittedName, if_neg fun hmem => h (List.contains_iff_mem.1 hmem)]

theorem append_notMem_reservedWords {word : String} (h : word ∈ reservedWords) :
    word ++ "_" ∉ reservedWords := by
  have hall : ∀ word ∈ reservedWords, word ++ "_" ∉ reservedWords := by decide +kernel
  exact hall word h

/-- **Two names become one** only if one of them is a reserved word, and the other that word with
an underscore. -/
theorem emittedName_eq_emittedName_iff {a b : String} :
    emittedName a = emittedName b ↔
      a = b ∨ a ∈ reservedWords ∧ b = a ++ "_" ∨ b ∈ reservedWords ∧ a = b ++ "_" := by
  constructor
  · intro h
    -- Either of the names is escaped or not.
    by_cases ha : a ∈ reservedWords
    · rw [emittedName_of_mem ha] at h
      by_cases hb : b ∈ reservedWords
      · rw [emittedName_of_mem hb, String.append_left_inj] at h
        exact .inl h
      · rw [emittedName_of_notMem hb] at h
        exact .inr (.inl ⟨ha, h.symm⟩)
    · rw [emittedName_of_notMem ha] at h
      by_cases hb : b ∈ reservedWords
      · rw [emittedName_of_mem hb] at h
        exact .inr (.inr ⟨hb, h⟩)
      · rw [emittedName_of_notMem hb] at h
        exact .inl h
  · rintro (rfl | ⟨ha, rfl⟩ | ⟨hb, rfl⟩)
    · rfl
    · rw [emittedName_of_mem ha, emittedName_of_notMem (append_notMem_reservedWords ha)]
    · rw [emittedName_of_mem hb, emittedName_of_notMem (append_notMem_reservedWords hb)]

/-- **Names stay different** in generated source if none of them becomes another. -/
theorem nodup_map_emittedName_iff {names : List String} :
    (names.map emittedName).Nodup ↔ Distinguished names := by
  constructor
  · intro h
    have hinj := (List.nodup_map_iff_inj_on h.of_map).1 h
    refine ⟨h.of_map, fun word hword hmem hescaped => ?_⟩
    have hsame := emittedName_eq_emittedName_iff.2 (.inr (.inl ⟨hword, rfl⟩))
    have heq : word = word ++ "_" := hinj word hmem _ hescaped hsame
    exact append_notMem_reservedWords hword (heq ▸ hword)
  · intro h
    refine (List.nodup_map_iff_inj_on h.nodup).2 fun a ha b hb heq => ?_
    rcases emittedName_eq_emittedName_iff.1 heq with hsame | ⟨hword, rfl⟩ | ⟨hword, rfl⟩
    · exact hsame
    · exact absurd hb (h.escaped a hword ha)
    · exact absurd ha (h.escaped b hword hb)

instance (names : List String) : Decidable (Distinguished names) :=
  decidable_of_iff _ nodup_map_emittedName_iff

/-! ### Routers -/

theorem Route.IsOf.nodup_params_iff {route : Route} {method : Method} (h : route.IsOf method) :
    (route.params.map RouteParam.emittedName).Nodup ↔
      Distinguished (method.params.map Param.name) := by
  rw [← nodup_map_emittedName_iff, ← h.map_name_params, List.map_map]
  rfl

theorem map_name_of_forall₂_isOf {methods : List Method} {routes : List Route}
    (h : List.Forall₂ (fun method route => Route.IsOf route method) methods routes) :
    routes.map Route.name = methods.map Method.name := by
  rw [← List.forall₂_eq_eq_eq, List.forall₂_map_left_iff, List.forall₂_map_right_iff]
  exact List.Forall₂.flip (h.imp fun _ _ hof => hof.name)

/-- The signatures are those of the routes, as far as names go. -/
structure Router.NamedBy (router : Router) (signatures : List Signature) : Prop where
  methods : signatures.map Signature.name =
    router.routes.map fun route => emittedName route.name
  params : signatures.map (fun signature => signature.params.map Prod.fst) =
    router.routes.map fun route => route.params.map RouteParam.emittedName

theorem Router.namedBy_map_syntaxOf (router : Router) :
    router.NamedBy (router.routes.map Route.syntaxOf) where
  methods := by
    rw [List.map_map]
    rfl
  params := by
    rw [List.map_map]
    refine List.map_congr_left fun route _ => ?_
    rw [Function.comp_apply, Route.syntaxOf, List.map_map]
    rfl

/-- **Which names generated source keeps apart.** The parameters of a method have different names
in the signature of its route exactly if their declared names are different and there is no
reserved word among them next to the name that it gets; and so have the methods. These are the
names in the trait and in its implementation as the generated source is read. -/
theorem Router.nodup_emittedName_iff {host : Host} {element : Element} {router : Router}
    (h : element.router host = .ok router) :
    List.Forall₂ (fun method route => (route.params.map RouteParam.emittedName).Nodup ↔
        Distinguished (method.params.map Param.name)) element.methods router.routes ∧
      ((router.routes.map fun route => emittedName route.name).Nodup ↔
        Distinguished (element.methods.map Method.name)) ∧
      (router.HasNames → ∃ (items : List Item) (methods : List Rust.Method),
        Rust.read router.emit.source = some items ∧
        items.filterMap Item.trait? = [(router.name, methods.map Rust.Method.signature)] ∧
        items.filterMap Item.impl? = [(router.name, router.utilName, methods)] ∧
        router.NamedBy (methods.map Rust.Method.signature)) := by
  obtain ⟨-, hroutes⟩ := Element.forall₂_isOf_of_router_eq_ok h
  refine ⟨hroutes.imp fun _ _ hof => hof.nodup_params_iff, ?_, fun hnames => ?_⟩
  · rw [← nodup_map_emittedName_iff, ← map_name_of_forall₂_isOf hroutes, List.map_map]
    rfl
  · have hsignatures : (router.routes.map fun route => route.methodOf router.destination).map
        Rust.Method.signature = router.routes.map Route.syntaxOf := by
      rw [List.map_map]
      rfl
    refine ⟨_, router.routes.map fun route => route.methodOf router.destination,
      read_emit hnames, ?_, filterMap_impl?_itemsOf, ?_⟩
    · rw [filterMap_trait?_itemsOf, hsignatures]
    · rw [hsignatures]
      exact router.namedBy_map_syntaxOf

/-- An interface with a method that is named by a reserved word and has a parameter of that name.
Another parameter has the name that the word gets, and so has another method. -/
def escapedText : String :=
  "class T;\n@Intention(T) interface R \x7b\n" ++
    "fn in(c: Context, @Extra(\"a\") in: Int, @Extra(\"b\") in_: Int) -> Request;\n" ++
    "fn in_(c: Context) -> Request;\n\x7d"

/-- The interface of the text. -/
def escapedElement : Element where
  name := "R"
  package := ""
  imports := []
  position := ⟨2, 25⟩
  kind := .interfaceType
  marks := [⟨"Intention", ⟨2, 1⟩, [.path "T"]⟩]
  methods :=
    [ ⟨"in", ⟨3, 4⟩, [],
        [ ⟨"c", ⟨3, 7⟩, [], .named "Context", none⟩,
          ⟨"in", ⟨3, 31⟩, [⟨"Extra", ⟨3, 19⟩, [.text "a"]⟩], .named "Int", none⟩,
          ⟨"in_", ⟨3, 52⟩, [⟨"Extra", ⟨3, 40⟩, [.text "b"]⟩], .named "Int", none⟩ ],
        some (.named "Request")⟩,
      ⟨"in_", ⟨4, 4⟩, [], [⟨"c", ⟨4, 8⟩, [], .named "Context", none⟩], some (.named "Request")⟩ ]
  fields := []

/-- The file of the text. -/
def escapedFile : SourceFile :=
  ⟨none, [], [⟨"T", "", [], ⟨1, 7⟩, .classType, [], [], []⟩, escapedElement]⟩

/-- The router of the text. -/
def escapedRouter : Router :=
  ⟨"R", "", [], ⟨"", "T"⟩,
    [ ⟨"in", "c",
        [ ⟨"c", .named "Context", .context⟩,
          ⟨"in", .named "i32", .extra ⟨.scalar, "a"⟩⟩,
          ⟨"in_", .named "i32", .extra ⟨.scalar, "b"⟩⟩ ]⟩,
      ⟨"in_", "c", [⟨"c", .named "Context", .context⟩]⟩ ]⟩

theorem parse_escapedText : SourceFile.parse escapedText = .ok escapedFile := by
  cbv

theorem router_escapedElement :
    escapedElement.router (SymbolTable.ofFiles [escapedFile] []).host = .ok escapedRouter := by
  cbv

theorem hasNames_escapedRouter : escapedRouter.HasNames :=
  Router.hasNames_of_parse parse_escapedText (List.mem_cons_of_mem _ List.mem_cons_self)
    (fun _ => rfl) router_escapedElement

/-- The parameters of the first method are not kept apart in the source of the text, and those of
the second are. -/
theorem nodup_emittedName_escapedRouter :
    escapedElement.router (SymbolTable.ofFiles [escapedFile] []).host = .ok escapedRouter ∧
      escapedRouter.HasNames ∧ ¬Distinguished ["in", "in_"] ∧
      ¬Distinguished ["c", "in", "in_"] ∧ Distinguished ["c"] ∧
      ∃ (items : List Item) (methods : List Rust.Method),
        Rust.read escapedRouter.emit.source = some items ∧
        items.filterMap Item.impl? = [("R", "RUtil", methods)] ∧
        methods.map (fun method => method.signature.params.map Prod.fst) =
          [["c", "in_", "in_"], ["c"]] := by
  have hnames := hasNames_escapedRouter
  obtain ⟨hparams, hmethods, hsource⟩ := Router.nodup_emittedName_iff router_escapedElement
  obtain ⟨items, methods, hread, -, himpl, hnamed⟩ := hsource hnames
  refine ⟨router_escapedElement, hnames, mt hmethods.2 (by decide +kernel), ?_, ?_, items, methods,
    hread, himpl, ?_⟩
  · rcases hparams with - | ⟨hfirst, -⟩
    exact mt hfirst.2 (by decide +kernel)
  · rcases hparams with - | ⟨-, - | ⟨hsecond, -⟩⟩
    exact hsecond.1 (by decide +kernel)
  · have hall := hnamed.params
    rw [List.map_map] at hall
    exact hall.trans (by decide +kernel)

/-- **Different names can become one**: the parameters of each method of the text have different
names, and so have the methods, but in the source that is generated from it two parameters of a
method have the same name, and two methods. -/
theorem not_nodup_emittedName_escapedRouter :
    SourceFile.parse escapedText = .ok escapedFile ∧ escapedElement ∈ escapedFile.elements ∧
      escapedElement.router (SymbolTable.ofFiles [escapedFile] []).host = .ok escapedRouter ∧
      (∀ method ∈ escapedElement.methods, (method.params.map Param.name).Nodup) ∧
      (escapedElement.methods.map Method.name).Nodup ∧
      ∃ (items : List Item) (signatures : List Signature),
        Rust.read escapedRouter.emit.source = some items ∧
        items.filterMap Item.trait? = [("R", signatures)] ∧
        (∃ signature ∈ signatures, ¬(signature.params.map Prod.fst).Nodup) ∧
        ¬(signatures.map Signature.name).Nodup := by
  have hnamed := escapedRouter.namedBy_map_syntaxOf
  refine ⟨parse_escapedText, List.mem_cons_of_mem _ List.mem_cons_self, router_escapedElement,
    by decide +kernel, by decide +kernel, escapedRouter.itemsOf, _,
    Router.read_emit hasNames_escapedRouter, Router.filterMap_trait?_itemsOf, ?_, ?_⟩
  · refine ⟨_, List.mem_map_of_mem List.mem_cons_self, ?_⟩
    decide +kernel
  · rw [hnamed.methods]
    decide +kernel

end RequestRouter
