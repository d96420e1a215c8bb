import RequestRouter.Proofs.Router.Names
import RequestRouter.Proofs.Rust.Items
import RequestRouter.Proofs.Rust.Lines

/-!
# The syntax of generated source

Generated source is put together from texts, line by line. Here each part of it is told by its
syntax instead: the signature of a method (`RequestRouter.Route.syntaxOf`) and its body
(`RequestRouter.Route.blockOf`), the statements of which are those that store the extras
(`RequestRouter.Route.statementOf`). The lines are the pieces of that syntax, for every router
whose names are names: `RequestRouter.Route.writes_signature` and
`RequestRouter.Route.writes_body`. Keys and destinations may be any texts, since they are written
as literals only.

What has to be known of a type is that its pieces end where the type does, so that the comma
behind it is not taken for one between two arguments
(`RequestRouter.TypeRef.exists_scansBefore_emitted`).
-/

namespace RequestRouter

open Rust

/-! ### Paths -/

/-- Names with separators between them. -/
inductive IsPath : String → Prop where
  /-- A name alone. -/
  | name {name : String} : isIdentifier name = true → IsPath name
  /-- A name in front of a path. -/
  | join {name path : String} : isIdentifier name = true → IsPath path →
      IsPath (name ++ Text.separator ++ path)

/-- The piece is a word or a colon. -/
def IsPathPiece (piece : Piece) : Prop := piece = .symbol ':' ∨ ∃ name, piece = .word name

theorem IsPathPiece.isPlain {piece : Piece} {opening closing stop : Char}
    (h : IsPathPiece piece) (hopening : opening ≠ ':') (hclosing : closing ≠ ':')
    (hstop : stop ≠ ':') :
    Brackets.IsPlain ⟨.symbol opening, .symbol closing, .symbol stop⟩ piece := by
  rcases h with rfl | ⟨name, rfl⟩
  · simp [Brackets.IsPlain, hopening.symm, hclosing.symm, hstop.symm]
  · simp [Brackets.IsPlain]

/-- A path is made of words and colons. -/
theorem IsPath.exists_scansBefore {path : String} (h : IsPath path) :
    ∃ pieces, ScansBefore path pieces ∧ ∀ piece ∈ pieces, IsPathPiece piece := by
  induction h with
  | @name name hname =>
    exact ⟨[.word name], scansBefore_word hname,
      fun piece hpiece => .inr ⟨name, List.mem_singleton.1 hpiece⟩⟩
  | @join name path hname _ ih =>
    obtain ⟨pieces, hscan, hplain⟩ := ih
    have hsep : Scans Text.separator [.symbol ':', .symbol ':'] := scans_of_run rfl
    refine ⟨[.word name] ++ [.symbol ':', .symbol ':'] ++ pieces,
      ((scansBefore_word hname).append hsep rfl).appendBefore hscan, fun piece hpiece => ?_⟩
    rcases List.mem_append.1 hpiece with hfront | hback
    · simp only [List.cons_append, List.nil_append, List.mem_cons, List.not_mem_nil, or_false]
        at hfront
      rcases hfront with rfl | rfl | rfl
      · exact .inr ⟨name, rfl⟩
      · exact .inl rfl
      · exact .inl rfl
    · exact hplain piece hback

theorem newline_notMem_of_isIdentifier {name : String} (h : isIdentifier name = true) :
    '\n' ∉ name.toList := by
  obtain ⟨c, rest, heq, hc, hrest⟩ := isIdentifier_iff.1 h
  rw [heq]
  intro hmem
  rcases List.mem_cons.1 hmem with rfl | hmem
  · cases hc
  · have := hrest _ hmem
    cases this

theorem IsPath.newline_notMem {path : String} (h : IsPath path) : '\n' ∉ path.toList := by
  induction h with
  | name hname => exact newline_notMem_of_isIdentifier hname
  | join hname _ ih =>
    rw [String.toList_append, String.toList_append]
    have hsep : '\n' ∉ Text.separator.toList := by decide
    simp [newline_notMem_of_isIdentifier hname, hsep, ih]

/-! ### Types -/

mutual

/-- The names of the type are paths. -/
def TypeRef.HasPaths : TypeRef → Prop
  | ⟨path, args, _⟩ => IsPath path ∧ HavePaths args

/-- The names of the types are paths. -/
def TypeRef.HavePaths : List TypeRef → Prop
  | [] => True
  | arg :: rest => TypeRef.HasPaths arg ∧ TypeRef.HavePaths rest

end

namespace TypeRef

theorem havePaths_iff {types : List TypeRef} :
    HavePaths types ↔ ∀ type ∈ types, type.HasPaths := by
  induction types with
  | nil => exact iff_of_true trivial (List.forall_mem_nil _)
  | cons type rest ih => rw [HavePaths, ih, List.forall_mem_cons]

/-- `inner` between angle brackets behind a path is balanced. -/
theorem balanced_applied {path inner : List Piece} (hpath : ∀ piece ∈ path, IsPathPiece piece)
    (hinner : Brackets.ofType.BalancedInside inner) :
    Brackets.ofType.Balanced (path ++ (.symbol '<' :: inner ++ [.symbol '>'])) := by
  refine (Brackets.balanced_of_isPlain fun piece hpiece => ?_).append
    (hinner.enclosed (by decide) (by decide))
  exact (hpath piece hpiece).isPlain (by decide) (by decide) (by decide)

theorem exists_scansBefore_applied {path : String} {args : List String}
    (hpath : IsPath path)
    (hargs : args ≠ [] → ∃ pieces, ScansBefore (", ".intercalate args) pieces ∧
      Brackets.ofType.BalancedInside pieces) :
    ∃ pieces, ScansBefore (applied path args) pieces ∧ Brackets.ofType.Balanced pieces := by
  obtain ⟨front, hfront, hplain⟩ := hpath.exists_scansBefore
  rw [applied]
  cases args with
  | nil =>
    refine ⟨front, hfront, Brackets.balanced_of_isPlain fun piece hpiece => ?_⟩
    exact (hplain piece hpiece).isPlain (by decide) (by decide) (by decide)
  | cons arg args =>
    obtain ⟨inner, hinner, hbalanced⟩ := hargs (by simp)
    have hopen : Scans "<" [.symbol '<'] := scans_of_run rfl
    have hclose : Scans ">" [.symbol '>'] := scans_of_run rfl
    refine ⟨front ++ (.symbol '<' :: inner ++ [.symbol '>']), ?_,
      balanced_applied hplain hbalanced⟩
    have hscan := (((hfront.append hopen rfl).appendBefore hinner).append hclose rfl).before
    simpa using hscan

theorem exists_scansBefore_optional {nullable : Bool} {inner : String} {pieces : List Piece}
    (hinner : ScansBefore inner pieces) (hbalanced : Brackets.ofType.Balanced pieces) :
    ∃ pieces, ScansBefore (optional nullable inner) pieces ∧ Brackets.ofType.Balanced pieces := by
  rw [optional]
  -- A type that may be absent goes between angle brackets.
  cases nullable with
  | false => exact ⟨pieces, hinner, hbalanced⟩
  | true =>
    have hopen : Scans "Option<" [.word "Option", .symbol '<'] := scans_of_run rfl
    have hclose : Scans ">" [.symbol '>'] := scans_of_run rfl
    have hword : ∀ piece ∈ [Piece.word "Option"], IsPathPiece piece :=
      fun piece hpiece => .inr ⟨"Option", List.mem_singleton.1 hpiece⟩
    refine ⟨[.word "Option"] ++ (.symbol '<' :: pieces ++ [.symbol '>']), ?_,
      balanced_applied hword hbalanced.inside⟩
    have hscan := ((hopen.appendBefore hinner).append hclose rfl).before
    simpa using hscan

mutual

/-- **A type can be told from what follows it.** -/
theorem exists_scansBefore_emitted : ∀ type : TypeRef, type.HasPaths →
    ∃ pieces, ScansBefore type.emitted pieces ∧ Brackets.ofType.Balanced pieces
  | ⟨path, args, nullable⟩, h => by
    rw [HasPaths] at h
    obtain ⟨pieces, hscan, hbalanced⟩ :=
      exists_scansBefore_applied h.1 (exists_scansBefore_emittedArgs args h.2)
    rw [emitted]
    exact exists_scansBefore_optional hscan hbalanced

theorem exists_scansBefore_emittedArgs : ∀ args : List TypeRef, HavePaths args →
    emittedArgs args ≠ [] → ∃ pieces, ScansBefore (", ".intercalate (emittedArgs args)) pieces ∧
      Brackets.ofType.BalancedInside pieces
  | [], _, hne => absurd (by rw [emittedArgs]) hne
  | [arg], h, _ => by
    rw [HavePaths] at h
    obtain ⟨pieces, hscan, hbalanced⟩ := exists_scansBefore_emitted arg h.1
    rw [emittedArgs, emittedArgs, String.intercalate_singleton]
    exact ⟨pieces, hscan, hbalanced.inside⟩
  | arg :: next :: rest, h, _ => by
    rw [HavePaths] at h
    obtain ⟨pieces, hscan, hbalanced⟩ := exists_scansBefore_emitted arg h.1
    obtain ⟨others, hothers, hinside⟩ := exists_scansBefore_emittedArgs (next :: rest) h.2
      (by rw [emittedArgs]; simp)
    -- The comma between two arguments stands inside the brackets of the type, and does not end it.
    have hinsideComma : Brackets.ofType.BalancedInside [.symbol ','] := fun _ => rfl
    rw [emittedArgs, emittedArgs, String.intercalate_cons_cons]
    rw [emittedArgs] at hothers
    exact ⟨pieces ++ [.symbol ','] ++ others, (hscan.append scans_comma rfl).appendBefore hothers,
      (hbalanced.inside.append hinsideComma).append hinside⟩

end

end TypeRef

/-! ### Names of a router -/

/-- The pieces of a text that has some. -/
def Rust.piecesOf (text : String) : List Piece := (lex text).getD []

theorem Rust.ScansBefore.piecesOf_eq {text : String} {pieces : List Piece}
    (h : ScansBefore text pieces) : piecesOf text = pieces := by
  rw [piecesOf, h.lex_eq, Option.getD_some]

/-- The name of the parameter is a name, and so are those of its type. The type of the context is
not written out. -/
structure RouteParam.HasNames (param : RouteParam) : Prop where
  name : isIdentifier param.name = true
  type : param.role ≠ .context → param.type.HasPaths

/-- The names of the route are names. -/
structure Route.HasNames (route : Route) : Prop where
  name : isIdentifier route.name = true
  context : isIdentifier route.context = true
  params : ∀ param ∈ route.params, param.HasNames

/-- The names of the router are names. Its package is a path or the root package. -/
structure Router.HasNames (router : Router) : Prop where
  name : isIdentifier router.name = true
  package : router.package = "" ∨ IsPath router.package
  imports : ∀ imported ∈ router.imports, IsPath imported
  routes : ∀ route ∈ router.routes, route.HasNames

/-! ### Signatures -/

namespace RouteParam

variable {param : RouteParam}

theorem HasNames.exists_scansBefore (h : param.HasNames) :
    ∃ pieces, ScansBefore param.emittedType pieces ∧ Brackets.ofType.Balanced pieces := by
  have hcontext : ScansBefore "&Context" ([.symbol '&'] ++ [.word "Context"]) :=
    scansBefore_of_run rfl
  rw [emittedType]
  cases hrole : param.role with
  | context =>
    refine ⟨_, hcontext, ?_⟩
    exact Brackets.balanced_of_isPlain (by simp [Brackets.IsPlain, Brackets.ofType])
  | extra binding => exact TypeRef.exists_scansBefore_emitted _ (h.type (by simp [hrole]))

/-- The parameter as a signature has it. -/
def syntaxOf (param : RouteParam) : String × List Piece :=
  (param.emittedName, piecesOf param.emittedType)

theorem HasNames.scansBefore_emittedName (h : param.HasNames) :
    ScansBefore param.emittedName [.word param.emittedName] :=
  scansBefore_word (isIdentifier_emittedName h.name)

theorem writes_syntaxOf (h : param.HasNames) :
    Writes ["        " ++ param.emittedName ++ ": " ++ param.emittedType ++ ","]
      (paramPieces param.syntaxOf) := by
  obtain ⟨pieces, htype, -⟩ := h.exists_scansBefore
  have hindent : Scans "        " [] := scans_of_run rfl
  have hcolon : Scans ": " [.symbol ':'] := scans_of_run rfl
  have hcomma : Scans "," [.symbol ','] := scans_of_run rfl
  have hname := (hindent.appendBefore h.scansBefore_emittedName).append hcolon rfl
  rw [syntaxOf, paramPieces, htype.piecesOf_eq]
  exact ((hname.appendBefore htype).append hcomma rfl).writes.of_eq (by simp)

end RouteParam

namespace Route

variable {route : Route}

/-- The signature of the method. -/
def syntaxOf (route : Route) : Signature :=
  ⟨emittedName route.name, route.params.map RouteParam.syntaxOf⟩

theorem isClear_syntaxOf (h : route.HasNames) : route.syntaxOf.IsClear := by
  intro param hparam
  obtain ⟨source, hsource, rfl⟩ := List.mem_map.1 hparam
  obtain ⟨pieces, hscan, hbalanced⟩ := (h.params source hsource).exists_scansBefore
  rw [RouteParam.syntaxOf, hscan.piecesOf_eq]
  exact hbalanced

/-- **The lines of a signature are its pieces**, with those of what ends it behind them. -/
theorem writes_signature (h : route.HasNames) {ending : String} {last : List Piece}
    (hending : Scans ending last) (hstarts : startsOff ending = true) :
    Writes (route.signature ending) (route.syntaxOf.pieces ++ last) := by
  have hname : ScansBefore (emittedName route.name) [.word (emittedName route.name)] :=
    scansBefore_word (isIdentifier_emittedName h.name)
  have hfn : Scans "    fn " [.word "fn"] := scans_of_run rfl
  have hopen : Scans "(" [.symbol '('] := scans_of_run rfl
  have hself : Scans "        &self," [.symbol '&', .word "self", .symbol ','] := scans_of_run rfl
  have hparams : Writes (route.params.map fun param =>
      "        " ++ param.emittedName ++ ": " ++ param.emittedType ++ ",")
        (route.syntaxOf.params.flatMap paramPieces) := by
    rw [syntaxOf, List.flatMap_map, List.map_eq_flatMap]
    exact writes_flatMap fun param hparam => RouteParam.writes_syntaxOf (h.params param hparam)
  have hreturn : ScansBefore "    ) -> Request"
      ([.symbol ')', .symbol '-', .symbol '>'] ++ [.word "Request"]) := scansBefore_of_run rfl
  have hfirst := ((hfn.appendBefore hname).append hopen rfl).writes
  have hall := ((hfirst.append hself.writes).append hparams).append
    (hreturn.append hending hstarts).writes
  exact hall.of_eq (by simp [Signature.pieces, syntaxOf])

/-! ### Bodies -/

/-- The call that stores an extra in the named request. -/
def callOf (request : String) (param : RouteParam) (binding : Binding) : Call :=
  ⟨request, binding.kind.storeOperation, binding.key, param.emittedName⟩

/-- The statement that stores an extra in the named request. -/
def statementOf (request : String) (param : RouteParam) (binding : Binding) : Statement :=
  if param.type.nullable then
    .guarded param.emittedName param.emittedName (callOf request param binding)
  else .plain (callOf request param binding)

/-- The body of the method. -/
def blockOf (route : Route) (destination : ClassName) : Block :=
  ⟨.create (!route.extras.isEmpty) route.requestName (emittedName route.context) destination
      :: route.extras.map fun extra => statementOf route.requestName extra.1 extra.2,
    route.requestName⟩

/-- Extras are parameters. -/
theorem mem_params_of_mem_extras {extra : RouteParam × Binding} (h : extra ∈ route.extras) :
    extra.1 ∈ route.params := by
  obtain ⟨param, hparam, hsome⟩ := List.mem_filterMap.1 h
  obtain ⟨binding, -, rfl⟩ := Option.map_eq_some_iff.1 hsome
  exact hparam

variable {request : String} {param : RouteParam} {binding : Binding} {destination : ClassName}

theorem mem_extras_of_role (hparam : param ∈ route.params) (hrole : param.role = .extra binding) :
    (param, binding) ∈ route.extras := by
  refine List.mem_filterMap.2 ⟨param, hparam, ?_⟩
  rw [RouteParam.binding?, hrole]
  rfl

theorem isLegal_storeOperation (kind : ExtraKind) : isLegal kind.storeOperation = true := by
  cases kind <;> decide

theorem scans_storeStatement (hrequest : isIdentifier request = true) (hparam : param.HasNames) :
    Scans (storeStatement request param binding) (callOf request param binding).pieces := by
  have hoperation : ScansBefore binding.kind.storeOperation [.word binding.kind.storeOperation] :=
    scansBefore_word (isIdentifier_of_isLegal (isLegal_storeOperation _))
  have hdot : Scans "." [.symbol '.'] := scans_of_run rfl
  have hopen : Scans "(" [.symbol '('] := scans_of_run rfl
  have hclose : Scans ");" [.symbol ')', .symbol ';'] := scans_of_run rfl
  have hcall := ((scansBefore_word hrequest).append hdot rfl).appendBefore hoperation
  have hkey := ((hcall.append hopen rfl).append (scans_literal binding.key)).append scans_comma
  have hargument := (hkey.appendBefore hparam.scansBefore_emittedName).append hclose rfl
  exact hargument.of_eq (by simp [callOf, Call.pieces])

/-- The lines that store an extra are the pieces of the statement that stores it. -/
theorem writes_storeLines (hrequest : isIdentifier request = true) (hparam : param.HasNames) :
    Writes (storeLines request param binding) (statementOf request param binding).pieces := by
  have hstore : Scans (storeStatement request param binding) _ :=
    scans_storeStatement hrequest hparam
  rw [storeLines, statementOf]
  split
  · have hname := hparam.scansBefore_emittedName
    have hif : Scans "        if let Some(" [.word "if", .word "let", .word "Some", .symbol '('] :=
      scans_of_run rfl
    have hequals : Scans ") = " [.symbol ')', .symbol '='] := scans_of_run rfl
    have hindent : Scans "            " [] := scans_of_run rfl
    have hclose : Scans "        \x7d" [.symbol '\x7d'] := scans_of_run rfl
    have hbound := (hif.appendBefore hname).append hequals rfl
    have hguard := (hbound.appendBefore hname).append scans_openBrace rfl
    have hall := (hguard.writes.append (hindent.append hstore).writes).append hclose.writes
    exact hall.of_eq (by simp [Statement.pieces])
  · have hindent : Scans "        " [] := scans_of_run rfl
    exact (hindent.append hstore).writes

theorem scans_opening (hroute : route.HasNames) :
    Scans (route.opening destination)
      (Statement.create (!route.extras.isEmpty) route.requestName (emittedName route.context)
        destination).pieces := by
  have hname : ScansBefore route.requestName [.word route.requestName] :=
    scansBefore_word (isIdentifier_of_isLegal isLegal_requestName)
  have hcontext : ScansBefore (emittedName route.context) [.word (emittedName route.context)] :=
    scansBefore_word (isIdentifier_emittedName hroute.context)
  have hlet : Scans "        let " [.word "let"] := scans_of_run rfl
  have hmut : Scans (if route.extras.isEmpty then "" else "mut ")
      (if !route.extras.isEmpty then [.word "mut"] else []) := by
    cases route.extras.isEmpty with
    | true => exact scans_empty
    | false => exact scans_of_run rfl
  have hnew : Scans " = Request::new(" [.symbol '=', .word "Request", .symbol ':', .symbol ':',
      .word "new", .symbol '('] := scans_of_run rfl
  have hdestination : Scans ", Destination::new(" [.symbol ',', .word "Destination", .symbol ':',
      .symbol ':', .word "new", .symbol '('] := scans_of_run rfl
  have hclose : Scans "));" [.symbol ')', .symbol ')', .symbol ';'] := scans_of_run rfl
  have hbinding := ((hlet.append hmut).appendBefore hname).append hnew rfl
  have hcall := (hbinding.appendBefore hcontext).append hdestination rfl
  have hpackage := (hcall.append (scans_literal destination.package)).append scans_comma
  have hall := (hpackage.append (scans_literal destination.simple)).append hclose
  exact hall.of_eq (by simp [Statement.pieces, Statement.creation])

/-- **The lines of a body are the pieces of its block.** -/
theorem writes_body (hroute : route.HasNames) :
    Writes (route.body destination) (route.blockOf destination).pieces := by
  have hrequest : isIdentifier route.requestName = true :=
    isIdentifier_of_isLegal isLegal_requestName
  have hindent : Scans "        " [] := scans_of_run rfl
  have hopening : Writes [route.opening destination] _ := (scans_opening hroute).writes
  have hstores : Writes
      (route.extras.flatMap fun extra => storeLines route.requestName extra.1 extra.2)
      (route.extras.flatMap fun extra =>
        (statementOf route.requestName extra.1 extra.2).pieces) := by
    refine writes_flatMap fun extra hextra => writes_storeLines hrequest ?_
    exact hroute.params _ (mem_params_of_mem_extras hextra)
  have hresult : Writes ["        " ++ route.requestName] [.word route.requestName] :=
    (hindent.appendBefore (scansBefore_word hrequest)).writes
  exact ((hopening.append hstores).append hresult).of_eq
    (by simp [blockOf, Block.pieces, List.flatMap_map])

end Route

end RequestRouter
