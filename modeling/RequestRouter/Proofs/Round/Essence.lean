import RequestRouter.Proofs.Declaration.Positions
import RequestRouter.Proofs.Round.Order

/-!
# What a round looks at

Three things about its files make no difference to a round: where declarations stand, the defaults
of parameters, and whether a parameter that allows absent values says so by a question mark or by a
mark. The essence of a file is the file without them (`RequestRouter.SourceFile.essence`), and a
round over the essences of files comes to the same as one over the files, apart from the positions
in diagnostics (`RequestRouter.compileRound_essence`): everything that checks or generates a
parameter asks for its declared type, and no mark of an extra is one of those that are dropped.

Reading only copies positions (`RequestRouter.SourceFile.ofTokens_moved`), so texts whose tokens
are spelled alike have files of one essence. Both together are the main statement,
`RequestRouter.compile_agrees_of_essence`.
-/

namespace RequestRouter

/-! ### Essences -/

/-- The mark without its position. -/
def Mark.essence (mark : Mark) : Mark := mark.moved fun _ => .first

/-- The parameter without positions and default. That it allows absent values is said by its type
and by no mark. -/
def Param.essence (param : Param) : Param where
  name := param.name
  position := .first
  marks := (param.marks.filter fun mark => mark.name != nullableMark).map Mark.essence
  type := param.declaredType
  default := none

/-- The method, of the essences of its parts. -/
def Method.essence (method : Method) : Method where
  name := method.name
  position := .first
  marks := method.marks.map Mark.essence
  params := method.params.map Param.essence
  returnType := method.returnType

/-- The property without its position. -/
def Field.essence (field : Field) : Field := field.moved fun _ => .first

/-- The declared type, of the essences of its parts. -/
def Element.essence (element : Element) : Element where
  name := element.name
  package := element.package
  imports := element.imports
  position := .first
  kind := element.kind
  marks := element.marks.map Mark.essence
  methods := element.methods.map Method.essence
  fields := element.fields.map Field.essence

/-- The file, of the essences of its declared types. -/
def SourceFile.essence (file : SourceFile) : SourceFile :=
  { file with elements := file.elements.map Element.essence }

theorem findMark?_essence (name : String) (marks : List Mark) :
    findMark? name (marks.map Mark.essence) = (findMark? name marks).map Mark.essence := by
  rw [findMark?, findMark?, List.find?_map]
  rfl

/-! ### Parameters -/

namespace Param

/-- Marks of other names are found as before. -/
theorem findMark?_essence (param : Param) {name : String} (hname : name ≠ nullableMark) :
    findMark? name param.essence.marks = (findMark? name param.marks).map Mark.essence := by
  rw [essence, RequestRouter.findMark?_essence, findMark?, findMark?, List.find?_filter]
  refine congrArg (Option.map Mark.essence) (congrArg (param.marks.find? ·) (funext fun mark => ?_))
  by_cases hmark : mark.name = name
  · simp [hmark, hname]
  · simp [hmark]

/-- A mark that allows absent values is none of the essence. -/
theorem nullable_essence (param : Param) : findMark? nullableMark param.essence.marks = none := by
  rw [findMark?_eq_none_iff, essence, List.forall_mem_map]
  intro mark hmark
  exact bne_iff_ne.1 (List.mem_filter.1 hmark).2

/-- **The declared type is kept**. -/
theorem declaredType_essence (param : Param) : param.essence.declaredType = param.declaredType := by
  rw [declaredType, nullable_essence]
  rfl

theorem isContext_essence (param : Param) : param.essence.isContext = param.isContext := by
  rw [isContext, isContext, declaredType_essence]

theorem inRole_essence (param : Param) (role : Role) :
    param.essence.inRole role = param.inRole role := by
  rw [inRole, inRole, declaredType_essence]
  rfl

theorem extraMark?_essence (param : Param) : param.essence.extraMark? =
    param.extraMark?.map fun found => (found.1, found.2.essence) := by
  have hkind : ∀ kind : ExtraKind, kind.markName ≠ nullableMark := by
    intro kind
    cases kind <;> decide
  simp only [extraMark?, findMark?_essence param (hkind _), List.map_findSome?, Option.map_map,
    Function.comp_def]

theorem asExtra_essence (method : String) (param : Param) :
    param.essence.asExtra method = param.asExtra method := by
  have hbinding : param.essence.binding method = param.binding method := by
    rw [binding, binding, extraMark?_essence]
    cases param.extraMark? <;> rfl
  rw [asExtra, asExtra, hbinding]
  simp only [inRole_essence]

end Param

/-! ### Methods -/

theorem checkParams_essence (method : String) (found : Bool) (params : List Param) :
    checkParams method found (params.map Param.essence) = checkParams method found params := by
  induction params generalizing found with
  | nil => rfl
  | cons param rest ih =>
    simp only [List.map_cons, checkParams, Param.isContext_essence, Param.inRole_essence,
      Param.asExtra_essence, ih]

namespace Method

theorem context?_essence (method : Method) :
    method.essence.context? = method.context?.map Param.essence := by
  rw [context?, context?, essence, List.find?_map]
  refine congrArg _ (List.find?_congr fun param _ => param.isContext_essence)

theorem checkedParams_essence (method : Method) :
    method.essence.checkedParams = method.checkedParams :=
  checkParams_essence method.name false method.params

theorem faults_essence (method : Method) : method.essence.faults = method.faults := by
  rw [faults, faults, checkedParams_essence, context?_essence, Option.isSome_map]
  rfl

theorem route_essence (method : Method) : method.essence.route = method.route := by
  rw [route, route, context?_essence, faults_essence, checkedParams_essence]
  cases method.context? <;> rfl

end Method

theorem routesOf_essence (methods : List Method) :
    routesOf (methods.map Method.essence) = routesOf methods := by
  induction methods with
  | nil => rfl
  | cons method rest ih => rw [List.map_cons, routesOf, routesOf, Method.route_essence, ih]

/-! ### Declared types -/

namespace Element

theorem destination_essence (table : SymbolTable) (element : Element) :
    element.essence.destination table.host = element.destination table.host := by
  have hmark : element.essence.routerMark? = element.routerMark?.map Mark.essence :=
    findMark?_essence _ _
  rw [destination, destination, hmark]
  cases element.routerMark? <;> rfl

/-- **The same router is made**, or the same faults are found. -/
theorem router_essence (table : SymbolTable) (element : Element) :
    element.essence.router table.host = element.router table.host := by
  have hinterface : element.essence.checkInterface = element.checkInterface := by
    rw [checkInterface, checkInterface, essence, List.isEmpty_map]
    rfl
  rw [router, router, hinterface, destination_essence, essence, routesOf_essence]
  rfl

/-- **What is reported says the same**, wherever it points. -/
theorem said_report_essence (element : Element) (fault : Fault) :
    (element.essence.report fault).said = (element.report fault).said := by
  have hmethod : ∀ name, element.essence.method? name =
      (element.method? name).map Method.essence := by
    intro name
    rw [method?, method?, essence, List.find?_map]
    rfl
  -- A symbol is made of names, and these are essential.
  have hsymbol : (element.essence.locate fault).symbol = (element.locate fault).symbol := by
    cases fault with
    | missingContext name =>
      rw [locate, locate, memberLocation?, memberLocation?, hmethod]
      cases element.method? name <;> rfl
    | wrongReturn name found =>
      rw [locate, locate, memberLocation?, memberLocation?, hmethod]
      cases element.method? name <;> rfl
    | missingBinding name param =>
      rw [locate, locate, memberLocation?, memberLocation?, hmethod]
      cases element.method? name with
      | none => rfl
      | some method =>
        simp only [Option.map_some, Option.bind_some, Method.essence, List.find?_map]
        change (Option.getD (((method.params.find? fun p => p.name == param).map
          Param.essence).map (element.essence.paramLocation name)) _).symbol = _
        cases method.params.find? fun p => p.name == param <;> rfl
    | _ => rfl
  rw [report, report, Diagnostic.said, Diagnostic.said, Option.map_some, Option.map_some, hsymbol]

end Element

/-! ### Rounds -/

/-- The outcomes hold the same files, and their diagnostics say the same in the same order. -/
def Outcome.Agrees (outcome other : Outcome Store) : Prop :=
  outcome.store = other.store ∧
    outcome.diagnostics.map Diagnostic.said = other.diagnostics.map Diagnostic.said

theorem processElements_essence (table : SymbolTable) (sink : Sink Store) (options : Options)
    (elements : List Element) {outcome other : Outcome Store} (h : outcome.Agrees other) :
    Outcome.Agrees
      ((⟨table.host, sink, options⟩ : Environment Store).processElements
        (elements.map Element.essence) outcome)
      ((⟨table.host, sink, options⟩ : Environment Store).processElements elements other) := by
  induction elements generalizing outcome other with
  | nil => exact h
  | cons element rest ih =>
    obtain ⟨store, diagnostics⟩ := outcome
    obtain ⟨_, others⟩ := other
    obtain ⟨rfl, hsaid⟩ := h
    -- Both elements are made the same file or have the same faults; only reports can differ.
    have hprocessed : (⟨table.host, sink, options⟩ : Environment Store).processElement
        element.essence store =
          (⟨table.host, sink, options⟩ : Environment Store).processElement element store := by
      rw [Environment.processElement, Environment.processElement, Element.router_essence]
    rw [List.map_cons, Environment.processElements, Environment.processElements, hprocessed]
    rcases (⟨table.host, sink, options⟩ : Environment Store).processElement element store with
      ⟨faults | _, store'⟩
    · have hreported : (diagnostics ++ faults.map element.essence.report).map Diagnostic.said =
          (others ++ faults.map element.report).map Diagnostic.said := by
        simp only [List.map_append, List.map_map, hsaid, Function.comp_def,
          Element.said_report_essence]
      change Outcome.Agrees (if options.keepGoing = true then _ else _)
        (if options.keepGoing = true then _ else _)
      split
      · exact ih ⟨rfl, hreported⟩
      · exact ⟨rfl, hreported⟩
    · exact ih ⟨rfl, hsaid⟩

theorem elements_essence (files : List SourceFile) :
    (files.map SourceFile.essence).flatMap SourceFile.elements =
      (files.flatMap SourceFile.elements).map Element.essence := by
  rw [List.flatMap_map, List.map_flatMap]
  rfl

theorem candidates_essence (files : List SourceFile) :
    candidates (files.map SourceFile.essence) = (candidates files).map Element.essence := by
  have hmarked : ∀ element : Element, (findMark? routerMark element.essence.marks).isSome =
      (findMark? routerMark element.marks).isSome := by
    intro element
    rw [Element.essence, findMark?_essence, Option.isSome_map]
  rw [candidates, candidates, markedElements, markedElements, elements_essence, List.filter_map]
  exact congrArg _ (List.filter_congr fun element _ => hmarked element)

theorem ofFiles_essence (files : List SourceFile) (compiled : List String) :
    SymbolTable.ofFiles (files.map SourceFile.essence) compiled =
      SymbolTable.ofFiles files compiled := by
  rw [SymbolTable.ofFiles, SymbolTable.ofFiles, elements_essence, List.map_map]
  rfl

/-- **A round comes to the same over the essences of files**. -/
theorem compileRound_essence (files : List SourceFile) (compiled : List String)
    (options : Options) :
    Outcome.Agrees (compileRound (files.map SourceFile.essence) compiled options)
      (compileRound files compiled options) := by
  rw [compileRound, compileRound, ofFiles_essence, Environment.processRound,
    Environment.processRound, candidates_essence]
  exact processElements_essence _ _ _ _ ⟨rfl, rfl⟩

/-! ### Moved files -/

section

variable (φ : Position → Position)

theorem Mark.essence_moved (mark : Mark) : (mark.moved φ).essence = mark.essence := rfl

theorem Param.essence_moved (param : Param) : (param.moved φ).essence = param.essence := by
  have hmarks : ((param.moved φ).marks.filter fun mark => mark.name != nullableMark) =
      (param.marks.filter fun mark => mark.name != nullableMark).map (Mark.moved φ) :=
    List.filter_map
  have hnullable : findMark? nullableMark (param.moved φ).marks =
      (findMark? nullableMark param.marks).map (Mark.moved φ) := List.find?_map ..
  have hdeclared : (param.moved φ).declaredType = param.declaredType := by
    rw [declaredType, declaredType, hnullable, Option.isSome_map]
    rfl
  rw [essence, essence, hmarks, hdeclared, List.map_map]
  rfl

theorem Method.essence_moved (method : Method) : (method.moved φ).essence = method.essence := by
  simp only [essence, moved, List.map_map, Function.comp_def, Mark.essence_moved,
    Param.essence_moved]

theorem Element.essence_moved (element : Element) :
    (element.moved φ).essence = element.essence := by
  simp only [essence, moved, List.map_map, Function.comp_def, Mark.essence_moved,
    Method.essence_moved]
  rfl

/-- Wherever its parts stand, a file has the same essence. -/
theorem SourceFile.essence_moved (file : SourceFile) : (file.moved φ).essence = file.essence := by
  simp only [essence, moved, List.map_map, Function.comp_def, Element.essence_moved]

end

/-! ### Texts that are spelled alike -/

/-- Both texts have tokens, and these are the same apart from their positions. -/
def SpelledAlike (text other : String) : Prop :=
  ∃ ts us, tokens text = .ok ts ∧ tokens other = .ok us ∧
    ts.map Token.text = us.map Token.text

/-- A text that is spelled like one of a file is read as a file, of the same essence. -/
theorem SpelledAlike.exists_parse {text other : String} (h : SpelledAlike text other)
    {file : SourceFile} (hfile : SourceFile.parse text = .ok file) :
    ∃ file', SourceFile.parse other = .ok file' ∧ file'.essence = file.essence := by
  obtain ⟨ts, us, hts, hus, htexts⟩ := h
  obtain ⟨ts', hts', hfile⟩ := Parsed.bind_eq_ok_iff.1 hfile
  cases hts.symm.trans hts'
  obtain ⟨file', hfile', hmoved⟩ := SourceFile.exists_ofTokens_of_map_text_eq
    (endsOnce_tokensAt hts).ne_nil htexts hfile .first
  refine ⟨file', Parsed.bind_eq_ok_iff.2 ⟨us, hus, hfile'⟩, ?_⟩
  rw [← file'.essence_moved fun _ => .first, hmoved, file.essence_moved]

theorem exists_parseAll_of_spelledAlike {texts others : List String}
    (h : List.Forall₂ SpelledAlike texts others) {files : List SourceFile}
    (hfiles : parseAll texts = .ok files) :
    ∃ files', parseAll others = .ok files' ∧
      files'.map SourceFile.essence = files.map SourceFile.essence := by
  rw [parseAll] at hfiles
  induction h generalizing files with
  | nil =>
    cases hfiles
    exact ⟨[], rfl, rfl⟩
  | cons halike _ ih =>
    rw [List.mapM_cons] at hfiles
    obtain ⟨file, hfile, hfiles⟩ := Parsed.bind_eq_ok_iff.1 hfiles
    obtain ⟨later, hlater, hfiles⟩ := Parsed.bind_eq_ok_iff.1 hfiles
    cases hfiles
    obtain ⟨file', hfile', hsame⟩ := halike.exists_parse hfile
    obtain ⟨later', hlater', hrest⟩ := ih hlater
    refine ⟨file' :: later', ?_, ?_⟩
    · rw [parseAll] at hlater'
      rw [parseAll, List.mapM_cons, hfile', hlater']
      rfl
    · rw [List.map_cons, List.map_cons, hsame, hrest]

theorem Outcome.Agrees.symm {outcome other : Outcome Store} (h : outcome.Agrees other) :
    other.Agrees outcome := ⟨h.1.symm, h.2.symm⟩

theorem Outcome.Agrees.trans {outcome other third : Outcome Store} (h : outcome.Agrees other)
    (h' : other.Agrees third) : outcome.Agrees third := ⟨h.1.trans h'.1, h.2.trans h'.2⟩

/-- Rounds over files of the same essences agree. -/
theorem agrees_of_essence {files others : List SourceFile}
    (h : files.map SourceFile.essence = others.map SourceFile.essence) (compiled : List String)
    (options : Options) :
    (compileRound files compiled options).Agrees (compileRound others compiled options) := by
  have hfiles := compileRound_essence files compiled options
  rw [h] at hfiles
  exact hfiles.symm.trans (compileRound_essence others compiled options)

/-- **Only the meaning of files counts.** Two rounds over files that differ in positions, in
defaults, and in how parameters allow absent values generate the same files, and their diagnostics
say the same in the same order. And if texts are read and compiled, so are texts that are spelled
alike, with the same files and diagnostics that say the same. -/
theorem compile_agrees_of_essence :
    (∀ files others : List SourceFile,
      files.map SourceFile.essence = others.map SourceFile.essence →
        ∀ compiled options,
          (compileRound files compiled options).Agrees (compileRound others compiled options)) ∧
      ∀ texts others : List String, List.Forall₂ SpelledAlike texts others →
        ∀ outcome, compileTexts texts = .ok outcome →
          ∃ other, compileTexts others = .ok other ∧ outcome.Agrees other := by
  refine ⟨fun files others h compiled options => agrees_of_essence h compiled options, ?_⟩
  intro texts others halike outcome houtcome
  rw [compileTexts] at houtcome
  cases hfiles : parseAll texts with
  | error fault =>
    rw [hfiles] at houtcome
    cases houtcome
  | ok files =>
    rw [hfiles] at houtcome
    cases houtcome
    obtain ⟨files', hfiles', hsame⟩ := exists_parseAll_of_spelledAlike halike hfiles
    refine ⟨compileRound files' [] {}, ?_, agrees_of_essence hsame.symm [] {}⟩
    rw [compileTexts, hfiles']
    rfl

/-- A file with a route that takes the given parameter. -/
def routeFile (param : Param) : SourceFile :=
  ⟨none, [], [plainClass, { plainInterface "R" 10 34 with
    methods := [⟨"go", ⟨1, 41⟩, [], [⟨"c", ⟨1, 44⟩, [], .named "Context", none⟩, param],
      some (.named "Request")⟩] }]⟩

/-- A parameter that allows absent values by a question mark, and has a default. -/
def questionParam : Param :=
  ⟨"n", ⟨1, 68⟩, [⟨"Extra", ⟨1, 56⟩, [.text "k"]⟩], ⟨"Int", [], true⟩, some "3"⟩

/-- The same parameter, which allows absent values by a mark. -/
def nullableParam : Param :=
  ⟨"n", ⟨1, 78⟩, [⟨"Nullable", ⟨1, 56⟩, []⟩, ⟨"Extra", ⟨1, 66⟩, [.text "k"]⟩], .named "Int", none⟩

/-- The text of an interface, on several lines. -/
def brokenText : String := "class T;\n@Intention(T)\ninterface R;"

theorem spelledAlike_brokenText : SpelledAlike plainText brokenText := by
  have hplain : tokens plainText = .ok [⟨"class", ⟨1, 1⟩⟩, ⟨"T", ⟨1, 7⟩⟩, ⟨";", ⟨1, 8⟩⟩,
      ⟨"@", ⟨1, 10⟩⟩, ⟨"Intention", ⟨1, 11⟩⟩, ⟨"(", ⟨1, 20⟩⟩, ⟨"T", ⟨1, 21⟩⟩, ⟨")", ⟨1, 22⟩⟩,
      ⟨"interface", ⟨1, 24⟩⟩, ⟨"R", ⟨1, 34⟩⟩, ⟨";", ⟨1, 35⟩⟩, ⟨"", ⟨1, 36⟩⟩] := by
    cbv
  have hbroken : tokens brokenText = .ok [⟨"class", ⟨1, 1⟩⟩, ⟨"T", ⟨1, 7⟩⟩, ⟨";", ⟨1, 8⟩⟩,
      ⟨"@", ⟨2, 1⟩⟩, ⟨"Intention", ⟨2, 2⟩⟩, ⟨"(", ⟨2, 11⟩⟩, ⟨"T", ⟨2, 12⟩⟩, ⟨")", ⟨2, 13⟩⟩,
      ⟨"interface", ⟨3, 1⟩⟩, ⟨"R", ⟨3, 11⟩⟩, ⟨";", ⟨3, 12⟩⟩, ⟨"", ⟨3, 13⟩⟩] := by
    cbv
  exact ⟨_, _, hplain, hbroken, rfl⟩

theorem compile_agrees_of_essence_route :
    [routeFile questionParam].map SourceFile.essence =
        [routeFile nullableParam].map SourceFile.essence ∧
      (compileRound [routeFile questionParam] [] {}).Agrees
        (compileRound [routeFile nullableParam] [] {}) ∧
      List.Forall₂ SpelledAlike [plainText] [brokenText] ∧
      compileTexts [plainText] = .ok (compileRound [plainFile] [] {}) ∧
      ∃ other, compileTexts [brokenText] = .ok other ∧
        (compileRound [plainFile] [] {}).Agrees other := by
  obtain ⟨hrounds, htexts⟩ := compile_agrees_of_essence
  have hessence : [routeFile questionParam].map SourceFile.essence =
      [routeFile nullableParam].map SourceFile.essence := rfl
  have halike : List.Forall₂ SpelledAlike [plainText] [brokenText] :=
    .cons spelledAlike_brokenText .nil
  have hplain : compileTexts [plainText] = .ok (compileRound [plainFile] [] {}) := by
    rw [compileTexts, parseAll_plainText]
    rfl
  exact ⟨hessence, hrounds _ _ hessence [] {}, halike, hplain, htexts _ _ halike _ hplain⟩

end RequestRouter
