import RequestRouter.Proofs.Declaration.Names
import RequestRouter.Proofs.Round.Visits

/-!
# Where faults are reported

A fault of a method names the method, and a fault of a parameter names both. Reports look these
names up again: they point at the first method of the name, and in it at the first parameter of
the name. Where the names are not repeated, this is where the fault was found. Where they are, the
report points at an earlier member, or at the element if that method has no such parameter.

Names that are declared in one file have positions of their own, so the two cases exclude each
other: a fault is reported where it was found *exactly* if no earlier method, and no earlier
parameter of the method, has the same name (`RequestRouter.Environment.position?_report_eq_iff`).
-/

namespace RequestRouter

/-- The position that a diagnostic points at. -/
def Diagnostic.position? (diagnostic : Diagnostic) : Option Position :=
  diagnostic.location.map Location.position

/-! ### Faults and what they are found in -/

/-- Whether the fault is one of a method as a whole. -/
def Fault.isOfMethod : Fault → Bool
  | .missingContext _ => true
  | .wrongReturn _ _ => true
  | _ => false

/-- Whether the fault is that a parameter is not bound. -/
def Fault.isOfParam : Fault → Bool
  | .missingBinding _ _ => true
  | _ => false

/-- What is found in a parameter is a fault of the parameter. -/
theorem Param.asExtra_eq_error {method : String} {param : Param} {fault : Fault}
    (h : param.asExtra method = .error fault) :
    fault = .missingBinding method param.name ∨ ∃ kind, fault = .noKey kind param.name := by
  rw [asExtra, binding] at h
  split at h
  · cases h
    exact .inl rfl
  · split at h
    · cases h
    · cases h
      exact .inr ⟨_, rfl⟩

/-- Each parameter is checked at its own place. -/
theorem getElem?_checkParams {method : String} {found : Bool} {params : List Param} {i : Nat}
    {check : Except Fault RouteParam} (h : (checkParams method found params)[i]? = some check) :
    ∃ param, params[i]? = some param ∧
      (check = .ok (param.inRole .context) ∨ check = param.asExtra method) := by
  induction params generalizing found i with
  | nil => cases h
  | cons param rest ih =>
    rw [checkParams] at h
    cases i with
    | zero =>
      refine ⟨param, rfl, ?_⟩
      split at h
      · cases h
        exact .inl rfl
      · cases h
        exact .inr rfl
    | succ i =>
      split at h
      · exact ih h
      · exact ih h

namespace Method

variable {method : Method} {fault : Fault}

/-- The faults of a method name it. -/
theorem eq_of_mem_faults (h : fault ∈ method.faults) :
    (∃ param ∈ method.params, fault = .missingBinding method.name param.name) ∨
      (∃ kind, ∃ param ∈ method.params, fault = .noKey kind param.name) ∨
      fault = .missingContext method.name ∨
      fault = .wrongReturn method.name method.returnText := by
  rw [faults, List.mem_append, List.mem_append, List.mem_filterMap, Option.mem_toList] at h
  rcases h with (⟨check, hcheck, hfault⟩ | hcontext) | hreturn
  · obtain ⟨i, hi⟩ := List.mem_iff_getElem?.1 hcheck
    obtain ⟨param, hparam, rfl | rfl⟩ := getElem?_checkParams hi
    · cases hfault
    · have hmem := List.mem_of_getElem? hparam
      rcases Param.asExtra_eq_error (fault?_eq_some_iff.1 hfault) with rfl | ⟨kind, rfl⟩
      · exact .inl ⟨param, hmem, rfl⟩
      · exact .inr (.inl ⟨kind, param, hmem, rfl⟩)
  · split at hcontext
    · cases hcontext
    · exact .inr (.inr (.inl (List.mem_singleton.1 hcontext)))
  · exact .inr (.inr (.inr (eq_of_checkReturn_eq_error (fault?_eq_some_iff.1 hreturn))))

/-- What a method as a whole lacks, it lacks by its own name. -/
theorem eq_of_isOfMethod (h : fault ∈ method.faults) (hof : fault.isOfMethod = true) :
    fault = .missingContext method.name ∨ fault = .wrongReturn method.name method.returnText := by
  rcases eq_of_mem_faults h with ⟨param, -, rfl⟩ | ⟨kind, param, -, rfl⟩ | hcontext | hreturn
  · cases hof
  · cases hof
  · exact .inl hcontext
  · exact .inr hreturn

/-- A parameter that is not bound is named by the fault, and so is its method. -/
theorem eq_of_isOfParam {front back : List Param} {param : Param}
    (hparams : method.params = front ++ param :: back)
    (h : method.checkedParams[front.length]? = some (.error fault))
    (hof : fault.isOfParam = true) : fault = .missingBinding method.name param.name := by
  obtain ⟨found, hfound, heq⟩ := getElem?_checkParams h
  rw [hparams, List.getElem?_append_right (Nat.le_refl _), Nat.sub_self] at hfound
  cases hfound
  rcases heq with hok | hextra
  · cases hok
  · rcases Param.asExtra_eq_error hextra.symm with rfl | ⟨kind, rfl⟩
    · rfl
    · cases hof

theorem faultsOf_route (method : Method) : faultsOf method.route = method.faults := by
  rcases method.route_cases with ⟨_, -, hnil, hroute⟩ | ⟨-, hroute⟩
  · rw [hroute, hnil]
    rfl
  · rw [hroute]
    rfl

end Method

/-- The faults of methods come one after the other. -/
theorem faultsOf_routesOf (methods : List Method) :
    faultsOf (routesOf methods) = methods.flatMap Method.faults := by
  induction methods with
  | nil => rfl
  | cons method rest ih =>
    rw [List.flatMap_cons, ← ih, ← Method.faultsOf_route, routesOf]
    cases method.route with
    | ok route =>
      cases routesOf rest with
      | ok routes => rfl
      | error faults => rfl
    | error faults =>
      cases routesOf rest with
      | ok routes => exact (List.append_nil faults).symm
      | error others => rfl

/-- **All faults of all methods are reported** of an interface without properties whose
destination is known. -/
theorem Element.faultsOf_router {host : Host} {element : Element}
    (hinterface : element.checkInterface = .ok ())
    (hdestination : ∃ destination, element.destination host = .ok destination) :
    faultsOf (element.router host) = element.methods.flatMap Method.faults := by
  obtain ⟨destination, hdestination⟩ := hdestination
  rw [← faultsOf_routesOf]
  rcases element.router_cases host with ⟨fault, hcheck, -⟩ | ⟨fault, hcheck, -⟩ |
    ⟨faults, hroutes, hrouter⟩ | ⟨_, routes, -, -, hroutes, hrouter⟩
  · cases hinterface.symm.trans hcheck
  · cases hdestination.symm.trans hcheck
  · rw [hrouter, hroutes]
    rfl
  · rw [hrouter, hroutes]
    rfl

/-! ### What is looked up -/

/-- Looked up by the name of one of its elements, a list answers with that element, if it is the
first of the name, and else with one in front of it. -/
theorem find?_name_cases {α : Type} (name : α → String) (front back : List α) (a : α) :
    ((∀ other ∈ front, name other ≠ name a) ∧
      (front ++ a :: back).find? (fun other => name other == name a) = some a) ∨
    ∃ other ∈ front, name other = name a ∧
      (front ++ a :: back).find? (fun other => name other == name a) = some other := by
  rw [List.find?_append]
  cases hfront : front.find? fun other => name other == name a with
  | none =>
    refine .inl ⟨fun other hother hname => ?_, ?_⟩
    · exact List.find?_eq_none.1 hfront other hother (beq_iff_eq.2 hname)
    · rw [Option.none_or]
      exact List.find?_cons_of_pos (beq_self_eq_true (name a))
  | some other =>
    exact .inr ⟨other, List.mem_of_find?_eq_some hfront,
      eq_of_beq (List.find?_some (p := fun other => name other == name a) hfront), rfl⟩

/-! ### Positions in one element -/

/-- The names in an element stand one behind the other. -/
theorem Element.pairwise_declaredPositions {text : String} {file : SourceFile}
    (hparse : SourceFile.parse text = .ok file) {element : Element}
    (helement : element ∈ file.elements) :
    element.declaredPositions.Pairwise Position.Before := by
  obtain ⟨front, back, hsplit⟩ := List.append_of_mem helement
  have hfile := SourceFile.pairwise_declaredPositions hparse
  rw [SourceFile.declaredPositions, hsplit, List.flatMap_append, List.flatMap_cons] at hfile
  exact (List.pairwise_append.1 (List.pairwise_append.1 hfile).2.1).1

namespace Element

variable {element : Element} {before after : List Method} {method : Method}

section

variable (hpositions : element.declaredPositions.Pairwise Position.Before)
  (hmethods : element.methods = before ++ method :: after)

include hpositions hmethods

/-- The element stands in front of all names in it. -/
theorem position_ne_of_mem {p : Position} (hp : p ∈ method.declaredPositions) :
    element.position ≠ p := by
  refine ((List.pairwise_cons.1 hpositions).1 p ?_).ne
  rw [hmethods]
  exact List.mem_flatMap.2 ⟨method, List.mem_append_right _ List.mem_cons_self, hp⟩

/-- A method stands in front of later ones. -/
theorem ne_of_mem_before {other : Method} (hother : other ∈ before) {p q : Position}
    (hp : p ∈ other.declaredPositions) (hq : q ∈ method.declaredPositions) : p ≠ q := by
  have hall := (List.pairwise_cons.1 hpositions).2
  rw [hmethods, List.flatMap_append, List.flatMap_cons] at hall
  exact ((List.pairwise_append.1 hall).2.2 p (List.mem_flatMap.2 ⟨other, hother, hp⟩) q
    (List.mem_append_left _ hq)).ne

/-- A parameter stands in front of later ones. -/
theorem ne_of_mem_front {front back : List Param} {param other : Param}
    (hparams : method.params = front ++ param :: back) (hother : other ∈ front) :
    other.position ≠ param.position := by
  have hall := (List.pairwise_cons.1 hpositions).2
  rw [hmethods, List.flatMap_append, List.flatMap_cons] at hall
  have hmethod := (List.pairwise_append.1 (List.pairwise_append.1 hall).2.1).1
  have hfront := (List.pairwise_cons.1 hmethod).2
  rw [hparams, List.map_append, List.map_cons] at hfront
  exact ((List.pairwise_append.1 hfront).2.2 _ (List.mem_map_of_mem hother) _
    List.mem_cons_self).ne

end

/-! ### Where faults are located -/

theorem position_mem_declaredPositions (method : Method) :
    method.position ∈ method.declaredPositions := List.mem_cons_self

theorem param_position_mem {param : Param} (h : param ∈ method.params) :
    param.position ∈ method.declaredPositions :=
  List.mem_cons_of_mem _ (List.mem_map_of_mem h)

section

variable (hpositions : element.declaredPositions.Pairwise Position.Before)
  (hmethods : element.methods = before ++ method :: after)

include hpositions hmethods

/-- A fault of a method is located at the method exactly if that is the first of its name. -/
theorem position_locate_eq_iff {fault : Fault}
    (hfault : fault = .missingContext method.name ∨
      fault = .wrongReturn method.name method.returnText) :
    (element.locate fault).position = method.position ↔
      ∀ other ∈ before, other.name ≠ method.name := by
  have hlocate : element.memberLocation? fault =
      (element.method? method.name).map element.methodLocation := by
    rcases hfault with rfl | rfl
    · rfl
    · rfl
  rw [locate, hlocate, method?, hmethods]
  rcases find?_name_cases Method.name before after method with
    ⟨hfirst, hfind⟩ | ⟨other, hother, hname, hfind⟩
  · rw [hfind]
    exact ⟨fun _ => hfirst, fun _ => rfl⟩
  · rw [hfind]
    constructor
    · intro hsame
      exact absurd hsame (ne_of_mem_before hpositions hmethods hother
        (position_mem_declaredPositions other) (position_mem_declaredPositions method))
    · intro hfirst
      exact absurd hname (hfirst other hother)

/-- A fault of a parameter is located at the parameter exactly if its method is the first of its
name, and it is the first parameter of its name there. -/
theorem position_locate_missingBinding_eq_iff {front back : List Param} {param : Param}
    (hparams : method.params = front ++ param :: back) :
    (element.locate (.missingBinding method.name param.name)).position = param.position ↔
      (∀ other ∈ before, other.name ≠ method.name) ∧
        ∀ other ∈ front, other.name ≠ param.name := by
  have hparam : param ∈ method.params := hparams ▸ List.mem_append_right _ List.mem_cons_self
  rw [locate, memberLocation?, method?, hmethods]
  rcases find?_name_cases Method.name before after method with
    ⟨hfirst, hfind⟩ | ⟨other, hother, hname, hfind⟩
  · rw [hfind, Option.bind_some, hparams]
    rcases find?_name_cases Param.name front back param with
      ⟨hfirst', hfind'⟩ | ⟨other, hother, hname, hfind'⟩
    · rw [hfind']
      exact ⟨fun _ => ⟨hfirst, hfirst'⟩, fun _ => rfl⟩
    · rw [hfind']
      constructor
      · intro hsame
        exact absurd hsame (ne_of_mem_front hpositions hmethods hparams hother)
      · rintro ⟨-, hfirst'⟩
        exact absurd hname (hfirst' other hother)
  · -- An earlier method is looked into; what is found there, or the element, stands elsewhere.
    rw [hfind, Option.bind_some]
    constructor
    · intro hsame
      cases hinner : other.params.find? fun p => p.name == param.name with
      | none =>
        rw [hinner] at hsame
        exact absurd hsame (position_ne_of_mem hpositions hmethods (param_position_mem hparam))
      | some found =>
        rw [hinner] at hsame
        exact absurd hsame (ne_of_mem_before hpositions hmethods hother
          (param_position_mem (List.mem_of_find?_eq_some hinner)) (param_position_mem hparam))
    · rintro ⟨hfirst, -⟩
      exact absurd hname (hfirst other hother)

end

end Element

/-! ### Rounds -/

/-- Every file of a round was read from one of its texts. -/
theorem exists_parse_of_mem {texts : List String} {files : List SourceFile}
    (h : parseAll texts = .ok files) {file : SourceFile} (hfile : file ∈ files) :
    ∃ text ∈ texts, SourceFile.parse text = .ok file := by
  rw [parseAll] at h
  induction texts generalizing files with
  | nil =>
    cases h
    cases hfile
  | cons text rest ih =>
    rw [List.mapM_cons] at h
    obtain ⟨first, hfirst, h⟩ := Parsed.bind_eq_ok_iff.1 h
    obtain ⟨others, hothers, h⟩ := Parsed.bind_eq_ok_iff.1 h
    cases h
    rcases List.mem_cons.1 hfile with rfl | hmem
    · exact ⟨text, List.mem_cons_self, hfirst⟩
    · obtain ⟨text', hmem', hparse⟩ := ih hothers hmem
      exact ⟨text', List.mem_cons_of_mem _ hmem', hparse⟩

theorem exists_file_of_mem_candidates {files : List SourceFile} {element : Element}
    (h : element ∈ candidates files) : ∃ file ∈ files, element ∈ file.elements :=
  List.mem_flatMap.1 (List.mem_filter.1 h).1

/-- **Where the faults of methods are reported**, in a round over files that were read from texts.
What the round says are the reports of its visits, and it visits all marked elements if it goes on
after failures. At an interface without properties whose destination is known, the faults of all
methods are reported. One of a method as a whole is reported at the position of the method exactly
if no earlier method of the interface has the same name; that a parameter is not bound is reported
at its position exactly if, besides, no earlier parameter of the method has the name of this one. -/
theorem Environment.position?_report_eq_iff {σ : Type} (env : Environment σ) {texts : List String}
    {files : List SourceFile} (hparse : parseAll texts = .ok files) (outcome : Outcome σ) :
    (env.processRound files outcome).diagnostics = outcome.diagnostics ++
        (env.visits (candidates files) outcome.store).flatMap Visit.diagnostics ∧
      (env.options.keepGoing = true →
        (env.visits (candidates files) outcome.store).map Visit.element = candidates files) ∧
      ∀ visit ∈ env.visits (candidates files) outcome.store,
        ∀ before method after, visit.element.methods = before ++ method :: after →
          (visit.element.checkInterface = .ok () →
            (∃ destination, visit.element.destination env.host = .ok destination) →
            ∀ fault ∈ method.faults, fault ∈ visit.faults) ∧
          (∀ fault ∈ method.faults, fault.isOfMethod = true →
            ((visit.element.report fault).position? = some method.position ↔
              ∀ other ∈ before, other.name ≠ method.name)) ∧
          ∀ front param back fault, method.params = front ++ param :: back →
            method.checkedParams[front.length]? = some (.error fault) → fault.isOfParam = true →
            ((visit.element.report fault).position? = some param.position ↔
              (∀ other ∈ before, other.name ≠ method.name) ∧
                ∀ other ∈ front, other.name ≠ param.name) := by
  refine ⟨env.diagnostics_processElements _ outcome, fun hkeep => map_element_visits hkeep _ _, ?_⟩
  intro visit hvisit before method after hmethods
  obtain ⟨element, helement, store, rfl⟩ := exists_of_mem_visits hvisit
  change element.methods = before ++ method :: after at hmethods
  obtain ⟨file, hfile, hmem⟩ := exists_file_of_mem_candidates helement
  obtain ⟨text, -, htext⟩ := exists_parse_of_mem hparse hfile
  -- Since the element was read from a text, no two of its declarations stand at one place.
  have hpositions := Element.pairwise_declaredPositions htext hmem
  refine ⟨?_, ?_, ?_⟩
  · intro hinterface hdestination fault hfault
    have hfaults : fault ∈ element.methods.flatMap Method.faults :=
      List.mem_flatMap.2 ⟨method, hmethods ▸ List.mem_append_right _ List.mem_cons_self, hfault⟩
    have hall : faultsOf (element.router env.host) = element.methods.flatMap Method.faults :=
      Element.faultsOf_router hinterface hdestination
    exact mem_faults_visit (hall ▸ hfaults) store
  · intro fault hfault hof
    rw [← Element.position_locate_eq_iff hpositions hmethods
      (Method.eq_of_isOfMethod hfault hof)]
    exact Option.some_inj
  · intro front param back fault hparams hcheck hof
    obtain rfl := Method.eq_of_isOfParam hparams hcheck hof
    rw [← Element.position_locate_missingBinding_eq_iff hpositions hmethods hparams]
    exact Option.some_inj

/-! ### An interface with a repeated name -/

/-- An interface with two methods of one name, of which the second has no result and a parameter
that is not bound. A third method has no result, either. -/
def repeatedText : String :=
  "class T;\n@Intention(T) interface R \x7b\nfn go(c: Context) -> Request;\n" ++
    "fn go(c: Context, a: Int);\nfn stay(c: Context);\n\x7d"

/-- The first method of the text. -/
def firstGo : Method :=
  ⟨"go", ⟨3, 4⟩, [], [⟨"c", ⟨3, 7⟩, [], .named "Context", none⟩], some (.named "Request")⟩

/-- The second method of the text. -/
def secondGo : Method :=
  ⟨"go", ⟨4, 4⟩, [], [⟨"c", ⟨4, 7⟩, [], .named "Context", none⟩,
    ⟨"a", ⟨4, 19⟩, [], .named "Int", none⟩], none⟩

/-- The last method of the text. -/
def stay : Method := ⟨"stay", ⟨5, 4⟩, [], [⟨"c", ⟨5, 9⟩, [], .named "Context", none⟩], none⟩

/-- The interface of the text. -/
def repeatedElement : Element where
  name := "R"
  package := ""
  imports := []
  position := ⟨2, 25⟩
  kind := .interfaceType
  marks := [⟨"Intention", ⟨2, 1⟩, [.path "T"]⟩]
  methods := [firstGo, secondGo, stay]
  fields := []

/-- The file of the text. -/
def repeatedFile : SourceFile :=
  ⟨none, [], [⟨"T", "", [], ⟨1, 7⟩, .classType, [], [], []⟩, repeatedElement]⟩

theorem parseAll_repeatedText : parseAll [repeatedText] = .ok [repeatedFile] := by
  cbv

theorem candidates_repeatedFile : candidates [repeatedFile] = [repeatedElement] := by
  cbv

theorem pairwise_declaredPositions_repeatedElement :
    repeatedElement.declaredPositions.Pairwise Position.Before := by
  obtain ⟨text, -, hparse⟩ := exists_parse_of_mem parseAll_repeatedText List.mem_cons_self
  exact Element.pairwise_declaredPositions hparse (List.mem_cons_of_mem _ List.mem_cons_self)

/-- What is found in the methods of the interface is reported by the round. -/
theorem report_mem_repeatedRound {fault : Fault}
    (h : fault ∈ repeatedElement.methods.flatMap Method.faults) :
    repeatedElement.report fault ∈ (compileRound [repeatedFile] [] {}).diagnostics := by
  let env : Environment Store := ⟨(SymbolTable.ofFiles [repeatedFile] []).host, Store.sink, {}⟩
  have hdestination : ∃ destination, repeatedElement.destination env.host = .ok destination :=
    ⟨⟨"", "T"⟩, by cbv⟩
  rw [← Element.faultsOf_router (by cbv) hdestination] at h
  change _ ∈ (env.processElements (candidates [repeatedFile]) ⟨[], []⟩).diagnostics
  rw [Environment.diagnostics_processElements, candidates_repeatedFile, Environment.visits]
  exact List.mem_flatMap.2 ⟨_, List.mem_cons_self,
    List.mem_map_of_mem (Environment.mem_faults_visit h [])⟩

theorem faults_secondGo :
    secondGo.faults = [.missingBinding "go" "a", .wrongReturn "go" "()"] := by
  cbv

theorem wrongReturn_mem_faults_secondGo : Fault.wrongReturn "go" "()" ∈ secondGo.faults := by
  rw [faults_secondGo]
  exact List.mem_cons_of_mem _ List.mem_cons_self

theorem faults_stay : stay.faults = [.wrongReturn "stay" "()"] := by
  cbv

/-- At the last method, whose name is not repeated, the report is where the fault is. -/
theorem position?_report_stay :
    parseAll [repeatedText] = .ok [repeatedFile] ∧
      (repeatedElement.report (.wrongReturn "stay" "()")).position? = some stay.position ∧
      (repeatedElement.report (.wrongReturn "go" "()")).position? ≠ some secondGo.position := by
  have hparse := parseAll_repeatedText
  let env : Environment Store := ⟨(SymbolTable.ofFiles [repeatedFile] []).host, Store.sink, {}⟩
  have hmem : env.visit repeatedElement [] ∈ env.visits (candidates [repeatedFile]) [] := by
    rw [candidates_repeatedFile, Environment.visits]
    exact List.mem_cons_self
  obtain ⟨-, -, hvisits⟩ := env.position?_report_eq_iff hparse ⟨[], []⟩
  obtain ⟨-, hstay, -⟩ := hvisits _ hmem [firstGo, secondGo] stay [] rfl
  obtain ⟨-, hgo, -⟩ := hvisits _ hmem [firstGo] secondGo [stay] rfl
  have hstayFault : Fault.wrongReturn "stay" "()" ∈ stay.faults := by
    rw [faults_stay]
    exact List.mem_cons_self
  have hfirst : ∀ other ∈ [firstGo, secondGo], other.name ≠ stay.name := by
    simp [firstGo, secondGo, stay]
  refine ⟨hparse, (hstay _ hstayFault rfl).2 hfirst, fun hsame => ?_⟩
  exact (hgo _ wrongReturn_mem_faults_secondGo rfl).1 hsame firstGo List.mem_cons_self rfl

/-- **A report can point elsewhere**: both faults of the second method are reported in front of
it, the one of the method at the first method of the name, the one of its parameter at the
interface. -/
theorem position?_report_secondGo :
    parseAll [repeatedText] = .ok [repeatedFile] ∧ repeatedElement ∈ candidates [repeatedFile] ∧
      repeatedElement.methods = [firstGo] ++ secondGo :: [stay] ∧
      (∃ fault ∈ secondGo.faults, fault.isOfMethod = true ∧
        repeatedElement.report fault ∈ (compileRound [repeatedFile] [] {}).diagnostics ∧
        (repeatedElement.report fault).position? ≠ some secondGo.position) ∧
      ∃ front param fault, secondGo.params = front ++ [param] ∧
        secondGo.checkedParams[front.length]? = some (.error fault) ∧ fault.isOfParam = true ∧
        repeatedElement.report fault ∈ (compileRound [repeatedFile] [] {}).diagnostics ∧
        (repeatedElement.report fault).position? ≠ some param.position := by
  have hgoFault := wrongReturn_mem_faults_secondGo
  have haFault : Fault.missingBinding "go" "a" ∈ secondGo.faults := by
    rw [faults_secondGo]
    exact List.mem_cons_self
  have hmethod : secondGo ∈ repeatedElement.methods := by simp [repeatedElement]
  have hreported : ∀ fault ∈ secondGo.faults,
      repeatedElement.report fault ∈ (compileRound [repeatedFile] [] {}).diagnostics :=
    fun fault hfault => report_mem_repeatedRound (List.mem_flatMap.2 ⟨secondGo, hmethod, hfault⟩)
  have hpositions := pairwise_declaredPositions_repeatedElement
  have hsplit : repeatedElement.methods = [firstGo] ++ secondGo :: [stay] := rfl
  have hgo : (repeatedElement.locate (.wrongReturn "go" "()")).position = secondGo.position ↔ _ :=
    Element.position_locate_eq_iff hpositions hsplit (.inr rfl)
  have hparams : secondGo.params = [⟨"c", ⟨4, 7⟩, [], .named "Context", none⟩] ++
      ⟨"a", ⟨4, 19⟩, [], .named "Int", none⟩ :: [] := rfl
  have ha := Element.position_locate_missingBinding_eq_iff hpositions hsplit hparams
  refine ⟨parseAll_repeatedText, ?_, hsplit,
    ⟨.wrongReturn "go" "()", hgoFault, rfl, hreported _ hgoFault, fun hsame => ?_⟩,
    [⟨"c", ⟨4, 7⟩, [], .named "Context", none⟩], ⟨"a", ⟨4, 19⟩, [], .named "Int", none⟩,
    .missingBinding "go" "a", rfl, ?_, rfl, hreported _ haFault, fun hsame => ?_⟩
  · rw [candidates_repeatedFile]
    exact List.mem_cons_self
  · exact hgo.1 (Option.some.inj hsame) firstGo List.mem_cons_self rfl
  · cbv
  · exact (ha.1 (Option.some.inj hsame)).1 firstGo List.mem_cons_self rfl

end RequestRouter
