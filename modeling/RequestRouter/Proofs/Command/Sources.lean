import RequestRouter.Command.Execution
import RequestRouter.Proofs.Command.Checking
import RequestRouter.Proofs.Disk.Paths

/-!
# The file that a diagnostic is printed with

A diagnostic does not know the file of its declaration, and the command looks for it by name: the
first input with an element whose qualified name is the symbol, or starts it. In names, a symbol is
the package, the name of the element and perhaps a member, and an element can be pointed at by a
symbol exactly if its own names are the first of these (`RequestRouter.belongsTo_iff`). Besides the
element itself this can be an element of the same qualified name, one that is called like the
package or a package around it, and one that is called like the member in a package that is called
like the element.

So a diagnostic is printed with the file of its declaration *exactly* if the first input with such
an element has the path of that file (`RequestRouter.path_declaringInput_eq_iff`).
-/

namespace RequestRouter

open Derives (joined)

/-! ### Names of symbols -/

/-- The names in a qualified name. -/
def Element.segments (element : Element) : List String :=
  packageDirectories element.package ++ [element.name]

/-- The names in the symbol of a location. -/
def Location.segments (location : Location) : List String :=
  (Text.segments location.symbol.toList).map String.ofList

theorem Location.segments_eq {location : Location} {names : List String} (hne : names ≠ [])
    (h : NoColons names) (hsymbol : location.symbol = joined names) :
    location.segments = names := by
  rw [segments, hsymbol, segments_joined hne h, List.map_map]
  exact (List.map_congr_left fun name _ => String.ofList_toList).trans (List.map_id names)

namespace Element

variable {element : Element}

theorem segments_ne_nil (element : Element) : element.segments ≠ [] := by
  simp [segments]

theorem HasNames.isName_of_mem_segments (h : element.HasNames) :
    ∀ name ∈ element.segments, IsName name := by
  obtain ⟨names, hnames, hpackage⟩ := h.package
  rw [segments, hpackage, packageDirectories_joined hnames]
  exact List.forall_mem_append.2 ⟨hnames, List.forall_mem_singleton.2 h.name⟩

/-- The qualified name joins its names. -/
theorem HasNames.qualifiedName_eq (h : element.HasNames) :
    element.qualifiedName = joined element.segments := by
  obtain ⟨names, hnames, hpackage⟩ := h.package
  rw [qualifiedName, segments, hpackage, packageDirectories_joined hnames,
    ← qualify_joined hnames (List.cons_ne_nil _ _), joined_singleton]

/-- A member that is pointed at is a method or a parameter of a method. -/
theorem exists_member_of_memberLocation? {fault : Fault} {location : Location}
    (h : element.memberLocation? fault = some location) :
    (∃ method ∈ element.methods, location = element.methodLocation method) ∨
      ∃ method ∈ element.methods, ∃ param ∈ method.params,
        location = element.paramLocation method.name param := by
  have hmethods : ∀ {name : String} {method : Method}, element.method? name = some method →
      method ∈ element.methods ∧ method.name = name := by
    intro name method hfind
    exact ⟨List.mem_of_find?_eq_some hfind,
      eq_of_beq (List.find?_some (p := fun method : Method => method.name == name) hfind)⟩
  cases fault with
  | missingContext name =>
    obtain ⟨method, hfind, rfl⟩ := Option.map_eq_some_iff.1 h
    exact .inl ⟨method, (hmethods hfind).1, rfl⟩
  | wrongReturn name found =>
    obtain ⟨method, hfind, rfl⟩ := Option.map_eq_some_iff.1 h
    exact .inl ⟨method, (hmethods hfind).1, rfl⟩
  | missingBinding name parameter =>
    obtain ⟨method, hfind, hparam⟩ := Option.bind_eq_some_iff.1 h
    obtain ⟨param, hfind', rfl⟩ := Option.map_eq_some_iff.1 hparam
    obtain ⟨hmethod, rfl⟩ := hmethods hfind
    exact .inr ⟨method, hmethod, param, List.mem_of_find?_eq_some hfind', rfl⟩
  | storage | notInterface | unresolved | alreadyInitialized | notInitialized | unmarked
  | noDestination | noKey | recreated | refused => cases h

/-- What may stand behind the names of the element in a symbol: nothing, or the name of a method,
perhaps with that of a parameter. -/
inductive IsMember (element : Element) : List String → Prop
  /-- The element itself. -/
  | self : IsMember element []
  /-- A method. -/
  | method {method : Method} : method ∈ element.methods → IsMember element [method.name]
  /-- A parameter. -/
  | param {method : Method} {param : Param} : method ∈ element.methods → param ∈ method.params →
      IsMember element [method.name ++ "(" ++ param.name ++ ")"]

theorem IsMember.noColons {members : List String} (hmember : element.IsMember members)
    (h : element.HasNames) : NoColons members := by
  cases hmember with
  | self => exact nofun
  | method hmethod =>
    exact List.forall_mem_singleton.2 ((h.methods _ hmethod).name.notMem rfl)
  | param hmethod hparam =>
    have hname := (h.methods _ hmethod).name.notMem (c := ':') rfl
    have hname' := ((h.methods _ hmethod).params _ hparam).notMem (c := ':') rfl
    exact List.forall_mem_singleton.2 (by simp [String.toList_append, hname, hname'])

/-- **The names of a symbol** are those of the element, and perhaps a member. -/
theorem HasNames.exists_members (h : element.HasNames) (fault : Fault) :
    ∃ members, element.IsMember members ∧
      (element.locate fault).symbol = joined (element.segments ++ members) := by
  have hbehind : ∀ member, element.qualifiedName ++ Text.separator ++ member =
      joined (element.segments ++ [member]) := by
    intro member
    rw [joined_append element.segments_ne_nil (List.cons_ne_nil _ _), joined_singleton,
      h.qualifiedName_eq]
  rw [locate]
  cases hmember : element.memberLocation? fault with
  | none => exact ⟨[], .self, h.qualifiedName_eq.trans (congrArg joined (List.append_nil _).symm)⟩
  | some location =>
    rcases exists_member_of_memberLocation? hmember with
      ⟨method, hmethod, rfl⟩ | ⟨method, hmethod, param, hparam, rfl⟩
    · exact ⟨_, .method hmethod, hbehind method.name⟩
    · refine ⟨_, .param hmethod hparam, ?_⟩
      rw [← hbehind, Option.getD_some, paramLocation]
      simp only [String.append_assoc]

theorem HasNames.exists_segments (h : element.HasNames) (fault : Fault) :
    ∃ members, (element.locate fault).segments = element.segments ++ members ∧
      (element.locate fault).symbol = joined (element.locate fault).segments ∧
      NoColons (element.locate fault).segments := by
  obtain ⟨members, hmember, hsymbol⟩ := h.exists_members fault
  have hcolons : NoColons (element.segments ++ members) :=
    List.forall_mem_append.2 ⟨noColons_of_isName h.isName_of_mem_segments, hmember.noColons h⟩
  have hsegments := Location.segments_eq
    (List.append_ne_nil_of_left_ne_nil element.segments_ne_nil members) hcolons hsymbol
  exact ⟨members, hsegments, hsegments ▸ hsymbol, hsegments ▸ hcolons⟩

end Element

/-! ### What a symbol belongs to -/

theorem belongsTo_joined_iff {names others : List String} (hne : names ≠ []) (h : NoColons names)
    (hne' : others ≠ []) (h' : NoColons others) :
    belongsTo (joined others) (joined names) = true ↔ names <+: others := by
  rw [belongsTo, Bool.or_eq_true, beq_iff_eq, List.isPrefixOf_iff_prefix, joined_inj hne' h' hne h,
    joined_prefix_iff hne h hne' h']
  constructor
  · rintro (rfl | ⟨later, -, rfl⟩)
    · exact List.prefix_rfl
    · exact List.prefix_append _ _
  · rintro ⟨later, rfl⟩
    by_cases hlater : later = []
    · rw [hlater]
      exact .inl (List.append_nil _)
    · exact .inr ⟨later, hlater, rfl⟩

section

variable {element other : Element} (h : element.HasNames) (hother : other.HasNames)

include h hother

/-- **What an element is pointed at by**: a symbol of which its names are the first. -/
theorem belongsTo_iff (fault : Fault) :
    belongsTo (element.locate fault).symbol other.qualifiedName = true ↔
      other.segments <+: (element.locate fault).segments := by
  obtain ⟨members, hsegments, hsymbol, hcolons⟩ := h.exists_segments fault
  have hne : (element.locate fault).segments ≠ [] := by
    rw [hsegments]
    exact List.append_ne_nil_of_left_ne_nil element.segments_ne_nil members
  rw [hsymbol, hother.qualifiedName_eq]
  exact belongsTo_joined_iff other.segments_ne_nil
    (noColons_of_isName hother.isName_of_mem_segments) hne hcolons

end

/-! ### Inputs -/

/-- The input declares an element that is pointed at by the location, or seems to be. -/
def Input.Claims (input : Input) (location : Location) : Prop :=
  ∃ other ∈ input.file.elements, other.segments <+: location.segments

/-- The element is one of the input that was read from some text. -/
theorem hasNames_of_mem_input {inputs : List Input}
    (hparse : ∀ input ∈ inputs, ∃ text, SourceFile.parse text = .ok input.file) {input : Input}
    (hinput : input ∈ inputs) {element : Element} (h : element ∈ input.file.elements) :
    element.HasNames := by
  obtain ⟨text, htext⟩ := hparse input hinput
  exact SourceFile.hasNames_of_parse htext element h

/-- Whether the symbol of the location belongs to an element of the input. -/
def Location.isClaimedBy (location : Location) (input : Input) : Bool :=
  input.file.elements.any fun other => belongsTo location.symbol other.qualifiedName

theorem isClaimedBy_iff {input : Input} (hnames : ∀ other ∈ input.file.elements, other.HasNames)
    {element : Element} (h : element.HasNames) (fault : Fault) :
    (element.locate fault).isClaimedBy input = true ↔ input.Claims (element.locate fault) := by
  rw [Location.isClaimedBy, List.any_eq_true]
  exact exists_congr fun other => and_congr_right fun hother =>
    belongsTo_iff h (hnames other hother) fault

/-- If an element of a list is one that is looked for, then the first that is found is an earlier
one, or this. -/
theorem find?_append_cons_cases {α : Type} {p : α → Bool} {a : α} (h : p a = true)
    (before after : List α) :
    ((∀ earlier ∈ before, ¬p earlier = true) ∧ (before ++ a :: after).find? p = some a) ∨
      ∃ front earlier back, before = front ++ earlier :: back ∧ p earlier = true ∧
        (∀ other ∈ front, ¬p other = true) ∧ (before ++ a :: after).find? p = some earlier := by
  rw [List.find?_append]
  cases hfind : before.find? p with
  | none =>
    refine .inl ⟨List.find?_eq_none.1 hfind, ?_⟩
    rw [Option.none_or, List.find?_cons_of_pos h]
  | some earlier =>
    obtain ⟨hfound, front, back, rfl, hfront⟩ := List.find?_eq_some_iff_append.1 hfind
    refine .inr ⟨front, earlier, back, rfl, hfound, fun other hother hlooked => ?_, rfl⟩
    have hnot := hfront other hother
    rw [hlooked] at hnot
    cases hnot

/-- **Which input is found**: the first that claims the location, if one in front of the input of
the element does, and else the input of the element. -/
theorem declaringInput?_report {inputs : List Input}
    (hparse : ∀ input ∈ inputs, ∃ text, SourceFile.parse text = .ok input.file)
    {before after : List Input} {input : Input} (hsplit : inputs = before ++ input :: after)
    {element : Element} (helement : element ∈ input.file.elements) (fault : Fault) :
    ((∀ earlier ∈ before, ¬earlier.Claims (element.locate fault)) ∧
        declaringInput? inputs (element.report fault) = some input) ∨
      ∃ front earlier back, before = front ++ earlier :: back ∧
        earlier.Claims (element.locate fault) ∧
        (∀ other ∈ front, ¬other.Claims (element.locate fault)) ∧
        declaringInput? inputs (element.report fault) = some earlier := by
  have hmem : input ∈ inputs := hsplit ▸ List.mem_append_right _ List.mem_cons_self
  have h := hasNames_of_mem_input hparse hmem helement
  have hclaims : ∀ found ∈ inputs, ((element.locate fault).isClaimedBy found = true ↔
      found.Claims (element.locate fault)) :=
    fun found hfound => isClaimedBy_iff (fun _ => hasNames_of_mem_input hparse hfound) h fault
  have hbefore : ∀ found ∈ before, found ∈ inputs :=
    fun found hfound => hsplit ▸ List.mem_append_left _ hfound
  have hinput : input.Claims (element.locate fault) := by
    obtain ⟨members, hsegments, -⟩ := h.exists_segments fault
    exact ⟨element, helement, hsegments ▸ List.prefix_append _ _⟩
  have hlookup : declaringInput? inputs (element.report fault) =
      inputs.find? (element.locate fault).isClaimedBy := rfl
  rw [hlookup, hsplit]
  -- Up to the input of the element, what is looked for are the inputs that claim the location.
  rcases find?_append_cons_cases ((hclaims input hmem).2 hinput) before after with
    ⟨hnone, hfound⟩ | ⟨front, earlier, back, rfl, hearlier, hfront, hfound⟩
  · refine .inl ⟨fun earlier hearlier hclaimed => hnone earlier hearlier ?_, hfound⟩
    exact (hclaims earlier (hbefore earlier hearlier)).2 hclaimed
  · have hmem' : earlier ∈ front ++ earlier :: back :=
      List.mem_append_right _ List.mem_cons_self
    refine .inr ⟨front, earlier, back, rfl, (hclaims earlier (hbefore earlier hmem')).1 hearlier,
      fun other hother hclaimed => hfront other hother ?_, hfound⟩
    exact (hclaims other (hbefore other (List.mem_append_left _ hother))).2 hclaimed

/-- There is one first of some kind in a list. -/
theorem first_unique {α : Type} {p : α → Prop} {front front' back back' : List α} {a a' : α}
    (h : front ++ a :: back = front' ++ a' :: back') (ha : p a) (ha' : p a')
    (hfront : ∀ b ∈ front, ¬p b) (hfront' : ∀ b ∈ front', ¬p b) : a = a' := by
  induction front generalizing front' with
  | nil =>
    cases front' with
    | nil => exact (List.cons.inj h).1
    | cons first rest =>
      obtain ⟨rfl, -⟩ := List.cons.inj h
      exact absurd ha (hfront' a List.mem_cons_self)
  | cons first rest ih =>
    cases front' with
    | nil =>
      obtain ⟨rfl, -⟩ := List.cons.inj h
      exact absurd ha' (hfront first List.mem_cons_self)
    | cons first' rest' =>
      exact ih (List.cons.inj h).2 (List.forall_mem_cons.1 hfront).2
        (List.forall_mem_cons.1 hfront').2

/-- **When a diagnostic is printed with the file of its declaration**, for inputs that were read
from texts. Every diagnostic of a round is a report about an element of some input. The file that it
is printed with has the path of this input exactly if the first input in front of it that claims
the location, if there is one, has the same path. -/
theorem path_declaringInput_eq_iff {inputs : List Input}
    (hparse : ∀ input ∈ inputs, ∃ text, SourceFile.parse text = .ok input.file)
    (round : RoundArguments) {σ : Type} (sink : Sink σ) (store : σ) :
    (∀ diagnostic ∈ (runRound inputs round sink store).diagnostics,
        ∃ input ∈ inputs, ∃ element ∈ input.file.elements, ∃ fault,
          diagnostic = element.report fault) ∧
      ∀ before input after, inputs = before ++ input :: after →
        ∀ element ∈ input.file.elements, ∀ fault,
          ((declaringInput? inputs (element.report fault)).map Input.path = some input.path ↔
            ∀ front earlier back, before = front ++ earlier :: back →
              earlier.Claims (element.locate fault) →
              (∀ other ∈ front, ¬other.Claims (element.locate fault)) →
              earlier.path = input.path) := by
  refine ⟨?_, ?_⟩
  · intro diagnostic hmem
    rw [diagnostics_runRound] at hmem
    obtain ⟨visit, hvisit, hreport⟩ := List.mem_flatMap.1 hmem
    obtain ⟨fault, -, rfl⟩ := List.mem_map.1 hreport
    obtain ⟨element, helement, _, rfl⟩ := Environment.exists_of_mem_visits hvisit
    obtain ⟨file, hfile, hdeclared⟩ := exists_file_of_mem_candidates helement
    obtain ⟨input, hinput, rfl⟩ := List.mem_map.1 hfile
    exact ⟨input, hinput, element, hdeclared, fault, rfl⟩
  · intro before input after hsplit element helement fault
    rcases declaringInput?_report hparse hsplit helement fault with
      ⟨hnone, hfound⟩ | ⟨front, earlier, back, hbefore, hclaims, hfront, hfound⟩
    · rw [hfound]
      refine ⟨fun _ front earlier back hbefore hclaims _ => ?_, fun _ => rfl⟩
      exact absurd hclaims (hnone earlier (hbefore ▸ List.mem_append_right _ List.mem_cons_self))
    · rw [hfound]
      constructor
      · intro hpath front' earlier' back' hbefore' hclaims' hfront'
        -- There is one first input that claims the location, so this is the one that was found.
        rw [← first_unique (hbefore.symm.trans hbefore') hclaims hclaims' hfront hfront']
        exact Option.some.inj hpath
      · intro hpaths
        exact congrArg some (hpaths front earlier back hbefore hclaims hfront)

/-! ### A class in the way of a package -/

/-- A marked class in the package `app`, where only interfaces may be marked. -/
def markedText : String := "package app;\n@Intention(T) class R;"

/-- The class of the text. -/
def markedClass : Element where
  name := "R"
  package := "app"
  imports := []
  position := ⟨2, 21⟩
  kind := .classType
  marks := [⟨"Intention", ⟨2, 1⟩, [.path "T"]⟩]
  methods := []
  fields := []

/-- A class without marks on the first line. -/
def unmarkedClass (name : String) : Element := ⟨name, "", [], ⟨1, 7⟩, .classType, [], [], []⟩

/-- The file of the marked class. -/
def markedFile : SourceFile := ⟨some "app", [], [markedClass]⟩

/-- The input with the marked class behind an input with the other. -/
def classInputs (name : String) : List Input :=
  [⟨"a.intent", ⟨none, [], [unmarkedClass name]⟩⟩, ⟨"b.intent", markedFile⟩]

theorem parse_markedText : SourceFile.parse markedText = .ok markedFile := by
  cbv

theorem parse_classInputs :
    (∀ input ∈ classInputs "cap", ∃ text, SourceFile.parse text = .ok input.file) ∧
      ∀ input ∈ classInputs "app", ∃ text, SourceFile.parse text = .ok input.file := by
  have hcap : SourceFile.parse "class cap;" = .ok ⟨none, [], [unmarkedClass "cap"]⟩ := by
    cbv
  have happ : SourceFile.parse "class app;" = .ok ⟨none, [], [unmarkedClass "app"]⟩ := by
    cbv
  have hmarked := parse_markedText
  exact ⟨List.forall_mem_cons.2 ⟨⟨_, hcap⟩, List.forall_mem_singleton.2 ⟨_, hmarked⟩⟩,
    List.forall_mem_cons.2 ⟨⟨_, happ⟩, List.forall_mem_singleton.2 ⟨_, hmarked⟩⟩⟩

theorem segments_locate_markedClass :
    (markedClass.locate (.notInterface "app::R")).segments = ["app", "R"] := by
  decide +kernel

/-- Behind a class that is called otherwise, the marked class is printed with its file. -/
theorem path_declaringInput_cap :
    (∀ input ∈ classInputs "cap", ∃ text, SourceFile.parse text = .ok input.file) ∧
      (declaringInput? (classInputs "cap") (markedClass.report (.notInterface "app::R"))).map
        Input.path = some "b.intent" := by
  obtain ⟨hparse, -⟩ := parse_classInputs
  refine ⟨hparse, ?_⟩
  obtain ⟨-, hpaths⟩ := path_declaringInput_eq_iff hparse ⟨["a.intent", "b.intent"], [], false⟩
    Store.sink []
  refine (hpaths [⟨"a.intent", ⟨none, [], [unmarkedClass "cap"]⟩⟩] ⟨"b.intent", markedFile⟩ [] rfl
    markedClass List.mem_cons_self (.notInterface "app::R")).2 ?_
  intro front earlier back hbefore hclaims _
  have hearlier : earlier ∈ [(⟨"a.intent", ⟨none, [], [unmarkedClass "cap"]⟩⟩ : Input)] :=
    hbefore ▸ List.mem_append_right _ List.mem_cons_self
  rw [List.mem_singleton.1 hearlier] at hclaims
  obtain ⟨other, hother, hstarts⟩ := hclaims
  rw [List.mem_singleton.1 hother, segments_locate_markedClass] at hstarts
  have hsegments : (unmarkedClass "cap").segments = ["cap"] := by decide +kernel
  rw [hsegments] at hstarts
  exact absurd (List.cons_prefix_cons.1 hstarts).1 (by decide +kernel)

/-- **A diagnostic can be printed with another file**: behind a class that is called like the
package, the marked class is printed with the file of that class. -/
theorem path_declaringInput_app :
    (∀ input ∈ classInputs "app", ∃ text, SourceFile.parse text = .ok input.file) ∧
      ∃ before input after, classInputs "app" = before ++ input :: after ∧
        ∃ element ∈ input.file.elements, ∃ diagnostic ∈ (runRound (classInputs "app")
            ⟨["a.intent", "b.intent"], [], false⟩ Store.sink []).diagnostics,
          diagnostic = element.report (.notInterface element.qualifiedName) ∧
            (declaringInput? (classInputs "app") diagnostic).map Input.path ≠ some input.path := by
  have hcandidates : candidates ((classInputs "app").map Input.file) = [markedClass] := by
    cbv
  have hqualified : markedClass.qualifiedName = "app::R" := by decide +kernel
  have hfault : ∀ host,
      .notInterface markedClass.qualifiedName ∈ faultsOf (markedClass.router host) :=
    fun host => List.mem_cons_self
  refine ⟨parse_classInputs.2, [_], ⟨"b.intent", markedFile⟩, [], rfl, markedClass,
    List.mem_cons_self, _, ?_, rfl, ?_⟩
  · rw [diagnostics_runRound, hcandidates, Environment.visits]
    exact List.mem_flatMap.2 ⟨_, List.mem_cons_self,
      List.mem_map_of_mem (Environment.mem_faults_visit (hfault _) [])⟩
  · rw [hqualified]
    decide +kernel

end RequestRouter
