import RequestRouter.Proofs.Round.Destinations

/-!
# The name that a bare reference selects

A reference without separators is the last segment of a name: of the first import that ends in it,
and else of a type of the same package (`RequestRouter.Element.Selects`). An import without
separators is its own last segment, and names a type of the root package. The symbol table looks for
imports that end in the reference *behind a separator*, and so passes these over. What it answers is
right exactly if no such import is selected, or if by chance the table has the same under the name
that it looks up instead (`RequestRouter.SymbolTable.resolve_eq_answer_iff`).
-/

namespace RequestRouter

/-! ### Selecting a name -/

/-- The reference, which has no separators, is the last segment of the name. A name without
separators is its own last segment. -/
def LastSegment (reference name : String) : Prop :=
  name = reference ∨ ∃ front : String, name = front ++ "::" ++ reference

/-- The name that a bare reference selects in the element, and whether an import has it: the name of
the first import that ends in it, or else the reference in the package of the element. -/
inductive Element.Selects (scope : Element) (reference : String) : String → Bool → Prop
  /-- The import. -/
  | imported {before after : List String} {imported : String} :
    scope.imports = before ++ imported :: after → LastSegment reference imported →
      (∀ other ∈ before, ¬LastSegment reference other) → Selects scope reference imported true
  /-- A type of the same package. -/
  | inPackage :
    (∀ other ∈ scope.imports, ¬LastSegment reference other) →
      Selects scope reference (Text.qualify scope.package reference) false

/-- What is to be answered about a reference that selects the name: the type if it was compiled;
else that it is put off, if it is declared in the round or was written out in an import; else that
the reference is not known. -/
def SymbolTable.answer (table : SymbolTable) (reference selected : String) (imported : Bool) :
    Lookup :=
  if selected ∈ table.compiled then .found (.ofQualified selected)
  else if selected ∈ table.pending ∨ imported = true then .deferred selected
  else .unknown reference

/-- A name goes on in front of a separator. -/
theorem append_separator_ne (front reference : String) :
    front ++ "::" ++ reference ≠ reference := by
  intro heq
  have hlength := congrArg String.length heq
  rw [String.length_append, String.length_append] at hlength
  have hseparator : "::".length = 2 := rfl
  omega

/-- The first element with a property is found by looking for it. -/
theorem find?_decide_eq_some_iff {α : Type} {p : α → Prop} [DecidablePred p] {as : List α} {a : α} :
    as.find? (fun b => decide (p b)) = some a ↔
      p a ∧ ∃ before after, as = before ++ a :: after ∧ ∀ b ∈ before, ¬p b := by
  rw [List.find?_eq_some_iff_append]
  simp

namespace Element

variable {scope : Element} {reference : String}

open Classical in
/-- A reference selects a name. -/
theorem exists_selects (scope : Element) (reference : String) :
    ∃ selected imported, scope.Selects reference selected imported := by
  cases hfind : scope.imports.find? (fun name => decide (LastSegment reference name)) with
  | some imported =>
    obtain ⟨hlast, before, after, himports, hbefore⟩ := find?_decide_eq_some_iff.1 hfind
    exact ⟨imported, true, .imported himports hlast hbefore⟩
  | none =>
    refine ⟨_, false, .inPackage fun other hother hsame => ?_⟩
    exact List.find?_eq_none.1 hfind other hother (decide_eq_true hsame)

open Classical in
/-- A reference selects one name only. -/
theorem Selects.unique {selected other : String} {imported flag : Bool}
    (h : scope.Selects reference selected imported) (hother : scope.Selects reference other flag) :
    other = selected ∧ flag = imported := by
  rcases h with ⟨himports, hlast, hbefore⟩ | hnone
  · rcases hother with ⟨himports', hlast', hbefore'⟩ | hnone'
    · have hfind := find?_decide_eq_some_iff.2 ⟨hlast, _, _, himports, hbefore⟩
      have hfind' := find?_decide_eq_some_iff.2 ⟨hlast', _, _, himports', hbefore'⟩
      exact ⟨Option.some.inj (hfind'.symm.trans hfind), rfl⟩
    · exact absurd hlast (hnone' _ (himports ▸ List.mem_append_right _ List.mem_cons_self))
  · rcases hother with ⟨himports', hlast', hbefore'⟩ | hnone'
    · exact absurd hlast' (hnone _ (himports' ▸ List.mem_append_right _ List.mem_cons_self))
    · exact ⟨rfl, rfl⟩

end Element

/-! ### Looking a name up -/

namespace SymbolTable

variable {table : SymbolTable} {scope : Element} {reference name : String}

theorem trusted_eq_answer (table : SymbolTable) (reference selected : String) :
    table.trusted selected = table.answer reference selected true := by
  rw [trusted, find?, answer, isCompiled, isPending]
  by_cases hcompiled : selected ∈ table.compiled
  · simp [hcompiled]
  · by_cases hpending : selected ∈ table.pending
    · simp [hcompiled, hpending]
    · simp [hcompiled, hpending]

theorem getD_find?_eq_answer (table : SymbolTable) (reference selected : String) :
    (table.find? selected).getD (.unknown reference) = table.answer reference selected false := by
  rw [find?, answer, isCompiled, isPending]
  by_cases hcompiled : selected ∈ table.compiled
  · simp [hcompiled]
  · by_cases hpending : selected ∈ table.pending
    · simp [hcompiled, hpending]
    · simp [hcompiled, hpending]

theorem find?_importsAs_eq_some_iff {names : List String} {imported : String} :
    names.find? (importsAs reference) = some imported ↔
      (∃ front : String, imported = front ++ "::" ++ reference) ∧
        ∃ before after, names = before ++ imported :: after ∧
          ∀ other ∈ before, ∀ left : String, other ≠ left ++ "::" ++ reference := by
  rw [List.find?_eq_some_iff_append, importsAs_iff]
  simp only [Bool.not_eq_true', ← Bool.not_eq_true, importsAs_iff, not_exists]

theorem find?_importsAs_eq_none_iff {names : List String} :
    names.find? (importsAs reference) = none ↔
      ∀ other ∈ names, ∀ left : String, other ≠ left ++ "::" ++ reference := by
  simp only [List.find?_eq_none, importsAs_iff, not_exists]

section Bare

variable (hbare : ∀ front back : String, reference ≠ front ++ "::" ++ back)

include hbare

theorem not_isQualified_of_bare : ¬isQualified reference = true := by
  intro hqualified
  obtain ⟨front, back, hsplit⟩ := isQualified_iff.1 hqualified
  exact hbare front back hsplit

theorem resolve_of_find?_eq_some {imported : String}
    (h : scope.imports.find? (importsAs reference) = some imported) (table : SymbolTable) :
    table.resolve reference scope = table.answer reference imported true := by
  rw [resolve, if_neg (not_isQualified_of_bare hbare), h]
  exact table.trusted_eq_answer reference imported

theorem resolve_of_find?_eq_none (h : scope.imports.find? (importsAs reference) = none)
    (table : SymbolTable) : table.resolve reference scope =
      table.answer reference (Text.qualify scope.package reference) false := by
  rw [resolve, if_neg (not_isQualified_of_bare hbare), h]
  exact table.getD_find?_eq_answer reference _

/-- A bare reference is looked up under some name. -/
theorem exists_looksUp (scope : Element) : ∃ name, scope.LooksUp reference name := by
  cases hfind : scope.imports.find? (importsAs reference) with
  | some imported =>
    obtain ⟨⟨front, hfront⟩, before, after, himports, hbefore⟩ :=
      find?_importsAs_eq_some_iff.1 hfind
    exact ⟨imported, .imported hbare himports hfront hbefore⟩
  | none => exact ⟨_, .inPackage hbare (find?_importsAs_eq_none_iff.1 hfind)⟩

/-- What is answered about a bare reference is the answer about the name under which it is looked
up; if this is an import, it is another name than the reference. -/
theorem resolve_eq_of_looksUp {name : String} (h : scope.LooksUp reference name) :
    ∃ imported, (imported = true → name ≠ reference) ∧ ∀ table : SymbolTable,
      table.resolve reference scope = table.answer reference name imported := by
  cases h with
  | written hsplit => exact absurd hsplit (hbare _ _)
  | @imported before after _ front _ himports hfront hbefore =>
    have hfind : scope.imports.find? (importsAs reference) = some name :=
      find?_importsAs_eq_some_iff.2 ⟨⟨front, hfront⟩, before, after, himports, hbefore⟩
    exact ⟨true, fun _ hsame => append_separator_ne front reference (hfront ▸ hsame),
      resolve_of_find?_eq_some hbare hfind⟩
  | inPackage _ hnone =>
    exact ⟨false, nofun, resolve_of_find?_eq_none hbare (find?_importsAs_eq_none_iff.2 hnone)⟩

/-- The name that is selected is looked up, unless it is an import without separators. -/
theorem resolve_eq_of_selects {selected : String} {imported : Bool}
    (h : scope.Selects reference selected imported) (hne : imported = true → selected ≠ reference)
    (table : SymbolTable) :
    table.resolve reference scope = table.answer reference selected imported := by
  rcases h with ⟨himports, hlast, hbefore⟩ | hnone
  · refine resolve_of_find?_eq_some hbare ?_ table
    exact find?_importsAs_eq_some_iff.2 ⟨hlast.resolve_left (hne rfl), _, _, himports,
      fun other hother left heq => hbefore other hother (.inr ⟨left, heq⟩)⟩
  · refine resolve_of_find?_eq_none hbare ?_ table
    exact find?_importsAs_eq_none_iff.2 fun other hother left heq =>
      hnone other hother (.inr ⟨left, heq⟩)

end Bare

theorem answer_true (table : SymbolTable) (reference name : String) :
    table.answer reference name true =
      if name ∈ table.compiled then .found (.ofQualified name) else .deferred name := by
  simp [answer]

/-- The answer about a name is that about an import which is the reference itself: if the name is
the reference and the table has it, or if both were compiled to one type. -/
theorem answer_eq_answer_iff {imported : Bool} (hne : imported = true → name ≠ reference) :
    table.answer reference name imported = table.answer reference reference true ↔
      (name = reference ∧ reference ∈ table.pending ++ table.compiled) ∨
        (name ∈ table.compiled ∧ reference ∈ table.compiled ∧
          ClassName.ofQualified name = .ofQualified reference) := by
  rw [answer, answer_true]
  by_cases hsame : name = reference
  · have hflag : imported = false := by
      rw [← Bool.not_eq_true]
      exact fun hflag => hne hflag hsame
    by_cases hcompiled : reference ∈ table.compiled
    · simp [hsame, hcompiled]
    · by_cases hpending : reference ∈ table.pending
      · simp [hsame, hflag, hcompiled, hpending]
      · simp [hsame, hflag, hcompiled, hpending]
  · by_cases hname : name ∈ table.compiled
    · by_cases hreference : reference ∈ table.compiled
      · simp [hsame, hname, hreference]
      · simp [hsame, hname, hreference]
    · -- what is put off, is put off under its own name
      rw [if_neg hname]
      simp only [hsame, hname, false_and, or_false, iff_false]
      split_ifs <;> simp [hsame]

/-- **When a bare reference is answered right.** In every element, a bare reference selects one
name. The table answers about this name, unless it is an import that is the reference itself,
without separators: such an import is passed over. Then the answer is right only if what is looked
up instead is the reference in the root package, and the table has it; or if both names were
compiled and lead to one type. -/
theorem resolve_eq_answer_iff (table : SymbolTable) (scope : Element) {reference : String}
    (hbare : ∀ front back : String, reference ≠ front ++ "::" ++ back) :
    ∃ selected imported, scope.Selects reference selected imported ∧
      (∀ other flag, scope.Selects reference other flag → other = selected ∧ flag = imported) ∧
      (table.resolve reference scope = table.answer reference selected imported ↔
        (imported = true → selected ≠ reference) ∨
        ∃ other, scope.LooksUp reference other ∧
          ((other = reference ∧ reference ∈ table.pending ++ table.compiled) ∨
            (other ∈ table.compiled ∧ reference ∈ table.compiled ∧
              ClassName.ofQualified other = .ofQualified reference))) := by
  obtain ⟨selected, imported, hselects⟩ := scope.exists_selects reference
  refine ⟨selected, imported, hselects, fun other flag hother => hselects.unique hother, ?_⟩
  by_cases hne : imported = true → selected ≠ reference
  · exact ⟨fun _ => .inl hne, fun _ => resolve_eq_of_selects hbare hselects hne table⟩
  · -- The import that is the reference itself is passed over.
    obtain ⟨rfl, rfl⟩ : imported = true ∧ selected = reference := by
      simpa only [Classical.not_imp, not_not] using hne
    rw [or_iff_right hne]
    constructor
    · intro hright
      obtain ⟨other, hlooks⟩ := exists_looksUp hbare scope
      obtain ⟨flag, hflag, hresolve⟩ := resolve_eq_of_looksUp hbare hlooks
      exact ⟨other, hlooks, (answer_eq_answer_iff hflag).1 ((hresolve table).symm.trans hright)⟩
    · rintro ⟨other, hlooks, hsame⟩
      obtain ⟨flag, hflag, hresolve⟩ := resolve_eq_of_looksUp hbare hlooks
      exact (hresolve table).trans ((answer_eq_answer_iff hflag).2 hsame)

end SymbolTable

/-! ### An import without separators -/

/-- The texts of a screen in the root package, and of a router in another package that imports it
and names it as its destination. -/
def homeTexts : List String :=
  ["class Home;", "package app;\nuse Home;\n@Intention(Home) interface R;"]

/-- The router. -/
def homeRouter : Element where
  name := "R"
  package := "app"
  imports := ["Home"]
  position := ⟨3, 28⟩
  kind := .interfaceType
  marks := [⟨"Intention", ⟨3, 1⟩, [.path "Home"]⟩]
  methods := []
  fields := []

/-- The files that the texts hold. -/
def homeFiles : List SourceFile :=
  [⟨none, [], [⟨"Home", "", [], ⟨1, 7⟩, .classType, [], [], []⟩]⟩,
    ⟨some "app", ["Home"], [homeRouter]⟩]

theorem parseAll_homeTexts : parseAll homeTexts = .ok homeFiles := by
  cbv

theorem home_ne_append (front back : String) : "Home" ≠ front ++ "::" ++ back := by
  intro heq
  have hqualified := SymbolTable.isQualified_iff.2 ⟨front, back, heq⟩
  revert hqualified
  decide

/-- The import names the screen, which is declared in the round, but the reference is not known, and
the router is refused. -/
theorem resolve_ne_answer_homeRouter :
    parseAll homeTexts = .ok homeFiles ∧ homeRouter ∈ candidates homeFiles ∧
      homeRouter.Selects "Home" "Home" true ∧
      (SymbolTable.ofFiles homeFiles []).answer "Home" "Home" true = .deferred "Home" ∧
      (SymbolTable.ofFiles homeFiles []).resolve "Home" homeRouter = .unknown "Home" ∧
      homeRouter.destination (SymbolTable.ofFiles homeFiles []).host =
        .error (.unresolved "Home") := by
  have hcandidates : candidates homeFiles = [homeRouter] := by
    cbv
  have himports : homeRouter.imports = [] ++ "Home" :: [] := rfl
  have hselects : homeRouter.Selects "Home" "Home" true :=
    .imported himports (.inl rfl) (List.forall_mem_nil _)
  exact ⟨parseAll_homeTexts, hcandidates ▸ List.mem_cons_self, hselects, by decide, by decide,
    by cbv⟩

/-- A router that imports a screen of another package in front of the one of the root package. -/
def libraryRouter : Element :=
  { homeRouter with imports := ["Home::Other", "lib::Home", "Home"] }

/-- The first import that ends in the reference has separators, and is what is answered about. -/
theorem resolve_eq_answer_libraryRouter :
    (∀ front back : String, "Home" ≠ front ++ "::" ++ back) ∧
      libraryRouter.Selects "Home" "lib::Home" true ∧
      (⟨["app::Home"], ["lib::Home"]⟩ : SymbolTable).resolve "Home" libraryRouter =
        .found ⟨"lib", "Home"⟩ := by
  have hother : ¬LastSegment "Home" "Home::Other" := by
    rintro (hsame | hfront)
    · revert hsame
      decide
    · have hends := SymbolTable.importsAs_iff.2 hfront
      revert hends
      decide
  have himports : libraryRouter.imports = ["Home::Other"] ++ "lib::Home" :: ["Home"] := rfl
  have hselects : libraryRouter.Selects "Home" "lib::Home" true :=
    .imported himports (.inr ⟨"lib", rfl⟩) (List.forall_mem_singleton.2 hother)
  obtain ⟨selected, imported, -, hunique, hiff⟩ :=
    SymbolTable.resolve_eq_answer_iff ⟨["app::Home"], ["lib::Home"]⟩ libraryRouter home_ne_append
  obtain ⟨rfl, rfl⟩ := hunique "lib::Home" true hselects
  refine ⟨home_ne_append, hselects, ?_⟩
  rw [hiff.2 (.inl fun _ => by decide)]
  decide

end RequestRouter
