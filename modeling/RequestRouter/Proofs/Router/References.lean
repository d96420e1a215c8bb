import RequestRouter.Router.SymbolTable

/-!
# Which references lead to a type

A reference is looked up under one qualified name, which it is itself, or an import, or a type
of the same package. In the first two cases the name was written out in full and is trusted; in
the third it has to be declared or compiled. `RequestRouter.Element.Reaches` says so without the
look-up, and `RequestRouter.SymbolTable.className_resolve_eq_ok_iff` is the proof that the symbol
table answers with a type exactly then.
-/

namespace RequestRouter

/-- The reference leads to a type: it has a separator in it, or an import of the element ends
with it behind a separator, or a type of that name in the package of the element is declared or
was compiled. -/
def Element.Reaches (declared compiled : List String) (element : Element) (reference : String) :
    Prop :=
  (∃ front back : String, reference = front ++ "::" ++ back) ∨
    (∃ front : String, front ++ "::" ++ reference ∈ element.imports) ∨
    Text.qualify element.package reference ∈ declared ++ compiled

/-! ### Separators -/

theorem Text.isSome_splitLast?_iff {s : List Char} :
    (splitLast? s).isSome = true ↔ ∃ front back, s = front ++ ':' :: ':' :: back := by
  constructor
  · induction s with
    | nil => exact nofun
    | cons c rest ih =>
      intro h
      rw [splitLast?] at h
      split at h
      · next front back hrest =>
        obtain ⟨front, back, rfl⟩ := ih (hrest ▸ rfl)
        exact ⟨c :: front, back, rfl⟩
      · split at h
        · next hcolons =>
          rw [Bool.and_eq_true, decide_eq_true_eq, decide_eq_true_eq] at hcolons
          obtain ⟨rfl, hhead⟩ := hcolons
          obtain ⟨back, rfl⟩ := List.head?_eq_some_iff.1 hhead
          exact ⟨[], back, rfl⟩
        · cases h
  · rintro ⟨front, back, rfl⟩
    induction front with
    | nil =>
      rw [List.nil_append, splitLast?]
      split
      · rfl
      · rfl
    | cons c front ih =>
      obtain ⟨pair, hpair⟩ := Option.isSome_iff_exists.1 ih
      rw [List.cons_append, splitLast?, hpair]
      rfl

theorem SymbolTable.isQualified_iff {reference : String} :
    isQualified reference = true ↔ ∃ front back : String, reference = front ++ "::" ++ back := by
  rw [isQualified, Text.isSome_splitLast?_iff]
  constructor
  · rintro ⟨front, back, heq⟩
    refine ⟨String.ofList front, String.ofList back, String.toList_inj.1 ?_⟩
    rw [heq]
    simp
  · rintro ⟨front, back, rfl⟩
    exact ⟨front.toList, back.toList, by simp⟩

theorem SymbolTable.importsAs_iff {reference imported : String} :
    importsAs reference imported = true ↔
      ∃ front : String, imported = front ++ "::" ++ reference := by
  rw [importsAs, List.isSuffixOf_iff_suffix]
  constructor
  · rintro ⟨front, heq⟩
    refine ⟨String.ofList front, String.toList_inj.1 ?_⟩
    rw [← heq]
    simp [Text.separator]
  · rintro ⟨front, rfl⟩
    exact ⟨front.toList, by simp [Text.separator]⟩

/-! ### Answers -/

namespace SymbolTable

variable {table : SymbolTable} {scope : Element} {reference qualified : String}

/-- What the table has, is a type. -/
theorem className_of_find? {answer : Lookup} (h : table.find? qualified = some answer) :
    ∃ destination, answer.className = .ok destination := by
  rw [find?] at h
  split at h
  · cases h
    exact ⟨_, rfl⟩
  · split at h
    · cases h
      exact ⟨_, rfl⟩
    · cases h

theorem className_trusted (table : SymbolTable) (qualified : String) :
    ∃ destination, (table.trusted qualified).className = .ok destination := by
  rw [trusted]
  cases h : table.find? qualified with
  | none => exact ⟨_, rfl⟩
  | some answer => exact className_of_find? h

theorem find?_eq_none_iff :
    table.find? qualified = none ↔ qualified ∉ table.pending ++ table.compiled := by
  rw [find?, isCompiled, isPending, List.mem_append]
  by_cases hcompiled : qualified ∈ table.compiled
  · simp [hcompiled]
  · by_cases hpending : qualified ∈ table.pending
    · simp [hcompiled, hpending]
    · simp [hcompiled, hpending]

/-- **A reference is answered with a type exactly if it leads to one**. -/
theorem className_resolve_eq_ok_iff :
    (∃ destination, (table.resolve reference scope).className = .ok destination) ↔
      scope.Reaches table.pending table.compiled reference := by
  -- In the order of the look-up: a full name, an import, a type of the same package.
  rw [resolve, Element.Reaches]
  split
  · next hqualified =>
    exact ⟨fun _ => .inl (isQualified_iff.1 hqualified), fun _ => className_trusted _ _⟩
  · next hqualified =>
    have hnot : ¬∃ front back : String, reference = front ++ "::" ++ back := by
      rwa [← isQualified_iff]
    split
    · next imported himported =>
      obtain ⟨front, rfl⟩ := importsAs_iff.1 (List.find?_some himported)
      exact ⟨fun _ => .inr (.inl ⟨front, List.mem_of_find?_eq_some himported⟩),
        fun _ => className_trusted _ _⟩
    · next hnone =>
      have hnot' : ¬∃ front : String, front ++ "::" ++ reference ∈ scope.imports := by
        rintro ⟨front, hmem⟩
        exact List.find?_eq_none.1 hnone _ hmem (importsAs_iff.2 ⟨front, rfl⟩)
      rw [or_iff_right hnot, or_iff_right hnot']
      cases hfind : table.find? (Text.qualify scope.package reference) with
      | none =>
        refine ⟨?_, fun hmem => absurd hmem (find?_eq_none_iff.1 hfind)⟩
        rintro ⟨destination, ⟨⟩⟩
      | some answer =>
        refine ⟨fun _ => ?_, fun _ => className_of_find? hfind⟩
        refine Classical.byContradiction fun hmem => ?_
        rw [find?_eq_none_iff.2 hmem] at hfind
        cases hfind

end SymbolTable

end RequestRouter
