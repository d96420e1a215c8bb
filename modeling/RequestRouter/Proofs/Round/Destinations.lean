import RequestRouter.Proofs.Disk.Generated
import RequestRouter.Proofs.Text.Segments

/-!
# Destinations and compiled types

A destination is answered in two ways: a type of an earlier round is found as compiled, and one
that is declared in the round, or written out in full, is put off under its qualified name. Here
the two agree. Every reference is looked up under one qualified name
(`RequestRouter.Element.LooksUp`), and each answer that is a type is the type of that name
(`RequestRouter.SymbolTable.className_resolve`): cut at its last separator, and put together
again. This holds because of what stands in a declaration file. A path is made of names, so there
is nothing around it to trim, and nothing in front of its last separator is empty
(`RequestRouter.IsQualified`).

So a type that is registered as compiled can only turn a destination that was not known into one
that is (`RequestRouter.Element.destination_mono`).
-/

namespace RequestRouter

open Derives (joined)

/-! ### Qualified names -/

/-- The text is made of names, at least one, with separators between them. -/
def IsQualified (text : String) : Prop :=
  ∃ names, names ≠ [] ∧ (∀ name ∈ names, IsName name) ∧ text = joined names

theorem Derives.Path.isQualified {ts : List Token} {names : List String} (h : Path ts names) :
    IsQualified (joined names) := by
  refine ⟨names, ?_, h.isName, rfl⟩
  cases h <;> exact List.cons_ne_nil _ _

/-- A path inside a package is a qualified name. -/
theorem IsQualified.qualify {package reference : String} (h : IsQualified reference)
    (hpackage : IsPackage package) : IsQualified (Text.qualify package reference) := by
  obtain ⟨names, hne, hnames, rfl⟩ := h
  obtain ⟨front, hfront, rfl⟩ := hpackage
  exact ⟨front ++ names, List.append_ne_nil_of_right_ne_nil front hne,
    List.forall_mem_append.2 ⟨hfront, hnames⟩, qualify_joined hfront hne⟩

namespace Text

theorem dropWhile_isBlank {s : List Char} (h : ∀ c ∈ s, isBlank c = false) :
    s.dropWhile isBlank = s := by
  cases s with
  | nil => rfl
  | cons c rest => rw [List.dropWhile_cons_of_neg (by simp [h c List.mem_cons_self])]

/-- Where nothing is blank, there is nothing to trim. -/
theorem trim_eq_self {s : List Char} (h : ∀ c ∈ s, isBlank c = false) : trim s = s := by
  rw [trim, dropWhile_isBlank h, dropWhile_isBlank fun c hc => h c (List.mem_reverse.1 hc),
    List.reverse_reverse]

end Text

namespace IsQualified

variable {text : String}

theorem isBlank_eq_false (h : IsQualified text) : ∀ c ∈ text.toList, Text.isBlank c = false := by
  obtain ⟨names, hne, hnames, rfl⟩ := h
  induction names with
  | nil => exact absurd rfl hne
  | cons name later ih =>
    obtain ⟨hname, hlater⟩ := List.forall_mem_cons.1 hnames
    have hfirst : ∀ c ∈ name.toList, Text.isBlank c = false :=
      fun c hc => Text.isBlank_eq_false_of_isNamePart (hname.isNamePart_of_mem hc)
    by_cases hnil : later = []
    · rw [hnil, joined_singleton]
      exact hfirst
    · rw [toList_joined_cons name hnil]
      have hcolon : Text.isBlank ':' = false := by decide
      exact List.forall_mem_append.2 ⟨hfirst, List.forall_mem_cons.2 ⟨hcolon,
        List.forall_mem_cons.2 ⟨hcolon, ih hnil hlater⟩⟩⟩

/-- What is still being compiled is named by its qualified name. -/
theorem ofDescriptor_eq (h : IsQualified text) :
    ClassName.ofDescriptor text = .ofQualified text := by
  rw [ClassName.ofDescriptor, Text.trim_eq_self h.isBlank_eq_false, String.ofList_toList]

/-- **A qualified name is put together again** from the package and the name that it is cut
into. -/
theorem canonical_ofQualified (h : IsQualified text) :
    (ClassName.ofQualified text).canonical = text := by
  obtain ⟨names, hne, hnames, rfl⟩ := h
  obtain ⟨front, name, rfl⟩ : ∃ front name, names = front ++ [name] :=
    ⟨_, _, (List.dropLast_concat_getLast hne).symm⟩
  obtain ⟨hfront, hname⟩ := List.forall_mem_append.1 hnames
  have hcolon : ':' ∉ name.toList := (hname name List.mem_cons_self).notMem rfl
  rw [ClassName.canonical, ClassName.ofQualified]
  -- A single name has no package; else the last separator is the one in front of the last name.
  by_cases hnil : front = []
  · rw [hnil, List.nil_append, joined_singleton, Text.splitLast?_eq_none hcolon]
    exact Text.qualify_root name
  · have hlist : (joined (front ++ [name])).toList =
        (joined front).toList ++ ':' :: ':' :: name.toList := by
      rw [joined_append hnil (List.cons_ne_nil _ _), joined_singleton, String.toList_append,
        String.toList_append, List.append_assoc]
      rfl
    rw [hlist, Text.splitLast?_append hcolon]
    simp only [String.ofList_toList]
    rw [← qualify_joined hfront (List.cons_ne_nil _ _), joined_singleton]

end IsQualified

/-! ### Paths in a file -/

/-- What can be looked up in the element is made of names: the references in its marks, its
imports and its package. -/
structure Element.HasPaths (element : Element) : Prop where
  package : IsPackage element.package
  imports : ∀ imported ∈ element.imports, IsQualified imported
  references : ∀ mark ∈ element.marks, ∀ reference, .path reference ∈ mark.args →
    IsQualified reference

namespace Derives

theorem Marked.isQualified {ts : List Token} {mark : Mark} (h : Marked ts mark) :
    ∀ reference, .path reference ∈ mark.args → IsQualified reference := by
  intro reference hmem
  cases h with
  | bare _ _ => cases hmem
  | called _ _ hargs =>
    obtain ⟨-, hclosed⟩ := hargs
    refine hclosed.forall_mem (p := fun arg => ∀ reference, arg = .path reference →
      IsQualified reference) ?_ _ hmem reference rfl
    rintro us arg (_ | _ | hpath) reference ⟨⟩
    exact hpath.isQualified

theorem Statement.isQualified {ts : List Token} {text : String} (h : Statement ts text) :
    IsQualified text := by
  obtain ⟨hpath, -⟩ := h
  exact hpath.isQualified

theorem File.hasPaths {ts : List Token} {file : SourceFile} (h : File ts file) :
    ∀ element ∈ file.elements, element.HasPaths := by
  intro element helement
  have hpackage := (h.hasNames element helement).package
  obtain ⟨-, himports, helements⟩ := h
  have himported := himports.forall_mem (p := IsQualified) fun us text huse => by
    obtain ⟨-, hstatement⟩ := huse
    exact hstatement.isQualified
  refine helements.forall_mem (p := fun element => IsPackage element.package → element.HasPaths)
    ?_ element helement hpackage
  rintro us _ ⟨hmarks, -, -, -⟩ hpackage
  exact ⟨hpackage, himported, hmarks.forall_mem fun _ _ hmark => hmark.isQualified⟩

end Derives

theorem hasPaths_of_mem_candidates {texts : List String} {files : List SourceFile}
    (hparse : parseAll texts = .ok files) {element : Element} (h : element ∈ candidates files) :
    element.HasPaths := by
  obtain ⟨file, hfile, hmem⟩ := exists_file_of_mem_candidates h
  obtain ⟨text, -, htext⟩ := exists_parse_of_mem hparse hfile
  obtain ⟨-, _, -, -, hderives⟩ := SourceFile.exists_derives_of_parse htext
  exact hderives.hasPaths element hmem

/-! ### The name that is looked up -/

/-- The qualified name under which the element looks up a reference: the reference if it has a
separator; else the first import that ends with it behind a separator; else the reference in the
package of the element. -/
inductive Element.LooksUp (element : Element) (reference : String) : String → Prop
  /-- The path as it is written. -/
  | written {front back : String} :
    reference = front ++ "::" ++ back → LooksUp element reference reference
  /-- The import. -/
  | imported {before after : List String} {imported front : String} :
    (∀ left right : String, reference ≠ left ++ "::" ++ right) →
      element.imports = before ++ imported :: after → imported = front ++ "::" ++ reference →
      (∀ other ∈ before, ∀ left : String, other ≠ left ++ "::" ++ reference) →
      LooksUp element reference imported
  /-- A type of the same package. -/
  | inPackage :
    (∀ left right : String, reference ≠ left ++ "::" ++ right) →
      (∀ other ∈ element.imports, ∀ left : String, other ≠ left ++ "::" ++ reference) →
      LooksUp element reference (Text.qualify element.package reference)

/-- What is looked up under a path of the element is a qualified name. -/
theorem Element.LooksUp.isQualified {element : Element} {reference qualified : String}
    (h : element.LooksUp reference qualified) (helement : element.HasPaths)
    (hreference : IsQualified reference) : IsQualified qualified := by
  cases h with
  | written _ => exact hreference
  | imported _ himports _ _ =>
    exact helement.imports _ (himports ▸ List.mem_append_right _ List.mem_cons_self)
  | inPackage _ _ => exact hreference.qualify helement.package

/-- More compiled types leave what a reference leads to. -/
theorem Element.Reaches.mono {element : Element} {declared compiled compiled' : List String}
    {reference : String} (hsub : compiled ⊆ compiled')
    (h : element.Reaches declared compiled reference) :
    element.Reaches declared compiled' reference :=
  h.imp_right (Or.imp_right fun hmem => List.mem_append.2 ((List.mem_append.1 hmem).imp_right
    fun hcompiled => hsub hcompiled))

namespace SymbolTable

variable {scope : Element} {reference qualified : String}

theorem className_of_find?_eq_some {table : SymbolTable} {answer : Lookup}
    (hqualified : IsQualified qualified) (h : table.find? qualified = some answer) :
    answer.className = .ok (.ofQualified qualified) := by
  rw [find?] at h
  split at h
  · cases h
    rfl
  · split at h
    · cases h
      exact congrArg Except.ok hqualified.ofDescriptor_eq
    · cases h

theorem className_trusted_eq (table : SymbolTable) (hqualified : IsQualified qualified) :
    (table.trusted qualified).className = .ok (.ofQualified qualified) := by
  rw [trusted]
  cases h : table.find? qualified with
  | none => exact congrArg Except.ok hqualified.ofDescriptor_eq
  | some answer => exact className_of_find?_eq_some hqualified h

/-- **Every table looks a reference up under the same name**, and what it answers is the type of
that name, or that there is none. -/
theorem className_resolve (hscope : scope.HasPaths) (hreference : IsQualified reference) :
    ∃ qualified, scope.LooksUp reference qualified ∧ IsQualified qualified ∧
      ∀ table : SymbolTable,
        (table.resolve reference scope).className = .ok (.ofQualified qualified) ∨
          (table.resolve reference scope).className = .error (.unresolved reference) := by
  -- In the order of the look-up: a full name, an import, a type of the same package.
  by_cases hwritten : isQualified reference = true
  · obtain ⟨front, back, hsplit⟩ := isQualified_iff.1 hwritten
    refine ⟨reference, .written hsplit, hreference, fun table => .inl ?_⟩
    rw [resolve, if_pos hwritten]
    exact table.className_trusted_eq hreference
  · have hplain : ∀ left right : String, reference ≠ left ++ "::" ++ right :=
      fun left right hsplit => hwritten (isQualified_iff.2 ⟨left, right, hsplit⟩)
    cases himport : scope.imports.find? (importsAs reference) with
    | some imported =>
      obtain ⟨hends, before, after, himports, hbefore⟩ := List.find?_eq_some_iff_append.1 himport
      obtain ⟨front, hfront⟩ := importsAs_iff.1 hends
      have hlooks : scope.LooksUp reference imported :=
        .imported hplain himports hfront fun other hother left heq => by
          have hnot := hbefore other hother
          rw [importsAs_iff.2 ⟨left, heq⟩] at hnot
          cases hnot
      have hqualified := hlooks.isQualified hscope hreference
      refine ⟨imported, hlooks, hqualified, fun table => .inl ?_⟩
      rw [resolve, if_neg hwritten, himport]
      exact table.className_trusted_eq hqualified
    | none =>
      have hlooks : scope.LooksUp reference (Text.qualify scope.package reference) :=
        .inPackage hplain fun other hother left heq =>
          List.find?_eq_none.1 himport other hother (importsAs_iff.2 ⟨left, heq⟩)
      have hqualified := hlooks.isQualified hscope hreference
      refine ⟨_, hlooks, hqualified, fun table => ?_⟩
      rw [resolve, if_neg hwritten, himport]
      cases hfind : table.find? (Text.qualify scope.package reference) with
      | some answer => exact .inl (className_of_find?_eq_some hqualified hfind)
      | none => exact .inr rfl

end SymbolTable

/-! ### More compiled types -/

/-- Either the marker of an element has no path, and the tables are not asked; or its path is
looked up under one name, and the destination is the type of that name exactly if the path leads
to a type. -/
theorem Element.destination_cases {element : Element} (h : element.HasPaths) :
    (∃ fault, ∀ host, element.destination host = .error fault) ∨
      ∃ mark reference qualified, FirstMark "Intention" element.marks mark ∧
        mark.args = [.path reference] ∧ element.LooksUp reference qualified ∧
        IsQualified qualified ∧ ∀ table : SymbolTable,
          (element.Reaches table.pending table.compiled reference ∧
            element.destination table.host = .ok (.ofQualified qualified)) ∨
          (¬element.Reaches table.pending table.compiled reference ∧
            element.destination table.host = .error (.unresolved reference)) := by
  cases hmark : element.routerMark? with
  | none =>
    refine .inl ⟨.unmarked element.name, fun host => ?_⟩
    rw [destination, hmark]
  | some mark =>
    cases hpath : mark.path? with
    | none =>
      refine .inl ⟨.noDestination element.name, fun host => ?_⟩
      simp only [destination, hmark, hpath]
    | some reference =>
      have hanswer : ∀ table : SymbolTable, element.destination table.host =
          (table.resolve reference element).className := by
        intro table
        simp only [destination, hmark, hpath]
        rfl
      have hargs : mark.args = [.path reference] := Mark.path?_eq_some_iff.1 hpath
      have hreference : IsQualified reference :=
        h.references mark (List.mem_of_find?_eq_some hmark) reference
          (hargs ▸ List.mem_cons_self)
      -- The name that is looked up does not depend on the table, and only the answer does.
      obtain ⟨qualified, hlooks, hqualified, hclass⟩ := SymbolTable.className_resolve h hreference
      refine .inr ⟨mark, reference, qualified, findMark?_eq_some_iff.1 hmark, hargs, hlooks,
        hqualified, fun table => ?_⟩
      rw [hanswer, ← SymbolTable.className_resolve_eq_ok_iff]
      rcases hclass table with hok | herror
      · exact .inl ⟨⟨_, hok⟩, hok⟩
      · refine .inr ⟨?_, herror⟩
        rintro ⟨destination, hok⟩
        cases hok.symm.trans herror

/-- **What was compiled changes no destination that is known**. In a round over files that were
read from texts, the destination of a marked element stays the same when further types are
registered as compiled, and it is the type whose canonical name is the qualified name that the
first marker of the element looks up. All that can change is that a destination which was not known
becomes known. -/
theorem Element.destination_mono {texts : List String} {files : List SourceFile}
    (hparse : parseAll texts = .ok files) {element : Element}
    (helement : element ∈ candidates files) {compiled compiled' : List String}
    (hsub : compiled ⊆ compiled') :
    let before := element.destination (SymbolTable.ofFiles files compiled).host
    let after := element.destination (SymbolTable.ofFiles files compiled').host
    (∀ destination, before = .ok destination → after = .ok destination ∧
        ∃ mark reference, FirstMark "Intention" element.marks mark ∧
          mark.args = [.path reference] ∧ element.LooksUp reference destination.canonical) ∧
      (after = before ∨
        (∃ name, before = .error (.unresolved name)) ∧ ∃ destination, after = .ok destination) := by
  intro before after
  rcases destination_cases (hasPaths_of_mem_candidates hparse helement) with
    ⟨fault, hfault⟩ | ⟨mark, reference, qualified, hmark, hargs, hlooks, hqualified, hanswer⟩
  · have hbefore : before = .error fault := hfault _
    have hafter : after = .error fault := hfault _
    exact ⟨fun destination h => (nomatch hbefore.symm.trans h), .inl (hafter.trans hbefore.symm)⟩
  · rcases hanswer (SymbolTable.ofFiles files compiled) with ⟨hreaches, hok⟩ | ⟨-, herror⟩
    · have hbefore : before = .ok (.ofQualified qualified) := hok
      -- The path leads to a type, and still does so with more types.
      have hafter : after = .ok (.ofQualified qualified) := by
        rcases hanswer (SymbolTable.ofFiles files compiled') with ⟨-, hok'⟩ | ⟨hnot, -⟩
        · exact hok'
        · exact absurd (hreaches.mono hsub) hnot
      refine ⟨fun destination h => ?_, .inl (hafter.trans hbefore.symm)⟩
      cases hbefore.symm.trans h
      refine ⟨hafter, mark, reference, hmark, hargs, ?_⟩
      rw [hqualified.canonical_ofQualified]
      exact hlooks
    · have hbefore : before = .error (.unresolved reference) := herror
      refine ⟨fun destination h => (nomatch hbefore.symm.trans h), ?_⟩
      rcases hanswer (SymbolTable.ofFiles files compiled') with ⟨-, hok'⟩ | ⟨-, herror'⟩
      · exact .inr ⟨⟨reference, hbefore⟩, _, hok'⟩
      · exact .inl (Eq.trans herror' hbefore.symm)

/-- The destination of the interface is declared in the round, and is the same once it is
compiled. -/
theorem Element.destination_mono_plain :
    parseAll [plainText] = .ok [plainFile] ∧ plainInterface "R" 10 34 ∈ candidates [plainFile] ∧
      ([] : List String) ⊆ ["T"] ∧
      (plainInterface "R" 10 34).destination (SymbolTable.ofFiles [plainFile] ["T"]).host =
        .ok ⟨"", "T"⟩ := by
  have hmem : plainInterface "R" 10 34 ∈ candidates [plainFile] := by
    rw [candidates_plainFile]
    exact List.mem_cons_self
  have hsub : ([] : List String) ⊆ ["T"] := List.nil_subset _
  have hbefore : (plainInterface "R" 10 34).destination
      (SymbolTable.ofFiles [plainFile] []).host = .ok ⟨"", "T"⟩ := by
    cbv
  exact ⟨parseAll_plainText, hmem, hsub,
    ((destination_mono parseAll_plainText hmem hsub).1 _ hbefore).1⟩

end RequestRouter
