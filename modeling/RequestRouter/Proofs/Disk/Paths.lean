import RequestRouter.Disk.Basic
import RequestRouter.Proofs.Text.Segments
import RequestRouter.Proofs.Text.Snake

/-!
# Paths of generated files

A part that is a name (`RequestRouter.IsPathName`) prolongs a path by one name and leads from a
directory to the place of this name in it. Names of declarations are such parts, and so are the
names of files in snake case. So the path of a generated file goes through its package: behind the
output directory it has the names of the package and the name of the file
(`RequestRouter.EmittedFile.pathNames_pathUnder`).

Nothing else about a file is in its path. Two files have the same path, and lie at the same place,
exactly if they have the same package and their names have the same snake case
(`RequestRouter.EmittedFile.pathUnder_eq_iff`).
-/

namespace RequestRouter

open Derives (joined)

/-! ### Parts of paths -/

theorem slashParts_ne_nil (s : List Char) : slashParts s ≠ [] := by
  fun_cases slashParts s <;> exact List.cons_ne_nil _ _

theorem slashParts_of_notMem {s : List Char} (h : '/' ∉ s) : slashParts s = [s] := by
  induction s with
  | nil => rfl
  | cons c rest ih =>
    obtain ⟨hc, hrest⟩ := not_or.1 (mt List.mem_cons.2 h)
    rw [slashParts, ih hrest]
    exact fun hslash => hc hslash.symm

/-- The parts on both sides of a slash. -/
theorem slashParts_append (s t : List Char) :
    slashParts (s ++ '/' :: t) = slashParts s ++ slashParts t := by
  induction s with
  | nil => rfl
  | cons c rest ih =>
    by_cases hc : c = '/'
    · rw [hc, List.cons_append, slashParts, slashParts, ih]
      rfl
    · obtain ⟨first, others, hfirst⟩ := List.exists_cons_of_ne_nil (slashParts_ne_nil rest)
      rw [List.cons_append, slashParts, slashParts, ih, hfirst]
      · rfl
      · exact fun hslash => hc hslash
      · exact fun hslash => hc hslash

/-- Whether the name leads somewhere else, if perhaps only up. -/
def leads (name : String) : Bool := name != "." && name != ""

theorem pathNames_eq (path : String) :
    pathNames path = (followed path).1 ++ (followed path).2.filter leads := rfl

/-- The part of a path is a name: it is not empty, not dots only, and has no slash in it. -/
structure IsPathName (part : String) : Prop where
  slash : '/' ∉ part.toList
  leads : leads part = true
  ne_upward : part ≠ upward

namespace IsPathName

variable {part : String}

theorem ne_empty (h : IsPathName part) : part ≠ "" := by
  rintro rfl
  cases h.leads

theorem ne_dot (h : IsPathName part) : part ≠ "." := by
  rintro rfl
  cases h.leads

theorem head?_ne (h : IsPathName part) : part.toList.head? ≠ some '/' :=
  fun hhead => h.slash (List.mem_of_head? hhead)

/-- A name leads to the place of this name. -/
theorem enter_eq (h : IsPathName part) (here : Place) : enter here part = here ++ [part] := by
  simp [enter, h.ne_dot, h.ne_empty, h.ne_upward]

theorem followed_eq (h : IsPathName part) : followed part = ([], [part]) := by
  simp [followed, slashParts_of_notMem h.slash, h.head?_ne, String.ofList_toList]

end IsPathName

/-- Names lead through directories of these names. -/
theorem foldl_enter {parts : List String} (h : ∀ part ∈ parts, IsPathName part) (here : Place) :
    parts.foldl enter here = here ++ parts := by
  induction parts generalizing here with
  | nil => exact (List.append_nil here).symm
  | cons part rest ih =>
    obtain ⟨hpart, hrest⟩ := List.forall_mem_cons.1 h
    rw [List.foldl_cons, hpart.enter_eq, ih hrest, List.append_assoc]
    rfl

/-- A path behind a slash: the part comes behind what was followed up to the slash. -/
theorem followed_of_toList {base path part : String} {front : List Char}
    (hbase : base.toList ≠ []) (hfront : base.toList = front ∨ base.toList = front ++ ['/'])
    (hpath : path.toList = front ++ '/' :: part.toList) (hpart : IsPathName part) :
    followed path = ((followed base).1, (slashParts front).map String.ofList ++ [part]) ∧
      ((slashParts front).map String.ofList).filter leads = (followed base).2.filter leads := by
  have hnames : (slashParts path.toList).map String.ofList =
      (slashParts front).map String.ofList ++ [part] := by
    rw [hpath, slashParts_append, slashParts_of_notMem hpart.slash, List.map_append,
      List.map_singleton, String.ofList_toList]
  have hhead : path.toList.head? = base.toList.head? := by
    rw [hpath]
    rcases hfront with hfront | hfront
    · rw [hfront] at hbase ⊢
      obtain ⟨first, rest, rfl⟩ := List.exists_cons_of_ne_nil hbase
      rfl
    · rw [hfront, List.head?_append, List.head?_append]
      rfl
  have hfilter : ((slashParts base.toList).map String.ofList).filter leads =
      ((slashParts front).map String.ofList).filter leads := by
    rcases hfront with hfront | hfront
    · rw [hfront]
    · -- The slash at the end cuts off an empty part, which leads nowhere.
      rw [hfront, slashParts_append, List.map_append, List.filter_append]
      exact List.append_nil _
  rw [followed, followed, hhead, hnames]
  split
  · exact ⟨rfl, hfilter.symm⟩
  · exact ⟨rfl, hfilter.symm⟩

/-- **A name behind a path** is followed last. -/
theorem exists_followed_joinPath {part : String} (h : IsPathName part) (base : String) :
    ∃ names, followed (joinPath base part) = ((followed base).1, names ++ [part]) ∧
      names.filter leads = (followed base).2.filter leads := by
  rw [joinPath, if_neg h.head?_ne]
  by_cases hempty : base = ""
  · rw [hempty]
    exact ⟨[], h.followed_eq, rfl⟩
  have hbase : base.toList ≠ [] := fun hnil => hempty (String.toList_eq_nil_iff.1 hnil)
  have hisEmpty : base.isEmpty = false := by
    rw [String.isEmpty_eq_false_iff]
    exact hempty
  rw [hisEmpty, Bool.false_or]
  -- With a slash at its end, the base takes no other one.
  split
  · next hlast =>
    obtain ⟨front, hfront⟩ := List.getLast?_eq_some_iff.1 (of_decide_eq_true hlast)
    refine ⟨_, followed_of_toList hbase (.inr hfront) ?_ h⟩
    rw [String.toList_append, hfront, List.append_assoc]
    rfl
  · refine ⟨_, followed_of_toList hbase (.inl rfl) ?_ h⟩
    rw [String.toList_append, String.toList_append, List.append_assoc]
    rfl

theorem pathNames_joinPath {part : String} (h : IsPathName part) (base : String) :
    pathNames (joinPath base part) = pathNames base ++ [part] := by
  obtain ⟨names, hfollowed, hfilter⟩ := exists_followed_joinPath h base
  rw [pathNames_eq, pathNames_eq, hfollowed, List.filter_append, hfilter,
    List.filter_cons_of_pos h.leads, List.append_assoc]
  rfl

theorem pathNames_foldl_joinPath {parts : List String} (h : ∀ part ∈ parts, IsPathName part)
    (base : String) : pathNames (parts.foldl joinPath base) = pathNames base ++ parts := by
  induction parts generalizing base with
  | nil => exact (List.append_nil _).symm
  | cons part rest ih =>
    obtain ⟨hpart, hrest⟩ := List.forall_mem_cons.1 h
    rw [List.foldl_cons, ih hrest, pathNames_joinPath hpart, List.append_assoc]
    rfl

/-! ### Files -/

theorem IsName.isPathName {name : String} (h : IsName name) : IsPathName name where
  slash := h.notMem rfl
  leads := by
    have hdot : name ≠ "." := by
      rintro rfl
      exact h.notMem (c := '.') rfl List.mem_cons_self
    simp [RequestRouter.leads, hdot, h.ne_empty]
  ne_upward := by
    rintro rfl
    exact h.notMem (c := '.') rfl List.mem_cons_self

theorem isPathName_outputName {name : String} (h : IsName name) : IsPathName (outputName name) := by
  have hlist : (outputName name).toList = Text.snakeAfter none name.toList ++ ['.', 'r', 's'] := by
    rw [outputName, Text.snakeCase, String.toList_append, String.toList_ofList]
    rfl
  have hne : ∀ other : String, other.toList.length < 3 → outputName name ≠ other := by
    rintro other hlength rfl
    rw [hlist, List.length_append] at hlength
    exact absurd hlength (Nat.not_lt.2 (Nat.le_add_left _ _))
  refine ⟨?_, ?_, hne _ (by decide)⟩
  · rw [hlist, List.mem_append, not_or]
    refine ⟨fun hmem => ?_, by decide⟩
    cases Text.isNamePart_of_mem_snakeAfter (fun c hc => h.isNamePart_of_mem hc) _ hmem
  · simp [RequestRouter.leads, hne "." (by decide), hne "" (by decide)]

/-- **The directories of a package** are its names. -/
theorem packageDirectories_joined {names : List String} (h : ∀ name ∈ names, IsName name) :
    packageDirectories (joined names) = names := by
  by_cases hnil : names = []
  · rw [hnil]
    rfl
  have hfilter : (names.map String.toList).filter (fun part => !part.isEmpty) =
      names.map String.toList := by
    refine List.filter_eq_self.2 fun part hpart => ?_
    obtain ⟨name, hname, rfl⟩ := List.mem_map.1 hpart
    have hne : name.toList ≠ [] := fun hempty =>
      (h name hname).ne_empty (String.toList_eq_nil_iff.1 hempty)
    simp [hne]
  rw [packageDirectories, segments_joined hnil (noColons_of_isName h), hfilter, List.map_map]
  exact (List.map_congr_left fun name _ => String.ofList_toList).trans (List.map_id names)

/-- The place that a path leads to. -/
def pathPlace (path : String) : Place := (pathNames path).foldl enter []

namespace EmittedFile

/-- The package of the file is made of names, and its name is one. -/
structure HasNames (file : EmittedFile) : Prop where
  package : IsPackage file.package
  name : IsName file.name

/-- The names of the file behind the output directory. -/
def ownNames (file : EmittedFile) : List String :=
  packageDirectories file.package ++ [outputName file.name]

theorem isPathName_of_mem_ownNames {file : EmittedFile} (h : file.HasNames) :
    ∀ part ∈ file.ownNames, IsPathName part := by
  obtain ⟨names, hnames, hpackage⟩ := h.package
  rw [ownNames, hpackage, packageDirectories_joined hnames]
  exact List.forall_mem_append.2 ⟨fun name hmem => (hnames name hmem).isPathName,
    List.forall_mem_singleton.2 (isPathName_outputName h.name)⟩

/-- The package and the snake case of the name are all that there is in the names of the file. -/
theorem ownNames_inj {file other : EmittedFile} (hfile : file.HasNames) (hother : other.HasNames) :
    file.ownNames = other.ownNames ↔
      file.package = other.package ∧ Text.snakeCase file.name = Text.snakeCase other.name := by
  rw [ownNames, ownNames]
  constructor
  · intro h
    obtain ⟨hdirectories, hlast⟩ := List.append_inj' h rfl
    obtain ⟨names, hnames, hpackage⟩ := hfile.package
    obtain ⟨names', hnames', hpackage'⟩ := hother.package
    rw [hpackage, hpackage', packageDirectories_joined hnames, packageDirectories_joined hnames']
      at hdirectories
    have houtput : outputName file.name = outputName other.name := (List.cons.inj hlast).1
    rw [outputName, outputName, String.append_left_inj] at houtput
    exact ⟨by rw [hpackage, hpackage', hdirectories], houtput⟩
  · rintro ⟨hpackage, hname⟩
    rw [hpackage, outputName, outputName, hname]

section

variable {file other : EmittedFile} (output : String)

/-- **The path of a generated file** has the names of the file behind those of the output
directory. -/
theorem pathNames_pathUnder (h : file.HasNames) :
    pathNames (file.pathUnder output) = pathNames output ++ file.ownNames := by
  obtain ⟨hdirectories, hlast⟩ := List.forall_mem_append.1 (isPathName_of_mem_ownNames h)
  rw [pathUnder, pathNames_joinPath (hlast _ List.mem_cons_self),
    pathNames_foldl_joinPath hdirectories, ownNames, List.append_assoc]

/-- The place of a generated file. -/
theorem pathPlace_pathUnder (h : file.HasNames) :
    pathPlace (file.pathUnder output) = pathPlace output ++ file.ownNames := by
  rw [pathPlace, pathNames_pathUnder output h, List.foldl_append,
    foldl_enter (isPathName_of_mem_ownNames h)]
  rfl

variable (hfile : file.HasNames) (hother : other.HasNames)

include hfile hother

/-- **Which files have the same path**: those of the same package whose names have the same snake
case. -/
theorem pathUnder_eq_iff : file.pathUnder output = other.pathUnder output ↔
    file.package = other.package ∧ Text.snakeCase file.name = Text.snakeCase other.name := by
  rw [← ownNames_inj hfile hother]
  constructor
  · intro h
    have hnames := congrArg pathNames h
    rw [pathNames_pathUnder output hfile, pathNames_pathUnder output hother] at hnames
    exact List.append_cancel_left hnames
  · intro h
    obtain ⟨hdirectories, hlast⟩ := List.append_inj' h rfl
    rw [pathUnder, pathUnder, hdirectories, (List.cons.inj hlast).1]

/-- Files with different paths lie at different places. -/
theorem pathPlace_pathUnder_inj :
    pathPlace (file.pathUnder output) = pathPlace (other.pathUnder output) ↔
      file.pathUnder output = other.pathUnder output := by
  refine ⟨fun h => ?_, congrArg pathPlace⟩
  rw [pathPlace_pathUnder output hfile, pathPlace_pathUnder output hother] at h
  rw [pathUnder_eq_iff output hfile hother, ← ownNames_inj hfile hother]
  exact List.append_cancel_left h

end

end EmittedFile

end RequestRouter
