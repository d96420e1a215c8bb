import RequestRouter.Proofs.Disk.Generated

/-!
# Generated files under the output directory

The path of a generated file is that of the output directory with names behind it: those of the
package, and the name of the file (`RequestRouter.EmittedFile.pathUnder_eq_pathBelow`). A name leads
neither up nor anywhere else, so the file is under the output directory.

The name of a file has a dot in it, and the names of packages have none. So no file is where another
needs a directory (`RequestRouter.EmittedFile.ownNames_append_ne`).

A round hands nothing else to its sink than the files of its marked elements, in their order
(`RequestRouter.Environment.exists_fill_processElements`). Main statement:
`RequestRouter.Environment.pathUnder_contained`.
-/

namespace RequestRouter

open Derives (joined)

/-! ### Paths behind a directory -/

/-- The path of `parts` under `base`, with slashes between them. -/
def pathBelow (base : String) (parts : List String) : String :=
  (if base.isEmpty || base.toList.getLast? = some '/' then base else base ++ "/") ++
    "/".intercalate parts

theorem joinPath_eq_pathBelow {part : String} (h : IsPathName part) (base : String) :
    joinPath base part = pathBelow base [part] := by
  rw [joinPath, if_neg h.head?_ne, pathBelow, String.intercalate_singleton]
  split <;> rfl

/-- Behind a name, more names go on with a slash. -/
theorem pathBelow_joinPath {part : String} (h : IsPathName part) (base : String)
    {parts : List String} (hne : parts ≠ []) :
    pathBelow (joinPath base part) parts = pathBelow base (part :: parts) := by
  have hlist : (joinPath base part).toList.getLast? = part.toList.getLast? := by
    have hpart : part.toList ≠ [] := fun hnil => h.ne_empty (String.toList_eq_nil_iff.1 hnil)
    rw [joinPath_eq_pathBelow h, pathBelow, String.intercalate_singleton, String.toList_append,
      List.getLast?_append_of_ne_nil _ hpart]
  have hlast : (joinPath base part).toList.getLast? ≠ some '/' := by
    rw [hlist]
    exact fun hslash => h.slash (List.mem_of_getLast? hslash)
  have hempty : (joinPath base part).isEmpty = false := by
    rw [String.isEmpty_eq_false_iff]
    intro hempty
    have hnone := congrArg (fun s : String => s.toList.getLast?) hempty
    rw [hlist] at hnone
    exact h.ne_empty (String.toList_eq_nil_iff.1 (List.getLast?_eq_none_iff.1 hnone))
  rw [pathBelow, hempty, Bool.false_or, if_neg (by simpa using hlast), joinPath_eq_pathBelow h,
    pathBelow, pathBelow, String.intercalate_singleton, String.intercalate_cons_of_ne_nil hne]
  simp only [String.append_assoc]

/-- Names that are joined to a path one after the other. -/
theorem foldl_joinPath_eq_pathBelow {parts : List String} (hne : parts ≠ [])
    (h : ∀ part ∈ parts, IsPathName part) (base : String) :
    parts.foldl joinPath base = pathBelow base parts := by
  induction parts generalizing base with
  | nil => exact absurd rfl hne
  | cons part rest ih =>
    obtain ⟨hpart, hrest⟩ := List.forall_mem_cons.1 h
    rw [List.foldl_cons]
    by_cases hnil : rest = []
    · rw [hnil]
      exact joinPath_eq_pathBelow hpart base
    · rw [ih hnil hrest, pathBelow_joinPath hpart base hnil]

namespace EmittedFile

variable {file other : EmittedFile}

/-- **The path of a generated file** is that of the output directory with its names behind it. -/
theorem pathUnder_eq_pathBelow (h : file.HasNames) (output : String) :
    file.pathUnder output = pathBelow output file.ownNames := by
  have hne : file.ownNames ≠ [] := List.append_ne_nil_of_right_ne_nil _ (List.cons_ne_nil _ _)
  rw [← foldl_joinPath_eq_pathBelow hne (isPathName_of_mem_ownNames h), ownNames,
    List.foldl_append]
  rfl

/-- The directories of the file are the names of its package. -/
theorem joined_packageDirectories (h : file.HasNames) :
    (∀ name ∈ packageDirectories file.package, IsName name) ∧
      joined (packageDirectories file.package) = file.package := by
  obtain ⟨names, hnames, hpackage⟩ := h.package
  rw [hpackage, packageDirectories_joined hnames]
  exact ⟨hnames, rfl⟩

/-- **No file is in the way of another**: its name is not that of a directory. -/
theorem ownNames_append_ne (hother : other.HasNames) {rest : List String} (hrest : rest ≠ []) :
    other.ownNames ≠ file.ownNames ++ rest := by
  intro h
  obtain ⟨front, last, rfl⟩ : ∃ front last, rest = front ++ [last] :=
    ⟨_, _, (List.dropLast_concat_getLast hrest).symm⟩
  rw [ownNames, ← List.append_assoc] at h
  obtain ⟨hdirectories, -⟩ := List.append_inj' h rfl
  have hmem : outputName file.name ∈ packageDirectories other.package := by
    rw [hdirectories, ownNames]
    simp
  have hname := (joined_packageDirectories hother).1 _ hmem
  refine hname.notMem (c := '.') rfl ?_
  rw [outputName, String.toList_append]
  exact List.mem_append_right _ List.mem_cons_self

end EmittedFile

/-! ### What a round hands to its sink -/

/-- **A round hands files to its sink** that are made of its elements, in their order. -/
theorem Environment.exists_fill_processElements {σ : Type} (env : Environment σ)
    (elements : List Element) (outcome : Outcome σ) :
    ∃ handed, handed.Sublist (generated env.host elements) ∧
      (env.processElements elements outcome).store = env.sink.fill handed outcome.store := by
  induction elements generalizing outcome with
  | nil => exact ⟨[], .slnil, rfl⟩
  | cons element rest ih =>
    rw [processElements_cons]
    cases hrouter : element.router env.host with
    | error faults =>
      rw [generated_cons_of_error hrouter, storeAfter_of_error hrouter]
      dsimp only
      split
      · exact ih _
      · exact ⟨[], List.nil_sublist _, rfl⟩
    | ok router =>
      -- The file is handed over, whatever the sink makes of it.
      rw [generated_cons_of_ok hrouter, storeAfter_of_ok hrouter]
      dsimp only
      split
      · obtain ⟨handed, hhanded, hstore⟩ := ih ⟨_, _⟩
        exact ⟨router.emit :: handed, hhanded.cons_cons _, hstore⟩
      · exact ⟨[router.emit], (List.nil_sublist _).cons_cons _, rfl⟩

theorem hasNames_of_mem_generated {texts : List String} {files : List SourceFile}
    (hparse : parseAll texts = .ok files) (compiled : List String) :
    ∀ file ∈ generated (SymbolTable.ofFiles files compiled).host (candidates files),
      file.HasNames := by
  intro file hfile
  obtain ⟨element, helement, hof⟩ := exists_isOf_of_mem_generated hfile
  exact hof.hasNames (hasNames_of_mem_candidates hparse helement)

/-- **Generated files stay under the output directory**, and none is in the way of another, for a
round over files that were read from texts. What the round writes are files of its marked elements.
The path of each is that of the output directory with the names of its package and the name of the
file behind it; this ends with `.rs`, and none of them is empty, leads nowhere or up, or has a slash
in it. No file has a path on the way to another, and files of different packages have different
paths. -/
theorem Environment.pathUnder_contained {texts : List String} {files : List SourceFile}
    (hparse : parseAll texts = .ok files) (compiled : List String) (options : Options)
    (output : String) (disk : Disk) :
    let host := (SymbolTable.ofFiles files compiled).host
    let made := generated host (candidates files)
    let env : Environment Disk := ⟨host, Disk.sink output, options⟩
    (∃ handed, handed.Sublist made ∧
        (env.processRound files ⟨disk, []⟩).store = (Disk.sink output).fill handed disk) ∧
      (∀ file ∈ made, ∃ names stem, file.package = joined names ∧
        file.pathUnder output = pathBelow output (names ++ [stem ++ ".rs"]) ∧
        pathNames (file.pathUnder output) = pathNames output ++ (names ++ [stem ++ ".rs"]) ∧
        ∀ part ∈ names ++ [stem ++ ".rs"],
          part ≠ "" ∧ part ≠ "." ∧ part ≠ ".." ∧ '/' ∉ part.toList) ∧
      ∀ file ∈ made, ∀ other ∈ made,
        (∀ rest, rest ≠ [] →
          pathNames (other.pathUnder output) ≠ pathNames (file.pathUnder output) ++ rest) ∧
        (file.pathUnder output = other.pathUnder output → file.package = other.package) := by
  intro host made env
  have hnames : ∀ file ∈ made, file.HasNames := hasNames_of_mem_generated hparse compiled
  refine ⟨env.exists_fill_processElements (candidates files) ⟨disk, []⟩, fun file hfile => ?_,
    fun file hfile other hother => ⟨fun rest hrest hpath => ?_, fun hpath => ?_⟩⟩
  · have h := hnames file hfile
    refine ⟨packageDirectories file.package, Text.snakeCase file.name,
      (EmittedFile.joined_packageDirectories h).2.symm,
      EmittedFile.pathUnder_eq_pathBelow h output, EmittedFile.pathNames_pathUnder output h,
      fun part hpart => ?_⟩
    have hname := EmittedFile.isPathName_of_mem_ownNames h part hpart
    exact ⟨hname.ne_empty, hname.ne_dot, hname.ne_upward, hname.slash⟩
  · rw [EmittedFile.pathNames_pathUnder output (hnames file hfile),
      EmittedFile.pathNames_pathUnder output (hnames other hother), List.append_assoc] at hpath
    -- Both paths start with the output directory, so only the names below it are compared.
    exact EmittedFile.ownNames_append_ne (hnames other hother) hrest (List.append_cancel_left hpath)
  · exact ((EmittedFile.pathUnder_eq_iff output (hnames file hfile) (hnames other hother)).1
      hpath).1

/-! ### A package that is named like a file -/

/-- Two texts, of which the second is in a package below that of the first. -/
def nestedTexts : List String :=
  ["package app; class T; @Intention(T) interface R;",
    "package app::r_util; use app::T; @Intention(T) interface HTTPRouter;"]

/-- The interface of the first text. -/
def outerInterface : Element where
  name := "R"
  package := "app"
  imports := []
  position := ⟨1, 47⟩
  kind := .interfaceType
  marks := [⟨"Intention", ⟨1, 23⟩, [.path "T"]⟩]
  methods := []
  fields := []

/-- The interface of the second text. -/
def innerInterface : Element where
  name := "HTTPRouter"
  package := "app::r_util"
  imports := ["app::T"]
  position := ⟨1, 58⟩
  kind := .interfaceType
  marks := [⟨"Intention", ⟨1, 34⟩, [.path "T"]⟩]
  methods := []
  fields := []

/-- The files of the texts. -/
def nestedFiles : List SourceFile :=
  [⟨some "app", [], [⟨"T", "app", [], ⟨1, 20⟩, .classType, [], [], []⟩, outerInterface]⟩,
    ⟨some "app::r_util", ["app::T"], [innerInterface]⟩]

theorem parseAll_nestedTexts : parseAll nestedTexts = .ok nestedFiles := by
  cbv

theorem candidates_nestedFiles : candidates nestedFiles = [outerInterface, innerInterface] := by
  cbv

theorem routers_nestedFiles :
    outerInterface.router (SymbolTable.ofFiles nestedFiles []).host =
        .ok ⟨"R", "app", [], ⟨"app", "T"⟩, []⟩ ∧
      innerInterface.router (SymbolTable.ofFiles nestedFiles []).host =
        .ok ⟨"HTTPRouter", "app::r_util", ["app::T"], ⟨"app", "T"⟩, []⟩ := by
  constructor <;> cbv

/-- The file of the first text is not in the way of the directory for the second. -/
theorem Environment.pathUnder_contained_nested :
    parseAll nestedTexts = .ok nestedFiles ∧
      let made := generated (SymbolTable.ofFiles nestedFiles []).host (candidates nestedFiles)
      made.map (EmittedFile.pathUnder "out/") =
          ["out/app/r_util.rs", "out/app/r_util/http_router_util.rs"] ∧
        ∀ file ∈ made, ∀ other ∈ made, ∀ rest, rest ≠ [] →
          pathNames (other.pathUnder "out/") ≠ pathNames (file.pathUnder "out/") ++ rest := by
  refine ⟨parseAll_nestedTexts, ?_, fun file hfile other hother => ?_⟩
  · obtain ⟨houter, hinner⟩ := routers_nestedFiles
    rw [candidates_nestedFiles, generated_cons_of_ok houter, generated_cons_of_ok hinner,
      generated_nil]
    decide +kernel
  · obtain ⟨-, -, hapart⟩ :=
      Environment.pathUnder_contained parseAll_nestedTexts [] {} "out/" Disk.empty
    exact (hapart file hfile other hother).1

end RequestRouter
