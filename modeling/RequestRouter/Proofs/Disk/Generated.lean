import RequestRouter.Proofs.Disk.Writing
import RequestRouter.Proofs.Round.Accounts
import RequestRouter.Proofs.Round.Locations

/-!
# Generated files on a disk

A disk takes one file after the other, and a file stays on it until one of the same path comes:
what is read back at a path is the last file of this path
(`RequestRouter.Disk.exists_last_of_takesAll`). So all files are read back as they were generated
*exactly* if those of the same package whose names have the same snake case have the same source
(`RequestRouter.Environment.readText_pathUnder_iff`). Nothing is reported where they do not.

The snake case of a generated name is that of the name of its interface, up to a last word. It
tells interfaces apart that are named in plain camel case, and it does not tell, for example, a row
of capitals from a word with one capital.
-/

namespace RequestRouter

namespace Sink

variable {σ : Type} {sink : Sink σ}

theorem fill_cons (file : EmittedFile) (rest : List EmittedFile) (store : σ) :
    sink.fill (file :: rest) store = sink.fill rest (sink.create file store).2 := rfl

theorem takesAll_append {files others : List EmittedFile} {store : σ} :
    sink.TakesAll (files ++ others) store ↔
      sink.TakesAll files store ∧ sink.TakesAll others (sink.fill files store) := by
  induction files generalizing store with
  | nil => exact ⟨fun h => ⟨trivial, h⟩, And.right⟩
  | cons file rest ih =>
    rw [List.cons_append, TakesAll, TakesAll, ih, fill_cons, and_assoc]

theorem fill_append (files others : List EmittedFile) (store : σ) :
    sink.fill (files ++ others) store = sink.fill others (sink.fill files store) :=
  List.foldl_append

end Sink

/-- Of those in a list that are of some kind, one is the last. -/
theorem exists_last {α : Type} {p : α → Prop} {l : List α} (h : ∃ a ∈ l, p a) :
    ∃ front last back, l = front ++ last :: back ∧ p last ∧ ∀ later ∈ back, ¬p later := by
  induction l with
  | nil =>
    obtain ⟨a, ha, -⟩ := h
    cases ha
  | cons first rest ih =>
    by_cases hrest : ∃ a ∈ rest, p a
    · obtain ⟨front, last, back, rfl, hlast, hback⟩ := ih hrest
      exact ⟨first :: front, last, back, rfl, hlast, hback⟩
    · obtain ⟨a, ha, hp⟩ := h
      rcases List.mem_cons.1 ha with rfl | ha
      · exact ⟨[], a, rest, rfl, hp, fun later hlater hp' => hrest ⟨later, hlater, hp'⟩⟩
      · exact absurd ⟨a, ha, hp⟩ hrest

namespace Disk

variable {output : String} {disk : Disk}

/-- The disk takes a file exactly if it can be written, and then it is written. -/
theorem create_sink (output : String) (file : EmittedFile) (disk : Disk) :
    (((Disk.sink output).create file disk).1 = .ok () ↔
      (disk.create (file.pathUnder output) (Text.utf8Bytes file.source)).1 = .ok ()) ∧
    ((Disk.sink output).create file disk).2 =
      (disk.create (file.pathUnder output) (Text.utf8Bytes file.source)).2 := by
  rw [sink]
  dsimp only
  split
  · next hcreate => simp [hcreate]
  · next hcreate => simp [hcreate]

/-- A file stays while others are taken that lie elsewhere. -/
theorem Holds.fill {path : String} {bytes : List UInt8} {files : List EmittedFile}
    (h : disk.Holds path bytes) (htaken : (Disk.sink output).TakesAll files disk)
    (hne : ∀ file ∈ files, pathPlace path ≠ pathPlace (file.pathUnder output)) :
    ((Disk.sink output).fill files disk).Holds path bytes := by
  induction files generalizing disk with
  | nil => exact h
  | cons file rest ih =>
    obtain ⟨hfile, hrest⟩ := htaken
    obtain ⟨hfirst, hothers⟩ := List.forall_mem_cons.1 hne
    obtain ⟨hcreated, hstore⟩ := create_sink output file disk
    rw [hstore] at hrest
    rw [Sink.fill_cons, hstore]
    exact ih (h.create (hcreated.1 hfile) hfirst) hrest hothers

/-- **What is on the disk** where a file was generated: the last file of the same path. -/
theorem exists_last_of_takesAll {files : List EmittedFile} (hnames : ∀ file ∈ files, file.HasNames)
    (htaken : (Disk.sink output).TakesAll files disk) {file : EmittedFile} (hfile : file ∈ files) :
    ∃ front last back, files = front ++ last :: back ∧
      last.pathUnder output = file.pathUnder output ∧
      (∀ later ∈ back, later.pathUnder output ≠ file.pathUnder output) ∧
      ((Disk.sink output).fill files disk).readText (file.pathUnder output) = .ok last.source := by
  obtain ⟨front, last, back, rfl, hlast, hback⟩ :=
    exists_last (p := fun other => other.pathUnder output = file.pathUnder output)
      ⟨file, hfile, rfl⟩
  refine ⟨front, last, back, rfl, hlast, hback, ?_⟩
  obtain ⟨-, htaken⟩ := Sink.takesAll_append.1 htaken
  obtain ⟨hwritten, hbackTaken⟩ := htaken
  obtain ⟨hcreated, hstore⟩ := create_sink output last ((Disk.sink output).fill front disk)
  obtain ⟨hholds, -, -⟩ := create_spec (hcreated.1 hwritten)
  rw [← hstore, hlast] at hholds
  -- Behind the last file of the path there are only files of other paths, and at other places.
  have hplaces : ∀ later ∈ back,
      pathPlace (file.pathUnder output) ≠ pathPlace (later.pathUnder output) := by
    intro later hlater hplace
    have hlaterNames := hnames later (List.mem_append_right _ (List.mem_cons_of_mem _ hlater))
    exact hback later hlater
      ((EmittedFile.pathPlace_pathUnder_inj output (hnames file hfile) hlaterNames).1 hplace).symm
  have hfilled := hholds.fill hbackTaken hplaces
  rw [Sink.fill_append, Sink.fill_cons]
  exact hfilled.readText_eq (isPathName_outputName (hnames file hfile).name)

/-- **All files are read back** as they are exactly if those of one path have the same source, as
long as what is read back at a path is some file of this path. -/
theorem readText_iff_of_exists {files : List EmittedFile} (hnames : ∀ file ∈ files, file.HasNames)
    (hread : ∀ file ∈ files, ∃ found ∈ files, found.pathUnder output = file.pathUnder output ∧
      disk.readText (file.pathUnder output) = .ok found.source) :
    (∀ file ∈ files, disk.readText (file.pathUnder output) = .ok file.source) ↔
      ∀ file ∈ files, ∀ other ∈ files, file.package = other.package →
        Text.snakeCase file.name = Text.snakeCase other.name → file.source = other.source := by
  constructor
  · intro hall file hfile other hother hpackage hsnake
    have hpath := (EmittedFile.pathUnder_eq_iff output (hnames file hfile) (hnames other hother)).2
      ⟨hpackage, hsnake⟩
    have hsource := hall file hfile
    rw [hpath, hall other hother] at hsource
    exact (Except.ok.inj hsource).symm
  · intro hsame file hfile
    obtain ⟨found, hfound, hpath, hsource⟩ := hread file hfile
    obtain ⟨hpackage, hsnake⟩ :=
      (EmittedFile.pathUnder_eq_iff output (hnames found hfound) (hnames file hfile)).1 hpath
    rw [hsource, hsame found hfound file hfile hpackage hsnake]

/-- Files of one path are taken as long as nothing else is in the way. -/
theorem Admits.takesAll {folder part : String} (h : disk.Admits folder part)
    (hfolder : IsPathName folder) (hpart : IsPathName part) (hname : isLongName folder = false)
    (hname' : isLongName part = false) (hshort : isLongPath (joinPath folder part) = false)
    {files : List EmittedFile}
    (hpaths : ∀ file ∈ files, file.pathUnder output = joinPath folder part) :
    (Disk.sink output).TakesAll files disk := by
  induction files generalizing disk with
  | nil => trivial
  | cons file rest ih =>
    obtain ⟨hpath, hrest⟩ := List.forall_mem_cons.1 hpaths
    obtain ⟨hcreated, hstore⟩ := create_sink output file disk
    obtain ⟨hwritten, hadmits⟩ :=
      h.create hfolder hpart hname hname' hshort (Text.utf8Bytes file.source)
    rw [hpath] at hcreated hstore
    rw [Sink.TakesAll, hstore]
    exact ⟨hcreated.2 hwritten, ih hadmits hrest⟩

end Disk

/-! ### Rounds -/

/-- A generated file is of one of the elements. -/
theorem exists_isOf_of_mem_generated {files : List SourceFile} {compiled : List String}
    {elements : List Element} {file : EmittedFile}
    (h : file ∈ generated (SymbolTable.ofFiles files compiled).host elements) :
    ∃ element ∈ elements, file.IsOf element := by
  obtain ⟨element, helement, hfile⟩ := List.mem_filterMap.1 h
  refine ⟨element, helement, ?_⟩
  rw [Element.emitted?] at hfile
  split at hfile
  · next hrouter =>
    cases hfile
    exact isOf_emit (fun _ => rfl) hrouter
  · cases hfile

theorem EmittedFile.IsOf.hasNames {file : EmittedFile} {element : Element} (h : file.IsOf element)
    (hnames : element.HasNames) : file.HasNames where
  package := h.1 ▸ hnames.package
  name := by
    have hall : "Util".toList.all isNamePart = true := by decide +kernel
    rw [h.2]
    exact hnames.name.append (List.all_eq_true.1 hall)

/-- The snake case tells files apart if their interfaces are named in plain camel case. -/
theorem EmittedFile.IsOf.eq_of_snakeCase {file other : EmittedFile} {element element' : Element}
    (h : file.IsOf element) (h' : other.IsOf element') (hname : IsName element.name)
    (hname' : IsName element'.name) (hcamel : Text.isCamel element.name = true)
    (hcamel' : Text.isCamel element'.name = true)
    (hsnake : Text.snakeCase file.name = Text.snakeCase other.name) : file.name = other.name := by
  rw [h.2, h'.2, Text.snakeCase_append_util hname.ne_empty,
    Text.snakeCase_append_util hname'.ne_empty, String.append_left_inj] at hsnake
  rw [h.2, h'.2, Text.snakeCase_inj_of_isCamel hname hname' hcamel hcamel' hsnake]

theorem hasNames_of_mem_candidates {texts : List String} {files : List SourceFile}
    (hparse : parseAll texts = .ok files) {element : Element} (h : element ∈ candidates files) :
    element.HasNames := by
  obtain ⟨file, hfile, helement⟩ := exists_file_of_mem_candidates h
  obtain ⟨text, -, htext⟩ := exists_parse_of_mem hparse hfile
  exact SourceFile.hasNames_of_parse htext element helement

/-- After a round without errors, the last files of all paths are on the disk. -/
theorem exists_last_of_hasErrors_eq_false {host : Host} {options : Options} {output : String}
    {elements : List Element} {disk : Disk} {env : Environment Disk}
    (henv : env = ⟨host, Disk.sink output, options⟩)
    (hnames : ∀ file ∈ generated host elements, file.HasNames)
    (hquiet : (env.processElements elements ⟨disk, []⟩).hasErrors = false)
    {file : EmittedFile} (hfile : file ∈ generated host elements) :
    ∃ front last back, generated host elements = front ++ last :: back ∧
      last.pathUnder output = file.pathUnder output ∧
      (∀ later ∈ back, later.pathUnder output ≠ file.pathUnder output) ∧
      (env.processElements elements ⟨disk, []⟩).store.readText (file.pathUnder output) =
        .ok last.source := by
  subst henv
  obtain ⟨-, htaken, hstore⟩ :=
    Environment.takesAll_of_diagnostics_eq_nil
      ((Environment.hasErrors_processElements _ _).1 hquiet) []
  dsimp only at htaken hstore
  rw [hstore]
  exact Disk.exists_last_of_takesAll hnames htaken hfile

/-- **Which generated files are on the disk**, for a round over files that were read from texts.
Two files have the same path exactly if they have the same package and their names have the same
snake case; if all marked elements are named in plain camel case, they have the same name then.
After a round without errors, a path leads to the last file of this path; so all files are on the
disk at their paths exactly if those of one package and one snake case have the same source. -/
theorem Environment.readText_pathUnder_iff {texts : List String} {files : List SourceFile}
    (hparse : parseAll texts = .ok files) (compiled : List String) (options : Options)
    (output : String) (disk : Disk) :
    let host := (SymbolTable.ofFiles files compiled).host
    let made := generated host (candidates files)
    let env : Environment Disk := ⟨host, Disk.sink output, options⟩
    let outcome := env.processRound files ⟨disk, []⟩
    (∀ file ∈ made, ∀ other ∈ made,
        (file.pathUnder output = other.pathUnder output ↔ file.package = other.package ∧
          Text.snakeCase file.name = Text.snakeCase other.name)) ∧
      ((∀ element ∈ candidates files, Text.isCamel element.name = true) →
        ∀ file ∈ made, ∀ other ∈ made, file.pathUnder output = other.pathUnder output →
          file.package = other.package ∧ file.name = other.name) ∧
      (outcome.hasErrors = false →
        (∀ file ∈ made, ∃ front last back, made = front ++ last :: back ∧
          last.pathUnder output = file.pathUnder output ∧
          (∀ later ∈ back, later.pathUnder output ≠ file.pathUnder output) ∧
          outcome.store.readText (file.pathUnder output) = .ok last.source) ∧
        ((∀ file ∈ made, outcome.store.readText (file.pathUnder output) = .ok file.source) ↔
          ∀ file ∈ made, ∀ other ∈ made, file.package = other.package →
            Text.snakeCase file.name = Text.snakeCase other.name →
            file.source = other.source)) := by
  intro host made env outcome
  have hof : ∀ file ∈ made, ∃ element ∈ candidates files, file.IsOf element :=
    fun file hfile => exists_isOf_of_mem_generated hfile
  -- Packages and names of the files are those of elements that were read from texts.
  have hnames : ∀ file ∈ made, file.HasNames := by
    intro file hfile
    obtain ⟨element, helement, hisOf⟩ := hof file hfile
    exact hisOf.hasNames (hasNames_of_mem_candidates hparse helement)
  have hpaths : ∀ file ∈ made, ∀ other ∈ made,
      (file.pathUnder output = other.pathUnder output ↔ file.package = other.package ∧
        Text.snakeCase file.name = Text.snakeCase other.name) :=
    fun file hfile other hother =>
      EmittedFile.pathUnder_eq_iff output (hnames file hfile) (hnames other hother)
  refine ⟨hpaths, ?_, ?_⟩
  · intro hcamel file hfile other hother hpath
    obtain ⟨hpackage, hsnake⟩ := (hpaths file hfile other hother).1 hpath
    obtain ⟨element, helement, hisOf⟩ := hof file hfile
    obtain ⟨element', helement', hisOf'⟩ := hof other hother
    exact ⟨hpackage, hisOf.eq_of_snakeCase hisOf' (hasNames_of_mem_candidates hparse helement).name
      (hasNames_of_mem_candidates hparse helement').name (hcamel element helement)
      (hcamel element' helement') hsnake⟩
  · intro hquiet
    have hlast : ∀ file ∈ made, ∃ front last back, made = front ++ last :: back ∧
        last.pathUnder output = file.pathUnder output ∧
        (∀ later ∈ back, later.pathUnder output ≠ file.pathUnder output) ∧
        outcome.store.readText (file.pathUnder output) = .ok last.source :=
      fun file hfile => exists_last_of_hasErrors_eq_false rfl hnames hquiet hfile
    -- What a path leads to is some file of this path, so that only the sources can differ.
    refine ⟨hlast, Disk.readText_iff_of_exists hnames fun file hfile => ?_⟩
    obtain ⟨front, last, back, hsplit, hpath, -, hread⟩ := hlast file hfile
    exact ⟨last, hsplit ▸ List.mem_append_right _ List.mem_cons_self, hpath, hread⟩

/-! ### Interfaces without methods -/

/-- A class of the name `T`. -/
def plainClass : Element := ⟨"T", "", [], ⟨1, 7⟩, .classType, [], [], []⟩

/-- An interface without methods on the first line, marked with the class. -/
def plainInterface (name : String) (mark position : Nat) : Element where
  name := name
  package := ""
  imports := []
  position := ⟨1, position⟩
  kind := .interfaceType
  marks := [⟨"Intention", ⟨1, mark⟩, [.path "T"]⟩]
  methods := []
  fields := []

/-- The router of such an interface. -/
def plainRouter (name : String) : Router := ⟨name, "", [], ⟨"", "T"⟩, []⟩

theorem router_plainInterface {files : List SourceFile} {name : String} {mark position : Nat}
    (h : (plainInterface name mark position).destination (SymbolTable.ofFiles files []).host =
      .ok ⟨"", "T"⟩) :
    (plainInterface name mark position).router (SymbolTable.ofFiles files []).host =
      .ok (plainRouter name) := by
  rcases Element.router_cases (SymbolTable.ofFiles files []).host
    (plainInterface name mark position) with ⟨_, hcheck, -⟩ | ⟨_, hcheck, -⟩ |
    ⟨_, hroutes, -⟩ | ⟨destination, routes, -, hdestination, hroutes, hrouter⟩
  · cases hcheck
  · cases h.symm.trans hcheck
  · cases hroutes
  · cases h.symm.trans hdestination
    cases hroutes
    exact hrouter

/-- Where the file of such an interface goes. -/
theorem pathUnder_plainRouter (name : String) :
    (plainRouter name).emit.pathUnder "out" = joinPath "out" (outputName (name ++ "Util")) := rfl

theorem isPathName_out : IsPathName "out" where
  slash := by decide
  leads := by decide
  ne_upward := by decide

/-- Files of such interfaces are taken if they have one path and nothing is in the way. -/
theorem takesAll_plainRouters {disk : Disk} {part : String} (hadmits : disk.Admits "out" part)
    (hpart : IsPathName part) (hname : isLongName part = false)
    (hshort : isLongPath (joinPath "out" part) = false) (names : List String)
    (h : ∀ name ∈ names, outputName (name ++ "Util") = part) :
    (Disk.sink "out").TakesAll (names.map fun name => (plainRouter name).emit) disk := by
  refine hadmits.takesAll isPathName_out hpart (by decide +kernel) hname hshort fun file hfile => ?_
  obtain ⟨name, hmem, rfl⟩ := List.mem_map.1 hfile
  rw [pathUnder_plainRouter, h name hmem]

/-- A text with one such interface. -/
def plainText : String := "class T; @Intention(T) interface R;"

/-- The file of the text. -/
def plainFile : SourceFile := ⟨none, [], [plainClass, plainInterface "R" 10 34]⟩

theorem parse_plainText : SourceFile.parse plainText = .ok plainFile := by
  cbv

theorem parseAll_plainText : parseAll [plainText] = .ok [plainFile] := by
  rw [parseAll, List.mapM_cons, parse_plainText]
  rfl

theorem candidates_plainFile : candidates [plainFile] = [plainInterface "R" 10 34] := by
  cbv

theorem outputName_plain : outputName ("R" ++ "Util") = "r_util.rs" := by
  decide +kernel

/-- However often the file of the interface comes, it is taken where nothing is in the way. -/
theorem takesAll_plain {disk : Disk} (hadmits : disk.Admits "out" "r_util.rs") (names : List String)
    (h : ∀ name ∈ names, name = "R") :
    (Disk.sink "out").TakesAll (names.map fun name => (plainRouter name).emit) disk := by
  have hpart : IsPathName "r_util.rs" :=
    outputName_plain ▸ isPathName_outputName (by decide +kernel)
  refine takesAll_plainRouters hadmits hpart (by decide +kernel) (by decide +kernel) names ?_
  intro name hname
  rw [h name hname, outputName_plain]

theorem router_plainFile :
    (plainInterface "R" 10 34).router (SymbolTable.ofFiles [plainFile] []).host =
      .ok (plainRouter "R") :=
  router_plainInterface (by cbv)

theorem exists_router_plainFile : ∀ element ∈ candidates [plainFile],
    ∃ router, element.router (SymbolTable.ofFiles [plainFile] []).host = .ok router := by
  rw [candidates_plainFile]
  exact List.forall_mem_singleton.2 ⟨_, router_plainFile⟩

theorem generated_plainFile :
    generated (SymbolTable.ofFiles [plainFile] []).host (candidates [plainFile]) =
      [(plainRouter "R").emit] := by
  rw [candidates_plainFile, generated_cons_of_ok router_plainFile, generated_nil]

/-- The one file of the text is on the disk when the round is over. -/
theorem readText_pathUnder_plain :
    parseAll [plainText] = .ok [plainFile] ∧
      let host := (SymbolTable.ofFiles [plainFile] []).host
      let env : Environment Disk := ⟨host, Disk.sink "out", {}⟩
      (env.processRound [plainFile] ⟨Disk.empty, []⟩).store.readText "out/r_util.rs" =
        .ok (plainRouter "R").emit.source := by
  refine ⟨parseAll_plainText, ?_⟩
  intro host env
  have hmade : generated host (candidates [plainFile]) = [(plainRouter "R").emit] :=
    generated_plainFile
  have htaken : env.sink.TakesAll (generated host (candidates [plainFile])) Disk.empty := by
    rw [hmade]
    exact takesAll_plain (Disk.admits_empty isPathName_out) ["R"] (List.forall_mem_singleton.2 rfl)
  have hquiet : (env.processRound [plainFile] ⟨Disk.empty, []⟩).hasErrors = false :=
    (Environment.hasErrors_processElements _ _).2
      (Environment.diagnostics_eq_nil_of_takesAll exists_router_plainFile htaken)
  obtain ⟨-, -, hwritten⟩ :=
    Environment.readText_pathUnder_iff parseAll_plainText [] {} "out" Disk.empty
  have hpath : (plainRouter "R").emit.pathUnder "out" = "out/r_util.rs" := by
    rw [pathUnder_plainRouter, outputName_plain]
    decide +kernel
  have hread := (hwritten hquiet).2.2 (by rw [hmade]; simp) (plainRouter "R").emit
    (by rw [hmade]; exact List.mem_cons_self)
  rw [hpath] at hread
  exact hread

/-! ### Two interfaces of one path -/

/-- A text with two interfaces whose names have the same snake case. -/
def acronymText : String :=
  "class T; @Intention(T) interface HTTPRouter; @Intention(T) interface HttpRouter;"

/-- The file of the text. -/
def acronymFile : SourceFile :=
  ⟨none, [], [plainClass, plainInterface "HTTPRouter" 10 34, plainInterface "HttpRouter" 46 70]⟩

theorem parseAll_acronymText : parseAll [acronymText] = .ok [acronymFile] := by
  cbv

theorem candidates_acronymFile : candidates [acronymFile] =
    [plainInterface "HTTPRouter" 10 34, plainInterface "HttpRouter" 46 70] := by
  cbv

theorem routers_acronymFile :
    (plainInterface "HTTPRouter" 10 34).router (SymbolTable.ofFiles [acronymFile] []).host =
        .ok (plainRouter "HTTPRouter") ∧
      (plainInterface "HttpRouter" 46 70).router (SymbolTable.ofFiles [acronymFile] []).host =
        .ok (plainRouter "HttpRouter") :=
  ⟨router_plainInterface (by cbv), router_plainInterface (by cbv)⟩

/-- **A file can be lost**: the round reports no error, and at the path of the first file there is
the second. -/
theorem readText_pathUnder_acronyms :
    parseAll [acronymText] = .ok [acronymFile] ∧
      let host := (SymbolTable.ofFiles [acronymFile] []).host
      let env : Environment Disk := ⟨host, Disk.sink "out", {}⟩
      let outcome := env.processRound [acronymFile] ⟨Disk.empty, []⟩
      let first := (plainRouter "HTTPRouter").emit
      let second := (plainRouter "HttpRouter").emit
      generated host (candidates [acronymFile]) = [first, second] ∧
        outcome.hasErrors = false ∧
        first.name ≠ second.name ∧ first.pathUnder "out" = second.pathUnder "out" ∧
        outcome.store.readText (first.pathUnder "out") ≠ .ok first.source := by
  refine ⟨parseAll_acronymText, ?_⟩
  intro host env outcome first second
  obtain ⟨hfirst, hsecond⟩ := routers_acronymFile
  have hmade : generated host (candidates [acronymFile]) = [first, second] := by
    rw [candidates_acronymFile, generated_cons_of_ok hfirst, generated_cons_of_ok hsecond,
      generated_nil]
  have houtput : outputName ("HTTPRouter" ++ "Util") = "http_router_util.rs" ∧
      outputName ("HttpRouter" ++ "Util") = "http_router_util.rs" := by decide +kernel
  have hpath : first.pathUnder "out" = second.pathUnder "out" := by
    rw [pathUnder_plainRouter, pathUnder_plainRouter, houtput.1, houtput.2]
  have hnames : ∀ file ∈ [first, second], file.HasNames :=
    List.forall_mem_cons.2 ⟨⟨isPackage_empty, by decide +kernel⟩,
      List.forall_mem_singleton.2 ⟨isPackage_empty, by decide +kernel⟩⟩
  have htaken : (Disk.sink "out").TakesAll [first, second] Disk.empty := by
    have hpart : IsPathName "http_router_util.rs" :=
      houtput.1 ▸ isPathName_outputName (by decide +kernel)
    exact takesAll_plainRouters (Disk.admits_empty isPathName_out) hpart (by decide +kernel)
      (by decide +kernel) ["HTTPRouter", "HttpRouter"]
      (List.forall_mem_cons.2 ⟨houtput.1, List.forall_mem_singleton.2 houtput.2⟩)
  have hrouters : ∀ element ∈ candidates [acronymFile],
      ∃ router, element.router host = .ok router := by
    rw [candidates_acronymFile]
    exact List.forall_mem_cons.2 ⟨⟨_, hfirst⟩, List.forall_mem_singleton.2 ⟨_, hsecond⟩⟩
  have hquiet : outcome.hasErrors = false :=
    (Environment.hasErrors_processElements _ _).2
      (Environment.diagnostics_eq_nil_of_takesAll hrouters (hmade ▸ htaken))
  have hdiffer : second.source ≠ first.source := by decide +kernel
  refine ⟨hmade, hquiet, by decide +kernel, hpath, fun hread => ?_⟩
  have henv : env = ⟨host, Disk.sink "out", {}⟩ := rfl
  have hlast := exists_last_of_hasErrors_eq_false henv (hmade ▸ hnames) hquiet
    (hmade ▸ List.mem_cons_self : first ∈ generated host (candidates [acronymFile]))
  rw [hmade] at hlast
  obtain ⟨front, last, back, hsplit, -, hback, hlast⟩ := hlast
  -- The last of the two is the second.
  cases front with
  | nil =>
    obtain ⟨-, hrest⟩ := List.cons.inj hsplit
    exact hback second (hrest ▸ List.mem_cons_self) hpath.symm
  | cons _ front =>
    obtain ⟨-, hrest⟩ := List.cons.inj hsplit
    cases front with
    | nil =>
      obtain ⟨hsecond, -⟩ := List.cons.inj hrest
      rw [← hsecond] at hlast
      exact hdiffer (Except.ok.inj (hlast.symm.trans hread))
    | cons _ front => simp at hrest

end RequestRouter
