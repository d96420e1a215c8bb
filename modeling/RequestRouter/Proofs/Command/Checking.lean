import RequestRouter.Command.Execution
import RequestRouter.Proofs.Disk.Generated
import RequestRouter.Proofs.Round.Refusals

/-!
# Checking and generating

Checking runs the round in memory, generating runs it on a disk. The rounds differ in what their
sinks refuse. A disk on which every write succeeds refuses nothing, so generating reports what the
checks find and no more. The store in memory refuses a second file of the same package and name.
So checking tells what generating will say *exactly* if the files of the round have different
packages or names (`RequestRouter.Command.check_eq_generate_iff`); a repeated file is an error for
the one, and silently replaces the first file for the other.
-/

namespace RequestRouter

/-! ### Rounds of commands -/

/-- The environment of a round over inputs. -/
def roundEnvironment {σ : Type} (inputs : List Input) (round : RoundArguments) (sink : Sink σ) :
    Environment σ :=
  ⟨(SymbolTable.ofFiles (inputs.map Input.file) round.compiled).host, sink, ⟨round.keepGoing⟩⟩

/-- The elements that a round over inputs comes to as long as its files are taken. -/
def reachedElements (inputs : List Input) (round : RoundArguments) : List Element :=
  let files := inputs.map Input.file
  reached (SymbolTable.ofFiles files round.compiled).host round.keepGoing (candidates files)

/-- The files of a round over inputs as long as they are taken. -/
def reachedFiles (inputs : List Input) (round : RoundArguments) : List EmittedFile :=
  generated (SymbolTable.ofFiles (inputs.map Input.file) round.compiled).host
    (reachedElements inputs round)

/-- What the checks report in a round over inputs. -/
def checkReports (inputs : List Input) (round : RoundArguments) : List Diagnostic :=
  let host := (SymbolTable.ofFiles (inputs.map Input.file) round.compiled).host
  (reachedElements inputs round).flatMap fun element => (element.visit host).diagnostics

section

variable {σ : Type} (inputs : List Input) (round : RoundArguments) (sink : Sink σ) (store : σ)

theorem diagnostics_runRound :
    (runRound inputs round sink store).diagnostics =
      ((roundEnvironment inputs round sink).visits (candidates (inputs.map Input.file))
        store).flatMap Visit.diagnostics :=
  (Environment.diagnostics_processElements _ _ _).trans (List.nil_append _)

/-- A round succeeds exactly if it reports nothing. -/
theorem exit_runRound_eq_zero_iff :
    (runRound inputs round sink store).exit = 0 ↔
      (runRound inputs round sink store).diagnostics = [] := by
  rw [diagnostics_runRound, ← Environment.hasErrors_processElements, Outcome.exit]
  change (if (runRound inputs round sink store).hasErrors then 1 else 0) = 0 ↔
    (runRound inputs round sink store).hasErrors = false
  cases (runRound inputs round sink store).hasErrors with
  | false => simp
  | true => simp

theorem exit_runRound_eq_one (h : (runRound inputs round sink store).diagnostics ≠ []) :
    (runRound inputs round sink store).exit = 1 := by
  have hne := mt (exit_runRound_eq_zero_iff inputs round sink store).1 h
  rw [Outcome.exit] at hne ⊢
  split at hne
  · next herrors => exact if_pos herrors
  · exact absurd rfl hne

variable {sink store}

/-- A round whose files are taken reports what the checks find. -/
theorem diagnostics_runRound_of_takesAll (h : sink.TakesAll (reachedFiles inputs round) store) :
    (runRound inputs round sink store).diagnostics = checkReports inputs round := by
  rw [diagnostics_runRound, Environment.visits_of_takesAll h, List.flatMap_map]
  rfl

/-- A round that reports nothing has nothing to report, whatever its sink. -/
theorem checkReports_eq_nil (h : (runRound inputs round sink store).diagnostics = []) :
    checkReports inputs round = [] := by
  rw [diagnostics_runRound] at h
  obtain ⟨hrouters, -⟩ := Environment.takesAll_of_diagnostics_eq_nil h []
  refine List.flatMap_eq_nil_iff.2 fun element helement => List.map_eq_nil_iff.2 ?_
  exact Element.faultsOf_router_eq_nil_iff.2
    (hrouters element (mem_of_mem_reached helement))

end

/-! ### The store in memory -/

/-- A report of the checks is no refusal. -/
theorem message_ne_of_mem_checkReports {inputs : List Input} {round : RoundArguments}
    {diagnostic : Diagnostic} (h : diagnostic ∈ checkReports inputs round) (name : String) :
    diagnostic.message ≠ (Fault.recreated name).message := by
  obtain ⟨element, helement, hreport⟩ := List.mem_flatMap.1 h
  obtain ⟨fault, hfault, rfl⟩ := List.mem_map.1 hreport
  have hmarked := (List.mem_filter.1 (mem_of_mem_reached helement)).2
  exact Fault.message_ne_recreated (Element.isOfChecks_of_mem_router hmarked hfault) name

/-- **A round in memory** reports what the checks find exactly if its files have different packages
or names. Otherwise there is a refusal among its reports. -/
theorem diagnostics_runRound_store_iff (inputs : List Input) (round : RoundArguments) :
    (runRound inputs round Store.sink []).diagnostics = checkReports inputs round ↔
      ((reachedFiles inputs round).map EmittedFile.key).Nodup := by
  have htakes : Store.sink.TakesAll (reachedFiles inputs round) [] ↔ _ :=
    Store.takesAll_iff List.nodup_nil
  rw [List.nil_append] at htakes
  rw [← htakes]
  refine ⟨fun hsame => Classical.byContradiction fun hrefused => ?_,
    diagnostics_runRound_of_takesAll inputs round⟩
  obtain ⟨visit, hvisit, file, store, fault, hfault, hfaults⟩ :=
    (roundEnvironment inputs round Store.sink).exists_refusal hrefused
  obtain rfl := Store.eq_recreated_of_create hfault
  -- A refusal would be among the reports of the checks, but is worded like none of them.
  have hreport : visit.element.report (.recreated file.name) ∈ checkReports inputs round := by
    rw [← hsame, diagnostics_runRound]
    refine List.mem_flatMap.2 ⟨visit, hvisit, ?_⟩
    rw [Visit.diagnostics, hfaults]
    exact List.mem_cons_self
  exact message_ne_of_mem_checkReports hreport file.name rfl

/-! ### Commands -/

section

variable {disk : Disk} {round : RoundArguments} {inputs : List Input}

theorem Command.execute_check (json : Bool)
    (hread : round.inputs.mapM (readInput disk) = .ok inputs) :
    (Command.execute ⟨json, .check round⟩ disk).exit =
      (runRound inputs round Store.sink []).exit := by
  simp only [execute, executeRound, hread]

theorem Command.execute_generate (json : Bool) (output : String)
    (hread : round.inputs.mapM (readInput disk) = .ok inputs) :
    (Command.execute ⟨json, .generate round (some output)⟩ disk).exit =
      (runRound inputs round (Disk.sink output) disk).exit := by
  simp only [execute, executeRound, hread]

/-- **When checking tells what generating will say**. Of a round over inputs that can be read, and
on a disk on which every write succeeds, generating reports what the checks find. Checking reports
the same exactly if the files of the round have different packages or names, and so the commands
have the same exit status, unless there is a repeated file and nothing else to report. -/
theorem Command.check_eq_generate_iff (json : Bool) (output : String)
    (hread : round.inputs.mapM (readInput disk) = .ok inputs)
    (htaken : (Disk.sink output).TakesAll (reachedFiles inputs round) disk) :
    let checked := runRound inputs round Store.sink []
    let written := runRound inputs round (Disk.sink output) disk
    let unrepeated := ((reachedFiles inputs round).map EmittedFile.key).Nodup
    written.diagnostics = checkReports inputs round ∧
      (checked.diagnostics = written.diagnostics ↔ unrepeated) ∧
      ((Command.execute ⟨json, .check round⟩ disk).exit =
          (Command.execute ⟨json, .generate round (some output)⟩ disk).exit ↔
        unrepeated ∨ checkReports inputs round ≠ []) := by
  intro checked written unrepeated
  have hwritten : written.diagnostics = checkReports inputs round :=
    diagnostics_runRound_of_takesAll inputs round htaken
  have hchecked : checked.diagnostics = written.diagnostics ↔ unrepeated := by
    rw [hwritten]
    exact diagnostics_runRound_store_iff inputs round
  refine ⟨hwritten, hchecked, ?_⟩
  rw [execute_check json hread, execute_generate json output hread]
  change checked.exit = written.exit ↔ _
  rw [← hchecked]
  by_cases hreports : checkReports inputs round = []
  · -- Nothing but refusals can be reported, so generating succeeds.
    rw [hreports] at hwritten ⊢
    have hexit : written.exit = 0 := (exit_runRound_eq_zero_iff _ _ _ _).2 hwritten
    rw [hexit, hwritten]
    have hzero : checked.exit = 0 ↔ checked.diagnostics = [] := exit_runRound_eq_zero_iff _ _ _ _
    rw [hzero]
    simp
  · have hexit : written.exit = 1 := exit_runRound_eq_one _ _ _ _ (hwritten ▸ hreports)
    have hexit' : checked.exit = 1 :=
      exit_runRound_eq_one _ _ _ _ (mt (checkReports_eq_nil inputs round) hreports)
    rw [hexit, hexit']
    exact ⟨fun _ => .inr hreports, fun _ => rfl⟩

end

/-! ### An interface that is declared once -/

/-- The running directory with the one file. -/
def plainDisk : Disk := Disk.empty.put ["a.intent"] (.file (Text.utf8Bytes plainText))

theorem readInput_plainDisk :
    ["a.intent"].mapM (readInput plainDisk) = .ok [⟨"a.intent", plainFile⟩] := by
  have hpart : IsPathName "a.intent" := ⟨by decide +kernel, by decide, by decide⟩
  have hpath : joinPath "" "a.intent" = "a.intent" := by decide +kernel
  have hnames : pathNames (joinPath "" "a.intent") = ["a.intent"] := pathNames_joinPath hpart ""
  have hplace : pathPlace (joinPath "" "a.intent") = ["a.intent"] := by
    rw [pathPlace, hnames, foldl_enter (List.forall_mem_singleton.2 hpart)]
    rfl
  have hholds : plainDisk.Holds (joinPath "" "a.intent") (Text.utf8Bytes plainText) := by
    refine ⟨?_, ?_, by decide +kernel⟩
    · rw [hnames, hplace]
      refine Disk.follow_cons.2 ⟨rfl, by decide +kernel, ?_⟩
      rw [hpart.enter_eq]
      rfl
    · rw [hplace, plainDisk, Disk.find?_put]
      simp [isBase, upward, rootName]
  have hread := hholds.readText_eq hpart
  rw [hpath] at hread
  rw [List.mapM_cons, readInput, hread]
  dsimp only
  rw [parse_plainText]
  rfl

theorem reachedFiles_plain :
    reachedFiles [⟨"a.intent", plainFile⟩] ⟨["a.intent"], [], false⟩ =
      [(plainRouter "R").emit] := by
  have hreached : reachedElements [⟨"a.intent", plainFile⟩] ⟨["a.intent"], [], false⟩ =
      candidates [plainFile] := reached_eq_self exists_router_plainFile false
  rw [reachedFiles, hreached]
  exact generated_plainFile

/-- Of one interface, checking and generating say the same. -/
theorem Command.check_eq_generate_plain :
    (Command.execute ⟨false, .check ⟨["a.intent"], [], false⟩⟩ plainDisk).exit =
      (Command.execute ⟨false, .generate ⟨["a.intent"], [], false⟩ (some "out")⟩
        plainDisk).exit := by
  have hadmits : plainDisk.Admits "out" "r_util.rs" := by
    have hempty : Disk.empty.Admits "out" "r_util.rs" := Disk.admits_empty isPathName_out
    refine ⟨fun bytes => ?_, ?_⟩
    · rw [plainDisk, Disk.find?_put, if_neg (by decide), if_neg (by decide)]
      exact hempty.noFile bytes
    · rw [plainDisk, Disk.find?_put, if_neg (by decide), if_neg (by decide)]
      exact hempty.noFolder
  have htaken : (Disk.sink "out").TakesAll
      (reachedFiles [⟨"a.intent", plainFile⟩] ⟨["a.intent"], [], false⟩) plainDisk := by
    rw [reachedFiles_plain]
    exact takesAll_plain hadmits ["R"] (by simp)
  obtain ⟨-, -, hexit⟩ := check_eq_generate_iff false "out" readInput_plainDisk htaken
  refine hexit.2 (.inl ?_)
  rw [reachedFiles_plain]
  simp

/-! ### An interface that is declared twice -/

/-- A text with the interface alone. -/
def againText : String := "@Intention(T) interface R;"

/-- The file of the text. -/
def againFile : SourceFile := ⟨none, [], [plainInterface "R" 1 25]⟩

theorem parse_againText : SourceFile.parse againText = .ok againFile := by
  cbv

/-- Two inputs that declare the same interface. -/
def repeatedInputs : List Input := [⟨"a.intent", plainFile⟩, ⟨"b.intent", againFile⟩]

/-- A round over the inputs that stops at the first failure. -/
def repeatedRound : RoundArguments := ⟨["a.intent", "b.intent"], [], false⟩

theorem candidates_repeatedInputs : candidates (repeatedInputs.map Input.file) =
    [plainInterface "R" 10 34, plainInterface "R" 1 25] := by
  cbv

theorem routers_repeatedInputs (mark position : Nat) :
    (plainInterface "R" mark position).router
      (SymbolTable.ofFiles (repeatedInputs.map Input.file) []).host = .ok (plainRouter "R") :=
  router_plainInterface (by cbv)

theorem exists_router_repeatedInputs : ∀ element ∈ candidates (repeatedInputs.map Input.file),
    ∃ router, element.router (SymbolTable.ofFiles (repeatedInputs.map Input.file) []).host =
      .ok router := by
  rw [candidates_repeatedInputs]
  exact List.forall_mem_cons.2 ⟨⟨_, routers_repeatedInputs 10 34⟩,
    List.forall_mem_singleton.2 ⟨_, routers_repeatedInputs 1 25⟩⟩

theorem reachedFiles_repeated : reachedFiles repeatedInputs repeatedRound =
    [(plainRouter "R").emit, (plainRouter "R").emit] := by
  have hreached : reachedElements repeatedInputs repeatedRound =
      candidates (repeatedInputs.map Input.file) :=
    reached_eq_self exists_router_repeatedInputs false
  rw [reachedFiles, hreached, candidates_repeatedInputs]
  change generated (SymbolTable.ofFiles (repeatedInputs.map Input.file) []).host _ = _
  rw [generated_cons_of_ok (routers_repeatedInputs 10 34),
    generated_cons_of_ok (routers_repeatedInputs 1 25), generated_nil]

/-- **Checking can fail where generating succeeds**: every write succeeds and nothing is reported,
but the round in memory refuses the second file. -/
theorem runRound_repeated :
    parseAll [plainText, againText] = .ok (repeatedInputs.map Input.file) ∧
      (Disk.sink "out").TakesAll (reachedFiles repeatedInputs repeatedRound) Disk.empty ∧
      (runRound repeatedInputs repeatedRound Store.sink []).diagnostics ≠
        (runRound repeatedInputs repeatedRound (Disk.sink "out") Disk.empty).diagnostics ∧
      (runRound repeatedInputs repeatedRound Store.sink []).exit = 1 ∧
      (runRound repeatedInputs repeatedRound (Disk.sink "out") Disk.empty).exit = 0 := by
  have hparse : parseAll [plainText, againText] = .ok (repeatedInputs.map Input.file) := by
    rw [parseAll, List.mapM_cons, List.mapM_cons, parse_plainText, parse_againText]
    rfl
  have htaken : (Disk.sink "out").TakesAll (reachedFiles repeatedInputs repeatedRound)
      Disk.empty := by
    rw [reachedFiles_repeated]
    exact takesAll_plain (Disk.admits_empty isPathName_out) ["R", "R"] (by simp)
  have hreports : checkReports repeatedInputs repeatedRound = [] := by
    refine List.flatMap_eq_nil_iff.2 fun element helement => List.map_eq_nil_iff.2 ?_
    exact Element.faultsOf_router_eq_nil_iff.2
      (exists_router_repeatedInputs element (mem_of_mem_reached helement))
  have hchecked := mt (diagnostics_runRound_store_iff repeatedInputs repeatedRound).1
    (by rw [reachedFiles_repeated]; simp)
  have hwritten := diagnostics_runRound_of_takesAll repeatedInputs repeatedRound htaken
  refine ⟨hparse, htaken, fun hsame => hchecked (hsame.trans hwritten), ?_, ?_⟩
  · exact exit_runRound_eq_one _ _ _ _ fun hnil => hchecked (hnil.trans hreports.symm)
  · exact (exit_runRound_eq_zero_iff _ _ _ _).2 (hwritten.trans hreports)

end RequestRouter
