import RequestRouter.Proofs.Round.Memory

/-!
# Rounds that stop at the first failure

A round that stops at the first failure and one that goes on are the same round up to there
(`RequestRouter.Facilities.processElements_cut`): every element in front of the first that fails
adds its file, whatever the options are, and the faults of that one are all reported. What the
options decide is whether the round goes on behind it.

So stopping only cuts the tail (`RequestRouter.Facilities.processRound_stopping`): the files and the
diagnostics of the one round are the first of the other, and either both rounds fail or none does.
-/

namespace RequestRouter

namespace Facilities

/-- **Up to the first failure, options do not matter.** Either every element adds its file, or there
is a first one that does not: then the faults of this one are reported, and the options decide
whether the round goes on behind it. -/
theorem processElements_cut (facilities : Facilities) (elements : List Element)
    (outcome : Outcome Store) :
    (∃ made, elements.map (Element.emitted? facilities.host) = made.map some ∧
      ∀ options, (facilities.environment options).processElements elements outcome =
        ⟨outcome.store ++ made, outcome.diagnostics⟩) ∨
    ∃ made before element after, elements = before ++ element :: after ∧
      before.map (Element.emitted? facilities.host) = made.map some ∧
      facilities.added? element (outcome.store ++ made) = none ∧
      ∀ options, (facilities.environment options).processElements elements outcome =
        let next : Outcome Store := ⟨outcome.store ++ made, outcome.diagnostics ++
          (facilities.faults element (outcome.store ++ made)).map element.report⟩
        if options.keepGoing then (facilities.environment options).processElements after next
        else next := by
  induction elements generalizing outcome with
  | nil =>
    refine .inl ⟨[], rfl, fun _ => ?_⟩
    rw [List.append_nil]
    rfl
  | cons element rest ih =>
    cases hadded : facilities.added? element outcome.store with
    | none =>
      -- The first element fails, so the options matter from here on.
      refine .inr ⟨[], [], element, rest, rfl, rfl, ?_, fun options => ?_⟩
      · rwa [List.append_nil]
      · rw [processElements_cons, hadded, List.append_nil]
    | some file =>
      -- It adds its file whatever the options are, and the others start from the same store.
      have hemitted := (added?_eq_some_iff.1 hadded).1
      have hstore (made : List EmittedFile) :
          outcome.store ++ [file] ++ made = outcome.store ++ file :: made :=
        (List.append_cons ..).symm
      rcases ih ⟨outcome.store ++ [file], outcome.diagnostics⟩ with
        ⟨made, hmade, hrun⟩ | ⟨made, before, failing, after, rfl, hmade, hfails, hrun⟩
      · refine .inl ⟨file :: made, ?_, fun options => ?_⟩
        · rw [List.map_cons, List.map_cons, hemitted, hmade]
        · rw [processElements_cons, hadded, ← hstore]
          exact hrun options
      · refine .inr ⟨file :: made, element :: before, failing, after, rfl, ?_, ?_,
          fun options => ?_⟩
        · rw [List.map_cons, List.map_cons, hemitted, hmade]
        · rwa [← hstore]
        · rw [processElements_cons, hadded, ← hstore]
          exact hrun options

/-- **Stopping only cuts the tail.** Of two rounds over the same files, from the same store and the
same diagnostics, let one stop at the first failure and one go on. What the first creates and
reports comes first in what the second creates and reports. Both report errors or none of them does.
If none does, both create the file of every marked element. Otherwise there is a first marked
element that fails, with all those before it having their files created; the first round reports its
faults, all of them, and nothing else. -/
theorem processRound_stopping (facilities : Facilities) (sources : List SourceFile)
    (outcome : Outcome Store) :
    let stopped := (facilities.environment { keepGoing := false }).processRound sources outcome
    let full := (facilities.environment { keepGoing := true }).processRound sources outcome
    let marked := (sources.flatMap SourceFile.elements).filter fun element =>
      element.marks.any fun mark => mark.name == "Intention"
    ∃ made reports laterMade laterReports,
      stopped = ⟨outcome.store ++ made, outcome.diagnostics ++ reports⟩ ∧
      full = ⟨outcome.store ++ (made ++ laterMade),
        outcome.diagnostics ++ (reports ++ laterReports)⟩ ∧
      (reports.any Diagnostic.isError = (reports ++ laterReports).any Diagnostic.isError) ∧
      ((reports = [] ∧ laterReports = [] ∧ laterMade = [] ∧
          marked.map (Element.emitted? facilities.host) = made.map some) ∨
        ∃ before element after faults, marked = before ++ element :: after ∧
          before.map (Element.emitted? facilities.host) = made.map some ∧
          (facilities.environment { keepGoing := false }).processElement element stopped.store =
            (.error faults, stopped.store) ∧
          faults ≠ [] ∧ reports = faults.map element.report) := by
  intro stopped full marked
  have hround (options : Options) :
      (facilities.environment options).processRound sources outcome =
        (facilities.environment options).processElements marked outcome := by
    rw [Environment.processRound, candidates_eq]
  -- The two rounds part at the first element that fails, if there is one.
  rcases processElements_cut facilities marked outcome with
    ⟨made, hmade, hrun⟩ | ⟨made, before, element, after, hsplit, hmade, hfails, hrun⟩
  · refine ⟨made, [], [], [], ?_, ?_, rfl, .inl ⟨rfl, rfl, rfl, hmade⟩⟩
    · rw [List.append_nil]
      exact (hround _).trans (hrun _)
    · rw [List.append_nil, List.append_nil, List.append_nil]
      exact (hround _).trans (hrun _)
  · have hstopped : stopped = _ := (hround _).trans (hrun { keepGoing := false })
    have hfull : full = _ := (hround _).trans (hrun { keepGoing := true })
    dsimp only at hstopped hfull
    rw [if_neg Bool.false_ne_true] at hstopped
    rw [if_pos rfl] at hfull
    obtain ⟨hfaults, hprocess⟩ := processElement_of_not_added { keepGoing := false } hfails
    obtain ⟨laterMade, laterReports, hlater, -⟩ := growsTo_processElements facilities
      { keepGoing := true } after ⟨outcome.store ++ made, outcome.diagnostics ++
        (facilities.faults element (outcome.store ++ made)).map element.report⟩
    refine ⟨made, (facilities.faults element (outcome.store ++ made)).map element.report, laterMade,
      laterReports, hstopped, ?_, ?_, .inr ⟨before, element, after, _, hsplit, hmade, ?_, hfaults,
        rfl⟩⟩
    · rw [hfull, hlater, List.append_assoc, List.append_assoc]
    · -- The first fault is an error of both rounds.
      obtain ⟨fault, faults, hcons⟩ := List.exists_cons_of_ne_nil hfaults
      rw [hcons]
      rfl
    · rw [hstopped]
      exact hprocess

end Facilities

end RequestRouter
