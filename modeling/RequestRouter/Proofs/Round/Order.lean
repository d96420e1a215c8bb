import Mathlib.Data.Multiset.MapFold
import RequestRouter.Proofs.Disk.Generated
import RequestRouter.Proofs.Round.Accounts
import RequestRouter.Proofs.Round.Refusals

/-!
# Rounds over files in another order

A round takes its files one after the other, and of two interfaces with the same package and name
the first gets the file. Here the files are taken in another order. The types that the round knows
stay the same (`RequestRouter.SymbolTable.host_congr`), so every element passes its checks or fails
them as before; what the order may change is which of several elements of one name is refused.

To see that it changes nothing else, the outcome of a round is looked at as a tally: its files and
its diagnostics in no order, and as far as a view of them shows them. An element adds to the tally
what depends on the tally alone, and two elements add the same in either order if the view does not
tell their files apart, or if the files differ in package or name anyway
(`RequestRouter.Tally.add_swap`). So there are two readings of the main statement,
`RequestRouter.compileRound_perm`: seen by packages, names and messages, any two orders come to the
same; and if no two marked elements share package and name, they come to the same seen in full.
-/

namespace RequestRouter

/-- What a diagnostic says, apart from the position of what it points at. -/
def Diagnostic.said (diagnostic : Diagnostic) : Severity × String × Option String :=
  (diagnostic.severity, diagnostic.message, diagnostic.location.map Location.symbol)

/-! ### Tables of the same names -/

namespace SymbolTable

variable {table other : SymbolTable}

theorem find?_congr (hpending : ∀ name, name ∈ table.pending ↔ name ∈ other.pending)
    (hcompiled : ∀ name, name ∈ table.compiled ↔ name ∈ other.compiled) (qualified : String) :
    table.find? qualified = other.find? qualified := by
  have hp : table.isPending qualified = other.isPending qualified := by
    rw [isPending, isPending, Bool.eq_iff_iff, List.contains_iff_mem, List.contains_iff_mem]
    exact hpending qualified
  have hc : table.isCompiled qualified = other.isCompiled qualified := by
    rw [isCompiled, isCompiled, Bool.eq_iff_iff, List.contains_iff_mem, List.contains_iff_mem]
    exact hcompiled qualified
  rw [find?, find?, hp, hc]

/-- A table answers by the names in it, in whatever order they are. -/
theorem host_congr (hpending : ∀ name, name ∈ table.pending ↔ name ∈ other.pending)
    (hcompiled : ∀ name, name ∈ table.compiled ↔ name ∈ other.compiled) :
    table.host = other.host := by
  have hfind : table.find? = other.find? := funext (find?_congr hpending hcompiled)
  have hresolve : table.resolve = other.resolve := by
    funext reference scope
    simp only [resolve, trusted, hfind]
  rw [host, host, hresolve]

/-- The files of a round may come in any order. -/
theorem host_ofFiles_perm {files files' : List SourceFile} (h : files.Perm files')
    (compiled : List String) : (ofFiles files compiled).host = (ofFiles files' compiled).host :=
  host_congr (fun _ => ((h.flatMap_right SourceFile.elements).map Element.qualifiedName).mem_iff)
    fun _ => Iff.rfl

end SymbolTable

theorem candidates_perm {files files' : List SourceFile} (h : files.Perm files') :
    (candidates files).Perm (candidates files') :=
  (h.flatMap_right SourceFile.elements).filter _

/-! ### Tallies -/

/-- A view of the outcome of a round: what is seen of each file, and of each diagnostic. At least
the package and the name of a file can be told from what is seen of it. -/
structure View (α β : Type) where
  /-- What is seen of a file. -/
  file : EmittedFile → α
  /-- What is seen of a diagnostic. -/
  diagnostic : Diagnostic → β
  /-- The package and the name of what is seen of a file. -/
  key : α → String × String
  /-- They are those of the file. -/
  key_file (emitted : EmittedFile) : key (file emitted) = emitted.key

/-- Files are seen by their packages and names, and of diagnostics what they say. -/
def View.said : View (String × String) (Severity × String × Option String) :=
  ⟨EmittedFile.key, Diagnostic.said, id, fun _ => rfl⟩

/-- Everything is seen. -/
def View.full : View EmittedFile Diagnostic := ⟨id, id, EmittedFile.key, fun _ => rfl⟩

/-- Files and diagnostics in no order, as they are seen. -/
abbrev Tally (α β : Type) := Multiset α × Multiset β

section

variable {α β : Type} (view : View α β)

/-- What is seen of an outcome. -/
def Outcome.tally (outcome : Outcome Store) : Tally α β :=
  (↑(outcome.store.map view.file), ↑(outcome.diagnostics.map view.diagnostic))

/-- The tally behind an element: its file is added, unless one of its package and name is there, or
else its faults are. -/
def Tally.add (host : Host) (tally : Tally α β) (element : Element) : Tally α β :=
  match element.router host with
  | .error faults => (tally.1, tally.2 + ↑(faults.map fun fault =>
      view.diagnostic (element.report fault)))
  | .ok router =>
    if router.emit.key ∈ tally.1.map view.key then
      (tally.1, view.diagnostic (element.report (.recreated router.emit.name)) ::ₘ tally.2)
    else (view.file router.emit ::ₘ tally.1, tally.2)

/-- A file is held exactly if its package and name are in the tally. -/
theorem Outcome.holds_iff_mem_tally (outcome : Outcome Store) (emitted : EmittedFile) :
    outcome.store.holds emitted = true ↔
      emitted.key ∈ (outcome.tally view).1.map view.key := by
  rw [Store.holds_iff_mem_keys]
  simp [tally, view.key_file]

theorem Outcome.tally_add_file (outcome : Outcome Store) (emitted : EmittedFile) :
    Outcome.tally view ⟨outcome.store ++ [emitted], outcome.diagnostics⟩ =
      (view.file emitted ::ₘ (outcome.tally view).1, (outcome.tally view).2) := by
  rw [tally, List.map_append, List.map_singleton, ← Multiset.coe_add, Multiset.coe_singleton,
    add_comm, Multiset.singleton_add]
  rfl

theorem Outcome.tally_add_diagnostics (outcome : Outcome Store) (diagnostics : List Diagnostic) :
    Outcome.tally view ⟨outcome.store, outcome.diagnostics ++ diagnostics⟩ =
      ((outcome.tally view).1, (outcome.tally view).2 + ↑(diagnostics.map view.diagnostic)) := by
  rw [tally, List.map_append, ← Multiset.coe_add]
  rfl

/-- **The tally of a round** that goes on after failures is counted element by element. -/
theorem tally_processElements (host : Host) (elements : List Element) (outcome : Outcome Store) :
    ((goingOn host).processElements elements outcome).tally view =
      elements.foldl (Tally.add view host) (outcome.tally view) := by
  induction elements generalizing outcome with
  | nil => rfl
  | cons element rest ih =>
    rw [Environment.processElements, Environment.processElement, goingOn, List.foldl_cons,
      Tally.add]
    cases hrouter : element.router host with
    | error faults =>
      have hadded := outcome.tally_add_diagnostics view (faults.map element.report)
      rw [List.map_map] at hadded
      exact (ih _).trans (congrArg (rest.foldl (Tally.add view host)) hadded)
    | ok router =>
      have hheld := outcome.holds_iff_mem_tally view router.emit
      cases hholds : outcome.store.holds router.emit with
      | true =>
        have hadded := outcome.tally_add_diagnostics view
          [element.report (.recreated router.emit.name)]
        rw [List.map_singleton, Multiset.coe_singleton, add_comm, Multiset.singleton_add] at hadded
        simp only [Store.sink_create, Store.create_of_holds hholds, single_error,
          List.map_singleton]
        rw [if_pos (hheld.1 hholds), ← hadded]
        exact ih _
      | false =>
        have hnot := mt hheld.2 (Bool.eq_false_iff.1 hholds)
        simp only [Store.sink_create, Store.create_of_not_holds hholds, single_ok]
        rw [if_neg hnot, ← outcome.tally_add_file view]
        exact ih _

/-- The view tells neither the files of the two elements apart nor their refusals, if the files have
the same package and name. -/
def View.Confuses (host : Host) (first second : Element) : Prop :=
  ∀ router other, first.router host = .ok router → second.router host = .ok other →
    router.emit.key = other.emit.key → view.file router.emit = view.file other.emit ∧
      view.diagnostic (first.report (.recreated router.emit.name)) =
        view.diagnostic (second.report (.recreated other.emit.name))

/-- **Two elements add the same in either order**, unless their files have the same package and name
and the view tells them apart. -/
theorem Tally.add_swap {host : Host} {first second : Element}
    (hsame : view.Confuses host first second) (tally : Tally α β) :
    Tally.add view host (Tally.add view host tally first) second =
      Tally.add view host (Tally.add view host tally second) first := by
  cases hfirst : first.router host with
  | error faults =>
    cases hsecond : second.router host with
    | error others => simp only [add, hfirst, hsecond, add_right_comm]
    | ok other =>
      simp only [add, hfirst, hsecond]
      split <;> simp
  | ok router =>
    cases hsecond : second.router host with
    | error others =>
      simp only [add, hfirst, hsecond]
      split <;> simp
    | ok other =>
      -- The second element meets the file of the first one if the keys are the same.
      simp only [add, hfirst, hsecond]
      by_cases hkey : router.emit.key = other.emit.key
      · obtain ⟨hfile, hrefused⟩ := hsame router other hfirst hsecond hkey
        rw [← hkey, hfile, hrefused]
      · by_cases hheld : router.emit.key ∈ tally.1.map view.key
        · by_cases hheld' : other.emit.key ∈ tally.1.map view.key
          · simp only [hheld, hheld', if_true, Multiset.cons_swap]
          · simp [hheld, hheld', hkey, view.key_file]
        · by_cases hheld' : other.emit.key ∈ tally.1.map view.key
          · simp [hheld, hheld', Ne.symm hkey, view.key_file]
          · simp [hheld, hheld', hkey, Ne.symm hkey, view.key_file, Multiset.cons_swap]

/-- **A round over elements in another order** comes to the same, as far as the view shows it. -/
theorem perm_processElements {host : Host} {elements elements' : List Element}
    (h : elements.Perm elements')
    (hsame : ∀ first ∈ elements, ∀ second ∈ elements, view.Confuses host first second)
    (outcome : Outcome Store) :
    (((goingOn host).processElements elements outcome).store.map view.file).Perm
        (((goingOn host).processElements elements' outcome).store.map view.file) ∧
      (((goingOn host).processElements elements outcome).diagnostics.map view.diagnostic).Perm
        (((goingOn host).processElements elements' outcome).diagnostics.map view.diagnostic) := by
  have hswap : ∀ first ∈ elements, ∀ second ∈ elements, ∀ tally,
      Tally.add view host (Tally.add view host tally first) second =
        Tally.add view host (Tally.add view host tally second) first :=
    fun first hfirst second hsecond =>
      Tally.add_swap view (hsame first hfirst second hsecond)
  have htally : ((goingOn host).processElements elements outcome).tally view =
      ((goingOn host).processElements elements' outcome).tally view := by
    rw [tally_processElements, tally_processElements, h.foldl_eq' hswap]
  obtain ⟨hfiles, hdiagnostics⟩ := Prod.mk.inj htally
  exact ⟨Multiset.coe_eq_coe.1 hfiles, Multiset.coe_eq_coe.1 hdiagnostics⟩

end

/-! ### Both readings -/

/-- Files of one package and name are of elements of one package and name. -/
theorem eq_of_key_emit_eq {table : SymbolTable} {first second : Element} {router other : Router}
    (hfirst : first.router table.host = .ok router)
    (hsecond : second.router table.host = .ok other) (hkey : router.emit.key = other.emit.key) :
    first.package = second.package ∧ first.name = second.name := by
  obtain ⟨hpackage, hname⟩ := isOf_emit (fun _ => rfl) hfirst
  obtain ⟨hpackage', hname'⟩ := isOf_emit (fun _ => rfl) hsecond
  obtain ⟨hpackages, hnames⟩ := Prod.mk.inj hkey
  refine ⟨hpackage.symm.trans (hpackages.trans hpackage'), ?_⟩
  exact (String.append_left_inj _).1 (hname.symm.trans (hnames.trans hname'))

theorem confuses_said (table : SymbolTable) (first second : Element) :
    View.said.Confuses table.host first second := by
  intro router other hfirst hsecond hkey
  obtain ⟨hpackage, hname⟩ := eq_of_key_emit_eq hfirst hsecond hkey
  have hqualified : first.qualifiedName = second.qualifiedName := by
    rw [Element.qualifiedName, Element.qualifiedName, hpackage, hname]
  have hfile : router.emit.name = other.emit.name := (Prod.mk.inj hkey).2
  refine ⟨hkey, ?_⟩
  change (Severity.error, (Fault.recreated router.emit.name).message, some first.qualifiedName) =
    (Severity.error, (Fault.recreated other.emit.name).message, some second.qualifiedName)
  rw [hfile, hqualified]

theorem confuses_full (table : SymbolTable) {elements : List Element}
    (h : (elements.map fun element => (element.package, element.name)).Nodup) :
    ∀ first ∈ elements, ∀ second ∈ elements, View.full.Confuses table.host first second := by
  intro first hfirstmem second hsecondmem router other hfirst hsecond hkey
  obtain ⟨hpackage, hname⟩ := eq_of_key_emit_eq hfirst hsecond hkey
  have hsame : first = second :=
    List.inj_on_of_nodup_map h hfirstmem hsecondmem (Prod.ext hpackage hname)
  subst hsame
  cases hfirst.symm.trans hsecond
  exact ⟨rfl, rfl⟩

theorem countP_isError_perm {diagnostics others : List Diagnostic}
    (h : (diagnostics.map Diagnostic.said).Perm (others.map Diagnostic.said)) :
    diagnostics.countP Diagnostic.isError = others.countP Diagnostic.isError := by
  have hcount := h.countP_eq fun said => said.1 == .error
  rw [List.countP_map, List.countP_map] at hcount
  exact hcount

/-- **The order of files does not matter.** Let a round go on after failures, and run over the same
files in two orders. Then it creates files of the same packages and names, and reports as many
errors, which say the same about the same symbols. If no two marked elements share package and name,
it creates the same files and reports the same diagnostics, up to their order. -/
theorem compileRound_perm {files files' : List SourceFile} (h : files.Perm files')
    (compiled : List String) :
    let outcome := compileRound files compiled { keepGoing := true }
    let other := compileRound files' compiled { keepGoing := true }
    (outcome.store.map EmittedFile.key).Perm (other.store.map EmittedFile.key) ∧
      outcome.diagnostics.countP Diagnostic.isError =
        other.diagnostics.countP Diagnostic.isError ∧
      (outcome.diagnostics.map Diagnostic.said).Perm (other.diagnostics.map Diagnostic.said) ∧
      (((candidates files).map fun element => (element.package, element.name)).Nodup →
        outcome.store.Perm other.store ∧ outcome.diagnostics.Perm other.diagnostics) := by
  intro outcome other
  have hcandidates := candidates_perm h
  have houtcome : outcome = (goingOn (SymbolTable.ofFiles files compiled).host).processElements
      (candidates files) ⟨[], []⟩ := rfl
  have hother : other = (goingOn (SymbolTable.ofFiles files compiled).host).processElements
      (candidates files') ⟨[], []⟩ := by
    rw [SymbolTable.host_ofFiles_perm h]
    rfl
  -- Seen without what the order decides, two elements of one key are the same; seen in full, there
  -- are no such two.
  obtain ⟨hkeys, hsaid⟩ := perm_processElements View.said hcandidates
    (fun first _ second _ => confuses_said (SymbolTable.ofFiles files compiled) first second)
    ⟨[], []⟩
  rw [← houtcome, ← hother] at hkeys hsaid
  refine ⟨hkeys, countP_isError_perm hsaid, hsaid, fun hnodup => ?_⟩
  obtain ⟨hfiles, hdiagnostics⟩ := perm_processElements View.full hcandidates
    (confuses_full (SymbolTable.ofFiles files compiled) hnodup) ⟨[], []⟩
  rw [← houtcome, ← hother] at hfiles hdiagnostics
  simp only [View.full, List.map_id] at hfiles hdiagnostics
  exact ⟨hfiles, hdiagnostics⟩

/-- A file with an interface that refers to the other file, and a marked class. -/
def secondFile : SourceFile :=
  ⟨none, [], [plainInterface "S" 1 25,
    { plainInterface "Q" 30 50 with kind := .classType }]⟩

theorem compileRound_perm_plain :
    [plainFile, secondFile].Perm [secondFile, plainFile] ∧
      ((candidates [plainFile, secondFile]).map fun element =>
        (element.package, element.name)).Nodup ∧
      (compileRound [secondFile, plainFile] [] { keepGoing := true }).store.Perm
        [(plainRouter "R").emit, (plainRouter "S").emit] := by
  have hperm : [plainFile, secondFile].Perm [secondFile, plainFile] := .swap _ _ _
  have hnodup : ((candidates [plainFile, secondFile]).map fun element =>
      (element.package, element.name)).Nodup := by
    decide +kernel
  obtain ⟨-, -, -, hfull⟩ := compileRound_perm hperm []
  have hstore : (compileRound [plainFile, secondFile] [] { keepGoing := true }).store =
      [(plainRouter "R").emit, (plainRouter "S").emit] := by
    decide +kernel
  exact ⟨hperm, hnodup, hstore ▸ (hfull hnodup).1.symm⟩

end RequestRouter
