import RequestRouter.Proofs.Router.Acceptance
import RequestRouter.Round.Basic

/-!
# What a round makes of every element

A round that goes on after failures accounts for every marked element: either there is a file
for it, or there are errors. What a round leaves behind, its files and its diagnostics, is the
accounts of the marked elements one after the other (`RequestRouter.compileRound_accounts`), so
that nothing is lost, nothing is counted twice, and nothing belongs to an element without mark.

The accounts are found by going through the elements with the store at hand: the step from one
element to the next is `RequestRouter.exists_account`, and what it depends on of all that came
before is the store alone.
-/

namespace RequestRouter

/-- What a round makes of one element. -/
structure Account where
  /-- The element. -/
  element : Element
  /-- The files that are made of it. -/
  files : List EmittedFile
  /-- What is said about it. -/
  diagnostics : List Diagnostic

/-- The file is the one that is made of the element: it has its package, and its name with
`Util` behind it. -/
def EmittedFile.IsOf (file : EmittedFile) (element : Element) : Prop :=
  file.package = element.package ∧ file.name = element.name ++ "Util"

/-- The account is settled: there is one file and nothing to say, or there is no file, and there
are errors about the element. -/
def Account.IsSettled (account : Account) : Prop :=
  (∃ file, account.files = [file] ∧ file.IsOf account.element ∧ account.diagnostics = []) ∨
    (account.files = [] ∧ account.diagnostics ≠ [] ∧
      ∀ diagnostic ∈ account.diagnostics, diagnostic.isError = true ∧
        ∃ fault, diagnostic = account.element.report fault)

/-- The environment of a round in memory that goes on after failures. -/
def goingOn (host : Host) : Environment Store := ⟨host, Store.sink, { keepGoing := true }⟩

/-- A file stands in the way of the file of an element exactly if it is of it, too. -/
theorem Store.holds_iff {store : Store} {file : EmittedFile} {element : Element}
    (hof : file.IsOf element) : store.holds file = true ↔ ∃ old ∈ store, old.IsOf element := by
  rw [holds, List.any_eq_true]
  refine exists_congr fun old => and_congr_right fun _ => ?_
  rw [Bool.and_eq_true, beq_iff_eq, beq_iff_eq, hof.1, hof.2]
  exact Iff.rfl

/-! ### One element -/

theorem isSettled_of_faults (element : Element) {faults : List Fault} (hne : faults ≠ []) :
    Account.IsSettled ⟨element, [], faults.map element.report⟩ := by
  refine .inr ⟨rfl, ?_, fun diagnostic hmem => ?_⟩
  · exact fun hnil => hne (List.map_eq_nil_iff.1 hnil)
  · obtain ⟨fault, -, rfl⟩ := List.mem_map.1 hmem
    exact ⟨rfl, fault, rfl⟩

theorem isOf_emit {host : Host} (hpackage : ∀ element, host.packageOf element = element.package)
    {element : Element} {router : Router} (h : element.router host = .ok router) :
    router.emit.IsOf element := by
  obtain ⟨hname, hrouter⟩ := Element.name_of_router_eq_ok h
  refine ⟨hrouter.trans (hpackage element), ?_⟩
  change router.name ++ "Util" = _
  rw [hname]

/-- **The step of a round**: an element adds its account to the store and to the diagnostics.
There is a file exactly if the element is a router and no file in the store stands in its way. -/
theorem exists_account (host : Host)
    (hpackage : ∀ element, host.packageOf element = element.package) (element : Element)
    (rest : List Element) (outcome : Outcome Store) :
    ∃ account : Account, account.element = element ∧ account.IsSettled ∧
      (account.files ≠ [] ↔ (∃ router, element.router host = .ok router) ∧
        ∀ file ∈ outcome.store, ¬file.IsOf element) ∧
      (goingOn host).processElements (element :: rest) outcome =
        (goingOn host).processElements rest
          ⟨outcome.store ++ account.files, outcome.diagnostics ++ account.diagnostics⟩ := by
  rw [Environment.processElements, Environment.processElement, goingOn]
  -- No router, a router whose file is in the way, or a router with a new file.
  cases hrouter : element.router host with
  | error faults =>
    refine ⟨⟨element, [], faults.map element.report⟩, rfl,
      isSettled_of_faults element (Element.ne_nil_of_router_eq_error hrouter), ?_, ?_⟩
    · simp
    · simp
  | ok router =>
    have hof := isOf_emit hpackage hrouter
    cases hholds : outcome.store.holds router.emit with
    | true =>
      refine ⟨⟨element, [], [.recreated router.emit.name].map element.report⟩, rfl,
        isSettled_of_faults element (List.cons_ne_nil _ _), ?_, ?_⟩
      · obtain ⟨old, hold, hsame⟩ := (Store.holds_iff hof).1 hholds
        exact ⟨fun hne => absurd rfl hne, fun h => absurd hsame (h.2 old hold)⟩
      · simp [Store.create_of_holds hholds]
    | false =>
      refine ⟨⟨element, [router.emit], []⟩, rfl, .inl ⟨router.emit, rfl, hof, rfl⟩, ?_, ?_⟩
      · refine ⟨fun _ => ⟨⟨router, rfl⟩, fun old hold hsame => ?_⟩, fun _ => List.cons_ne_nil _ _⟩
        rw [(Store.holds_iff hof).2 ⟨old, hold, hsame⟩] at hholds
        cases hholds
      · simp [Store.create_of_not_holds hholds]

/-! ### All elements -/

/-- **The run of a round**: by induction over the elements, the store is that of the beginning
and the files of the accounts, so the files in the way of an element are those and the ones of
the accounts before it. -/
theorem exists_accounts (host : Host)
    (hpackage : ∀ element, host.packageOf element = element.package) (elements : List Element)
    (outcome : Outcome Store) :
    ∃ accounts : List Account, accounts.map Account.element = elements ∧
      (∀ account ∈ accounts, account.IsSettled) ∧
      (∀ before account after, accounts = before ++ account :: after →
        (account.files ≠ [] ↔ (∃ router, account.element.router host = .ok router) ∧
          ∀ file ∈ outcome.store ++ before.flatMap Account.files, ¬file.IsOf account.element)) ∧
      (goingOn host).processElements elements outcome =
        ⟨outcome.store ++ accounts.flatMap Account.files,
          outcome.diagnostics ++ accounts.flatMap Account.diagnostics⟩ := by
  induction elements generalizing outcome with
  | nil =>
    refine ⟨[], rfl, nofun, ?_, ?_⟩
    · intro before account after hsplit
      simp at hsplit
    · simp [Environment.processElements]
  | cons element rest ih =>
    obtain ⟨account, rfl, hsettled, hfiles, hstep⟩ :=
      exists_account host hpackage element rest outcome
    obtain ⟨accounts, rfl, hall, hothers, hrest⟩ :=
      ih ⟨outcome.store ++ account.files, outcome.diagnostics ++ account.diagnostics⟩
    refine ⟨account :: accounts, rfl, ?_, ?_, ?_⟩
    · exact List.forall_mem_cons.2 ⟨hsettled, hall⟩
    -- The first account is that of `element`; for the others, its file is in the store already.
    · intro before later after hsplit
      cases before with
      | nil =>
        obtain ⟨rfl, rfl⟩ := List.cons.inj hsplit
        simpa using hfiles
      | cons first before =>
        obtain ⟨rfl, htail⟩ := List.cons.inj hsplit
        rw [hothers before later after htail, List.flatMap_cons, List.append_assoc]
    · rw [hstep, hrest, List.flatMap_cons, List.flatMap_cons, List.append_assoc,
        List.append_assoc]

/-- **A round accounts for every marked element**. If it goes on after failures, there is one
account for each element with a marker, in the order of their declaration, and what the round
leaves behind are these accounts. In each there is either one file, of the package of the
element and with its name, or there are errors about it; and there is a file exactly if the
element is routable and no element before it has a file of the same package and name. -/
theorem compileRound_accounts (files : List SourceFile) (compiled : List String) :
    ∃ accounts : List Account,
      accounts.map Account.element = (files.flatMap SourceFile.elements).filter (fun element =>
        element.marks.any fun mark => mark.name == "Intention") ∧
      (compileRound files compiled { keepGoing := true }).store =
        accounts.flatMap Account.files ∧
      (compileRound files compiled { keepGoing := true }).diagnostics =
        accounts.flatMap Account.diagnostics ∧
      (∀ account ∈ accounts, account.IsSettled) ∧
      ∀ before account after, accounts = before ++ account :: after →
        (account.files ≠ [] ↔
          account.element.IsRoutable
            ((files.flatMap SourceFile.elements).map Element.qualifiedName) compiled ∧
          ∀ earlier ∈ before, ∀ file ∈ earlier.files, ¬file.IsOf account.element) := by
  have hround : compileRound files compiled { keepGoing := true } =
      (goingOn (SymbolTable.ofFiles files compiled).host).processElements (candidates files)
        ⟨[], []⟩ := rfl
  obtain ⟨accounts, helements, hsettled, hfiles, hrun⟩ :=
    exists_accounts (SymbolTable.ofFiles files compiled).host (fun _ => rfl) (candidates files)
      ⟨[], []⟩
  rw [hrun] at hround
  refine ⟨accounts, helements.trans (candidates_eq files), ?_, ?_, hsettled, ?_⟩
  · rw [hround]
    rfl
  · rw [hround]
    rfl
  · intro before account after hsplit
    -- The store was empty, so what is in the way of a file are those of the accounts before it.
    rw [hfiles before account after hsplit, Element.router_eq_ok_iff, List.nil_append]
    simp only [List.mem_flatMap, forall_exists_index, and_imp]
    exact and_congr_right fun _ => ⟨fun h earlier hmem file hfile => h file earlier hmem hfile,
      fun h file earlier hmem hfile => h earlier hmem file hfile⟩

end RequestRouter
