import RequestRouter.Proofs.Disk.Paths
import RequestRouter.Proofs.Text.Utf8

/-!
# Writing files

Writing a file makes the directories that are missing, and these only: what was there stays there
(`RequestRouter.Disk.makeDirectories_keeps`). Then it puts the file at its place, and never in
place of a directory. So a file that was written is read back with the text that it was written
with, until another is written at the same place (`RequestRouter.Disk.Holds.readText_eq`,
`RequestRouter.Disk.Holds.create`).
-/

namespace RequestRouter

namespace Disk

/-! ### Following names -/

/-- What is at `place` in the one tree is there in the other. -/
def KeepsAt (disk new : Disk) (place : Place) : Prop :=
  ∀ entry, disk.find? place = some entry → new.find? place = some entry

/-- The directories of the one tree are in the other. -/
def KeepsDirectories (disk new : Disk) : Prop :=
  ∀ place, disk.find? place = some .directory → new.find? place = some .directory

variable {disk new : Disk} {here place : Place} {names : List String}

theorem follow_cons {name : String} :
    disk.follow here (name :: names) = .ok place ↔ disk.find? here = some .directory ∧
      isLongName name = false ∧ disk.follow (enter here name) names = .ok place := by
  rw [follow]
  cases hentry : disk.find? here with
  | none => simp
  | some entry =>
    cases entry with
    | file bytes => simp
    | directory =>
      cases hlong : isLongName name with
      | true => simp
      | false => simp

/-- Where names lead, if they lead anywhere. -/
theorem eq_of_follow (h : disk.follow here names = .ok place) : place = names.foldl enter here := by
  induction names generalizing here with
  | nil =>
    cases h
    rfl
  | cons name rest ih => exact ih (follow_cons.1 h).2.2

/-- Names lead where they led, as long as directories stay. -/
theorem KeepsDirectories.follow_eq (hkeeps : disk.KeepsDirectories new)
    (h : disk.follow here names = .ok place) : new.follow here names = .ok place := by
  induction names generalizing here with
  | nil => exact h
  | cons name rest ih =>
    obtain ⟨hhere, hlong, hrest⟩ := follow_cons.1 h
    exact follow_cons.2 ⟨hkeeps _ hhere, hlong, ih hrest⟩

/-- Names that lead nowhere else may stand in between. -/
theorem follow_of_filter {part : String} (hpart : leads part = true)
    (h : disk.follow here ((names ++ [part]).filter leads) = .ok place) :
    disk.follow here (names ++ [part]) = .ok place := by
  induction names generalizing here with
  | nil => simpa [hpart] using h
  | cons name rest ih =>
    rw [List.cons_append, List.filter_cons] at h
    split at h
    · obtain ⟨hhere, hlong, hrest⟩ := follow_cons.1 h
      exact follow_cons.2 ⟨hhere, hlong, ih hrest⟩
    · next hstays =>
      -- The names go on, so there is a directory here.
      have hne : (rest ++ [part]).filter leads ≠ [] :=
        List.ne_nil_of_mem (List.mem_filter.2 ⟨List.mem_append_right _ List.mem_cons_self, hpart⟩)
      obtain ⟨first, others, hfirst⟩ := List.exists_cons_of_ne_nil hne
      have hhere := (follow_cons.1 (hfirst ▸ h)).1
      have hname : name = "." ∨ name = "" := by
        by_cases hdot : name = "."
        · exact .inl hdot
        · exact .inr (by simpa [leads, hdot] using hstays)
      refine follow_cons.2 ⟨hhere, ?_, ?_⟩
      · rcases hname with rfl | rfl <;> decide
      · have henter : enter here name = here := by
          rcases hname with rfl | rfl <;> rfl
        rw [henter]
        exact ih h

/-! ### Making directories -/

/-- What is put somewhere else, or where nothing is, changes nothing that was there. -/
theorem keepsAt_put {entry : DiskEntry} (h : place = here → disk.find? here = none) :
    disk.KeepsAt (disk.put here entry) place := by
  intro found hfound
  rw [find?_put]
  split
  · next hbase =>
    rw [find?, if_pos hbase] at hfound
    exact hfound
  · split
    · next hsame =>
      rw [hsame, h hsame] at hfound
      cases hfound
    · exact hfound

/-- Directories are made where nothing was. -/
theorem addDirectories_keeps (disk : Disk) (here : Place) (names : List String) (place : Place) :
    disk.KeepsAt (disk.addDirectories here names).2 place := by
  induction names generalizing disk here with
  | nil => exact fun _ h => h
  | cons name rest ih =>
    rw [addDirectories]
    split
    · exact fun _ h => h
    · split
      · next hnone => exact fun entry h => ih _ _ entry (keepsAt_put (fun _ => hnone) entry h)
      · exact ih _ _
      · exact fun _ h => h

theorem completeDirectories_keeps (disk : Disk) (here : Place) (names : List String)
    (place : Place) : disk.KeepsAt (disk.completeDirectories here names).2 place := by
  induction names generalizing here with
  | nil => exact fun _ h => h
  | cons name rest ih =>
    rw [completeDirectories]
    split
    · exact fun _ h => h
    · split
      · exact disk.addDirectories_keeps _ _ place
      · exact ih _
      · exact fun _ h => h

/-- **Making directories** changes nothing that was there. -/
theorem makeDirectories_keeps (disk : Disk) (path : String) (place : Place) :
    disk.KeepsAt (disk.makeDirectories path).2 place := by
  rw [makeDirectories]
  split
  · exact fun _ h => h
  · exact disk.completeDirectories_keeps _ _ place

/-! ### Writing files -/

/-- There is a file with the bytes where the path leads. -/
structure Holds (disk : Disk) (path : String) (bytes : List UInt8) : Prop where
  follow : disk.follow [] (pathNames path) = .ok (pathPlace path)
  find : disk.find? (pathPlace path) = some (.file bytes)
  short : isLongPath path = false

variable {path : String} {bytes : List UInt8}

/-- A file that is written is where its path leads, in place of what is no directory. -/
theorem writeFile_eq_ok_iff : disk.writeFile path bytes = .ok new ↔
    disk.follow [] (pathNames path) = .ok (pathPlace path) ∧ isLongPath path = false ∧
      disk.find? (pathPlace path) ≠ some .directory ∧
      new = disk.put (pathPlace path) (.file bytes) := by
  rw [writeFile]
  constructor
  · intro h
    split at h
    · cases h
    · next hshort =>
      cases hfollow : disk.follow [] (pathNames path) with
      | error cause =>
        rw [hfollow] at h
        cases h
      | ok place =>
        obtain rfl : place = pathPlace path := eq_of_follow hfollow
        rw [hfollow] at h
        dsimp only [bind, Except.bind] at h
        refine ⟨rfl, Bool.eq_false_iff.2 hshort, ?_⟩
        split at h
        · cases h
        · next hfile =>
          cases h
          exact ⟨fun hdirectory => hfile hdirectory, rfl⟩
  · rintro ⟨hfollow, hshort, hfree, rfl⟩
    rw [hshort, if_neg Bool.false_ne_true, hfollow]
    dsimp only [bind, Except.bind]
    split
    · next hdirectory => exact absurd hdirectory hfree
    · rfl

/-- What a successful writing does: the file is there, and nothing else changes. -/
theorem create_spec (h : (disk.create path bytes).1 = .ok ()) :
    (disk.create path bytes).2.Holds path bytes ∧
      disk.KeepsDirectories (disk.create path bytes).2 ∧
      ∀ place, place ≠ pathPlace path → disk.KeepsAt (disk.create path bytes).2 place := by
  rw [create] at h ⊢
  have hmade := disk.makeDirectories_keeps (directoryPath path)
  split at h
  · cases h
  · next made hmake =>
    rw [hmake] at hmade
    split at h
    · next written hwrite =>
      obtain ⟨hfollow, hshort, hfile, rfl⟩ := writeFile_eq_ok_iff.1 hwrite
      -- What all paths start from is a directory, so the file is somewhere else.
      have hbase : isBase (pathPlace path) = false := by
        cases hbase : isBase (pathPlace path) with
        | false => rfl
        | true => exact absurd (if_pos hbase) hfile
      have hput : ∀ place, place ≠ pathPlace path →
          made.KeepsAt (made.put (pathPlace path) (.file bytes)) place :=
        fun place hne => keepsAt_put fun hsame => absurd hsame hne
      have hkeeps : made.KeepsDirectories (made.put (pathPlace path) (.file bytes)) :=
        fun place hplace => hput place (fun hsame => hfile (hsame ▸ hplace)) _ hplace
      refine ⟨⟨hkeeps.follow_eq hfollow, ?_, hshort⟩, ?_, ?_⟩
      · rw [find?_put, hbase]
        simp
      · exact fun place hplace => hkeeps place (hmade place _ hplace)
      · exact fun place hne entry hentry => hput place hne entry (hmade place entry hentry)
    · cases h

variable {path' : String} {bytes' : List UInt8}

/-- A file stays when another is written elsewhere. -/
theorem Holds.create (h : disk.Holds path bytes) (hwritten : (disk.create path' bytes').1 = .ok ())
    (hne : pathPlace path ≠ pathPlace path') : (disk.create path' bytes').2.Holds path bytes := by
  obtain ⟨-, hkeeps, helsewhere⟩ := create_spec hwritten
  exact ⟨hkeeps.follow_eq h.follow, helsewhere _ hne _ h.find, h.short⟩

/-! ### Reading files -/

/-- Following starts at the running directory, from which the root can be reached, too. -/
theorem follow_start (path : String) (names : List String) :
    disk.follow [] ((followed path).1 ++ names) = disk.follow (followed path).1 names := by
  rw [followed]
  split
  · rw [List.singleton_append, follow]
    rfl
  · rfl

/-- **A file is read back** at a path that ends with a name. -/
theorem Holds.readBytes_eq {base part : String} (hpart : IsPathName part)
    (h : disk.Holds (joinPath base part) bytes) :
    disk.readBytes (joinPath base part) = .ok bytes := by
  obtain ⟨names, hfollowed, -⟩ := exists_followed_joinPath hpart base
  have hempty : (joinPath base part).isEmpty = false := by
    rw [String.isEmpty_eq_false_iff]
    intro hempty
    rw [hempty] at hfollowed
    have hlast := congrArg (fun found => found.2.getLast?) hfollowed
    rw [List.getLast?_concat] at hlast
    exact hpart.ne_empty (Option.some.inj hlast).symm
  have hfollow := h.follow
  rw [pathNames_eq, follow_start, hfollowed] at hfollow
  rw [readBytes, hempty, h.short, hfollowed]
  dsimp only [bind, Except.bind]
  rw [follow_of_filter hpart.leads hfollow]
  simp [h.find]

end Disk

theorem Text.decodeUtf8?_utf8Bytes (text : String) :
    decodeUtf8? (utf8Bytes text) = some text := by
  simp [decodeUtf8?, decodeLossy_utf8Bytes]

/-- A text is read back. -/
theorem Disk.Holds.readText_eq {disk : Disk} {base part text : String} (hpart : IsPathName part)
    (h : disk.Holds (joinPath base part) (Text.utf8Bytes text)) :
    disk.readText (joinPath base part) = .ok text := by
  rw [readText, h.readBytes_eq hpart]
  dsimp only [bind, Except.bind]
  rw [Text.decodeUtf8?_utf8Bytes]

/-! ### Writing into one directory -/

/-- Nothing is in the way of a file of the name `part` in the directory of the name `folder`. -/
structure Disk.Admits (disk : Disk) (folder part : String) : Prop where
  noFile : ∀ bytes, disk.find? [folder] ≠ some (.file bytes)
  noFolder : disk.find? [folder, part] ≠ some .directory

section

variable {disk : Disk} {folder part : String} (hfolder : IsPathName folder)

include hfolder

theorem pathNames_folder : pathNames folder = [folder] := by
  rw [pathNames_eq, hfolder.followed_eq, List.filter_cons_of_pos hfolder.leads]
  rfl

theorem directoryPath_joinPath (hpart : IsPathName part) :
    directoryPath (joinPath folder part) = folder := by
  have hlast : folder.toList.getLast? ≠ some '/' :=
    fun hlast => hfolder.slash (List.mem_of_getLast? hlast)
  have hjoin : (joinPath folder part).toList = folder.toList ++ '/' :: part.toList := by
    rw [joinPath, if_neg hpart.head?_ne, if_neg (by simp [hfolder.ne_empty, hlast])]
    rw [String.toList_append, String.toList_append, List.append_assoc]
    rfl
  have hnil : folder.toList ≠ [] := fun hnil => hfolder.ne_empty (String.toList_eq_nil_iff.1 hnil)
  have hdot : folder.toList ≠ ['.'] := fun hdot => hfolder.ne_dot (String.toList_inj.1 hdot)
  rw [directoryPath, hjoin, slashParts_append, slashParts_of_notMem hfolder.slash,
    slashParts_of_notMem hpart.slash]
  simp [hnil, hdot, String.ofList_toList]

namespace Disk

theorem admits_empty : Disk.empty.Admits folder part where
  noFile bytes := by
    rw [find?]
    split <;> exact nofun
  noFolder := by
    rw [find?]
    split
    · next hbase => simp [isBase, hfolder.ne_upward] at hbase
    · exact nofun

/-- The directory is there, or it is made. -/
theorem Admits.makeDirectories (h : disk.Admits folder part) (hname : isLongName folder = false) :
    ∃ made, disk.makeDirectories folder = (.ok (), made) ∧
      made.find? [folder] = some .directory ∧ made.find? [folder, part] ≠ some .directory := by
  have hlong : isLongPath folder = false := by
    rw [isLongName, decide_eq_false_iff_not, nameLimit] at hname
    rw [isLongPath, decide_eq_false_iff_not, pathLimit]
    omega
  rw [Disk.makeDirectories, hlong, pathNames_folder hfolder, completeDirectories, hname,
    hfolder.enter_eq]
  cases hentry : disk.find? [folder] with
  | none =>
    refine ⟨disk.put [folder] .directory, ?_, ?_, ?_⟩
    · simp [addDirectories, hname, hfolder.enter_eq, hentry]
    · simp [find?_put]
    · have hbase : isBase [folder, part] = false := by simp [isBase, hfolder.ne_upward]
      simp [find?_put, hbase, h.noFolder]
  | some entry =>
    cases entry with
    | directory => exact ⟨disk, by simp [completeDirectories, hentry], hentry, h.noFolder⟩
    | file bytes => exact absurd hentry (h.noFile bytes)

/-- **Writing succeeds** as long as nothing is in the way, and then nothing is in the way of
writing again. -/
theorem Admits.create (h : disk.Admits folder part) (hpart : IsPathName part)
    (hname : isLongName folder = false) (hname' : isLongName part = false)
    (hshort : isLongPath (joinPath folder part) = false) (bytes : List UInt8) :
    (disk.create (joinPath folder part) bytes).1 = .ok () ∧
      (disk.create (joinPath folder part) bytes).2.Admits folder part := by
  have hnames : pathNames (joinPath folder part) = [folder, part] := by
    rw [pathNames_joinPath hpart, pathNames_folder hfolder]
    rfl
  have hplace : pathPlace (joinPath folder part) = [folder, part] := by
    rw [pathPlace, hnames, foldl_enter (by simp [hfolder, hpart])]
    rfl
  obtain ⟨made, hmake, hhere, hfree⟩ := h.makeDirectories hfolder hname
  have hfollow : made.follow [] (pathNames (joinPath folder part)) =
      .ok (pathPlace (joinPath folder part)) := by
    rw [hnames, hplace]
    refine follow_cons.2 ⟨rfl, hname, follow_cons.2 ⟨?_, hname', ?_⟩⟩
    · rw [hfolder.enter_eq]
      exact hhere
    · rw [hfolder.enter_eq, hpart.enter_eq]
      rfl
  have hwritten : (disk.create (joinPath folder part) bytes).1 = .ok () := by
    rw [← hplace] at hfree
    rw [Disk.create, directoryPath_joinPath hfolder hpart, hmake]
    dsimp only
    rw [writeFile_eq_ok_iff.2 ⟨hfollow, hshort, hfree, rfl⟩]
  obtain ⟨hholds, -, -⟩ := create_spec hwritten
  refine ⟨hwritten, fun _ hfile => ?_, fun hdirectory => ?_⟩
  · -- The way to the file goes through the directory, so no file is in its place.
    have hthrough := hholds.follow
    rw [hnames] at hthrough
    obtain ⟨hdirectory, -⟩ := follow_cons.1 (follow_cons.1 hthrough).2.2
    rw [hfolder.enter_eq] at hdirectory
    cases hfile.symm.trans hdirectory
  · rw [← hplace, hholds.find] at hdirectory
    cases hdirectory

end Disk

end

end RequestRouter
