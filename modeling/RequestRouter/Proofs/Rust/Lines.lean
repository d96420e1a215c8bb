import RequestRouter.Proofs.Rust.Scanner

/-!
# Lines of source

Generated source is put together from many texts, so what it is made of has to be told from what
they are made of. A text has the same pieces wherever it stands if it starts and ends between two
pieces (`RequestRouter.Rust.Scans`); if it ends in a word, a word must not go on behind it
(`RequestRouter.Rust.ScansBefore`). Texts of the first sort can be joined at will, and one of the
second sort takes any text behind it that words end in front of.

Most texts are fixed, and reading them is a computation (`RequestRouter.Rust.scans_of_run`). Lines
each end where no word goes on, so `RequestRouter.Rust.Writes`, which is about lists of lines, has
one rule for joining them.
-/

namespace RequestRouter

namespace Rust

/-! ### Fixed texts -/

/-- What reading `s` ends, and what is in the middle then. -/
def run : Mode → List Char → Option (List Piece × Mode)
  | mode, [] => some ([], mode)
  | mode, c :: rest =>
    match step mode c with
    | some (pieces, next) => (run next rest).map fun (more, last) => (pieces ++ more, last)
    | none => none

variable {rest : List Char} {mode next : Mode} {pieces others : List Piece}

theorem map_append_map {found : Option (List Piece)} :
    (found.map (others ++ ·)).map (pieces ++ ·) = found.map (pieces ++ others ++ ·) := by
  rw [Option.map_map]
  exact congrArg (Option.map · _) (funext fun _ => (List.append_assoc ..).symm)

theorem scan_append_of_run {s : List Char} (h : run mode s = some (pieces, next)) :
    scan mode (s ++ rest) = (scan next rest).map (pieces ++ ·) := by
  induction s generalizing mode pieces with
  | nil =>
    cases h
    exact Option.map_id'.symm
  | cons c s ih =>
    rw [run] at h
    split at h
    · next front middle hstep =>
      obtain ⟨⟨more, last⟩, hrun, heq⟩ := Option.map_eq_some_iff.1 h
      cases heq
      rw [List.cons_append, scan_cons_of_step hstep, ih hrun, map_append_map]
    · cases h

/-! ### Parts of a text -/

/-- `text` is made of the given pieces, whatever stands behind it. -/
def Scans (text : String) (pieces : List Piece) : Prop :=
  ∀ rest, scan .between (text.toList ++ rest) = (scan .between rest).map (pieces ++ ·)

/-- `text` is made of the given pieces, where no word goes on behind it. -/
def ScansBefore (text : String) (pieces : List Piece) : Prop :=
  ∀ rest, Stops rest →
    scan .between (text.toList ++ rest) = (scan .between rest).map (pieces ++ ·)

/-- Words end in front of `text`. -/
def startsOff (text : String) : Bool := text.toList.head?.any endsWord

variable {text other : String}

theorem scans_of_run (h : run .between text.toList = some (pieces, .between)) :
    Scans text pieces :=
  fun _ => scan_append_of_run h

theorem scansBefore_of_run {name : String}
    (h : run .between text.toList = some (pieces, .word name.toList)) :
    ScansBefore text (pieces ++ [.word name]) := by
  intro rest hrest
  rw [scan_append_of_run h, scan_word_of_stops hrest, String.ofList_toList, Option.map_map]
  simp [Function.comp_def]

theorem scans_empty : Scans "" [] := scans_of_run rfl

theorem scans_comma : Scans ", " [.symbol ','] := scans_of_run rfl

theorem scans_semicolon : Scans ";" [.symbol ';'] := scans_of_run rfl

theorem scans_openBrace : Scans " \x7b" [.symbol '\x7b'] := scans_of_run rfl

theorem scans_literal (s : String) : Scans (Text.stringLiteral s) [.text s] :=
  fun _ => scan_literal

theorem scansBefore_word {name : String} (h : isIdentifier name = true) :
    ScansBefore name [.word name] :=
  fun _ hrest => scan_word h hrest

theorem Scans.of_eq (h : Scans text pieces) (heq : pieces = others) : Scans text others := heq ▸ h

theorem Scans.before (h : Scans text pieces) : ScansBefore text pieces := fun rest _ => h rest

/-- The pieces of a text with nothing behind it. -/
theorem ScansBefore.lex_eq (h : ScansBefore text pieces) : lex text = some pieces := by
  have hnil := h [] trivial
  rw [List.append_nil] at hnil
  rw [lex, hnil]
  simp [scan, Mode.atEnd]

theorem Scans.append (h : Scans text pieces) (h' : Scans other others) :
    Scans (text ++ other) (pieces ++ others) := by
  intro rest
  rw [String.toList_append, List.append_assoc, h, h', map_append_map]

theorem Scans.appendBefore (h : Scans text pieces) (h' : ScansBefore other others) :
    ScansBefore (text ++ other) (pieces ++ others) := by
  intro rest hrest
  rw [String.toList_append, List.append_assoc, h, h' rest hrest, map_append_map]

theorem stops_append_of_startsOff (h : startsOff text = true) : Stops (text.toList ++ rest) := by
  rw [startsOff] at h
  cases htext : text.toList with
  | nil =>
    rw [htext] at h
    cases h
  | cons c front =>
    rw [htext] at h
    exact h

theorem ScansBefore.append (h : ScansBefore text pieces) (h' : Scans other others)
    (hother : startsOff other = true) : Scans (text ++ other) (pieces ++ others) := by
  intro rest
  rw [String.toList_append, List.append_assoc, h _ (stops_append_of_startsOff hother), h',
    map_append_map]

/-! ### Lines -/

/-- Lines, each with the end of the line behind it. -/
def unlines : List String → String
  | [] => ""
  | line :: rest => line ++ "\n" ++ unlines rest

variable {lines more : List String} {line : String}

theorem unlines_append : unlines (lines ++ more) = unlines lines ++ unlines more := by
  induction lines with
  | nil => rw [List.nil_append, unlines, String.empty_append]
  | cons line lines ih =>
    rw [List.cons_append, unlines, unlines, ih]
    simp only [String.append_assoc]

/-- Lines of which the last is empty, with ends of lines between them. -/
theorem intercalate_newline : "\n".intercalate (lines ++ [""]) = unlines lines := by
  induction lines with
  | nil => rfl
  | cons line lines ih =>
    -- The rest is never empty, since the empty line is there.
    have hcons : "\n".intercalate (line :: (lines ++ [""])) =
        line ++ "\n" ++ "\n".intercalate (lines ++ [""]) := by
      cases lines with
      | nil => rfl
      | cons next lines => exact String.intercalate_cons_cons
    rw [List.cons_append, hcons, ih, unlines]

/-- The lines are made of the given pieces. -/
def Writes (lines : List String) (pieces : List Piece) : Prop := Scans (unlines lines) pieces

theorem writes_nil : Writes [] [] := scans_empty

theorem writes_of_scans (h : Scans (line ++ "\n") pieces) : Writes [line] pieces := by
  rw [Writes, unlines, unlines, String.append_empty]
  exact h

theorem ScansBefore.writes (h : ScansBefore line pieces) : Writes [line] pieces := by
  have hnewline : Scans "\n" [] := scans_of_run rfl
  exact writes_of_scans ((h.append hnewline rfl).of_eq (List.append_nil _))

theorem Scans.writes (h : Scans line pieces) : Writes [line] pieces := h.before.writes

theorem Writes.of_eq (h : Writes lines pieces) (heq : pieces = others) : Writes lines others :=
  heq ▸ h

theorem Writes.append (h : Writes lines pieces) (h' : Writes more others) :
    Writes (lines ++ more) (pieces ++ others) := by
  rw [Writes, unlines_append]
  exact Scans.append h h'

theorem writes_flatMap {α : Type} {l : List α} {f : α → List String} {g : α → List Piece}
    (h : ∀ a ∈ l, Writes (f a) (g a)) : Writes (l.flatMap f) (l.flatMap g) := by
  induction l with
  | nil => exact writes_nil
  | cons a l ih =>
    rw [List.flatMap_cons, List.flatMap_cons]
    exact (h a (List.mem_cons_self ..)).append (ih fun b hb => h b (List.mem_cons_of_mem _ hb))

theorem Writes.lex_unlines_eq (h : Writes lines pieces) : lex (unlines lines) = some pieces :=
  (Scans.before h).lex_eq

/-- The pieces of a text whose last line is empty. -/
theorem Writes.lex_eq (h : Writes lines pieces) :
    lex ("\n".intercalate (lines ++ [""])) = some pieces := by
  rw [intercalate_newline, h.lex_unlines_eq]

end Rust

end RequestRouter
