import RequestRouter.Proofs.Declaration.Faults
import RequestRouter.Proofs.Declaration.Spacing

/-!
# Declaration files one behind the other

Two texts that can be read can be joined by the end of a line if the second has neither a package
nor imports: what is declared in the joint text is what is declared in the first and then what is
declared in the second, the latter further down and as if it stood in the file of the first
(`RequestRouter.SourceFile.parse_append_newline`).

The end of the line closes whatever the first text ends with: a token, for none goes on with it, and
a comment, for it is over then; only a run of blank characters takes it up, and may take up more of
the second text. A gap has no tokens, though, so where it ends does not matter. Below a line end the
tokens of the second text stand in the columns that they have by themselves.
-/

namespace RequestRouter

open Derives

/-! ### Tokens in front of the end of a line -/

/-- What only parts tokens can be left out, if positions are counted on. -/
theorem tokensAt_of_gap {s : List Char} {l : Lexeme} (h : lexeme? s = some l)
    (hgap : l.kind.isGap = true) (position : Position) :
    tokensAt position s = tokensAt (position.behind l.text) l.rest := by
  rw [tokensAt_of_lexeme? h]
  simp only [hgap, if_true]
  rcases tokensAt (position.behind l.text) l.rest with fault | later <;> rfl

theorem Position.behind_append (position : Position) (s t : List Char) :
    position.behind (s ++ t) = (position.behind s).behind t :=
  List.foldl_append

/-- Blank characters in front of a text part tokens, even if more of them follow. -/
theorem tokensAt_append_of_isBlank {run : List Char} (hrun : ∀ c ∈ run, Text.isBlank c = true)
    (position : Position) (s : List Char) :
    tokensAt position (run ++ s) = tokensAt (position.behind run) s := by
  induction run generalizing position with
  | nil => rfl
  | cons c run ih =>
    obtain ⟨hc, hrun⟩ := List.forall_mem_cons.1 hrun
    refine Eq.trans ?_ (ih hrun (position.next c))
    -- the character is a run by itself, or it starts the run that the others start without it
    rcases lexeme?_cons_of_isBlank hc (run ++ s) with hlexeme | ⟨part, rest, hpart, hlexeme⟩
    · exact tokensAt_of_gap hlexeme rfl position
    · rw [tokensAt_of_gap hpart rfl]
      exact tokensAt_of_gap hlexeme rfl position

/-- A gap that is read in front of a text is one if a line end is added to the text. -/
theorem tokensAt_gap_append_newline {kind : LexemeKind} (hkind : kind.isGap = true)
    {s text rest : List Char} (hread : kind.read s = some (text, rest)) (position : Position)
    (t : List Char) :
    tokensAt position (s ++ '\n' :: t) = tokensAt (position.behind text) (rest ++ '\n' :: t) := by
  obtain ⟨rfl, -⟩ := LexemeKind.append_of_read hread
  rw [List.append_assoc]
  cases kind with
  | comment =>
    obtain ⟨words, rfl, -, hwords, hrest⟩ := readComment_eq_some_iff.1 hread
    have hline : ∀ c ∈ (rest ++ '\n' :: t).head?, isOnLine c = false := by
      rcases rest with - | ⟨d, rest⟩
      · rintro c ⟨⟩
        rfl
      · exact hrest
    have hlonger : LexemeKind.comment.read ('/' :: '/' :: words ++ (rest ++ '\n' :: t)) =
        some ('/' :: '/' :: words, rest ++ '\n' :: t) :=
      readComment_eq_some_iff.2 ⟨words, rfl, rfl, hwords, hline⟩
    exact tokensAt_of_gap (lexeme?_eq_some_of_read hlonger (by decide)) rfl position
  | blank =>
    obtain ⟨-, -, hblanks, -⟩ := readRun_eq_some_iff.1 hread
    exact tokensAt_append_of_isBlank hblanks position _
  | _ => cases hkind

/-- **A line end parts the tokens of a text from those behind it**: if the text has tokens, these
stay, and those behind the line end are found as if they were looked for there. -/
theorem tokensAt_append_newline {position : Position} {s : List Char} {ts : List Token}
    (h : tokensAt position s = .ok ts) (t : List Char) :
    tokensAt position (s ++ '\n' :: t) =
      (tokensAt (position.behind (s ++ ['\n'])) t).map (ts.dropLast ++ ·) := by
  have hblank : ∀ c ∈ ['\n'], Text.isBlank c = true := List.forall_mem_singleton.2 rfl
  fun_induction tokensAt position s generalizing ts with
  | case1 position s l hl fault hlater => cases h
  | case2 position s l hl later hlater ih =>
    cases h
    obtain ⟨kind, text, rest⟩ := l
    obtain ⟨happend, -⟩ := append_of_lexeme? hl
    have hbehind : position.behind (s ++ ['\n']) =
        (position.behind text).behind (rest ++ ['\n']) := by
      rw [← happend, List.append_assoc, Position.behind_append]
    rw [hbehind]
    split
    · next hgap => rw [tokensAt_gap_append_newline hgap (read_of_lexeme? hl), ih hlater]
    · next hgap =>
      have hkind : kind.isGap = false := by simpa using hgap
      -- The line end parts the token from what is behind, so that it is found again.
      have hne : later ≠ [] := (endsOnce_tokensAt hlater).ne_nil
      rw [tokensAt_of_lexeme? (lexeme?_append_of_isParted hkind hl (isParted_newline t)), ih hlater,
        List.dropLast_cons_of_ne_nil hne]
      rcases tokensAt ((position.behind text).behind (rest ++ ['\n'])) t with fault | others
      · rfl
      · simp [Except.map, hkind]
  | case3 position s hl hempty =>
    cases h
    obtain rfl : s = [] := List.isEmpty_iff.1 hempty
    refine (tokensAt_append_of_isBlank hblank position t).trans ?_
    rw [List.nil_append]
    rcases tokensAt (position.behind ['\n']) t with fault | others <;> rfl
  | case4 position s hl hempty => cases h

/-! ### The same tokens further down -/

/-- The position further down by the given number of lines. -/
def Position.down (lines : Nat) (position : Position) : Position :=
  ⟨position.line + lines, position.column⟩

theorem Position.next_down (lines : Nat) (position : Position) (c : Char) :
    (position.down lines).next c = (position.next c).down lines := by
  rw [next, next]
  split
  · rw [down, down, Nat.add_right_comm]
  · rfl

theorem Position.behind_down (lines : Nat) (position : Position) (s : List Char) :
    (position.down lines).behind s = (position.behind s).down lines := by
  induction s generalizing position with
  | nil => rfl
  | cons c s ih =>
    change ((position.down lines).next c).behind s = _
    rw [next_down, ih]
    rfl

/-- Positions are counted from where the text starts. -/
theorem tokensAt_down (lines : Nat) (position : Position) (s : List Char) :
    tokensAt (position.down lines) s =
      Parsed.moved (Position.down lines) (List.map (Token.moved (Position.down lines)))
        (tokensAt position s) := by
  fun_induction tokensAt position s with
  | case1 position s l hl fault hlater ih =>
    rw [tokensAt_of_lexeme? hl, Position.behind_down, ih, hlater]
    rfl
  | case2 position s l hl later hlater ih =>
    rw [tokensAt_of_lexeme? hl, Position.behind_down, ih, hlater]
    simp only [Parsed.moved_ok, Except.map]
    split <;> rfl
  | case3 position s hl hempty =>
    rw [tokensAt_of_unread (lexeme?_eq_none_iff.1 hl), if_pos hempty]
    rfl
  | case4 position s hl hempty =>
    rw [tokensAt_of_unread (lexeme?_eq_none_iff.1 hl), if_neg hempty]
    rfl

/-- The line below a text. -/
theorem Position.behind_first_append_newline (s : List Char) :
    first.behind (s ++ ['\n']) = first.down (1 + s.count '\n') := by
  have hfirst : first = after [] := rfl
  rw [hfirst, behind_after, List.nil_append, after_concat, next, if_pos rfl, down, after, after,
    List.count_nil, Nat.add_zero, Nat.add_comm (1 + s.count '\n') 1]
  rfl

/-- **The tokens of two texts with a line end between them** are those of the first, without the
empty one, and those of the second, further down. -/
theorem tokens_append_newline {text other : String} {ts us : List Token}
    (h : tokens text = .ok ts) (hother : tokens other = .ok us) :
    tokens (text ++ "\n" ++ other) = .ok
      (ts.dropLast ++ us.map (Token.moved (Position.down (1 + text.toList.count '\n')))) := by
  have hlist : (text ++ "\n" ++ other).toList = text.toList ++ '\n' :: other.toList := by
    simp
  rw [tokens, hlist, tokensAt_append_newline h, Position.behind_first_append_newline,
    tokensAt_down, show tokensAt .first other.toList = .ok us from hother]
  rfl

/-! ### The same declarations in another file -/

namespace Derives

section

variable {α β : Type} {part : List Token → α → Prop}

theorem Row.append {ts us : List Token} {as bs : List α} (h : Row part ts as)
    (h' : Row part us bs) : Row part (ts ++ us) (as ++ bs) := by
  induction h with
  | nil => exact h'
  | cons ha _ ih =>
    rw [List.append_assoc]
    exact .cons ha ih

theorem Row.map {part' : List Token → β → Prop} {f : α → β}
    (hpart : ∀ ts a, part ts a → part' ts (f a)) {ts : List Token} {as : List α}
    (h : Row part ts as) : Row part' ts (as.map f) := by
  induction h with
  | nil => exact .nil
  | cons ha _ ih => exact .cons (hpart _ _ ha) ih

end

/-- A file goes on with the declarations of one without package and imports. -/
theorem File.append {ts us : List Token} {file other : SourceFile} (h : File ts file)
    (hother : File us other) (hpackage : other.package = none) (himports : other.imports = []) :
    File (ts ++ us) { file with
      elements := file.elements ++ other.elements.map fun element =>
        { element with package := file.package.getD "", imports := file.imports } } := by
  obtain ⟨hfront, huses, helements⟩ := h
  obtain ⟨hnone, hnil, hothers⟩ := hother
  obtain rfl : _ = none := hpackage
  obtain rfl : _ = [] := himports
  rcases hnone
  rcases hnil
  rw [List.append_assoc, List.append_assoc]
  refine .intro hfront huses (helements.append (hothers.map fun ts element hdeclared => ?_))
  obtain ⟨hmarks, hword, hname, hbody⟩ := hdeclared
  exact .intro hmarks hword hname hbody

end Derives

/-- **Reading declaration files one behind the other.** If two texts are read as files, and the
second has neither a package nor imports, then the first text, a line end and the second are read as
the first file with the declarations of the second behind its own. These have the package and the
imports of the first file, and all of their positions are further down by one line and as many as
the first text has line ends. -/
theorem SourceFile.parse_append_newline {text other : String} {file otherFile : SourceFile}
    (h : parse text = .ok file) (hother : parse other = .ok otherFile)
    (hpackage : otherFile.package = none) (himports : otherFile.imports = []) :
    parse (text ++ "\n" ++ other) = .ok { file with
      elements := file.elements ++ otherFile.elements.map fun element =>
        { element.moved (Position.down (1 + text.toList.count '\n')) with
          package := file.package.getD ""
          imports := file.imports } } := by
  obtain ⟨ts, htokens, hfile⟩ := Parsed.bind_eq_ok_iff.1 h
  obtain ⟨us, hothers, hotherFile⟩ := Parsed.bind_eq_ok_iff.1 hother
  have hjoint := tokens_append_newline htokens hothers
  have hends := endsOnce_tokensAt hjoint
  rw [parse, hjoint]
  generalize Position.down (1 + text.toList.count '\n') = φ at hends ⊢
  have hus : us ≠ [] := (endsOnce_tokensAt hothers).ne_nil
  have hmovedTokens : us.map (Token.moved φ) ≠ [] := by simpa using hus
  -- the second file is derived where its tokens were moved to
  have hmoved := ofTokens_moved φ hus
  rw [hotherFile, Parsed.moved_ok] at hmoved
  have hfront := derives_of_ofTokens (endsOnce_tokensAt htokens) hfile
  have hback := derives_of_ofTokens (hends.of_append hmovedTokens) hmoved
  rw [← List.dropLast_concat_getLast hmovedTokens, ← List.append_assoc] at hends ⊢
  refine (ofTokens_of_file hends (hfront.append hback hpackage ?_)).trans ?_
  · exact himports
  · rw [SourceFile.moved, List.map_map]
    rfl

/-- The first text ends with a comment, the second starts with a mark and a line end. -/
theorem SourceFile.parse_append_newline_comment :
    parse "package app;\nuse lib;\nclass A; // last" =
        .ok ⟨some "app", ["lib"], [⟨"A", "app", ["lib"], ⟨3, 7⟩, .classType, [], [], []⟩]⟩ ∧
      parse " @M(k)\nobject B \x7b x: T; \x7d" =
        .ok ⟨none, [], [⟨"B", "", [], ⟨2, 8⟩, .objectType, [⟨"M", ⟨1, 2⟩, [.path "k"]⟩], [],
          [⟨"x", ⟨2, 12⟩, ⟨"T", [], false⟩⟩]⟩]⟩ ∧
      parse ("package app;\nuse lib;\nclass A; // last" ++ "\n" ++
          " @M(k)\nobject B \x7b x: T; \x7d") =
        .ok ⟨some "app", ["lib"], [⟨"A", "app", ["lib"], ⟨3, 7⟩, .classType, [], [], []⟩,
          ⟨"B", "app", ["lib"], ⟨5, 8⟩, .objectType, [⟨"M", ⟨4, 2⟩, [.path "k"]⟩], [],
            [⟨"x", ⟨5, 12⟩, ⟨"T", [], false⟩⟩]⟩]⟩ := by
  have hfile : parse "package app;\nuse lib;\nclass A; // last" =
      .ok ⟨some "app", ["lib"], [⟨"A", "app", ["lib"], ⟨3, 7⟩, .classType, [], [], []⟩]⟩ := by
    cbv
  have hother : parse " @M(k)\nobject B \x7b x: T; \x7d" =
      .ok ⟨none, [], [⟨"B", "", [], ⟨2, 8⟩, .objectType, [⟨"M", ⟨1, 2⟩, [.path "k"]⟩], [],
        [⟨"x", ⟨2, 12⟩, ⟨"T", [], false⟩⟩]⟩]⟩ := by
    cbv
  exact ⟨hfile, hother, parse_append_newline hfile hother rfl rfl⟩

end RequestRouter
