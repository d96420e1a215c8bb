import Mathlib.Data.List.Perm.Subperm
import RequestRouter.Proofs.Declaration.Faults
import RequestRouter.Proofs.Declaration.Layout
import RequestRouter.Proofs.Declaration.Spacing

/-!
# Where declarations stand in their text

What is read of a text carries positions: those of the names of declared types, of methods, of
parameters and of properties, and those of the at signs of marks. Each of them leads back to what it
was written for: on the line of the text with its number, and from the character with its number on,
the name or the at sign stands as a token. No two of them are the same
(`RequestRouter.SourceFile.standsIn_of_parse`).

What a declaration shows of itself are tokens (`RequestRouter.SourceFile.landmarks`), so that most
of the proof is about these: a derivation takes every landmark from a token of its own
(`RequestRouter.Derives.Shows`), and a token lies where its position says, because it is the lexeme
there and does not go on behind the line.
-/

namespace RequestRouter

/-! ### Landmarks -/

/-- The at sign of a mark. -/
def Mark.landmark (mark : Mark) : Token := ⟨"@", mark.position⟩

/-- The at signs and the name of a parameter. -/
def Param.landmarks (param : Param) : List Token :=
  param.marks.map Mark.landmark ++ [⟨param.name, param.position⟩]

/-- The at signs and the name of a method, and what its parameters show. -/
def Method.landmarks (method : Method) : List Token :=
  method.marks.map Mark.landmark ++
    ⟨method.name, method.position⟩ :: method.params.flatMap Param.landmarks

/-- The name of a property. -/
def Field.landmark (field : Field) : Token := ⟨field.name, field.position⟩

/-- The at signs and the name of a declared type, and what its members show. -/
def Element.landmarks (element : Element) : List Token :=
  element.marks.map Mark.landmark ++ ⟨element.name, element.position⟩ ::
    (element.methods.flatMap Method.landmarks ++ element.fields.map Field.landmark)

/-- What is written at the positions in a file: the name of every type, method, parameter and
property, and the at sign of every mark. -/
def SourceFile.landmarks (file : SourceFile) : List Token :=
  file.elements.flatMap Element.landmarks

/-- What a member shows. -/
def Grammar.Member.landmarks : Grammar.Member → List Token
  | .method m => m.landmarks
  | .field f => [f.landmark]

/-- A declared type shows what its members show, if in another order: methods come first. -/
theorem Grammar.Member.perm_flatMap_landmarks (members : List Grammar.Member) :
    ((members.filterMap method?).flatMap Method.landmarks ++
      (members.filterMap field?).map Field.landmark).Perm (members.flatMap landmarks) := by
  induction members with
  | nil => exact .refl _
  | cons member rest ih =>
    rw [List.filterMap_cons, List.filterMap_cons, List.flatMap_cons]
    rcases member with m | f
    · rw [method?, field?, List.flatMap_cons, List.append_assoc]
      exact ih.append_left _
    · exact List.perm_middle.trans (ih.cons _)

namespace Derives

/-- What a part shows is taken from its tokens, each from a token of its own. -/
def Shows {α : Type} (part : List Token → α → Prop) (landmarks : α → List Token) : Prop :=
  ∀ ts a, part ts a → (landmarks a).Subperm ts

section

variable {α : Type} {part : List Token → α → Prop} {landmarks : α → List Token}

theorem Shows.row (h : Shows part landmarks) : Shows (Row part) (List.flatMap landmarks) := by
  intro ts as hrow
  induction hrow with
  | nil => exact .refl _
  | cons hpart _ ih => exact (h _ _ hpart).append ih

theorem Shows.commas (h : Shows part landmarks) :
    Shows (Commas part) (List.flatMap landmarks) := by
  intro ts as hcommas
  induction hcommas with
  | single hpart =>
    rw [List.flatMap_singleton]
    exact h _ _ hpart
  | cons hpart _ _ ih => exact (h _ _ hpart).append (ih.cons_right _)

theorem Shows.closed (h : Shows part landmarks) :
    Shows (Closed part) (List.flatMap landmarks) := by
  intro ts as hclosed
  cases hclosed with
  | empty _ => exact List.nil_subperm
  | parts hcommas _ =>
    exact (h.commas _ _ hcommas).trans (List.sublist_append_left _ _).subperm
  | trailing hcommas _ _ =>
    exact (h.commas _ _ hcommas).trans (List.sublist_append_left _ _).subperm

theorem Shows.behind (h : Shows part landmarks) (text : String) :
    Shows (Behind text part) landmarks := by
  rintro ts a ⟨-, hpart⟩
  exact (h _ _ hpart).cons_right _

end

theorem Marked.shows : Shows Marked fun mark => [mark.landmark] := by
  have hsign {sign : Token} (hat : sign.text = "@") : sign = ⟨"@", sign.position⟩ := by
    rw [← hat]
  rintro ts mark (⟨hat, -⟩ | ⟨hat, -, -⟩)
  · exact List.singleton_subperm_iff.2 (hsign hat ▸ List.mem_cons_self)
  · exact List.singleton_subperm_iff.2 (hsign hat ▸ List.mem_cons_self)

theorem Row.subperm_landmarks {ts : List Token} {marks : List Mark} (h : Row Marked ts marks) :
    (marks.map Mark.landmark).Subperm ts := by
  rw [List.map_eq_flatMap]
  exact Marked.shows.row _ _ h

theorem Parameter.shows : Shows Parameter Param.landmarks := by
  rintro ts param ⟨hmarks, -, -, -, -⟩
  exact hmarks.subperm_landmarks.append (List.singleton_subperm_iff.2 List.mem_cons_self)

theorem Member.shows : Shows Member Grammar.Member.landmarks := by
  intro ts member hmember
  cases hmember with
  | method hmarks _ _ hparams _ _ =>
    have hback := Parameter.shows.closed.behind "(" _ _ hparams
    refine hmarks.subperm_landmarks.append (.cons_right _ ((List.subperm_cons _).2 ?_))
    exact hback.trans (List.sublist_append_left _ _).subperm
  | field _ _ _ _ _ _ =>
    exact List.singleton_subperm_iff.2 (List.mem_append_right _ List.mem_cons_self)

theorem Body.shows : Shows Body (List.flatMap Grammar.Member.landmarks) := by
  intro ts members hbody
  cases hbody with
  | none _ => exact List.nil_subperm
  | members _ hrow _ =>
    exact ((Member.shows.row _ _ hrow).trans (List.sublist_append_left _ _).subperm).cons_right _

theorem Declared.shows (package : String) (imports : List String) :
    Shows (Declared package imports) Element.landmarks := by
  rintro ts element ⟨hmarks, -, -, hbody⟩
  have hmembers := (Grammar.Member.perm_flatMap_landmarks _).subperm.trans (Body.shows _ _ hbody)
  exact hmarks.subperm_landmarks.append (.cons_right _ ((List.subperm_cons _).2 hmembers))

theorem File.shows : Shows File SourceFile.landmarks := by
  rintro ts file ⟨-, -, helements⟩
  rw [← List.append_assoc]
  exact ((Declared.shows _ _).row _ _ helements).trans (List.sublist_append_right _ _).subperm

end Derives

/-! ### The lines of a text -/

theorem length_splitOn (c : Char) (s : List Char) : (s.splitOn c).length = s.count c + 1 := by
  induction s with
  | nil => rw [List.splitOn_nil, List.count_nil, List.length_singleton]
  | cons d s ih =>
    rw [List.splitOn_cons_eq_if_modifyHead, List.count_cons]
    split
    · rw [List.length_cons, ih]
    · rw [List.length_modifyHead, ih]

theorem head?_splitOn (c : Char) (s : List Char) :
    (s.splitOn c).head? = some (s.takeWhile (· ≠ c)) := by
  induction s with
  | nil => rw [List.splitOn_nil, List.takeWhile_nil, List.head?_cons]
  | cons d s ih =>
    rw [List.splitOn_cons_eq_if_modifyHead]
    split
    · next hd => simp [eq_of_beq hd]
    · next hd =>
      have hne : d ≠ c := by simpa using hd
      rw [List.head?_modifyHead, ih, List.takeWhile_cons_of_pos (by simpa using hne)]
      rfl

/-- **The line of a place in a text**: behind some characters, it is the one with the number of the
line ends among them, and goes on to the next line end. -/
theorem getElem?_splitOn_append (before behind : List Char) :
    ((before ++ behind).splitOn '\n')[before.count '\n']? =
      some (before.rtakeWhile (· ≠ '\n') ++ behind.takeWhile (· ≠ '\n')) := by
  induction before using List.reverseRecOn generalizing behind with
  | nil =>
    rw [List.nil_append, List.count_nil, ← List.head?_eq_getElem?, head?_splitOn]
    rfl
  | append_singleton before c ih =>
    rw [List.append_assoc, List.singleton_append, List.count_append, List.rtakeWhile_concat]
    -- A line end starts the line that is asked for; another character only lengthens it.
    by_cases hline : c = '\n'
    · subst hline
      have hlength := length_splitOn '\n' before
      rw [List.splitOn_append_cons_self, List.getElem?_append_right (by simp [hlength]),
        hlength, List.count_singleton_self, Nat.sub_self, ← List.head?_eq_getElem?,
        head?_splitOn]
      rfl
    · rw [List.count_singleton, if_neg (by simpa using hline), Nat.add_zero, ih]
      simp [hline]

/-! ### Tokens stay on their lines -/

theorem newline_notMem_of_readToQuote {s text rest : List Char}
    (h : readToQuote s = some (text, rest)) : '\n' ∉ text := by
  fun_induction readToQuote s generalizing text with
  | case1 => cases h
  | case2 =>
    cases h
    decide
  | case3 => cases h
  | case4 c s hc ih =>
    obtain ⟨part, rfl, hpart⟩ := Cut.after_eq_some_iff.1 h
    simpa [Ne.symm hc] using ih hpart
  | case5 c s _ _ hplain ih =>
    obtain ⟨part, rfl, hpart⟩ := Cut.after_eq_some_iff.1 h
    simpa [(isPlain_iff.1 hplain).2.2.symm] using ih hpart
  | case6 => cases h

theorem newline_notMem_of_readCharacter {s text rest : List Char}
    (h : readCharacter s = some (text, rest)) : '\n' ∉ text := by
  obtain ⟨-, ⟨c, hline, rfl⟩ | ⟨c, -, -, hline, rfl⟩⟩ := readCharacter_eq_some_iff.1 h
  · simpa using Ne.symm hline
  · simpa using Ne.symm hline

/-- **No token goes on behind its line**. -/
theorem LexemeKind.newline_notMem_of_read {kind : LexemeKind} (hkind : kind.isGap = false)
    {s text rest : List Char} (h : kind.read s = some (text, rest)) : '\n' ∉ text := by
  by_cases hmarked : kind ∈ marked
  · cases kind with
    | string =>
      obtain ⟨_, part, -, rfl, hpart⟩ := readString_eq_some_iff.1 h
      simpa using newline_notMem_of_readToQuote hpart
    | character => exact newline_notMem_of_readCharacter h
    | comment => cases hkind
    | blank => cases hkind
    | _ => exact absurd hmarked (by decide)
  · -- the other kinds halt at a line end, so that more would be left than there is
    intro hmem
    obtain ⟨front, back, rfl⟩ := List.append_of_mem hmem
    obtain ⟨rfl, -⟩ := append_of_read h
    rw [List.append_assoc, List.cons_append, halts_read hmarked front _ (isParted_newline _)] at h
    obtain ⟨parts, -, hcut⟩ := Option.map_eq_some_iff.1 h
    have hlength := congrArg List.length (Prod.mk.inj hcut).2
    simp only [List.length_append, List.length_cons] at hlength
    omega

/-- The text has the token on the line with the token's line number, from the character with its
column number on. -/
def Token.StandsIn (token : Token) (text : String) : Prop :=
  0 < token.position.line ∧ 0 < token.position.column ∧
    ∃ line behind, (text.toList.splitOn '\n')[token.position.line - 1]? = some line ∧
      line.drop (token.position.column - 1) = token.text.toList ++ behind ∧
      ∃ kind : LexemeKind, kind.isGap = false ∧
        lexeme? (token.text.toList ++ behind) = some ⟨kind, token.text.toList, behind⟩

/-- A token that lies in a text stands where its position says. -/
theorem SpacedToken.Lies.standsIn {spaced : SpacedToken} {before behind : List Char} {text : String}
    (h : spaced.Lies before behind) (hne : spaced.token.text ≠ "")
    (htext : text.toList = before ++ (spaced.chars ++ behind)) : spaced.token.StandsIn text := by
  obtain ⟨kind, hkind, hlexeme⟩ := h.lexeme hne
  have hline : ∀ c ∈ spaced.token.text.toList, decide (c ≠ '\n') = true := by
    have hnewline := LexemeKind.newline_notMem_of_read hkind (read_of_lexeme? hlexeme)
    exact fun c hc => decide_eq_true (ne_of_mem_of_not_mem hc hnewline)
  -- cut off behind its line, the text has the same lexeme there
  rw [← List.takeWhile_append_dropWhile (p := (· ≠ '\n')) (l := behind)] at hlexeme
  have hcut := lexeme?_append_of_lexeme? hlexeme
  have hget := getElem?_splitOn_append (before ++ spaced.gap)
    (spaced.token.text.toList ++ behind)
  rw [List.takeWhile_append_of_pos hline, List.append_assoc before, ← List.append_assoc spaced.gap,
    ← SpacedToken.chars, ← htext] at hget
  have hrow : spaced.token.position.line = 1 + (before ++ spaced.gap).count '\n' := by
    rw [h.position, Position.after]
  have hcolumn : spaced.token.position.column =
      1 + ((before ++ spaced.gap).rtakeWhile (· ≠ '\n')).length := by
    rw [h.position, Position.after]
  rw [← Nat.add_sub_cancel_left (n := 1) (m := List.count _ _), ← hrow] at hget
  refine ⟨by omega, by omega, _, _, hget, ?_, kind, hkind, hcut⟩
  rw [hcolumn, Nat.add_sub_cancel_left, List.drop_left]

/-- **Every token stands in its text where its position says.** -/
theorem Token.standsIn_of_tokens {text : String} {ts : List Token} (h : tokens text = .ok ts)
    {token : Token} (hmem : token ∈ ts) (hne : token.text ≠ "") : token.StandsIn text := by
  have hfirst : Position.first = Position.after [] := rfl
  obtain ⟨row, rfl, htext, hlayout⟩ := exists_layout_of_tokensAt hfirst h
  obtain ⟨spaced, hspaced, rfl⟩ := List.mem_map.1 hmem
  obtain ⟨front, back, rfl⟩ := List.append_of_mem hspaced
  refine hlayout.lies.standsIn hne ?_
  rw [← htext, List.nil_append, textOf, List.flatMap_append, List.flatMap_cons]
  rfl

/-- **Positions lead back to what they were written for.** In what is read of a text, every declared
type, method, parameter and property has a position at which the text has its name as a token, and
every mark one at which the text has an at sign; and no two of these have the same position. -/
theorem SourceFile.standsIn_of_parse {text : String} {file : SourceFile}
    (h : SourceFile.parse text = .ok file) :
    (∀ token ∈ file.landmarks, token.StandsIn text) ∧
      (file.landmarks.map Token.position).Nodup ∧
      ∃ ts, tokens text = .ok ts ∧ file.landmarks ⊆ ts := by
  obtain ⟨ts, htokens, hfile⟩ := Parsed.bind_eq_ok_iff.1 h
  have hends := endsOnce_tokensAt htokens
  have hshown := Derives.File.shows _ _ (derives_of_ofTokens hends hfile)
  obtain ⟨front, last, rfl, -, hfront⟩ := hends.exists_last
  rw [List.dropLast_concat] at hshown
  have hall := hshown.trans (List.sublist_append_left front [last]).subperm
  refine ⟨fun token hmem => ?_, ?_, _, htokens, hall.subset⟩
  · exact token.standsIn_of_tokens htokens (hall.subset hmem) (hfront token (hshown.subset hmem))
  · have hpositions := (pairwise_before_of_tokensAt htokens).imp Position.Before.ne
    obtain ⟨shown, hperm, hsublist⟩ := hall
    exact (hperm.map Token.position).nodup_iff.1 (hpositions.sublist (hsublist.map Token.position))

/-- A property has the name of the type and stands in front of a method with marks. -/
theorem SourceFile.standsIn_of_parse_members :
    parse "// ü\n\t@A interface R \x7b R: T; @B fn f(@C x: R); \x7d" =
        .ok ⟨none, [], [⟨"R", "", [], ⟨2, 15⟩, .interfaceType, [⟨"A", ⟨2, 2⟩, []⟩],
          [⟨"f", ⟨2, 31⟩, [⟨"B", ⟨2, 25⟩, []⟩],
            [⟨"x", ⟨2, 36⟩, [⟨"C", ⟨2, 33⟩, []⟩], ⟨"R", [], false⟩, none⟩], none⟩],
          [⟨"R", ⟨2, 19⟩, ⟨"T", [], false⟩⟩]⟩]⟩ ∧
      ∀ token ∈ ([⟨"@", ⟨2, 2⟩⟩, ⟨"R", ⟨2, 15⟩⟩, ⟨"@", ⟨2, 25⟩⟩, ⟨"f", ⟨2, 31⟩⟩, ⟨"@", ⟨2, 33⟩⟩,
          ⟨"x", ⟨2, 36⟩⟩, ⟨"R", ⟨2, 19⟩⟩] : List Token),
        token.StandsIn "// ü\n\t@A interface R \x7b R: T; @B fn f(@C x: R); \x7d" := by
  have hfile : parse "// ü\n\t@A interface R \x7b R: T; @B fn f(@C x: R); \x7d" =
      .ok ⟨none, [], [⟨"R", "", [], ⟨2, 15⟩, .interfaceType, [⟨"A", ⟨2, 2⟩, []⟩],
        [⟨"f", ⟨2, 31⟩, [⟨"B", ⟨2, 25⟩, []⟩],
          [⟨"x", ⟨2, 36⟩, [⟨"C", ⟨2, 33⟩, []⟩], ⟨"R", [], false⟩, none⟩], none⟩],
        [⟨"R", ⟨2, 19⟩, ⟨"T", [], false⟩⟩]⟩]⟩ := by
    cbv
  exact ⟨hfile, (standsIn_of_parse hfile).1⟩

end RequestRouter
