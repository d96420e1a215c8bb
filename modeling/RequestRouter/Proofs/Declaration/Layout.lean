import Mathlib.Data.List.DropRight
import Mathlib.Data.List.Permutation
import RequestRouter.Proofs.Declaration.Readers
import RequestRouter.Proofs.Declaration.Reading

/-!
# How tokens lie in their text

Nothing of a text is lost when it is cut into tokens: it is its tokens with gaps in front of them,
and a gap is made of blank characters and of comments (`RequestRouter.IsGap`). Each token is the
lexeme that the text has at its place, and its position can be counted there: the line by the line
ends in front of it, the column by the characters behind the last of these. Main statement:
`RequestRouter.exists_layout_of_tokens`.

The reader of tokens keeps the position up to date from lexeme to lexeme, so the proof carries the
text that was read before (`RequestRouter.Layout`), from which the position is counted afresh.
-/

namespace RequestRouter

/-! ### Counting lines and columns -/

namespace Position

/-- The position behind a whole text, counted: the line by its line ends, the column by the
characters behind the last of them. -/
def after (before : List Char) : Position :=
  ⟨1 + before.count '\n', 1 + (before.rtakeWhile (· ≠ '\n')).length⟩

theorem after_concat (before : List Char) (c : Char) :
    after (before ++ [c]) = (after before).next c := by
  rw [after, List.count_append, List.rtakeWhile_concat, next, after]
  split_ifs with hnot hline
  · exact absurd hline (by simpa using hnot)
  · rw [List.count_singleton, List.length_append, List.length_singleton]
    simp [hline, Nat.add_assoc]
  · rw [List.count_singleton]
    simp_all [Nat.add_assoc]
  · simp_all

/-- **Positions are counted in the text**: going on from a counted position is counting on. -/
theorem behind_after (before text : List Char) :
    (after before).behind text = after (before ++ text) := by
  induction text generalizing before with
  | nil => rw [List.append_nil, behind, List.foldl_nil]
  | cons c rest ih =>
    show ((after before).next c).behind rest = _
    rw [← after_concat, ih, List.append_assoc, List.singleton_append]

end Position

/-! ### Gaps -/

/-- The characters only part tokens: runs of blank characters and comments. A comment goes on to the
end of its line, or to the end of the text, of which `behind` follows the gap. -/
inductive IsGap (behind : List Char) : List Char → Prop where
  /-- Nothing. -/
  | nil : IsGap behind []
  /-- Blank characters in front of a gap. -/
  | blank {run gap : List Char} (hne : run ≠ []) (hblank : ∀ c ∈ run, Text.isBlank c = true)
      (hgap : IsGap behind gap) : IsGap behind (run ++ gap)
  /-- A comment in front of a gap. -/
  | comment {words gap : List Char} (hline : '\n' ∉ words)
      (hend : (gap ++ behind).head? = none ∨ (gap ++ behind).head? = some '\n')
      (hgap : IsGap behind gap) : IsGap behind ('/' :: '/' :: words ++ gap)

/-- A line ends with the text or with a line end. -/
theorem head?_of_not_isOnLine {rest : List Char} (h : ∀ c ∈ rest.head?, isOnLine c = false) :
    rest.head? = none ∨ rest.head? = some '\n' := by
  cases hhead : rest.head? with
  | none => exact .inl rfl
  | some c =>
    have hline : c = '\n' := by simpa [isOnLine] using h c hhead
    exact .inr (congrArg some hline)

/-- What a kind of gaps reads prolongs the gap behind it. -/
theorem IsGap.of_read {kind : LexemeKind} (hkind : kind.isGap = true)
    {behind gap text s : List Char} (hread : kind.read s = some (text, gap ++ behind))
    (hgap : IsGap behind gap) : IsGap behind (text ++ gap) := by
  cases kind with
  | comment =>
    obtain ⟨words, rfl, -, hwords, hbehind⟩ := readComment_eq_some_iff.1 hread
    exact .comment (fun hmem => absurd (hwords _ hmem) (by decide)) (head?_of_not_isOnLine hbehind)
      hgap
  | blank =>
    obtain ⟨-, hne, hblank, -⟩ := readRun_eq_some_iff.1 hread
    exact .blank hne hblank hgap
  | _ => cases hkind

/-! ### Tokens with their gaps -/

/-- A token with what lies between it and the token in front. -/
structure SpacedToken where
  /-- The gap. -/
  gap : List Char
  /-- The token. -/
  token : Token

/-- The gap and the characters of the token. -/
def SpacedToken.chars (spaced : SpacedToken) : List Char :=
  spaced.gap ++ spaced.token.text.toList

/-- The text that tokens make up with their gaps. -/
def textOf (row : List SpacedToken) : List Char := row.flatMap SpacedToken.chars

theorem textOf_cons (spaced : SpacedToken) (row : List SpacedToken) :
    textOf (spaced :: row) = spaced.gap ++ (spaced.token.text.toList ++ textOf row) := by
  rw [textOf, List.flatMap_cons, SpacedToken.chars, List.append_assoc]
  rfl

/-- The token lies between two parts of a text: its gap is one, its position is counted in front of
it, and it is the lexeme that the text has there, unless it is the empty token. -/
structure SpacedToken.Lies (spaced : SpacedToken) (before behind : List Char) : Prop where
  gap : IsGap (spaced.token.text.toList ++ behind) spaced.gap
  position : spaced.token.position = Position.after (before ++ spaced.gap)
  lexeme : spaced.token.text ≠ "" → ∃ kind : LexemeKind, kind.isGap = false ∧
    lexeme? (spaced.token.text.toList ++ behind) =
      some ⟨kind, spaced.token.text.toList, behind⟩

/-- Each of the tokens lies between those in front of it, with `before` in front of all, and those
behind it. -/
def Layout (before : List Char) : List SpacedToken → Prop
  | [] => True
  | spaced :: row => spaced.Lies before (textOf row) ∧ Layout (before ++ spaced.chars) row

theorem Layout.lies {before : List Char} {front back : List SpacedToken} {spaced : SpacedToken}
    (h : Layout before (front ++ spaced :: back)) :
    spaced.Lies (before ++ textOf front) (textOf back) := by
  induction front generalizing before with
  | nil =>
    rw [textOf, List.flatMap_nil, List.append_nil]
    exact h.1
  | cons first front ih =>
    have hlies := ih h.2
    rwa [List.append_assoc] at hlies

/-- A lexeme that parts tokens belongs to the gap in front of the next one. -/
theorem SpacedToken.Lies.prolong {before behind text s : List Char} {kind : LexemeKind}
    {spaced : SpacedToken} (h : spaced.Lies (before ++ text) behind) (hkind : kind.isGap = true)
    (hread : kind.read s = some (text, spaced.chars ++ behind)) :
    SpacedToken.Lies ⟨text ++ spaced.gap, spaced.token⟩ before behind where
  gap := .of_read hkind (by rwa [chars, List.append_assoc] at hread) h.gap
  position := by rw [h.position, List.append_assoc]
  lexeme := h.lexeme

/-- The tokens of what is left of a text, if `before` was read. -/
theorem exists_layout_of_tokensAt {before s : List Char} {position : Position} {ts : List Token}
    (hposition : position = Position.after before) (h : tokensAt position s = .ok ts) :
    ∃ row : List SpacedToken, row.map SpacedToken.token = ts ∧ textOf row = s ∧
      Layout before row := by
  fun_induction tokensAt position s generalizing before ts with
  | case1 position s l hl fault hlater => cases h
  | case2 position s l hl later hlater ih =>
    cases h
    have hbehind : position.behind l.text = Position.after (before ++ l.text) := by
      rw [hposition, Position.behind_after]
    obtain ⟨row, rfl, hrest, hrow⟩ := ih hbehind hlater
    have happend := (append_of_lexeme? hl).1
    have hread := read_of_lexeme? hl
    rw [← hrest] at happend hread
    split_ifs with hgap
    · -- there is a token behind the gap, if only the empty one
      obtain ⟨token, others, hcons⟩ := List.exists_cons_of_ne_nil (endsOnce_tokensAt hlater).ne_nil
      obtain ⟨spaced, back, rfl, rfl, rfl⟩ := List.map_eq_cons_iff.1 hcons
      refine ⟨⟨l.text ++ spaced.gap, spaced.token⟩ :: back, rfl, ?_, ?_, ?_⟩
      · rw [← happend, textOf_cons, textOf_cons, List.append_assoc]
      · exact hrow.1.prolong hgap hread
      · have hback := hrow.2
        rw [List.append_assoc] at hback
        rwa [SpacedToken.chars, List.append_assoc]
    · refine ⟨⟨[], ⟨String.ofList l.text, position⟩⟩ :: row, rfl, ?_, ⟨.nil, ?_, fun _ => ?_⟩, ?_⟩
      · rw [← happend, textOf_cons, String.toList_ofList, List.nil_append]
      · rw [List.append_nil, hposition]
      · refine ⟨l.kind, by simpa using hgap, ?_⟩
        rw [String.toList_ofList, happend, hl, hrest]
      · rwa [SpacedToken.chars, String.toList_ofList, List.nil_append]
  | case3 position s hl hempty =>
    cases h
    obtain rfl : s = [] := List.isEmpty_iff.1 hempty
    refine ⟨[⟨[], ⟨"", position⟩⟩], rfl, rfl, ⟨.nil, ?_, fun hne => absurd rfl hne⟩, trivial⟩
    rw [List.append_nil, hposition]
  | case4 position s hl hempty => cases h

/-- Where only the last token is empty, the others are in front of it. -/
theorem EndsOnce.exists_last {ts : List Token} (h : EndsOnce ts) :
    ∃ front last, ts = front ++ [last] ∧ last.text = "" ∧ ∀ token ∈ front, token.text ≠ "" := by
  induction h with
  | last hempty => exact ⟨[], _, rfl, hempty, List.forall_mem_nil _⟩
  | cons hne _ ih =>
    obtain ⟨front, last, rfl, hempty, hfront⟩ := ih
    exact ⟨_ :: front, last, rfl, hempty, List.forall_mem_cons.2 ⟨hne, hfront⟩⟩

/-- **Tokens lose nothing, and their positions are exact.** A text that is cut into tokens is made
of them and of gaps in front of them. The last token is empty, the only empty one, and stands at the
end of the text. Each gap consists of blank characters and comments, each token has the position
that is counted in the text in front of it, and all but the last are the lexemes that the text has
at their places. -/
theorem exists_layout_of_tokens {text : String} {ts : List Token} (h : tokens text = .ok ts) :
    ∃ row : List SpacedToken, row.map SpacedToken.token = ts ∧ text.toList = textOf row ∧
      (∃ front last, ts = front ++ [last] ∧ last.text = "" ∧ ∀ token ∈ front, token.text ≠ "") ∧
      ∀ front spaced back, row = front ++ spaced :: back →
        IsGap (spaced.token.text.toList ++ textOf back) spaced.gap ∧
        spaced.token.position.line = 1 + (textOf front ++ spaced.gap).count '\n' ∧
        spaced.token.position.column =
          1 + ((textOf front ++ spaced.gap).rtakeWhile (· ≠ '\n')).length ∧
        (spaced.token.text ≠ "" → ∃ kind : LexemeKind, kind.isGap = false ∧
          lexeme? (spaced.token.text.toList ++ textOf back) =
            some ⟨kind, spaced.token.text.toList, textOf back⟩) := by
  have hfirst : Position.first = Position.after [] := rfl
  obtain ⟨row, htokens, htext, hlayout⟩ := exists_layout_of_tokensAt hfirst h
  refine ⟨row, htokens, htext.symm, (endsOnce_tokensAt h).exists_last, ?_⟩
  rintro front spaced back rfl
  have hlies : spaced.Lies (textOf front) (textOf back) := hlayout.lies
  refine ⟨hlies.gap, ?_, ?_, hlies.lexeme⟩
  · rw [hlies.position, Position.after]
  · rw [hlies.position, Position.after]

/-- A comment with a character of two bytes, a wide space, and a comment that ends the text. -/
theorem exists_layout_of_tokens_commented :
    tokens "// ü\n\u3000@M(\"é\") class C; // end" =
        .ok [⟨"@", ⟨2, 2⟩⟩, ⟨"M", ⟨2, 3⟩⟩, ⟨"(", ⟨2, 4⟩⟩, ⟨"\"é\"", ⟨2, 5⟩⟩, ⟨")", ⟨2, 8⟩⟩,
          ⟨"class", ⟨2, 10⟩⟩, ⟨"C", ⟨2, 16⟩⟩, ⟨";", ⟨2, 17⟩⟩, ⟨"", ⟨2, 25⟩⟩] ∧
      ∃ row : List SpacedToken, (row.map SpacedToken.token).length = 9 ∧
        "// ü\n\u3000@M(\"é\") class C; // end".toList = textOf row ∧
        ∀ front spaced back, row = front ++ spaced :: back →
          IsGap (spaced.token.text.toList ++ textOf back) spaced.gap ∧
          spaced.token.position.line = 1 + (textOf front ++ spaced.gap).count '\n' := by
  have htokens : tokens "// ü\n\u3000@M(\"é\") class C; // end" =
      .ok [⟨"@", ⟨2, 2⟩⟩, ⟨"M", ⟨2, 3⟩⟩, ⟨"(", ⟨2, 4⟩⟩, ⟨"\"é\"", ⟨2, 5⟩⟩, ⟨")", ⟨2, 8⟩⟩,
        ⟨"class", ⟨2, 10⟩⟩, ⟨"C", ⟨2, 16⟩⟩, ⟨";", ⟨2, 17⟩⟩, ⟨"", ⟨2, 25⟩⟩] := by
    cbv
  obtain ⟨row, hrow, htext, -, hlies⟩ := exists_layout_of_tokens htokens
  refine ⟨htokens, row, by rw [hrow]; rfl, htext, fun front spaced back hsplit => ?_⟩
  obtain ⟨hgap, hline, -, -⟩ := hlies front spaced back hsplit
  exact ⟨hgap, hline⟩

end RequestRouter
