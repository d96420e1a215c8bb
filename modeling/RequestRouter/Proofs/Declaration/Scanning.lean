import RequestRouter.Proofs.Declaration.Layout
import RequestRouter.Proofs.Declaration.Truncation
import RequestRouter.Proofs.Text.Quoted

/-!
# Texts that cannot be read

A text is refused exactly if it cannot be scanned to its end: if the lexemes that are found one
behind the other, each of the first kind that reads something at its place, lead to a place inside
the text at which no kind reads anything (`RequestRouter.Stuck`). The fault stands there and quotes
what lies in front of the next place at which some kind reads something; and everything in front of
it is a text that can be read, of the tokens found so far. Main statement:
`RequestRouter.tokens_error_iff_stuck`.

The last part is where the text is cut off: a lexeme does not look further behind itself than one
character, so the scan of the front is the scan of the text.

Faults can also be found without looking whether a lexeme starts at a place: the next lexeme is
searched, wherever it is, and a fault shows by what was skipped in front of it. This comes to the
same (`RequestRouter.searchTokens_eq_tokensAt`).
-/

namespace RequestRouter

/-! ### Scans -/

/-- A lexeme without the text behind it. -/
structure BareLexeme where
  /-- The kind. -/
  kind : LexemeKind
  /-- The characters. -/
  text : List Char

/-- The characters of the lexemes. -/
def BareLexeme.chars (lexemes : List BareLexeme) : List Char := lexemes.flatMap BareLexeme.text

theorem BareLexeme.chars_cons (bare : BareLexeme) (lexemes : List BareLexeme) :
    chars (bare :: lexemes) = bare.text ++ chars lexemes := List.flatMap_cons

/-- The text starts with the lexemes, one behind the other, and `rest` is left: each is what the
first kind that reads anything at its place reads there. -/
inductive LexesTo : List Char → List BareLexeme → List Char → Prop where
  /-- Nothing is read. -/
  | done (s : List Char) : LexesTo s [] s
  /-- A lexeme is read in front of others. -/
  | step {kind : LexemeKind} {s text behind rest : List Char} {lexemes : List BareLexeme}
      (hearlier : ∀ other ∈ kind.earlier, other.read s = none)
      (hread : kind.read s = some (text, behind)) (hlexes : LexesTo behind lexemes rest) :
      LexesTo s (⟨kind, text⟩ :: lexemes) rest

/-- No kind of lexemes reads anything in front of the text. -/
def Unread (s : List Char) : Prop := ∀ kind : LexemeKind, kind.read s = none

/-- The scan of the text comes to `rest`, which is not the end, and cannot go on there. -/
structure Stuck (s : List Char) (lexemes : List BareLexeme) (rest : List Char) : Prop where
  lexes : LexesTo s lexemes rest
  ne_nil : rest ≠ []
  unread : Unread rest

/-- The tokens among lexemes that are found behind `before`. -/
def tokensAmong (before : List Char) : List BareLexeme → List Token
  | [] => []
  | bare :: lexemes =>
    let later := tokensAmong (before ++ bare.text) lexemes
    if bare.kind.isGap then later
    else ⟨String.ofList bare.text, Position.after before⟩ :: later

theorem lexeme?_nil : lexeme? [] = none :=
  lexeme?_eq_none_iff.2 fun kind => by cases kind <;> rfl

/-- Nothing gets lost in a scan. -/
theorem LexesTo.append {s rest : List Char} {lexemes : List BareLexeme}
    (h : LexesTo s lexemes rest) : BareLexeme.chars lexemes ++ rest = s := by
  induction h with
  | done s => rfl
  | step _ hread _ ih =>
    rw [← (LexemeKind.append_of_read hread).1, ← ih, BareLexeme.chars_cons, List.append_assoc]

/-- **A scan of a text is one of the text cut off behind it.** -/
theorem LexesTo.cut {s rest behind : List Char} {lexemes : List BareLexeme}
    (h : LexesTo s lexemes (rest ++ behind)) :
    LexesTo (BareLexeme.chars lexemes ++ rest) lexemes rest := by
  generalize hleft : rest ++ behind = left at h
  induction h with
  | done s => exact .done rest
  | step hearlier hread hlexes ih =>
    subst hleft
    have hcut := ih rfl
    have hlexeme := lexeme?_eq_some_iff.2 ⟨hearlier, hread⟩
    rw [← hlexes.append, ← List.append_assoc] at hlexeme
    obtain ⟨hearlier', hread'⟩ := lexeme?_eq_some_iff.1 (lexeme?_append_of_lexeme? hlexeme)
    rw [BareLexeme.chars_cons, List.append_assoc]
    exact .step hearlier' hread' hcut

/-- Every text can be scanned up to a place where nothing can be read. -/
theorem exists_lexesTo_unread (s : List Char) :
    ∃ lexemes rest, LexesTo s lexemes rest ∧ Unread rest := by
  cases h : lexeme? s with
  | none => exact ⟨[], s, .done s, lexeme?_eq_none_iff.1 h⟩
  | some l =>
    have hshorter := length_rest_lt h
    obtain ⟨lexemes, rest, hlexes, hunread⟩ := exists_lexesTo_unread l.rest
    obtain ⟨hearlier, hread⟩ := lexeme?_eq_some_iff.1 h
    exact ⟨⟨l.kind, l.text⟩ :: lexemes, rest, .step hearlier hread hlexes, hunread⟩
termination_by s.length

/-! ### Tokens of a scan -/

theorem tokensAt_of_lexeme? {s : List Char} {l : Lexeme} (h : lexeme? s = some l)
    (position : Position) :
    tokensAt position s = (tokensAt (position.behind l.text) l.rest).map fun later =>
      if l.kind.isGap then later else ⟨String.ofList l.text, position⟩ :: later := by
  rw [tokensAt]
  split
  · next l' hl =>
    obtain rfl : l = l' := Option.some.inj (h.symm.trans hl)
    cases tokensAt (position.behind l.text) l.rest <;> rfl
  · next hnone =>
    rw [h] at hnone
    cases hnone

theorem tokensAt_of_unread {s : List Char} (h : Unread s) (position : Position) :
    tokensAt position s =
      if s.isEmpty then .ok [⟨"", position⟩]
      else .error ⟨.unreadable (String.ofList (unreadable s)), position⟩ := by
  rw [tokensAt]
  split
  · next l hl =>
    rw [lexeme?_eq_none_iff.2 h] at hl
    cases hl
  · rfl

/-- The tokens of a text are those that a scan finds, and those of what it leaves. -/
theorem tokensAt_of_lexesTo (before : List Char) {s rest : List Char} {lexemes : List BareLexeme}
    (h : LexesTo s lexemes rest) :
    tokensAt (Position.after before) s =
      (tokensAt (Position.after (before ++ BareLexeme.chars lexemes)) rest).map
        (tokensAmong before lexemes ++ ·) := by
  induction h generalizing before with
  | done s =>
    rw [BareLexeme.chars, List.flatMap_nil, List.append_nil]
    cases tokensAt (Position.after before) s <;> rfl
  | @step kind s text behind rest lexemes hearlier hread hlexes ih =>
    rw [tokensAt_of_lexeme? (lexeme?_eq_some_iff.2 ⟨hearlier, hread⟩), Position.behind_after, ih,
      BareLexeme.chars_cons, ← List.append_assoc]
    cases tokensAt (Position.after (before ++ text ++ BareLexeme.chars lexemes)) rest with
    | error fault => rfl
    | ok later =>
      simp only [Except.map, tokensAmong]
      split_ifs <;> rfl

/-- What cannot be read goes on to the next place at which something can. -/
theorem exists_append_unreadable {s : List Char} (h : Unread s) :
    ∃ behind, s = unreadable s ++ behind ∧
      (∀ front back, unreadable s = front ++ back → back ≠ [] → Unread (back ++ behind)) ∧
      (behind = [] ∨ ¬Unread behind) := by
  fun_induction unreadable s with
  | case1 => exact ⟨[], rfl, fun front back hback hne => by simp_all, .inl rfl⟩
  | case2 c rest hsome =>
    refine ⟨rest, rfl, fun front back hback hne => ?_, .inr fun hrest => ?_⟩
    · obtain ⟨-, rfl⟩ : front = [] ∧ back = [c] :=
        (List.singleton_eq_append_iff.1 hback).resolve_right fun hempty => hne hempty.2
      exact h
    · rw [lexeme?_eq_none_iff.2 hrest] at hsome
      cases hsome
  | case3 c rest hnone ih =>
    have hrest : Unread rest := lexeme?_eq_none_iff.1 (by simpa using hnone)
    obtain ⟨behind, happend, hinside, hbehind⟩ := ih hrest
    refine ⟨behind, congrArg (c :: ·) happend, fun front back hback hne => ?_, hbehind⟩
    rcases List.cons_eq_append_iff.1 hback with ⟨-, rfl⟩ | ⟨front', -, hfront'⟩
    · -- What starts with the first character is the whole text.
      rw [List.cons_append, ← happend]
      exact h
    · exact hinside front' back hfront' hne

theorem unreadable_ne_nil {s : List Char} (hne : s ≠ []) : unreadable s ≠ [] := by
  fun_cases unreadable s with
  | case1 => exact absurd rfl hne
  | case2 => exact List.cons_ne_nil _ _
  | case3 => exact List.cons_ne_nil _ _

/-! ### Refused texts -/

theorem tokens_of_lexesTo {text : String} {rest : List Char} {lexemes : List BareLexeme}
    (h : LexesTo text.toList lexemes rest) :
    tokens text = (tokensAt (Position.after (BareLexeme.chars lexemes)) rest).map
      (tokensAmong [] lexemes ++ ·) :=
  tokensAt_of_lexesTo [] h

/-- The tokens of a text that can be scanned to its end. -/
theorem tokens_of_lexesTo_nil {text : String} {lexemes : List BareLexeme}
    (h : LexesTo text.toList lexemes []) :
    tokens text = .ok (tokensAmong [] lexemes ++ [⟨"", Position.after text.toList⟩]) := by
  rw [tokens_of_lexesTo h, tokensAt_of_unread (lexeme?_eq_none_iff.1 lexeme?_nil), ← h.append,
    List.append_nil]
  rfl

/-- The fault of a text whose scan gets stuck. -/
theorem Stuck.tokens_eq_error {text : String} {rest : List Char} {lexemes : List BareLexeme}
    (h : Stuck text.toList lexemes rest) :
    tokens text = .error
      ⟨.unreadable (String.ofList (unreadable rest)),
        Position.after (BareLexeme.chars lexemes)⟩ := by
  rw [tokens_of_lexesTo h.lexes, tokensAt_of_unread h.unread, if_neg (by simpa using h.ne_nil)]
  rfl

/-- A text that has tokens is scanned to its end, and the tokens are those that the scan found. -/
theorem exists_lexesTo_of_tokens {text : String} {ts : List Token} (h : tokens text = .ok ts) :
    ∃ lexemes, LexesTo text.toList lexemes [] ∧
      ts = tokensAmong [] lexemes ++ [⟨"", Position.after text.toList⟩] := by
  obtain ⟨lexemes, rest, hlexes, hunread⟩ := exists_lexesTo_unread text.toList
  by_cases hrest : rest = []
  · subst hrest
    rw [tokens_of_lexesTo_nil hlexes] at h
    exact ⟨lexemes, hlexes, (Except.ok.inj h).symm⟩
  · rw [Stuck.tokens_eq_error ⟨hlexes, hrest, hunread⟩] at h
    cases h

/-- **A text is refused exactly if its scan gets stuck.** -/
theorem exists_tokens_eq_error_iff {text : String} :
    (∃ fault, tokens text = .error fault) ↔
      ∃ lexemes rest, Stuck text.toList lexemes rest := by
  constructor
  · rintro ⟨fault, hfault⟩
    obtain ⟨lexemes, rest, hlexes, hunread⟩ := exists_lexesTo_unread text.toList
    refine ⟨lexemes, rest, hlexes, ?_, hunread⟩
    rintro rfl
    rw [tokens_of_lexesTo_nil hlexes] at hfault
    cases hfault
  · rintro ⟨lexemes, rest, hstuck⟩
    exact ⟨_, hstuck.tokens_eq_error⟩

/-- **What a refused text is told.** A text is refused exactly if its scan gets stuck in front
of the end. The fault has the position of that place, counted in the text in front of it, and quotes
the text from there on to the next place at which some kind of lexemes reads something, or to the
end; and the text in front of that place is read, as the tokens that the scan found. -/
theorem tokens_error_iff_stuck (text : String) :
    ((∃ fault, tokens text = .error fault) ↔ ∃ lexemes rest, Stuck text.toList lexemes rest) ∧
    ∀ lexemes rest, Stuck text.toList lexemes rest →
      ∃ before quoted behind, text.toList = before ++ (quoted ++ behind) ∧
        before = BareLexeme.chars lexemes ∧ rest = quoted ++ behind ∧ quoted ≠ [] ∧
        (∀ front back, quoted = front ++ back → back ≠ [] → Unread (back ++ behind)) ∧
        (behind = [] ∨ ¬Unread behind) ∧
        (∃ fault line column shown, tokens text = .error fault ∧ fault.position = ⟨line, column⟩ ∧
          line = 1 + before.count '\n' ∧
          column = 1 + (before.rtakeWhile (· ≠ '\n')).length ∧
          fault.message =
            s!"Parse error at line {line}, column {column}: " ++ ("Syntax error: " ++ shown) ∧
          Text.Quotes shown (String.ofList quoted)) ∧
        tokens (String.ofList before) =
          .ok (tokensAmong [] lexemes ++ [⟨"", Position.after before⟩]) := by
  refine ⟨exists_tokens_eq_error_iff, fun lexemes rest hstuck => ?_⟩
  obtain ⟨behind, hrest, hinside, hbehind⟩ := exists_append_unreadable hstuck.unread
  refine ⟨BareLexeme.chars lexemes, unreadable rest, behind, ?_, rfl, hrest,
    unreadable_ne_nil hstuck.ne_nil, hinside, hbehind,
    ⟨_, _, _, _, hstuck.tokens_eq_error, rfl, rfl, rfl, rfl, Text.quotes_quote _⟩, ?_⟩
  · rw [← hrest, hstuck.lexes.append]
  · -- The lexemes in front of the place are found again if the text ends there.
    have hlexes : LexesTo text.toList lexemes ([] ++ rest) := hstuck.lexes
    have hfront : LexesTo (String.ofList (BareLexeme.chars lexemes)).toList lexemes [] := by
      rw [String.toList_ofList, ← List.append_nil (BareLexeme.chars lexemes)]
      exact hlexes.cut
    rw [tokens_of_lexesTo_nil hfront, String.toList_ofList]

/-- A quote that opens no literal, behind a comment: the name behind it could be read again. -/
theorem tokens_error_iff_stuck_quote :
    (∃ fault, tokens "a // b\n\"cd -" = .error fault ∧
      fault.message = "Parse error at line 2, column 1: Syntax error: \"\\\"\"") ∧
    ∃ lexemes rest, Stuck "a // b\n\"cd -".toList lexemes rest ∧
      tokens (String.ofList (BareLexeme.chars lexemes)) =
        .ok (tokensAmong [] lexemes ++ [⟨"", Position.after (BareLexeme.chars lexemes)⟩]) := by
  have hstuck : Stuck "a // b\n\"cd -".toList
      [⟨.identifier, ['a']⟩, ⟨.blank, [' ']⟩, ⟨.comment, "// b".toList⟩, ⟨.blank, ['\n']⟩]
      "\"cd -".toList :=
    { lexes := .step (by decide) rfl (.step (by decide) rfl (.step (by decide) rfl
        (.step (by decide) rfl (.done _))))
      ne_nil := by decide
      unread := lexeme?_eq_none_iff.1 rfl }
  have hfault : tokens "a // b\n\"cd -" = .error ⟨.unreadable "\"", ⟨2, 1⟩⟩ := by
    cbv
  obtain ⟨-, htold⟩ := tokens_error_iff_stuck "a // b\n\"cd -"
  obtain ⟨before, quoted, behind, -, rfl, -, -, -, -, -, hfront⟩ := htold _ _ hstuck
  exact ⟨⟨_, hfault, rfl⟩, _, _, hstuck, hfront⟩

/-! ### Searching lexemes -/

/-- The first place in the text at which a lexeme is found: the text in front of it and the
lexeme. -/
def search : List Char → Option (List Char × Lexeme)
  | [] => none
  | c :: rest =>
    match lexeme? (c :: rest) with
    | some l => some ([], l)
    | none => (search rest).map fun found => (c :: found.1, found.2)

theorem length_search {s skipped : List Char} {l : Lexeme} (h : search s = some (skipped, l)) :
    l.rest.length < s.length := by
  fun_induction search s generalizing skipped l with
  | case1 => cases h
  | case2 c rest l' hl =>
    cases h
    exact length_rest_lt hl
  | case3 c rest hnone ih =>
    obtain ⟨⟨skipped', l'⟩, hfound, hpair⟩ := Option.map_eq_some_iff.1 h
    cases hpair
    exact Nat.lt_succ_of_lt (ih hfound)

/-- The tokens of a text that starts at `position`, if lexemes are searched from there on and what
was skipped in front of one shows that the text cannot be read. -/
def searchTokens (position : Position) (s : List Char) : Except ParseFault (List Token) :=
  match _h : search s with
  | none =>
    if s.isEmpty then .ok [⟨"", position⟩]
    else .error ⟨.unreadable (String.ofList s), position⟩
  | some (skipped, l) =>
    if skipped.isEmpty then
      (searchTokens (position.behind l.text) l.rest).map fun later =>
        if l.kind.isGap then later else ⟨String.ofList l.text, position⟩ :: later
    else .error ⟨.unreadable (String.ofList skipped), position⟩
termination_by s.length
decreasing_by exact length_search _h

theorem search_of_lexeme? {s : List Char} {l : Lexeme} (h : lexeme? s = some l) :
    search s = some ([], l) := by
  cases s with
  | nil =>
    rw [lexeme?_nil] at h
    cases h
  | cons c rest => rw [search, h]

/-- Where no lexeme starts, the search skips what cannot be read. -/
theorem search_of_unread {s : List Char} (h : Unread s) :
    (search s = none ∧ unreadable s = s) ∨ ∃ l, search s = some (unreadable s, l) := by
  induction s with
  | nil => exact .inl ⟨rfl, rfl⟩
  | cons c rest ih =>
    rw [search, lexeme?_eq_none_iff.2 h, unreadable]
    cases hrest : lexeme? rest with
    | some l => exact .inr ⟨l, by rw [search_of_lexeme? hrest]; rfl⟩
    | none =>
      rcases ih (lexeme?_eq_none_iff.1 hrest) with ⟨hsearch, hskipped⟩ | ⟨l, hsearch⟩
      · exact .inl ⟨by rw [hsearch]; rfl, congrArg (c :: ·) hskipped⟩
      · exact .inr ⟨l, by rw [hsearch]; rfl⟩

/-- **Searching lexemes is scanning the text**: the tokens are the same, and so are the faults. -/
theorem searchTokens_eq_tokensAt (position : Position) (s : List Char) :
    searchTokens position s = tokensAt position s := by
  cases h : lexeme? s with
  | some l =>
    have hshorter := length_rest_lt h
    rw [searchTokens, tokensAt_of_lexeme? h, ← searchTokens_eq_tokensAt]
    split
    · next hsearch =>
      rw [search_of_lexeme? h] at hsearch
      cases hsearch
    · next hsearch =>
      rw [search_of_lexeme? h] at hsearch
      cases hsearch
      rfl
  | none =>
    have hunread : Unread s := lexeme?_eq_none_iff.1 h
    rw [searchTokens, tokensAt_of_unread hunread]
    -- What the search skips is what the scan finds unreadable.
    rcases search_of_unread hunread with ⟨hsearch, hskipped⟩ | ⟨l, hsearch⟩
    · split
      · rw [hskipped]
      · next hfound =>
        rw [hsearch] at hfound
        cases hfound
    · have hne : s ≠ [] := by
        rintro rfl
        cases hsearch
      split
      · next hfound =>
        rw [hsearch] at hfound
        cases hfound
      · next hfound =>
        rw [hsearch] at hfound
        cases hfound
        rw [if_neg (by simpa using unreadable_ne_nil hne), if_neg (by simpa using hne)]
termination_by s.length

end RequestRouter
