import Mathlib.Data.List.TakeWhile
import RequestRouter.Declaration.Lexeme

/-!
# What readers take

Each reader of lexemes is described by what it takes and by what may not follow that: a run by the
characters it is made of, a comment by the end of its line, a number by its sign, its digits and
what comes behind its point. The lexeme in front of a text is what a kind reads there of which all
kinds that are tried before read nothing (`RequestRouter.lexeme?_eq_some_iff`).
-/

namespace RequestRouter

/-! ### Runs and words -/

namespace Cut

variable {cut : Cut} {front text rest : List Char}

theorem after_eq_some_iff :
    cut.after front = some (text, rest) ↔
      ∃ part, text = front ++ part ∧ cut = some (part, rest) := by
  rw [after, Option.map_eq_some_iff]
  constructor
  · rintro ⟨⟨part, _⟩, hcut, hpair⟩
    obtain ⟨rfl, rfl⟩ := Prod.mk.inj hpair
    exact ⟨part, rfl, hcut⟩
  · rintro ⟨part, rfl, hcut⟩
    exact ⟨(part, rest), hcut, rfl⟩

end Cut

section

variable {p : Char → Bool} {s text rest behind : List Char}

/-- **Runs are as long as can be**: the character behind a run is not one of those it is made of. -/
theorem takeWhile_dropWhile_eq_iff :
    s.takeWhile p = text ∧ s.dropWhile p = rest ↔
      s = text ++ rest ∧ (∀ c ∈ text, p c = true) ∧ ∀ c ∈ rest.head?, p c = false := by
  constructor
  · rintro ⟨rfl, rfl⟩
    refine ⟨List.takeWhile_append_dropWhile.symm, fun c hc => List.mem_takeWhile_imp hc,
      fun c hc => ?_⟩
    have hnot := List.head?_dropWhile_not p s
    rw [Option.mem_def.1 hc] at hnot
    simpa using hnot
  · rintro ⟨rfl, htext, hrest⟩
    obtain ⟨htake, hdrop⟩ : rest.takeWhile p = [] ∧ rest.dropWhile p = rest := by
      cases rest with
      | nil => exact ⟨rfl, rfl⟩
      | cons c rest => simp [hrest c rfl]
    rw [List.takeWhile_append_of_pos htext, List.dropWhile_append_of_pos htext, htake, hdrop,
      List.append_nil]
    exact ⟨rfl, rfl⟩

theorem readRun_eq_some_iff :
    readRun p s = some (text, rest) ↔ s = text ++ rest ∧ text ≠ [] ∧ (∀ c ∈ text, p c = true) ∧
      ∀ c ∈ rest.head?, p c = false := by
  rw [and_left_comm, ← takeWhile_dropWhile_eq_iff, readRun]
  constructor
  · intro h
    split at h
    · cases h
    · next hne =>
      cases h
      exact ⟨by simpa using hne, rfl, rfl⟩
  · rintro ⟨hne, rfl, rfl⟩
    rw [if_neg (by simpa using hne)]

theorem readRun_eq_none_iff : readRun p s = none ↔ ∀ c ∈ s.head?, p c = false := by
  rw [readRun]
  cases s with
  | nil => simp
  | cons c rest => cases hc : p c <;> simp [hc]

theorem mem_head?_append {c : Char} (h : c ∈ s.head?) : c ∈ (s ++ behind).head? := by
  cases s with
  | nil => cases h
  | cons _ _ => exact h

theorem isPlain_iff {c : Char} : isPlain c = true ↔ c ≠ '"' ∧ c ≠ '\\' ∧ c ≠ '\n' := by
  simp [isPlain, and_assoc]

theorem readToQuote_cons {c : Char} (h : isPlain c = true) (rest : List Char) :
    readToQuote (c :: rest) = (readToQuote rest).after [c] := by
  rw [readToQuote, if_pos h]
  · rintro rfl
    cases h
  · rintro d rest' rfl
    cases h

theorem readString_eq_some_iff :
    readString s = some (text, rest) ↔
      ∃ s' part, s = '"' :: s' ∧ text = '"' :: part ∧ readToQuote s' = some (part, rest) := by
  rw [readString.eq_def]
  constructor
  · intro h
    split at h
    · next s' =>
      obtain ⟨part, rfl, hpart⟩ := Cut.after_eq_some_iff.1 h
      exact ⟨s', part, rfl, rfl, hpart⟩
    · cases h
  · rintro ⟨s', part, rfl, rfl, hpart⟩
    exact Cut.after_eq_some_iff.2 ⟨part, rfl, hpart⟩

/-- What the quotes of a character may enclose: an escape, or a character that needs none. -/
theorem readCharacter_eq_some_iff :
    readCharacter s = some (text, rest) ↔ s = text ++ rest ∧
      ((∃ c, c ≠ '\n' ∧ text = ['\'', '\\', c, '\'']) ∨
        ∃ c, c ≠ '\'' ∧ c ≠ '\\' ∧ c ≠ '\n' ∧ text = ['\'', c, '\'']) := by
  rw [readCharacter.eq_def]
  constructor
  · intro h
    split at h
    · next c _ =>
      split_ifs at h with hline
      cases h
      exact ⟨rfl, .inl ⟨c, hline, rfl⟩⟩
    · next c _ _ =>
      split_ifs at h with hplain
      cases h
      simp only [Bool.or_eq_true, decide_eq_true_eq, not_or] at hplain
      exact ⟨rfl, .inr ⟨c, hplain.1.1, hplain.1.2, hplain.2, rfl⟩⟩
    · cases h
  · rintro ⟨rfl, ⟨c, hline, rfl⟩ | ⟨c, hquote, hbackslash, hline, rfl⟩⟩
    · exact if_neg hline
    · simp [hquote, hbackslash, hline]

theorem readSymbol_eq_some_iff :
    readSymbol s = some (text, rest) ↔ ∃ c ∈ symbols, text = [c] ∧ s = c :: rest := by
  rw [readSymbol.eq_def]
  constructor
  · intro h
    split at h
    · next c _ =>
      split_ifs at h with hc
      cases h
      exact ⟨c, hc, rfl, rfl⟩
    · cases h
  · rintro ⟨c, hc, rfl, rfl⟩
    exact if_pos hc

theorem readComment_eq_some_iff :
    readComment s = some (text, rest) ↔ ∃ words, text = '/' :: '/' :: words ∧ s = text ++ rest ∧
      (∀ c ∈ words, isOnLine c = true) ∧ ∀ c ∈ rest.head?, isOnLine c = false := by
  rw [readComment.eq_def]
  constructor
  · intro h
    split at h
    · next line =>
      obtain ⟨rfl, hrest⟩ := Prod.mk.inj (Option.some.inj h)
      obtain ⟨hline, hwords, hbehind⟩ :=
        takeWhile_dropWhile_eq_iff.1 ⟨rfl, hrest⟩
      exact ⟨_, rfl, congrArg (fun l => '/' :: '/' :: l) hline, hwords, hbehind⟩
    · cases h
  · rintro ⟨words, rfl, rfl, hwords, hbehind⟩
    obtain ⟨htake, hdrop⟩ := takeWhile_dropWhile_eq_iff.2 ⟨rfl, hwords, hbehind⟩
    simp only [List.cons_append, htake, hdrop]

theorem readExactly_eq_some_iff {part : List Char} :
    readExactly text s = some (part, rest) ↔ part = text ∧ s = text ++ rest := by
  rw [readExactly]
  constructor
  · intro h
    split at h
    · next hprefix =>
      obtain ⟨rest', rfl⟩ := List.isPrefixOf_iff_prefix.1 hprefix
      rw [List.drop_left] at h
      cases h
      exact ⟨rfl, rfl⟩
    · cases h
  · rintro ⟨rfl, rfl⟩
    rw [if_pos (List.isPrefixOf_iff_prefix.2 (List.prefix_append _ _)), List.drop_left]

theorem readIdentifier_eq_some_iff :
    readIdentifier s = some (text, rest) ↔ ∃ c part, text = c :: part ∧ s = text ++ rest ∧
      isNameStart c = true ∧ (∀ d ∈ part, isNamePart d = true) ∧
      ∀ d ∈ rest.head?, isNamePart d = false := by
  rw [readIdentifier.eq_def]
  constructor
  · intro h
    split at h
    · next c line =>
      split at h
      · next hstart =>
        obtain ⟨rfl, hrest⟩ := Prod.mk.inj (Option.some.inj h)
        obtain ⟨hline, hpart, hbehind⟩ := takeWhile_dropWhile_eq_iff.1 ⟨rfl, hrest⟩
        exact ⟨c, _, rfl, congrArg (c :: ·) hline, hstart, hpart, hbehind⟩
      · cases h
    · cases h
  · rintro ⟨c, part, rfl, rfl, hstart, hpart, hbehind⟩
    obtain ⟨htake, hdrop⟩ := takeWhile_dropWhile_eq_iff.2 ⟨rfl, hpart, hbehind⟩
    simp only [List.cons_append, if_pos hstart, htake, hdrop]

end

/-! ### Numbers -/

/-- Digits start with one. -/
theorem readDigits_cons_eq_none {c : Char} (h : Text.isDecimalDigit c = false) (s : List Char) :
    readDigits (c :: s) = none :=
  readRun_eq_none_iff.2 fun d hd => by
    obtain rfl : c = d := Option.some.inj hd
    exact h

section

variable {s text rest : List Char}

theorem readInteger_eq_some_iff :
    readInteger s = some (text, rest) ↔ ∃ sign ∈ [[], ['-']], ∃ digits s',
      text = sign ++ digits ∧ s = sign ++ s' ∧ readDigits s' = some (digits, rest) := by
  rw [readInteger.eq_def]
  constructor
  · intro h
    split at h
    · next s' =>
      obtain ⟨digits, rfl, hdigits⟩ := Cut.after_eq_some_iff.1 h
      exact ⟨['-'], by decide, digits, s', rfl, rfl, hdigits⟩
    · exact ⟨[], by decide, text, s, rfl, rfl, h⟩
  · rintro ⟨sign, hsign, digits, s', rfl, rfl, hdigits⟩
    obtain rfl | rfl : sign = [] ∨ sign = ['-'] := by simpa using hsign
    · split
      · next heq =>
        rw [List.nil_append] at heq
        rw [heq, readDigits_cons_eq_none (by decide)] at hdigits
        cases hdigits
      · exact hdigits
    · exact Cut.after_eq_some_iff.2 ⟨digits, rfl, hdigits⟩

theorem readSuffix_eq_some_iff :
    readSuffix s = some (text, rest) ↔ ∃ c, (c = 'f' ∨ c = 'F') ∧ text = [c] ∧ s = c :: rest := by
  rw [readSuffix.eq_def]
  constructor
  · intro h
    split at h
    · next c _ =>
      split_ifs at h with hc
      cases h
      exact ⟨c, by simpa using hc, rfl, rfl⟩
    · cases h
  · rintro ⟨c, hc, rfl, rfl⟩
    exact if_pos (by simpa using hc)

/-- What an exponent has in front of its digits. -/
def exponentMarks : List (List Char) :=
  [['e'], ['e', '+'], ['e', '-'], ['E'], ['E', '+'], ['E', '-']]

theorem readExponent_eq_some_iff :
    readExponent s = some (text, rest) ↔ ∃ mark ∈ exponentMarks, ∃ digits s',
      text = mark ++ digits ∧ s = mark ++ s' ∧ readDigits s' = some (digits, rest) := by
  rw [readExponent.eq_def]
  constructor
  · intro h
    split at h
    · next c s' =>
      split at h
      · next hc =>
        have hmark : c = 'e' ∨ c = 'E' := by simpa using hc
        split at h
        all_goals obtain ⟨digits, rfl, hdigits⟩ := Cut.after_eq_some_iff.1 h
        · exact ⟨[c, '+'], by rcases hmark with rfl | rfl <;> decide, digits, _, rfl, rfl, hdigits⟩
        · exact ⟨[c, '-'], by rcases hmark with rfl | rfl <;> decide, digits, _, rfl, rfl, hdigits⟩
        · exact ⟨[c], by rcases hmark with rfl | rfl <;> decide, digits, _, rfl, rfl, hdigits⟩
      · cases h
    · cases h
  · rintro ⟨mark, hmark, digits, s', rfl, rfl, hdigits⟩
    -- A mark without a sign is not taken for one with it, since no digits start with a sign.
    have hplus : ∀ s'', s' ≠ '+' :: s'' := by
      rintro s'' rfl
      rw [readDigits_cons_eq_none (by decide)] at hdigits
      cases hdigits
    have hminus : ∀ s'', s' ≠ '-' :: s'' := by
      rintro s'' rfl
      rw [readDigits_cons_eq_none (by decide)] at hdigits
      cases hdigits
    simp only [exponentMarks, List.mem_cons, List.not_mem_nil, or_false] at hmark
    rcases hmark with rfl | rfl | rfl | rfl | rfl | rfl <;>
      simp [Cut.after, hdigits]

end

/-- What a number with a fraction has behind its digits. -/
def readTail (s : List Char) : List Char × List Char :=
  let exponent := readOptional readExponent s
  let suffix := readOptional readSuffix exponent.2
  (exponent.1 ++ suffix.1, suffix.2)

theorem append_readTail (s : List Char) : (readTail s).1 ++ (readTail s).2 = s := by
  have hexponent := append_readOptional (splits_readExponent s)
  have hsuffix := append_readOptional (splits_readSuffix (readOptional readExponent s).2)
  rw [readTail, List.append_assoc, hsuffix, hexponent]

theorem readFloat_eq_some_iff {s text rest : List Char} :
    readFloat s = some (text, rest) ↔ ∃ whole fraction tail r₁ r₂,
      readInteger s = some (whole, '.' :: r₁) ∧ readDigits r₁ = some (fraction, r₂) ∧
      readTail r₂ = (tail, rest) ∧ text = whole ++ '.' :: (fraction ++ tail) := by
  rw [readFloat]
  simp only [Option.bind_eq_bind, Option.bind_eq_some_iff, Option.some.injEq, Prod.mk.injEq,
    Prod.exists]
  constructor
  · rintro ⟨whole, r, hwhole, point, r₁, hpoint, fraction, r₂, hfraction, rfl, rfl⟩
    obtain ⟨rfl, rfl⟩ := readExactly_eq_some_iff.1 hpoint
    exact ⟨whole, fraction, _, r₁, r₂, hwhole, hfraction, rfl, by simp⟩
  · rintro ⟨whole, fraction, tail, r₁, r₂, hwhole, hfraction, htail, rfl⟩
    obtain ⟨rfl, rfl⟩ := Prod.mk.inj htail
    exact ⟨whole, _, hwhole, ['.'], r₁, readExactly_eq_some_iff.2 ⟨rfl, rfl⟩, fraction, r₂,
      hfraction, by simp, rfl⟩

/-! ### The lexeme in front of a text -/

theorem LexemeKind.mem_all (kind : LexemeKind) : kind ∈ all := by cases kind <;> decide

theorem lexeme?_eq_none_iff {s : List Char} :
    lexeme? s = none ↔ ∀ kind : LexemeKind, kind.read s = none := by
  rw [lexeme?, List.findSome?_eq_none_iff]
  simp only [Option.map_eq_none_iff]
  exact ⟨fun h kind => h kind kind.mem_all, fun h kind _ => h kind⟩

/-- The kinds that are tried before `kind`. -/
def LexemeKind.earlier (kind : LexemeKind) : List LexemeKind := all.takeWhile (· ≠ kind)

theorem LexemeKind.earlier_eq_iff {kind : LexemeKind} {tried : List LexemeKind} :
    kind.earlier = tried ↔ ∃ later, all = tried ++ kind :: later := by
  constructor
  · rintro rfl
    cases kind <;> exact ⟨_, rfl⟩
  · rintro ⟨later, hall⟩
    have hnodup : (tried ++ kind :: later).Nodup := hall ▸ by decide
    have hnot : ∀ other ∈ tried, decide (other ≠ kind) = true := fun other hother =>
      decide_eq_true ((List.nodup_append.1 hnodup).2.2 other hother kind List.mem_cons_self)
    rw [earlier, hall, List.takeWhile_append_of_pos hnot, List.takeWhile_cons_of_neg (by simp),
      List.append_nil]

/-- The lexeme in front of a text is what a kind reads there if those tried before it read
nothing. -/
theorem lexeme?_eq_some_iff {s text rest : List Char} {kind : LexemeKind} :
    lexeme? s = some ⟨kind, text, rest⟩ ↔
      (∀ other ∈ kind.earlier, other.read s = none) ∧ kind.read s = some (text, rest) := by
  rw [lexeme?, List.findSome?_eq_some_iff]
  simp only [Option.map_eq_some_iff, Option.map_eq_none_iff]
  constructor
  · rintro ⟨tried, _, later, hall, ⟨⟨_, _⟩, hread, hlexeme⟩, htried⟩
    cases hlexeme
    rw [LexemeKind.earlier_eq_iff.2 ⟨later, hall⟩]
    exact ⟨htried, hread⟩
  · rintro ⟨htried, hread⟩
    obtain ⟨later, hall⟩ := LexemeKind.earlier_eq_iff.1 (rfl : kind.earlier = _)
    exact ⟨kind.earlier, kind, later, hall, ⟨(text, rest), hread, rfl⟩, htried⟩

end RequestRouter
