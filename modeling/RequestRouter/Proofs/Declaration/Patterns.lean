import RequestRouter.Proofs.Declaration.Spelling

/-!
# The patterns of tokens

What a token can stand for is asked by tests of its own (`RequestRouter.Token.isFloat` and the
others), which are made of the readers that texts are cut with. The question can also be put without
any reader, by a pattern that the whole text of the token has to match: a letter or an underscore
and then letters, underscores and digits; an optional minus sign and digits; and so on. Patterns are
given here with what they match (`RequestRouter.Pattern.Matches`), and each test is shown to be the
question for its pattern (`RequestRouter.TokenClass.test_iff_matches`).

A reader takes as much as it can and a pattern leaves open how a text is shared out among its parts,
so the work is in the numbers: what may follow the digits of a fraction is no digit, and what may
follow an exponent is none either.
-/

namespace RequestRouter

/-! ### Patterns -/

/-- A pattern of texts. -/
inductive Pattern where
  /-- The empty text. -/
  | nothing
  /-- One character that passes the test. -/
  | one (p : Char → Bool)
  /-- A text of the first pattern and then one of the second. -/
  | seq (first second : Pattern)
  /-- A text of one of the patterns. -/
  | either (left right : Pattern)
  /-- Any number of texts of the pattern, one behind the other. -/
  | many (item : Pattern)

namespace Pattern

/-- The whole text has the pattern. -/
inductive Matches : Pattern → List Char → Prop where
  /-- The empty text. -/
  | nothing : Matches .nothing []
  /-- A character. -/
  | one {p : Char → Bool} {c : Char} (hc : p c = true) : Matches (.one p) [c]
  /-- Two texts. -/
  | seq {first second : Pattern} {s t : List Char} (hfirst : Matches first s)
      (hsecond : Matches second t) : Matches (.seq first second) (s ++ t)
  /-- A text of the one pattern. -/
  | left {left right : Pattern} {s : List Char} (h : Matches left s) :
      Matches (.either left right) s
  /-- A text of the other pattern. -/
  | right {left right : Pattern} {s : List Char} (h : Matches right s) :
      Matches (.either left right) s
  /-- No text is left of a repetition. -/
  | stop {item : Pattern} : Matches (.many item) []
  /-- One text more of a repetition. -/
  | again {item : Pattern} {s t : List Char} (hitem : Matches item s)
      (hmore : Matches (.many item) t) : Matches (.many item) (s ++ t)

/-- Exactly the character. -/
def only (c : Char) : Pattern := one (· == c)

/-- The pattern, or nothing. -/
def optional (item : Pattern) : Pattern := either item nothing

/-- At least one character that passes the test. -/
def run (p : Char → Bool) : Pattern := seq (one p) (many (one p))

/-- Exactly the text. -/
def exactly : List Char → Pattern
  | [] => nothing
  | c :: rest => seq (only c) (exactly rest)

section

variable {p : Char → Bool} {first second : Pattern} {s : List Char}

theorem matches_nothing_iff : nothing.Matches s ↔ s = [] := by
  constructor
  · rintro ⟨⟩
    rfl
  · rintro rfl
    exact .nothing

theorem matches_one_iff : (one p).Matches s ↔ ∃ c, s = [c] ∧ p c = true := by
  constructor
  · intro h
    cases h with
    | one hc => exact ⟨_, rfl, hc⟩
  · rintro ⟨c, rfl, hc⟩
    exact .one hc

theorem matches_only_iff {c : Char} : (only c).Matches s ↔ s = [c] := by
  rw [only, matches_one_iff]
  simp

theorem matches_seq_iff :
    (seq first second).Matches s ↔ ∃ t u, s = t ++ u ∧ first.Matches t ∧ second.Matches u := by
  constructor
  · intro h
    cases h with
    | seq hfirst hsecond => exact ⟨_, _, rfl, hfirst, hsecond⟩
  · rintro ⟨t, u, rfl, hfirst, hsecond⟩
    exact .seq hfirst hsecond

theorem matches_either_iff :
    (either first second).Matches s ↔ first.Matches s ∨ second.Matches s := by
  constructor
  · intro h
    cases h with
    | left h => exact .inl h
    | right h => exact .inr h
  · exact fun h => h.elim .left .right

theorem matches_optional_iff : (optional first).Matches s ↔ s = [] ∨ first.Matches s := by
  rw [optional, matches_either_iff, matches_nothing_iff, or_comm]

/-- What is true of no text, and of a text with another one in front if it is of the text, is true
of all repetitions. -/
theorem Matches.many_induction {item : Pattern} {motive : List Char → Prop}
    (h : (many item).Matches s) (stop : motive [])
    (again : ∀ t u, item.Matches t → motive u → motive (t ++ u)) : motive s := by
  generalize hpattern : many item = pattern at h
  induction h with
  | stop => exact stop
  | again hitem _ _ ih =>
    cases hpattern
    exact again _ _ hitem (ih rfl)
  | _ => cases hpattern

theorem matches_many_one_iff : (many (one p)).Matches s ↔ ∀ c ∈ s, p c = true := by
  constructor
  · intro h
    refine h.many_induction (motive := fun s => ∀ c ∈ s, p c = true) (List.forall_mem_nil _)
      fun t u ht hu => ?_
    obtain ⟨c, rfl, hc⟩ := matches_one_iff.1 ht
    exact List.forall_mem_cons.2 ⟨hc, hu⟩
  · intro h
    induction s with
    | nil => exact .stop
    | cons c s ih =>
      obtain ⟨hc, hs⟩ := List.forall_mem_cons.1 h
      exact Matches.again (.one hc) (ih hs)

theorem matches_cons_iff :
    (seq (one p) second).Matches s ↔ ∃ c t, s = c :: t ∧ p c = true ∧ second.Matches t := by
  rw [matches_seq_iff]
  constructor
  · rintro ⟨t, u, rfl, ht, hu⟩
    obtain ⟨c, rfl, hc⟩ := matches_one_iff.1 ht
    exact ⟨c, u, rfl, hc, hu⟩
  · rintro ⟨c, t, rfl, hc, ht⟩
    exact ⟨[c], t, rfl, .one hc, ht⟩

theorem matches_run_iff : (run p).Matches s ↔ s ≠ [] ∧ ∀ c ∈ s, p c = true := by
  rw [run, matches_cons_iff]
  constructor
  · rintro ⟨c, t, rfl, hc, ht⟩
    exact ⟨List.cons_ne_nil _ _, List.forall_mem_cons.2 ⟨hc, matches_many_one_iff.1 ht⟩⟩
  · rintro ⟨hne, hs⟩
    obtain ⟨c, t, rfl⟩ := List.exists_cons_of_ne_nil hne
    obtain ⟨hc, ht⟩ := List.forall_mem_cons.1 hs
    exact ⟨c, t, rfl, hc, matches_many_one_iff.2 ht⟩

theorem matches_exactly_iff {text : List Char} : (exactly text).Matches s ↔ s = text := by
  induction text generalizing s with
  | nil => exact matches_nothing_iff
  | cons c text ih =>
    rw [exactly, only, matches_cons_iff]
    simp [ih]

/-! ### The patterns that tokens are asked for -/

/-- `//.*|\s+`, which is what only parts tokens. -/
def gap : Pattern :=
  either (seq (exactly ['/', '/']) (many (one isOnLine))) (run Text.isBlank)

/-- `[A-Za-z_][A-Za-z0-9_]*` -/
def identifier : Pattern := seq (one isNameStart) (many (one isNamePart))

/-- `\d+` -/
def digits : Pattern := run Text.isDecimalDigit

/-- `-?\d+` -/
def integer : Pattern := seq (optional (only '-')) digits

/-- `[eE][+-]?\d+` -/
def exponent : Pattern :=
  seq (one fun c => c == 'e' || c == 'E')
    (seq (optional (one fun c => c == '+' || c == '-')) digits)

/-- `[fF]` -/
def suffix : Pattern := one fun c => c == 'f' || c == 'F'

/-- `(?:[eE][+-]?\d+)?[fF]?` -/
def tail : Pattern := seq (optional exponent) (optional suffix)

/-- `-?\d+\.\d+(?:[eE][+-]?\d+)?[fF]?` -/
def float : Pattern := seq integer (seq (only '.') (seq digits tail))

/-- A backslash and a character of the same line: `\\.` -/
def escape : Pattern := seq (only '\\') (one isOnLine)

/-- A character that is neither the quote nor a backslash, or an escape: `(?:[^"\\]|\\.)`. The end
of a line is such a character. -/
def quoted (quote : Char) : Pattern := either (one fun c => c != quote && c != '\\') escape

/-- A text of the pattern between two quotes. -/
def between (quote : Char) (inner : Pattern) : Pattern :=
  seq (only quote) (seq inner (only quote))

/-- `"(?:[^"\\]|\\.)*"` -/
def string : Pattern := between '"' (many (quoted '"'))

/-- `'(?:[^'\\]|\\.)'` -/
def character : Pattern := between '\'' (quoted '\'')

/-! ### Literals between quotes -/

theorem matches_between_iff {quote : Char} {inner : Pattern} : (between quote inner).Matches s ↔
    ∃ t, s = quote :: (t ++ [quote]) ∧ inner.Matches t := by
  rw [between, only, matches_cons_iff]
  constructor
  · rintro ⟨c, rest, rfl, hc, hrest⟩
    obtain ⟨t, u, rfl, ht, hu⟩ := matches_seq_iff.1 hrest
    rw [beq_iff_eq.1 hc, matches_only_iff.1 hu]
    exact ⟨t, rfl, ht⟩
  · rintro ⟨t, rfl, ht⟩
    exact ⟨quote, _, rfl, BEq.rfl, .seq ht (matches_only_iff.2 rfl)⟩

theorem matches_escape_iff : escape.Matches s ↔ ∃ c, s = ['\\', c] ∧ c ≠ '\n' := by
  constructor
  · intro h
    obtain ⟨_, _, rfl, hbackslash, hone⟩ := matches_seq_iff.1 h
    obtain ⟨c, rfl, hc⟩ := matches_one_iff.1 hone
    exact ⟨c, by rw [matches_only_iff.1 hbackslash]; rfl, bne_iff_ne.1 hc⟩
  · rintro ⟨c, rfl, hc⟩
    exact .seq (matches_only_iff.2 rfl) (.one (bne_iff_ne.2 hc))

theorem matches_quoted_iff {quote : Char} : (quoted quote).Matches s ↔
    (∃ c, s = [c] ∧ c ≠ quote ∧ c ≠ '\\') ∨ ∃ c, s = ['\\', c] ∧ c ≠ '\n' := by
  rw [quoted, matches_either_iff, matches_one_iff, matches_escape_iff]
  simp

end

theorem closesString_cons {c : Char} (hquote : c ≠ '"') (hbackslash : c ≠ '\\')
    (rest : List Char) : closesString (c :: rest) = closesString rest := by
  rw [closesString]
  · simp [hquote, hbackslash]
  · exact fun heq _ => hquote heq
  · exact fun _ _ heq _ => hbackslash heq

theorem closesString_append {s : List Char} (h : (many (quoted '"')).Matches s) :
    closesString (s ++ ['"']) = true := by
  refine h.many_induction (motive := fun s => closesString (s ++ ['"']) = true) rfl
    fun t u ht hu => ?_
  rcases matches_quoted_iff.1 ht with ⟨c, rfl, hquote, hbackslash⟩ | ⟨c, rfl, hline⟩
  · exact (closesString_cons hquote hbackslash _).trans hu
  · simp [closesString, hline, hu]

theorem matches_of_closesString {s : List Char} (h : closesString s = true) :
    ∃ inner, s = inner ++ ['"'] ∧ (many (quoted '"')).Matches inner := by
  fun_induction closesString s with
  | case1 => cases h
  | case2 => exact ⟨[], rfl, .stop⟩
  | case3 c rest ih =>
    obtain ⟨hline, hrest⟩ := Bool.and_eq_true_iff.1 h
    obtain ⟨inner, rfl, hinner⟩ := ih hrest
    exact ⟨'\\' :: c :: inner, rfl,
      .again (matches_quoted_iff.2 (.inr ⟨c, rfl, bne_iff_ne.1 hline⟩)) hinner⟩
  | case4 c rest _ _ ih =>
    obtain ⟨hplain, hrest⟩ := Bool.and_eq_true_iff.1 h
    obtain ⟨hquote, hbackslash⟩ := Bool.and_eq_true_iff.1 hplain
    obtain ⟨inner, rfl, hinner⟩ := ih hrest
    exact ⟨c :: inner, rfl, .again (matches_quoted_iff.2
      (.inl ⟨c, rfl, bne_iff_ne.1 hquote, bne_iff_ne.1 hbackslash⟩)) hinner⟩

/-- What a string literal has behind its first quote. -/
theorem closesString_iff {s : List Char} : closesString s = true ↔
    ∃ inner, s = inner ++ ['"'] ∧ (many (quoted '"')).Matches inner := by
  constructor
  · exact matches_of_closesString
  · rintro ⟨inner, rfl, hinner⟩
    exact closesString_append hinner

theorem closesCharacter_iff {s : List Char} : closesCharacter s = true ↔
    ∃ inner, s = inner ++ ['\''] ∧ (quoted '\'').Matches inner := by
  constructor
  · intro h
    rw [closesCharacter.eq_def] at h
    split at h
    · next backslash c quote =>
      obtain ⟨⟨rfl, hline⟩, rfl⟩ : (backslash = '\\' ∧ c ≠ '\n') ∧ quote = '\'' := by simpa using h
      exact ⟨['\\', c], rfl, matches_quoted_iff.2 (.inr ⟨c, rfl, hline⟩)⟩
    · next c quote =>
      obtain ⟨⟨hquote, hbackslash⟩, rfl⟩ : (c ≠ '\'' ∧ c ≠ '\\') ∧ quote = '\'' := by
        simpa using h
      exact ⟨[c], rfl, matches_quoted_iff.2 (.inl ⟨c, rfl, hquote, hbackslash⟩)⟩
    · cases h
  · rintro ⟨inner, rfl, hinner⟩
    rcases matches_quoted_iff.1 hinner with ⟨c, rfl, hquote, hbackslash⟩ | ⟨c, rfl, hline⟩
    · simp [closesCharacter, hquote, hbackslash]
    · simp [closesCharacter, hline]

/-! ### Names -/

section

variable {s text rest : List Char}

theorem readIdentifier_iff_matches : readIdentifier s = some (s, []) ↔ identifier.Matches s := by
  rw [readIdentifier_eq_some_iff, identifier, matches_cons_iff]
  simp only [matches_many_one_iff]
  constructor
  · rintro ⟨c, part, heq, -, hstart, hpart, -⟩
    exact ⟨c, part, heq, hstart, hpart⟩
  · rintro ⟨c, part, heq, hstart, hpart⟩
    exact ⟨c, part, heq, (List.append_nil _).symm, hstart, hpart, fun _ hd => nomatch hd⟩

/-! ### Numbers -/

/-- No digit is in front of the text. -/
def IsBehindDigits (s : List Char) : Prop := ∀ c ∈ s.head?, Text.isDecimalDigit c = false

theorem readDigits_iff_matches : readDigits s = some (text, rest) ↔
    s = text ++ rest ∧ digits.Matches text ∧ IsBehindDigits rest := by
  rw [readDigits, readRun_eq_some_iff, digits, matches_run_iff, and_assoc]
  rfl

theorem matches_integer_iff : integer.Matches s ↔
    ∃ sign ∈ [[], ['-']], ∃ t, s = sign ++ t ∧ digits.Matches t := by
  rw [integer, matches_seq_iff]
  simp only [matches_optional_iff, matches_only_iff, List.mem_cons, List.not_mem_nil, or_false]
  constructor
  · rintro ⟨sign, t, rfl, hsign, ht⟩
    exact ⟨sign, hsign, t, rfl, ht⟩
  · rintro ⟨sign, hsign, t, rfl, ht⟩
    exact ⟨sign, t, rfl, hsign, ht⟩

theorem readInteger_iff_matches : readInteger s = some (text, rest) ↔
    s = text ++ rest ∧ integer.Matches text ∧ IsBehindDigits rest := by
  rw [readInteger_eq_some_iff, matches_integer_iff]
  constructor
  · rintro ⟨sign, hsign, t, s', rfl, rfl, hdigits⟩
    obtain ⟨rfl, ht, hrest⟩ := readDigits_iff_matches.1 hdigits
    exact ⟨(List.append_assoc _ _ _).symm, ⟨sign, hsign, t, rfl, ht⟩, hrest⟩
  · rintro ⟨rfl, ⟨sign, hsign, t, rfl, ht⟩, hrest⟩
    exact ⟨sign, hsign, t, t ++ rest, rfl, List.append_assoc _ _ _,
      readDigits_iff_matches.2 ⟨rfl, ht, hrest⟩⟩

theorem matches_exponent_iff : exponent.Matches s ↔
    ∃ mark ∈ exponentMarks, ∃ t, s = mark ++ t ∧ digits.Matches t := by
  rw [exponent, matches_cons_iff]
  simp only [matches_seq_iff, matches_optional_iff, matches_one_iff, Bool.or_eq_true, beq_iff_eq]
  constructor
  · rintro ⟨c, _, rfl, hc, sign, t, rfl, hsign, ht⟩
    refine ⟨c :: sign, ?_, t, rfl, ht⟩
    rcases hc with rfl | rfl <;> rcases hsign with rfl | ⟨d, rfl, rfl | rfl⟩ <;> decide
  · rintro ⟨mark, hmark, t, rfl, ht⟩
    simp only [exponentMarks, List.mem_cons, List.not_mem_nil, or_false] at hmark
    rcases hmark with rfl | rfl | rfl | rfl | rfl | rfl
    · exact ⟨'e', _, rfl, .inl rfl, [], t, rfl, .inl rfl, ht⟩
    · exact ⟨'e', _, rfl, .inl rfl, ['+'], t, rfl, .inr ⟨_, rfl, .inl rfl⟩, ht⟩
    · exact ⟨'e', _, rfl, .inl rfl, ['-'], t, rfl, .inr ⟨_, rfl, .inr rfl⟩, ht⟩
    · exact ⟨'E', _, rfl, .inr rfl, [], t, rfl, .inl rfl, ht⟩
    · exact ⟨'E', _, rfl, .inr rfl, ['+'], t, rfl, .inr ⟨_, rfl, .inl rfl⟩, ht⟩
    · exact ⟨'E', _, rfl, .inr rfl, ['-'], t, rfl, .inr ⟨_, rfl, .inr rfl⟩, ht⟩

theorem readExponent_iff_matches : readExponent s = some (text, rest) ↔
    s = text ++ rest ∧ exponent.Matches text ∧ IsBehindDigits rest := by
  rw [readExponent_eq_some_iff, matches_exponent_iff]
  constructor
  · rintro ⟨mark, hmark, t, s', rfl, rfl, hdigits⟩
    obtain ⟨rfl, ht, hrest⟩ := readDigits_iff_matches.1 hdigits
    exact ⟨(List.append_assoc _ _ _).symm, ⟨mark, hmark, t, rfl, ht⟩, hrest⟩
  · rintro ⟨rfl, ⟨mark, hmark, t, rfl, ht⟩, hrest⟩
    exact ⟨mark, hmark, t, t ++ rest, rfl, List.append_assoc _ _ _,
      readDigits_iff_matches.2 ⟨rfl, ht, hrest⟩⟩

theorem matches_suffix_iff : suffix.Matches s ↔ s = ['f'] ∨ s = ['F'] := by
  rw [suffix, matches_one_iff]
  simp only [Bool.or_eq_true, beq_iff_eq]
  constructor
  · rintro ⟨c, rfl, rfl | rfl⟩
    · exact .inl rfl
    · exact .inr rfl
  · rintro (rfl | rfl)
    · exact ⟨'f', rfl, .inl rfl⟩
    · exact ⟨'F', rfl, .inr rfl⟩

theorem matches_of_readSuffix (h : readSuffix s = some (text, rest)) : suffix.Matches text := by
  obtain ⟨c, hc, rfl, -⟩ := readSuffix_eq_some_iff.1 h
  exact .one (by simpa using hc)

/-- What is taken if it can be has the pattern, if it is taken at all. -/
theorem matches_readOptional {read : List Char → Cut} {item : Pattern}
    (h : ∀ text rest, read s = some (text, rest) → item.Matches text) :
    (optional item).Matches (readOptional read s).1 := by
  rw [matches_optional_iff, readOptional]
  cases hread : read s with
  | none => exact .inl rfl
  | some parts => exact .inr (h parts.1 parts.2 hread)

theorem matches_tail_of_readTail : tail.Matches (readTail s).1 :=
  .seq (matches_readOptional fun _ _ h => (readExponent_iff_matches.1 h).2.1)
    (matches_readOptional fun _ _ h => matches_of_readSuffix h)

theorem readSuffix_of_matches (h : (optional suffix).Matches s) :
    readOptional readSuffix s = (s, []) := by
  rcases matches_optional_iff.1 h with rfl | hsuffix
  · rfl
  · rcases matches_suffix_iff.1 hsuffix with rfl | rfl <;> rfl

theorem isBehindDigits_of_suffix (h : (optional suffix).Matches s) : IsBehindDigits s := by
  rcases matches_optional_iff.1 h with rfl | hsuffix
  · exact fun _ hc => nomatch hc
  · rcases matches_suffix_iff.1 hsuffix with rfl | rfl <;> · rintro _ ⟨⟩; rfl

/-- **A tail is read to its end**: an exponent ends in front of a suffix, which is no digit, and a
suffix opens no exponent. -/
theorem readTail_of_matches (h : tail.Matches s) : readTail s = (s, []) := by
  obtain ⟨t, u, rfl, ht, hu⟩ := matches_seq_iff.1 h
  have hexponent : readOptional readExponent (t ++ u) = (t, u) := by
    rcases matches_optional_iff.1 ht with rfl | hexponent
    · rcases matches_optional_iff.1 hu with rfl | hsuffix
      · rfl
      · rcases matches_suffix_iff.1 hsuffix with rfl | rfl <;> rfl
    · rw [readOptional, readExponent_iff_matches.2 ⟨rfl, hexponent, isBehindDigits_of_suffix hu⟩]
      rfl
  rw [readTail, hexponent, readSuffix_of_matches hu]

theorem isBehindDigits_of_tail (h : tail.Matches s) : IsBehindDigits s := by
  obtain ⟨t, u, rfl, ht, hu⟩ := matches_seq_iff.1 h
  rcases matches_optional_iff.1 ht with rfl | hexponent
  · exact isBehindDigits_of_suffix hu
  · obtain ⟨c, rest, rfl, hc, -⟩ := matches_cons_iff.1 hexponent
    have hmark : c = 'e' ∨ c = 'E' := by simpa using hc
    rcases hmark with rfl | rfl <;> · rintro _ ⟨⟩; rfl

theorem readFloat_iff_matches : readFloat s = some (s, []) ↔ float.Matches s := by
  rw [readFloat_eq_some_iff, float]
  constructor
  · rintro ⟨whole, fraction, _, r₁, r₂, hwhole, hfraction, htail, rfl⟩
    obtain ⟨-, hwhole, -⟩ := readInteger_iff_matches.1 hwhole
    obtain ⟨-, hfraction, -⟩ := readDigits_iff_matches.1 hfraction
    have hmatches : tail.Matches (readTail r₂).1 := matches_tail_of_readTail
    rw [htail] at hmatches
    exact .seq hwhole (.seq (s := ['.']) (matches_only_iff.2 rfl) (.seq hfraction hmatches))
  · intro h
    obtain ⟨whole, _, rfl, hwhole, hback⟩ := matches_seq_iff.1 h
    obtain ⟨_, _, rfl, hpoint, hback⟩ := matches_seq_iff.1 hback
    obtain ⟨fraction, t, rfl, hfraction, htail⟩ := matches_seq_iff.1 hback
    obtain rfl := matches_only_iff.1 hpoint
    refine ⟨whole, fraction, t, fraction ++ t, t, ?_, ?_, readTail_of_matches htail, rfl⟩
    · exact readInteger_iff_matches.2 ⟨rfl, hwhole, by rintro _ ⟨⟩; rfl⟩
    · exact readDigits_iff_matches.2 ⟨rfl, hfraction, isBehindDigits_of_tail htail⟩

end

end Pattern

/-! ### The tests -/

namespace Token

variable {token : Token}

theorem isIdentifier_iff_matches :
    token.isIdentifier = true ↔ Pattern.identifier.Matches token.text.toList := by
  rw [isIdentifier, LexemeKind.spans_iff]
  exact Pattern.readIdentifier_iff_matches

theorem isInteger_iff_matches :
    token.isInteger = true ↔ Pattern.integer.Matches token.text.toList := by
  rw [isInteger, LexemeKind.spans_iff, LexemeKind.read, Pattern.readInteger_iff_matches]
  simp [Pattern.IsBehindDigits]

theorem isFloat_iff_matches :
    token.isFloat = true ↔ Pattern.float.Matches token.text.toList := by
  rw [isFloat, LexemeKind.spans_iff]
  exact Pattern.readFloat_iff_matches

theorem isString_iff_matches :
    token.isString = true ↔ Pattern.string.Matches token.text.toList := by
  rw [isString, Pattern.string, Pattern.matches_between_iff]
  constructor
  · intro h
    split at h
    · next rest heq =>
      obtain ⟨inner, rfl, hinner⟩ := Pattern.closesString_iff.1 h
      exact ⟨inner, heq, hinner⟩
    · cases h
  · rintro ⟨inner, heq, hinner⟩
    rw [heq]
    exact Pattern.closesString_iff.2 ⟨inner, rfl, hinner⟩

theorem isCharacter_iff_matches :
    token.isCharacter = true ↔ Pattern.character.Matches token.text.toList := by
  rw [isCharacter, Pattern.character, Pattern.matches_between_iff]
  constructor
  · intro h
    split at h
    · next rest heq =>
      obtain ⟨inner, rfl, hinner⟩ := Pattern.closesCharacter_iff.1 h
      exact ⟨inner, heq, hinner⟩
    · cases h
  · rintro ⟨inner, heq, hinner⟩
    rw [heq]
    exact Pattern.closesCharacter_iff.2 ⟨inner, rfl, hinner⟩

theorem is_iff_matches {text : String} :
    token.is text = true ↔ (Pattern.exactly text.toList).Matches token.text.toList := by
  rw [Pattern.matches_exactly_iff, Token.is, beq_iff_eq, String.toList_inj]

/-- The end of a file has the empty pattern. -/
theorem isEnd_iff_matches :
    token.isEnd = true ↔ Pattern.nothing.Matches token.text.toList := by
  rw [Pattern.matches_nothing_iff, isEnd]
  simp

end Token

end RequestRouter
