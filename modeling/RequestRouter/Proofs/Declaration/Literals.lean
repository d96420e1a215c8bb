import RequestRouter.Proofs.Declaration.Names
import RequestRouter.Proofs.Declaration.Spacing

/-!
# Writing literals

How values are written so that they are read again: a string between quotes, with a backslash in
front of what would not stand for itself there (`RequestRouter.literalOf`), and an integer in ASCII
digits (`RequestRouter.IsDecimal`). Three readers have to agree on a string literal: the one that
cuts it out of its text, which stops at the first quote without a backslash; the test that its token
is one; and the one that resolves its escapes. All of them go through the literal character by
character, so that it is enough to look at what one character is written as
(`RequestRouter.writtenChar_cases`).
-/

namespace RequestRouter

/-! ### Lexemes that are told by their first character -/

/-- What a kind reads is a lexeme if no kind that is tried earlier starts with its first
character. -/
theorem lexeme?_of_opens {kind : LexemeKind} {c : Char} {s text rest : List Char}
    (hearlier : ∀ other ∈ kind.earlier, other.opens c = false)
    (hread : kind.read (c :: s) = some (text, rest)) :
    lexeme? (c :: s) = some ⟨kind, text, rest⟩ :=
  lexeme?_eq_some_iff.2
    ⟨fun other hother => LexemeKind.read_eq_none_of_opens (hearlier other hother) s, hread⟩

theorem readSymbol_of_mem {c : Char} (hc : c ∈ symbols) (s : List Char) :
    readSymbol (c :: s) = some ([c], s) := if_pos hc

/-- A symbol, unless it is half a separator. -/
theorem lexeme?_symbol {c : Char} (hc : c ∈ symbols) (hne : c ≠ ':') (s : List Char) :
    lexeme? (c :: s) = some ⟨.symbol, [c], s⟩ := by
  have hearlier : (symbols.erase ':').all fun d =>
      LexemeKind.symbol.earlier.all fun other => !other.opens d := by decide
  refine lexeme?_of_opens (fun other hother => ?_) (readSymbol_of_mem hc s)
  have hopens := List.all_eq_true.1 hearlier c ((List.mem_erase_of_ne hne).2 hc)
  simpa using List.all_eq_true.1 hopens other hother

theorem lexeme?_separator (s : List Char) :
    lexeme? (':' :: ':' :: s) = some ⟨.separator, [':', ':'], s⟩ :=
  lexeme?_of_opens (by decide) (readExactly_eq_some_iff.2 ⟨rfl, rfl⟩)

/-- A colon in front of what is none. -/
theorem lexeme?_colon {s : List Char} (h : ∀ c ∈ s.head?, c ≠ ':') :
    lexeme? (':' :: s) = some ⟨.symbol, [':'], s⟩ := by
  have hopens : ∀ other ∈ LexemeKind.symbol.earlier, other ≠ .separator →
      other.opens ':' = false := by decide
  have hcolon : ':' ∈ symbols := by decide
  refine lexeme?_eq_some_iff.2 ⟨fun other hother => ?_, readSymbol_of_mem hcolon s⟩
  by_cases hseparator : other = .separator
  · subst hseparator
    cases s with
    | nil => rfl
    | cons c s =>
      have hc : c ≠ ':' := h c rfl
      exact if_neg (by simp [hc.symm])
  · exact LexemeKind.read_eq_none_of_opens (hopens other hother hseparator) s

/-- A name in front of what does not go on with it. -/
theorem IsName.lexeme? {name : String} (h : IsName name) {s : List Char}
    (hs : ∀ c ∈ s.head?, isNamePart c = false) :
    lexeme? (name.toList ++ s) = some ⟨.identifier, name.toList, s⟩ := by
  have htoken : (⟨name, .first⟩ : Token).isIdentifier = true := h
  obtain ⟨c, part, hname, hc, hpart⟩ := Token.exists_of_isIdentifier htoken
  change name.toList = c :: part at hname
  rw [hname]
  refine lexeme?_of_opens (fun other hother => ?_)
    (readIdentifier_eq_some_iff.2 ⟨c, part, rfl, rfl, hc, hpart, hs⟩)
  have hdigit := isDecimalDigit_eq_false hc
  -- No other kind starts with a letter or an underscore.
  have hmark {d : Char} (hd : isNameStart d = false) : (c == d) = false :=
    beq_eq_false_iff_ne.2 (ne_of_isNameStart hc hd)
  cases other with
  | string => exact hmark rfl
  | character => exact hmark rfl
  | comment => exact hmark rfl
  | blank => exact Text.isBlank_eq_false_of_isNamePart (by rw [isNamePart, hc, Bool.true_or])
  | arrow => exact hmark rfl
  | separator => exact hmark rfl
  | float => exact Bool.or_eq_false_iff.2 ⟨hmark rfl, hdigit⟩
  | integer => exact Bool.or_eq_false_iff.2 ⟨hmark rfl, hdigit⟩
  | symbol =>
    have hsymbols : symbols.any isNameStart = false := by decide
    exact decide_eq_false fun hmem => List.any_eq_false.1 hsymbols c hmem hc
  | identifier => exact absurd hother (by decide)

/-! ### Strings -/

/-- What a character is written as in a string literal. -/
def writtenChar (c : Char) : List Char :=
  if c = '\\' ∨ c = '"' then ['\\', c] else if c = '\n' then ['\\', 'n'] else [c]

/-- A string literal with the given value. -/
def literalOf (value : String) : String :=
  String.ofList ('"' :: (value.toList.flatMap writtenChar ++ ['"']))

/-- A character stands for itself, or it is what a backslash makes of the one behind it. -/
theorem writtenChar_cases (c : Char) :
    (writtenChar c = [c] ∧ isPlain c = true) ∨
      ∃ d, writtenChar c = ['\\', d] ∧ d ≠ '\n' ∧ unescapedChar d = c := by
  by_cases hquoted : c = '\\' ∨ c = '"'
  · refine .inr ⟨c, if_pos hquoted, ?_, ?_⟩
    · rcases hquoted with rfl | rfl <;> decide
    · rcases hquoted with rfl | rfl <;> rfl
  · by_cases hline : c = '\n'
    · exact .inr ⟨'n', by rw [writtenChar, if_neg hquoted, if_pos hline], by decide, hline.symm⟩
    · refine .inl ⟨by rw [writtenChar, if_neg hquoted, if_neg hline], ?_⟩
      obtain ⟨hslash, hquote⟩ := not_or.1 hquoted
      exact isPlain_iff.2 ⟨hquote, hslash, hline⟩

/-- A string literal stays on its line. -/
theorem newline_notMem_literalOf (value : String) : '\n' ∉ (literalOf value).toList := by
  have hchar (c : Char) : '\n' ∉ writtenChar c := by
    rcases writtenChar_cases c with ⟨hc, hplain⟩ | ⟨d, hc, hd, -⟩
    · simpa [hc] using (isPlain_iff.1 hplain).2.2.symm
    · simpa [hc] using hd.symm
  simp [literalOf, hchar]

theorem readToQuote_writtenChars (value rest : List Char) :
    readToQuote (value.flatMap writtenChar ++ '"' :: rest) =
      some (value.flatMap writtenChar ++ ['"'], rest) := by
  induction value with
  | nil => rfl
  | cons c value ih =>
    rw [List.flatMap_cons, List.append_assoc]
    rcases writtenChar_cases c with ⟨hc, hplain⟩ | ⟨d, hc, hd, -⟩
    · rw [hc, List.singleton_append, readToQuote_cons hplain, ih]
      rfl
    · rw [hc, List.cons_append, List.cons_append, List.nil_append, readToQuote, if_neg hd, ih]
      rfl

theorem closesString_writtenChars (value : List Char) :
    closesString (value.flatMap writtenChar ++ ['"']) = true := by
  induction value with
  | nil => rfl
  | cons c value ih =>
    rw [List.flatMap_cons, List.append_assoc]
    rcases writtenChar_cases c with ⟨hc, hplain⟩ | ⟨d, hc, hd, -⟩
    · obtain ⟨hquote, hslash, -⟩ := isPlain_iff.1 hplain
      rw [hc, List.singleton_append, closesString]
      · simp [hquote, hslash, ih]
      · exact fun heq => absurd heq hquote
      · exact fun _ _ heq => absurd heq hslash
    · rw [hc, List.cons_append, List.cons_append, List.nil_append, closesString]
      · simp [hd, ih]

theorem unescaped_writtenChars (value : List Char) :
    unescaped (value.flatMap writtenChar) = value := by
  induction value with
  | nil => rfl
  | cons c value ih =>
    rw [List.flatMap_cons]
    rcases writtenChar_cases c with ⟨hc, hplain⟩ | ⟨d, hc, -, hd⟩
    · rw [hc, List.singleton_append, unescaped, ih]
      exact fun _ _ heq => absurd heq (isPlain_iff.1 hplain).2.1
    · rw [hc, List.cons_append, List.cons_append, List.nil_append, unescaped, hd, ih]

/-- **The value of a written string** is the string. -/
theorem stringValue_literalOf (value : String) : stringValue (literalOf value) = value := by
  rw [stringValue, literalOf, String.toList_ofList, betweenQuotes, List.getLast?_concat, if_pos rfl,
    List.dropLast_concat, unescaped_writtenChars, String.ofList_toList]

theorem lexeme?_literalOf (value : String) (rest : List Char) :
    lexeme? ((literalOf value).toList ++ rest) =
      some ⟨.string, (literalOf value).toList, rest⟩ := by
  rw [literalOf, String.toList_ofList, List.cons_append, List.append_assoc]
  refine lexeme?_eq_some_of_read ?_ (by decide)
  exact Cut.after_eq_some_iff.2 ⟨_, rfl, readToQuote_writtenChars value.toList rest⟩

theorem isString_literalOf (value : String) (position : Position) :
    Token.isString ⟨literalOf value, position⟩ = true := by
  rw [Token.isString, literalOf, String.toList_ofList]
  exact closesString_writtenChars value.toList

/-! ### Integers -/

theorem isDecimal_toString (value : Int) : IsDecimal (toString value) value := by
  have hdigits (n : Nat) : ∀ d ∈ Nat.toDigits 10 n, d.isDigit = true := fun _ hd =>
    Nat.isDigit_of_mem_toDigits (by decide) (by decide) hd
  rcases value with n | n
  · refine ⟨Nat.toDigits 10 n, Nat.toDigits_ne_nil, hdigits n, .inl ⟨Nat.toList_repr, ?_⟩⟩
    rw [Nat.ofDigitChars_ten_toDigits]
    rfl
  · refine ⟨Nat.toDigits 10 (n + 1), Nat.toDigits_ne_nil, hdigits (n + 1), .inr ⟨?_, ?_⟩⟩
    · change ("-" ++ (n + 1).repr).toList = _
      rw [String.toList_append, Nat.toList_repr]
      rfl
    · rw [Nat.ofDigitChars_ten_toDigits]
      rfl

theorem IsDecimal.newline_notMem {text : String} {value : Int} (h : IsDecimal text value) :
    '\n' ∉ text.toList := by
  obtain ⟨digits, -, hdigits, hor⟩ := h
  have hnot : '\n' ∉ digits := fun hmem => absurd (hdigits '\n' hmem) (by decide)
  rcases hor with ⟨htext, -⟩ | ⟨htext, -⟩
  · rwa [htext]
  · simpa [htext] using hnot

/-! ### Integers among the arguments of a mark -/

theorem isDecimalDigit_of_isDigit {c : Char} (h : c.isDigit = true) :
    Text.isDecimalDigit c = true := by
  have hmem : (0x30, 0x39) ∈ Text.decimalDigitRanges := by decide
  refine List.any_eq_true.2 ⟨_, hmem, ?_⟩
  simpa [Char.isDigit, UInt32.le_iff_toNat_le] using h

/-- A list goes on behind one of its items, or it ends there. -/
def IsListed (behind : List Char) : Prop := ∀ c ∈ behind.head?, c = ',' ∨ c = ')'

theorem IsDecimal.readInteger_eq {text : String} {value : Int} (h : IsDecimal text value)
    {behind : List Char} (hbehind : ∀ c ∈ behind.head?, Text.isDecimalDigit c = false) :
    readInteger (text.toList ++ behind) = some (text.toList, behind) := by
  obtain ⟨digits, hne, hdigits, hor⟩ := h
  have hread : readDigits (digits ++ behind) = some (digits, behind) :=
    readRun_eq_some_iff.2 ⟨rfl, hne, fun d hd => isDecimalDigit_of_isDigit (hdigits d hd), hbehind⟩
  rcases hor with ⟨htext, -⟩ | ⟨htext, -⟩
  · exact readInteger_eq_some_iff.2 ⟨[], by decide, digits, _, htext, by rw [htext]; rfl, hread⟩
  · exact readInteger_eq_some_iff.2 ⟨['-'], by decide, digits, _, htext, by rw [htext]; rfl, hread⟩

/-- The minus sign of an integer does not open an arrow. -/
theorem IsDecimal.readArrow {text : String} {value : Int} (h : IsDecimal text value)
    (behind : List Char) : readExactly ['-', '>'] (text.toList ++ behind) = none := by
  obtain ⟨digits, hne, hdigits, hor⟩ := h
  obtain ⟨d, digits, rfl⟩ := List.exists_cons_of_ne_nil hne
  have hd := hdigits d List.mem_cons_self
  have hgreater : d ≠ '>' := by
    rintro rfl
    cases hd
  have hminus : d ≠ '-' := by
    rintro rfl
    cases hd
  rcases hor with ⟨htext, -⟩ | ⟨htext, -⟩
  · exact if_neg (by simp [htext, hminus.symm])
  · exact if_neg (by simp [htext, hgreater.symm])

/-- **An integer in a list** is cut out of it. -/
theorem IsDecimal.lexeme? {text : String} {value : Int} (h : IsDecimal text value)
    {behind : List Char} (hbehind : IsListed behind) :
    lexeme? (text.toList ++ behind) = some ⟨.integer, text.toList, behind⟩ := by
  have hdigit : ∀ c ∈ behind.head?, Text.isDecimalDigit c = false := by
    intro c hc
    rcases hbehind c hc with rfl | rfl <;> rfl
  have hread : LexemeKind.integer.read (text.toList ++ behind) = some (text.toList, behind) :=
    h.readInteger_eq hdigit
  refine lexeme?_eq_some_iff.2 ⟨fun other hother => ?_, hread⟩
  obtain ⟨c, rest, hcons⟩ : ∃ c rest, text.toList ++ behind = c :: rest := by
    obtain ⟨-, hne⟩ := LexemeKind.append_of_read hread
    exact List.exists_cons_of_ne_nil (List.append_ne_nil_of_left_ne_nil hne behind)
  have hopens : LexemeKind.integer.opens c = true := LexemeKind.opens_of_read (hcons ▸ hread)
  -- Of the kinds that are tried earlier, these could read something in front of a number.
  have hothers : ∀ other ∈ LexemeKind.integer.earlier,
      other ∈ LexemeKind.marked ∨ other = .arrow ∨ other = .separator ∨ other = .float := by
    decide
  rcases hothers other hother with hmarked | rfl | rfl | rfl
  · rw [hcons]
    exact LexemeKind.read_eq_none_of_mem_earlier hopens hother hmarked rest
  · exact h.readArrow behind
  · rw [hcons]
    refine LexemeKind.read_eq_none_of_opens (beq_eq_false_iff_ne.2 ?_) rest
    rintro rfl
    cases hopens
  · have hpoint : readExactly ['.'] behind = none := by
      refine if_neg fun hprefix => ?_
      obtain ⟨rest, rfl⟩ := List.isPrefixOf_iff_prefix.1 hprefix
      rcases hbehind '.' rfl with hdot | hdot <;> cases hdot
    rw [LexemeKind.read, readFloat, h.readInteger_eq hdigit]
    simp [hpoint]

theorem IsDecimal.isInteger {text : String} {value : Int} (h : IsDecimal text value)
    (position : Position) : Token.isInteger ⟨text, position⟩ = true := by
  have hread : readInteger (text.toList ++ []) = _ := h.readInteger_eq nofun
  rw [List.append_nil] at hread
  exact LexemeKind.spans_iff.2 hread

end RequestRouter
