import RequestRouter.Proofs.Declaration.Patterns
import RequestRouter.Proofs.Declaration.Spacing

/-!
# The classes of tokens

A text is cut by ten readers that are tried in an order, and the grammar asks tokens by patterns for
their whole text, with no order. Neither knows of the other: the readers of literals stop at the end
of a line and the patterns do not, a reader leaves what it cannot use, and a pattern has to use up
everything. On what is cut from texts the two come to the same: the pattern of the kind that a token
was cut as is the only one that the token has (`RequestRouter.exists_classes_of_tokens`).

That no token has two of the patterns is a matter of the text alone, wherever it comes from: one
look at its first characters and for a point tells which pattern is left
(`RequestRouter.classOf`).

What is dropped between tokens can be told by a pattern, too: a lexeme has the pattern of comments
and blanks exactly if it was cut as one of them (`RequestRouter.matches_gap_iff`).
-/

namespace RequestRouter

/-- What the grammar can take a token for. -/
inductive TokenClass where
  /-- A string literal. -/
  | string
  /-- A character literal. -/
  | character
  /-- The arrow. -/
  | arrow
  /-- The separator of paths. -/
  | separator
  /-- A number with a fraction. -/
  | float
  /-- A number without a fraction. -/
  | integer
  /-- One of the symbols. -/
  | symbol
  /-- A name or a keyword. -/
  | identifier
deriving DecidableEq

namespace TokenClass

/-- The kind of lexemes that the tokens of the class are cut as. -/
def kind : TokenClass → LexemeKind
  | string => .string
  | character => .character
  | arrow => .arrow
  | separator => .separator
  | float => .float
  | integer => .integer
  | symbol => .symbol
  | identifier => .identifier

/-- The pattern of the class. -/
def pattern : TokenClass → Pattern
  | string => .string
  | character => .character
  | arrow => .exactly ['-', '>']
  | separator => .exactly [':', ':']
  | float => .float
  | integer => .integer
  | symbol => .one (· ∈ symbols)
  | identifier => .identifier

/-- The test by which the grammar asks a token for the class. -/
def test : TokenClass → Token → Bool
  | string, token => token.isString
  | character, token => token.isCharacter
  | arrow, token => token.is "->"
  | separator, token => token.is Text.separator
  | float, token => token.isFloat
  | integer, token => token.isInteger
  | symbol, token => symbols.any fun c => token.is (String.singleton c)
  | identifier, token => token.isIdentifier

/-- **A test is the question for a pattern.** -/
theorem test_iff_matches {c : TokenClass} {token : Token} :
    c.test token = true ↔ c.pattern.Matches token.text.toList := by
  cases c with
  | string => exact Token.isString_iff_matches
  | character => exact Token.isCharacter_iff_matches
  | arrow => exact Token.is_iff_matches
  | separator => exact Token.is_iff_matches
  | float => exact Token.isFloat_iff_matches
  | integer => exact Token.isInteger_iff_matches
  | symbol =>
    simp only [test, pattern, List.any_eq_true, Token.is_iff_matches, Pattern.matches_exactly_iff,
      Pattern.matches_one_iff, String.toList_singleton, decide_eq_true_eq]
    exact exists_congr fun c => and_comm
  | identifier => exact Token.isIdentifier_iff_matches

/-- Every kind of lexemes that are tokens is the kind of a class. -/
theorem exists_kind_eq {kind : LexemeKind} (h : kind.isGap = false) :
    ∃ c : TokenClass, c.kind = kind := by
  cases kind with
  | string => exact ⟨.string, rfl⟩
  | character => exact ⟨.character, rfl⟩
  | comment => cases h
  | blank => cases h
  | arrow => exact ⟨.arrow, rfl⟩
  | separator => exact ⟨.separator, rfl⟩
  | float => exact ⟨.float, rfl⟩
  | integer => exact ⟨.integer, rfl⟩
  | symbol => exact ⟨.symbol, rfl⟩
  | identifier => exact ⟨.identifier, rfl⟩

end TokenClass

/-! ### No text has two of the patterns -/

/-- The only class that the text can be of. -/
def classOf : List Char → Option TokenClass
  | [] => none
  | '"' :: _ => some .string
  | '\'' :: _ => some .character
  | ['-', '>'] => some .arrow
  | [':', ':'] => some .separator
  | c :: rest =>
    if isNameStart c then some .identifier
    else if c ∈ symbols then some .symbol
    else if '.' ∈ rest then some .float
    else some .integer

theorem classOf_cons {c : Char} {rest : List Char} (hstring : c ≠ '"') (hcharacter : c ≠ '\'')
    (harrow : c :: rest ≠ ['-', '>']) (hseparator : c :: rest ≠ [':', ':']) :
    classOf (c :: rest) =
      if isNameStart c then some .identifier
      else if c ∈ symbols then some .symbol
      else if '.' ∈ rest then some .float
      else some .integer := by
  rw [classOf.eq_def]
  split
  · next heq => cases heq
  · next heq => exact absurd (List.cons.inj heq).1 hstring
  · next heq => exact absurd (List.cons.inj heq).1 hcharacter
  · next heq => exact absurd heq harrow
  · next heq => exact absurd heq hseparator
  · next heq =>
    cases heq
    rfl

/-- What opens a number opens nothing else, unless the arrow. -/
theorem classOf_number {c : Char} {rest : List Char} (hopens : LexemeKind.integer.opens c = true)
    (hrest : rest ≠ ['>']) :
    classOf (c :: rest) = if '.' ∈ rest then some .float else some .integer := by
  have hne {d : Char} (hd : LexemeKind.integer.opens d = false) : c ≠ d := by
    rintro rfl
    rw [hopens] at hd
    cases hd
  have hname : isNameStart c = false := by
    by_contra hstart
    rw [Bool.not_eq_false] at hstart
    rw [LexemeKind.opens, isDecimalDigit_eq_false hstart, Bool.or_false, beq_iff_eq] at hopens
    exact ne_of_isNameStart hstart rfl hopens
  have hsymbols : symbols.any LexemeKind.integer.opens = false := by decide
  have hnotSymbol : c ∉ symbols := fun hc => List.any_eq_false.1 hsymbols c hc hopens
  rw [classOf_cons (hne rfl) (hne rfl) (fun heq => hrest (List.cons.inj heq).2)
    fun heq => hne (d := ':') rfl (List.cons.inj heq).1, hname,
    if_neg Bool.false_ne_true, if_neg hnotSymbol]

theorem exists_cons_of_matches_integer {s : List Char} (h : Pattern.integer.Matches s) :
    ∃ c rest, s = c :: rest ∧ LexemeKind.integer.opens c = true ∧
      ∀ d ∈ rest, Text.isDecimalDigit d = true := by
  obtain ⟨sign, hsign, t, rfl, ht⟩ := Pattern.matches_integer_iff.1 h
  obtain ⟨hne, hdigits⟩ := Pattern.matches_run_iff.1 ht
  obtain rfl | rfl : sign = [] ∨ sign = ['-'] := by simpa using hsign
  · obtain ⟨c, rest, rfl⟩ := List.exists_cons_of_ne_nil hne
    obtain ⟨hc, hrest⟩ := List.forall_mem_cons.1 hdigits
    exact ⟨c, rest, rfl, by rw [LexemeKind.opens, hc, Bool.or_true], hrest⟩
  · exact ⟨'-', t, rfl, rfl, hdigits⟩

/-- **A pattern tells the class**: the first characters of a text of the pattern, and whether it has
a point, are those of no other pattern. -/
theorem classOf_of_matches {c : TokenClass} {s : List Char} (h : c.pattern.Matches s) :
    classOf s = some c := by
  cases c with
  | string =>
    obtain ⟨inner, rfl, -⟩ := Pattern.matches_between_iff.1 h
    rfl
  | character =>
    obtain ⟨inner, rfl, -⟩ := Pattern.matches_between_iff.1 h
    rfl
  | arrow =>
    obtain rfl := Pattern.matches_exactly_iff.1 h
    rfl
  | separator =>
    obtain rfl := Pattern.matches_exactly_iff.1 h
    rfl
  | float =>
    obtain ⟨whole, _, rfl, hwhole, hback⟩ := Pattern.matches_seq_iff.1 h
    obtain ⟨_, behind, rfl, hpoint, -⟩ := Pattern.matches_seq_iff.1 hback
    obtain rfl := Pattern.matches_only_iff.1 hpoint
    obtain ⟨c, rest, rfl, hopens, -⟩ := exists_cons_of_matches_integer hwhole
    -- The point behind the digits tells the number from an integer.
    have hmem : '.' ∈ rest ++ (['.'] ++ behind) := by simp
    have hne : rest ++ (['.'] ++ behind) ≠ ['>'] := by
      intro heq
      rw [heq] at hmem
      exact absurd hmem (by decide)
    rw [List.cons_append, classOf_number hopens hne, if_pos hmem]
  | integer =>
    obtain ⟨c, rest, rfl, hopens, hdigits⟩ := exists_cons_of_matches_integer h
    have hnotMem {d : Char} (hd : Text.isDecimalDigit d = false) : d ∉ rest := fun hmem => by
      rw [hdigits d hmem] at hd
      cases hd
    have hne : rest ≠ ['>'] := by
      rintro rfl
      exact hnotMem (d := '>') rfl List.mem_cons_self
    rw [classOf_number hopens hne, if_neg (hnotMem rfl)]
  | symbol =>
    obtain ⟨c, rfl, hc⟩ := Pattern.matches_one_iff.1 h
    have hsymbols : (symbols.all fun c => classOf [c] == some .symbol) = true := by decide
    exact beq_iff_eq.1 (List.all_eq_true.1 hsymbols c (of_decide_eq_true hc))
  | identifier =>
    obtain ⟨c, rest, rfl, hstart, -⟩ := Pattern.matches_cons_iff.1 h
    have hne {d : Char} (hd : isNameStart d = false) : c ≠ d := ne_of_isNameStart hstart hd
    rw [classOf_cons (hne rfl) (hne rfl) (fun heq => hne (d := '-') rfl (List.cons.inj heq).1)
      (fun heq => hne (d := ':') rfl (List.cons.inj heq).1), if_pos hstart]

/-! ### What is cut has the pattern of its kind -/

theorem matches_of_readToQuote {s text rest : List Char}
    (h : readToQuote s = some (text, rest)) :
    ∃ inner, text = inner ++ ['"'] ∧ (Pattern.many (.quoted '"')).Matches inner := by
  fun_induction readToQuote s generalizing text with
  | case1 => cases h
  | case2 =>
    cases h
    exact ⟨[], rfl, .stop⟩
  | case3 => cases h
  | case4 c s hline ih =>
    obtain ⟨part, rfl, hread⟩ := Cut.after_eq_some_iff.1 h
    obtain ⟨inner, rfl, hinner⟩ := ih hread
    exact ⟨'\\' :: c :: inner, rfl,
      .again (Pattern.matches_quoted_iff.2 (.inr ⟨c, rfl, hline⟩)) hinner⟩
  | case5 c s _ _ hplain ih =>
    obtain ⟨part, rfl, hread⟩ := Cut.after_eq_some_iff.1 h
    obtain ⟨inner, rfl, hinner⟩ := ih hread
    obtain ⟨hquote, hbackslash, -⟩ := isPlain_iff.1 hplain
    exact ⟨c :: inner, rfl,
      .again (Pattern.matches_quoted_iff.2 (.inl ⟨c, rfl, hquote, hbackslash⟩)) hinner⟩
  | case6 => cases h

theorem matches_of_readString {s text rest : List Char} (h : readString s = some (text, rest)) :
    Pattern.string.Matches text := by
  obtain ⟨_, part, -, rfl, hread⟩ := readString_eq_some_iff.1 h
  obtain ⟨inner, rfl, hinner⟩ := matches_of_readToQuote hread
  exact Pattern.matches_between_iff.2 ⟨inner, rfl, hinner⟩

theorem matches_of_readCharacter {s text rest : List Char}
    (h : readCharacter s = some (text, rest)) : Pattern.character.Matches text := by
  obtain ⟨-, ⟨c, hline, rfl⟩ | ⟨c, hquote, hbackslash, -, rfl⟩⟩ := readCharacter_eq_some_iff.1 h
  · exact Pattern.matches_between_iff.2
      ⟨['\\', c], rfl, Pattern.matches_quoted_iff.2 (.inr ⟨c, rfl, hline⟩)⟩
  · exact Pattern.matches_between_iff.2
      ⟨[c], rfl, Pattern.matches_quoted_iff.2 (.inl ⟨c, rfl, hquote, hbackslash⟩)⟩

theorem matches_of_readSymbol {s text rest : List Char} (h : readSymbol s = some (text, rest)) :
    (Pattern.one (· ∈ symbols)).Matches text := by
  obtain ⟨c, hc, rfl, -⟩ := readSymbol_eq_some_iff.1 h
  exact .one (decide_eq_true hc)

/-- **What is read to the end has the pattern**, although readers and patterns treat the ends of
lines differently. -/
theorem TokenClass.matches_of_read {c : TokenClass} {s : List Char}
    (h : c.kind.read s = some (s, [])) : c.pattern.Matches s := by
  cases c with
  | string => exact matches_of_readString h
  | character => exact matches_of_readCharacter h
  | arrow => exact Pattern.matches_exactly_iff.2 (readExactly_eq_some_iff.1 h).1
  | separator => exact Pattern.matches_exactly_iff.2 (readExactly_eq_some_iff.1 h).1
  | float => exact Pattern.readFloat_iff_matches.1 h
  | integer => exact (Pattern.readInteger_iff_matches.1 h).2.1
  | symbol => exact matches_of_readSymbol h
  | identifier => exact Pattern.readIdentifier_iff_matches.1 h

/-- **What is dropped is told by its pattern**: of the lexemes, the comments and the blanks have it
and no others. -/
theorem matches_gap_iff {kind : LexemeKind} {s text rest : List Char}
    (h : lexeme? s = some ⟨kind, text, rest⟩) :
    Pattern.gap.Matches text ↔ kind.isGap = true := by
  have halone : lexeme? text = some ⟨kind, text, []⟩ := by
    have hbehind : lexeme? s = some ⟨kind, text, [] ++ rest⟩ := h
    have hcut := lexeme?_append_of_lexeme? hbehind
    rwa [List.append_nil] at hcut
  rw [Pattern.gap, Pattern.matches_either_iff, Pattern.matches_seq_iff, Pattern.matches_run_iff]
  constructor
  · -- The text is cut as a comment or as blanks, and not as anything else.
    rintro (⟨_, words, rfl, hopening, hwords⟩ | ⟨hne, hblank⟩)
    · obtain rfl := Pattern.matches_exactly_iff.1 hopening
      have hread : LexemeKind.comment.read (['/', '/'] ++ words) = some (['/', '/'] ++ words, []) :=
        readComment_eq_some_iff.2
          ⟨words, rfl, (List.append_nil _).symm, Pattern.matches_many_one_iff.1 hwords, nofun⟩
      rw [lexeme?_eq_some_of_read hread (by decide)] at halone
      cases halone
      rfl
    · have hread : LexemeKind.blank.read text = some (text, []) :=
        readRun_eq_some_iff.2 ⟨(List.append_nil _).symm, hne, hblank, nofun⟩
      rw [lexeme?_eq_some_of_read hread (by decide)] at halone
      cases halone
      rfl
  · intro hgap
    have hread := (lexeme?_eq_some_iff.1 halone).2
    cases kind with
    | comment =>
      obtain ⟨words, rfl, -, hwords, -⟩ := readComment_eq_some_iff.1 hread
      exact .inl ⟨['/', '/'], words, rfl, Pattern.matches_exactly_iff.2 rfl,
        Pattern.matches_many_one_iff.2 hwords⟩
    | blank =>
      obtain ⟨-, hne, hblank, -⟩ := readRun_eq_some_iff.1 hread
      exact .inr ⟨hne, hblank⟩
    | _ => cases hgap

/-! ### The values of string literals -/

/-- The text with its escapes resolved, if no backslash is met with nothing behind it. -/
def unescaped? : List Char → Option (List Char)
  | [] => some []
  | ['\\'] => none
  | '\\' :: c :: rest => (unescaped? rest).map (unescapedChar c :: ·)
  | c :: rest => (unescaped? rest).map (c :: ·)

/-- What is resolved is what `RequestRouter.unescaped` makes of the text. -/
theorem unescaped_eq_of_unescaped? {s value : List Char} (h : unescaped? s = some value) :
    unescaped s = value := by
  fun_induction unescaped? s generalizing value with
  | case1 =>
    cases h
    rfl
  | case2 => cases h
  | case3 c rest ih =>
    obtain ⟨part, hpart, rfl⟩ := Option.map_eq_some_iff.1 h
    rw [unescaped, ih hpart]
  | case4 c rest _ hbackslash ih =>
    obtain ⟨part, hpart, rfl⟩ := Option.map_eq_some_iff.1 h
    rw [unescaped, ih hpart]
    exact hbackslash

/-- Between the quotes of a literal every backslash has a character behind it. -/
theorem unescaped?_of_matches {s : List Char} (h : (Pattern.many (.quoted '"')).Matches s) :
    unescaped? s = some (unescaped s) := by
  have hsome : ∃ value, unescaped? s = some value := by
    refine h.many_induction (motive := fun s => ∃ value, unescaped? s = some value) ⟨[], rfl⟩ ?_
    rintro t u ht ⟨value, hvalue⟩
    rcases Pattern.matches_quoted_iff.1 ht with ⟨c, rfl, -, hbackslash⟩ | ⟨c, rfl, -⟩
    · refine ⟨c :: value, ?_⟩
      rw [List.singleton_append, unescaped?, hvalue]
      · rfl
      · exact fun heq _ => hbackslash heq
      · exact fun _ _ heq _ => hbackslash heq
    · refine ⟨unescapedChar c :: value, ?_⟩
      rw [List.cons_append, List.singleton_append, unescaped?, hvalue]
      rfl
  obtain ⟨value, hvalue⟩ := hsome
  rw [hvalue, unescaped_eq_of_unescaped? hvalue]

theorem betweenQuotes_eq (inner : List Char) : betweenQuotes ('"' :: (inner ++ ['"'])) = inner := by
  simp [betweenQuotes]

/-! ### The tokens of a text -/

/-- The token is of the class, and nothing else can be made of it. -/
structure TokenClass.IsOf (c : TokenClass) (token : Token) : Prop where
  /-- Of the patterns, the token has the one of the class. -/
  matches_iff : ∀ other : TokenClass, other.pattern.Matches token.text.toList ↔ other = c
  /-- So of the tests it passes the one for the class. -/
  test_iff : ∀ other : TokenClass, other.test token = true ↔ other = c
  /-- The token does not have the pattern of the end of the file. -/
  not_nothing : ¬Pattern.nothing.Matches token.text.toList
  /-- So nothing ends at it. -/
  isEnd : token.isEnd = false
  /-- The value of a string literal is found between its quotes, and with every backslash there is
  a character behind it. -/
  value : c = .string → ∃ inner, token.text.toList = '"' :: (inner ++ ['"']) ∧
    betweenQuotes token.text.toList = inner ∧
    unescaped? inner = some (stringValue token.text).toList

theorem TokenClass.isOf_of_matches {c : TokenClass} {token : Token}
    (h : c.pattern.Matches token.text.toList) : c.IsOf token := by
  have hmatches (other : TokenClass) : other.pattern.Matches token.text.toList ↔ other = c := by
    constructor
    · intro hother
      exact Option.some.inj ((classOf_of_matches hother).symm.trans (classOf_of_matches h))
    · rintro rfl
      exact h
  have hnothing : ¬Pattern.nothing.Matches token.text.toList := by
    intro hempty
    have hclass := classOf_of_matches h
    rw [Pattern.matches_nothing_iff.1 hempty] at hclass
    cases hclass
  refine ⟨hmatches, fun other => test_iff_matches.trans (hmatches other), hnothing, ?_, ?_⟩
  · rwa [← Bool.not_eq_true, Token.isEnd_iff_matches]
  · rintro rfl
    obtain ⟨inner, heq, hinner⟩ := Pattern.matches_between_iff.1 h
    have hbetween : betweenQuotes token.text.toList = inner := by rw [heq, betweenQuotes_eq]
    refine ⟨inner, heq, hbetween, ?_⟩
    rw [stringValue, String.toList_ofList, hbetween]
    exact unescaped?_of_matches hinner

/-- The tokens among lexemes are of the classes that these were cut as. -/
theorem forall₂_tokensAmong {lexemes : List BareLexeme}
    (h : ∀ bare ∈ lexemes, lexeme? bare.text = some ⟨bare.kind, bare.text, []⟩)
    (before : List Char) :
    List.Forall₂ (fun bare token => token.text.toList = bare.text ∧
        ∃ c : TokenClass, c.kind = bare.kind ∧ c.IsOf token)
      (lexemes.filter fun bare => !bare.kind.isGap) (tokensAmong before lexemes) := by
  induction lexemes generalizing before with
  | nil => exact .nil
  | cons bare lexemes ih =>
    obtain ⟨hbare, hlexemes⟩ := List.forall_mem_cons.1 h
    rw [tokensAmong]
    split
    · next hgap =>
      rw [List.filter_cons_of_neg (by simpa using hgap)]
      exact ih hlexemes _
    · next hgap =>
      rw [List.filter_cons_of_pos (by simpa using hgap)]
      obtain ⟨c, hkind⟩ := TokenClass.exists_kind_eq (Bool.not_eq_true _ ▸ hgap)
      have hread := (lexeme?_eq_some_iff.1 hbare).2
      rw [← hkind] at hread
      refine .cons ⟨String.toList_ofList, c, hkind, TokenClass.isOf_of_matches ?_⟩ (ih hlexemes _)
      rw [String.toList_ofList]
      exact TokenClass.matches_of_read hread

/-- **Cutting a text and asking its tokens agree.** The tokens of a text are those that its scan
finds, and the empty token. Each of those that are found has exactly one of the patterns that the
grammar asks for: the one of the kind that it was cut as. It does not have the pattern of the end of
the file; and if it is a string literal, its value is the text between its two quotes with the
escapes resolved, of which each is complete. -/
theorem exists_classes_of_tokens {text : String} {ts : List Token} (h : tokens text = .ok ts) :
    ∃ lexemes front last, LexesTo text.toList lexemes [] ∧ ts = front ++ [last] ∧
      Pattern.nothing.Matches last.text.toList ∧
      List.Forall₂ (fun bare token => token.text.toList = bare.text ∧
          ∃ c : TokenClass, c.kind = bare.kind ∧ c.IsOf token)
        (lexemes.filter fun bare => !bare.kind.isGap) front := by
  obtain ⟨lexemes, hlexes, rfl⟩ := exists_lexesTo_of_tokens h
  exact ⟨lexemes, _, _, hlexes, rfl, .nothing, forall₂_tokensAmong hlexes.lexeme?_text []⟩

/-- A string with two escapes, a number with a fraction, a separator and a name. -/
def literalRow : List Token :=
  [⟨"\"a\\\"\\n\"", ⟨1, 1⟩⟩, ⟨"-1.5e+3f", ⟨1, 8⟩⟩, ⟨"::", ⟨1, 16⟩⟩, ⟨"b", ⟨1, 18⟩⟩]

/-- The quote behind the first backslash does not end the string. -/
theorem exists_classes_of_tokens_literalRow :
    tokens "\"a\\\"\\n\"-1.5e+3f::b" = .ok (literalRow ++ [⟨"", ⟨1, 19⟩⟩]) ∧
      ∃ lexemes, LexesTo "\"a\\\"\\n\"-1.5e+3f::b".toList lexemes [] ∧
        List.Forall₂ (fun bare token => token.text.toList = bare.text ∧
            ∃ c : TokenClass, c.kind = bare.kind ∧ c.IsOf token)
          (lexemes.filter fun bare => !bare.kind.isGap) literalRow := by
  have htokens :
      tokens "\"a\\\"\\n\"-1.5e+3f::b" = .ok (literalRow ++ [⟨"", ⟨1, 19⟩⟩]) := by
    cbv
  obtain ⟨lexemes, front, last, hlexes, hts, -, hclasses⟩ := exists_classes_of_tokens htokens
  obtain ⟨rfl, -⟩ := List.append_inj' hts rfl
  exact ⟨htokens, lexemes, hlexes, hclasses⟩

end RequestRouter
