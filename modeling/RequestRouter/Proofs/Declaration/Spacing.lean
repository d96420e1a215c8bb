import RequestRouter.Proofs.Declaration.Scanning
import RequestRouter.Proofs.Declaration.Spelling

/-!
# Spacing tokens afresh

Tokens can be written down again with any spacing between them, of blank characters and of comments
that end with their lines (`RequestRouter.IsSpacing`), and are read again as the same tokens. Main
statement: `RequestRouter.exists_tokens_textOf`.

A token stands alone: it is what is read of its own text. Whether it still is with something behind
it depends on its kind. A literal between quotes is closed, so nothing behind it matters; of the
other kinds none goes on with a blank character or a slash (`RequestRouter.Halts`), and these are
what a spacing starts with. The kinds that are tried earlier do not come in between, since they
start with characters of their own (`RequestRouter.LexemeKind.opens`).
-/

namespace RequestRouter

/-! ### What parts tokens -/

namespace Text

/-- Ranges that are apart have no character in common. -/
theorem inRanges_eq_false {ranges others : List (Nat × Nat)}
    (hapart : ∀ range ∈ ranges, ∀ other ∈ others, range.2 < other.1 ∨ other.2 < range.1)
    {c : Char} (h : inRanges ranges c = true) : inRanges others c = false := by
  obtain ⟨range, hrange, hc⟩ := List.any_eq_true.1 h
  refine List.any_eq_false.2 fun other hother hc' => ?_
  have hor := hapart range hrange other hother
  simp only [Bool.and_eq_true, decide_eq_true_eq] at hc hc'
  omega

theorem isDecimalDigit_eq_false_of_isBlank {c : Char} (h : isBlank c = true) :
    isDecimalDigit c = false :=
  inRanges_eq_false (by decide) h

end Text

/-- Whether `c` may stand in front of what parts tokens. -/
def isParting (c : Char) : Bool := Text.isBlank c || c == '/'

/-- Nothing is behind a token, or something that parts it from others. -/
def IsParted (s : List Char) : Prop := ∀ c ∈ s.head?, isParting c = true

theorem isParted_newline (s : List Char) : IsParted ('\n' :: s) := by
  rintro _ ⟨⟩
  rfl

theorem isDecimalDigit_eq_false_of_isParting {c : Char} (h : isParting c = true) :
    Text.isDecimalDigit c = false := by
  rcases Bool.or_eq_true_iff.1 h with hblank | hslash
  · exact Text.isDecimalDigit_eq_false_of_isBlank hblank
  · obtain rfl : c = '/' := by simpa using hslash
    rfl

theorem isNamePart_eq_false_of_isParting {c : Char} (h : isParting c = true) :
    isNamePart c = false := by
  rcases Bool.or_eq_true_iff.1 h with hblank | hslash
  · by_contra hpart
    rw [Text.isBlank_eq_false_of_isNamePart (by simpa using hpart)] at hblank
    cases hblank
  · obtain rfl : c = '/' := by simpa using hslash
    rfl

/-! ### Readers that halt -/

/-- The cut with `behind` at the end of what is left. -/
def Cut.followedBy (cut : Cut) (behind : List Char) : Cut :=
  cut.map fun parts => (parts.1, parts.2 ++ behind)

/-- The reader does not go on with what parts tokens. -/
def Halts (read : List Char → Cut) : Prop :=
  ∀ s behind, IsParted behind → read (s ++ behind) = (read s).followedBy behind

/-- A front without parting characters is one of the text in front of what parts it. -/
theorem exists_append_of_isParted {s behind front s' : List Char} (hparted : IsParted behind)
    (hfront : front.any isParting = false) (h : s ++ behind = front ++ s') :
    ∃ rest, s = front ++ rest ∧ s' = rest ++ behind := by
  rcases List.append_eq_append_iff.1 h with ⟨part, rfl, rfl⟩ | ⟨rest, rfl, rfl⟩
  · cases part with
    | nil => exact ⟨[], by simp, rfl⟩
    | cons c part =>
      exact absurd (hparted c rfl) (List.any_eq_false.1 hfront c (by simp))
  · exact ⟨rest, rfl, rfl⟩

section

variable {p : Char → Bool}

theorem takeWhile_append_of_isParted (hp : ∀ c, isParting c = true → p c = false)
    {behind : List Char} (hparted : IsParted behind) (s : List Char) :
    (s ++ behind).takeWhile p = s.takeWhile p ∧
      (s ++ behind).dropWhile p = s.dropWhile p ++ behind := by
  obtain ⟨hsplit, htaken, hleft⟩ := takeWhile_dropWhile_eq_iff.1
    (⟨rfl, rfl⟩ : s.takeWhile p = _ ∧ s.dropWhile p = _)
  refine takeWhile_dropWhile_eq_iff.2 ⟨by rw [← List.append_assoc, ← hsplit], htaken, ?_⟩
  cases hdrop : s.dropWhile p with
  | nil => exact fun c hc => hp c (hparted c hc)
  | cons d rest =>
    rw [hdrop] at hleft
    exact hleft

theorem halts_readRun (hp : ∀ c, isParting c = true → p c = false) : Halts (readRun p) := by
  intro s behind hparted
  obtain ⟨htake, hdrop⟩ := takeWhile_append_of_isParted hp hparted s
  rw [readRun, readRun, htake, hdrop]
  split <;> rfl

theorem halts_readDigits : Halts readDigits :=
  halts_readRun fun _ => isDecimalDigit_eq_false_of_isParting

/-- Where one of some fronts can be taken before what a reader that halts reads, this halts too, if
no front has a parting character. -/
theorem Halts.of_fronts {read base : List Char → Cut} {fronts : List (List Char)}
    (hbase : Halts base) (hfronts : ∀ front ∈ fronts, front.any isParting = false)
    (h : ∀ s text rest, read s = some (text, rest) ↔ ∃ front ∈ fronts, ∃ part s',
      text = front ++ part ∧ s = front ++ s' ∧ base s' = some (part, rest)) :
    Halts read := by
  intro s behind hparted
  refine Option.ext fun ⟨text, left⟩ => ?_
  rw [h, Cut.followedBy, Option.map_eq_some_iff]
  constructor
  · rintro ⟨front, hfront, part, s', rfl, hs, hpart⟩
    obtain ⟨rest, rfl, rfl⟩ := exists_append_of_isParted hparted (hfronts front hfront) hs
    rw [hbase _ _ hparted] at hpart
    obtain ⟨⟨part', rest'⟩, hread, hpair⟩ := Option.map_eq_some_iff.1 hpart
    obtain ⟨rfl, rfl⟩ := Prod.mk.inj hpair
    exact ⟨(front ++ part', rest'), (h _ _ _).2 ⟨front, hfront, part', rest, rfl, rfl, hread⟩, rfl⟩
  · rintro ⟨⟨_, rest'⟩, hread, hpair⟩
    obtain ⟨rfl, rfl⟩ := Prod.mk.inj hpair
    obtain ⟨front, hfront, part, s', rfl, rfl, hpart⟩ := (h _ _ _).1 hread
    refine ⟨front, hfront, part, s' ++ behind, rfl, List.append_assoc _ _ _, ?_⟩
    rw [hbase _ _ hparted, hpart]
    rfl

theorem halts_readInteger : Halts readInteger :=
  halts_readDigits.of_fronts (by decide) fun _ _ _ => readInteger_eq_some_iff

theorem halts_readExponent : Halts readExponent :=
  halts_readDigits.of_fronts (by decide) fun _ _ _ => readExponent_eq_some_iff

theorem halts_readExactly {text : List Char} (htext : text.any isParting = false) :
    Halts (readExactly text) := by
  have hnothing : Halts fun s => some ([], s) := fun _ _ _ => rfl
  refine hnothing.of_fronts (List.forall_mem_singleton.2 htext) fun s part rest => ?_
  rw [readExactly_eq_some_iff]
  simp

/-- Readers that read nothing in front of what parts tokens halt, if they do behind a first
character. -/
theorem Halts.of_cons {read : List Char → Cut} (hnil : read [] = none)
    (hparting : ∀ c s, isParting c = true → read (c :: s) = none)
    (hcons : ∀ c s behind, IsParted behind →
      read (c :: (s ++ behind)) = (read (c :: s)).followedBy behind) : Halts read := by
  rintro (_ | ⟨c, s⟩) behind hparted
  · rw [List.nil_append, hnil]
    cases behind with
    | nil => exact hnil
    | cons c behind => exact hparting c behind (hparted c rfl)
  · exact hcons c s behind hparted

theorem halts_readSuffix : Halts readSuffix := by
  refine .of_cons rfl (fun c s hparting => if_neg fun hc => ?_) fun c s behind _ => ?_
  · simp only [Bool.or_eq_true, decide_eq_true_eq] at hc
    rcases hc with rfl | rfl <;> cases hparting
  · rw [readSuffix, readSuffix]
    split <;> rfl

theorem halts_readSymbol : Halts readSymbol := by
  have hsymbols : symbols.any isParting = false := by decide
  refine .of_cons rfl (fun c s hparting => if_neg fun hc => ?_) fun c s behind _ => ?_
  · exact List.any_eq_false.1 hsymbols c hc hparting
  · rw [readSymbol, readSymbol]
    split <;> rfl

theorem halts_readIdentifier : Halts readIdentifier := by
  refine .of_cons rfl (fun c s hparting => if_neg fun hc => ?_) fun c s behind hparted => ?_
  · have hpart := isNamePart_eq_false_of_isParting hparting
    rw [isNamePart, hc] at hpart
    cases hpart
  · obtain ⟨htake, hdrop⟩ :=
      takeWhile_append_of_isParted (fun _ => isNamePart_eq_false_of_isParting) hparted s
    rw [readIdentifier, readIdentifier, htake, hdrop]
    split <;> rfl

theorem Halts.readOptional {read : List Char → Cut} (h : Halts read) {s behind : List Char}
    (hparted : IsParted behind) :
    RequestRouter.readOptional read (s ++ behind) =
      ((RequestRouter.readOptional read s).1, (RequestRouter.readOptional read s).2 ++ behind) := by
  rw [RequestRouter.readOptional, RequestRouter.readOptional, h s behind hparted]
  cases read s <;> rfl

theorem halts_readFloat : Halts readFloat := by
  intro s behind hparted
  have hpoint : Halts (readExactly ['.']) := halts_readExactly (by decide)
  simp only [readFloat, Option.bind_eq_bind, halts_readInteger _ _ hparted, Cut.followedBy,
    Option.bind_map, Option.map_bind, Function.comp_def, hpoint _ _ hparted,
    halts_readDigits _ _ hparted, halts_readExponent.readOptional hparted,
    halts_readSuffix.readOptional hparted, Option.map_some]

end

/-! ### Tokens that are parted from what is behind them -/

namespace LexemeKind

/-- The kinds that are told from all others by their first character. -/
def marked : List LexemeKind := [string, character, comment, blank]

/-- Whether lexemes of the kind start with `c`, if only in front of some texts. -/
def opens : LexemeKind → Char → Bool
  | .string, c => c == '"'
  | .character, c => c == '\''
  | .comment, c => c == '/'
  | .blank, c => Text.isBlank c
  | .arrow, c => c == '-'
  | .separator, c => c == ':'
  | .float, c => c == '-' || Text.isDecimalDigit c
  | .integer, c => c == '-' || Text.isDecimalDigit c
  | .symbol, c => c ∈ symbols
  | .identifier, c => isNameStart c

/-- A kind reads nothing in front of a text whose first character does not open it. -/
theorem read_eq_none_of_opens {kind : LexemeKind} {c : Char} (h : kind.opens c = false)
    (s : List Char) : kind.read (c :: s) = none := by
  have hinteger (hc : (c == '-' || Text.isDecimalDigit c) = false) :
      readInteger (c :: s) = none := by
    rw [Bool.or_eq_false_iff, beq_eq_false_iff_ne] at hc
    exact readInteger_eq_none hc.1 hc.2
  cases kind with
  | string =>
    rw [read, readString.eq_def]
    split
    · next heq => exact absurd (List.cons.inj heq).1 (beq_eq_false_iff_ne.1 h)
    · rfl
  | character =>
    have hc : c ≠ '\'' := beq_eq_false_iff_ne.1 h
    rw [read, readCharacter.eq_def]
    split
    · next heq => exact absurd (List.cons.inj heq).1 hc
    · next heq => exact absurd (List.cons.inj heq).1 hc
    · rfl
  | comment =>
    rw [read, readComment.eq_def]
    split
    · next heq => exact absurd (List.cons.inj heq).1 (beq_eq_false_iff_ne.1 h)
    · rfl
  | blank =>
    refine readRun_eq_none_iff.2 fun d hd => ?_
    obtain rfl : c = d := Option.some.inj hd
    exact h
  | arrow => exact if_neg (by simp [(beq_eq_false_iff_ne.1 h).symm])
  | separator => exact if_neg (by simp [(beq_eq_false_iff_ne.1 h).symm])
  | float => exact readFloat_eq_none (hinteger h)
  | integer => exact hinteger h
  | symbol => exact if_neg (of_decide_eq_false h)
  | identifier => exact if_neg (ne_true_of_eq_false h)

/-- The kinds that do not look at what parts tokens. -/
theorem halts_read {kind : LexemeKind} (h : kind ∉ marked) :
    Halts kind.read := by
  cases kind with
  | arrow => exact halts_readExactly (by decide)
  | separator => exact halts_readExactly (by decide)
  | float => exact halts_readFloat
  | integer => exact halts_readInteger
  | symbol => exact halts_readSymbol
  | identifier => exact halts_readIdentifier
  | _ => exact absurd (by decide) h

/-- Blank characters only open runs of them. -/
theorem isBlank_eq_false_of_opens {kind : LexemeKind} {c : Char} (h : kind.opens c = true)
    (hne : kind ≠ blank) : Text.isBlank c = false := by
  have hnumber (hc : (c == '-' || Text.isDecimalDigit c) = true) : Text.isBlank c = false := by
    rcases Bool.or_eq_true_iff.1 hc with hminus | hdigit
    · obtain rfl : c = '-' := beq_iff_eq.1 hminus
      rfl
    · by_contra hblank
      rw [Text.isDecimalDigit_eq_false_of_isBlank (by simpa using hblank)] at hdigit
      cases hdigit
  cases kind with
  | blank => exact absurd rfl hne
  | float => exact hnumber h
  | integer => exact hnumber h
  | symbol =>
    have hsymbols : symbols.any Text.isBlank = false := by decide
    simpa using List.any_eq_false.1 hsymbols c (of_decide_eq_true h)
  | identifier =>
    refine Text.isBlank_eq_false_of_isNamePart ?_
    rw [isNamePart, show isNameStart c = true from h, Bool.true_or]
  | _ =>
    obtain rfl := beq_iff_eq.1 h
    rfl

/-- What opens a kind that is told by its first character opens no other kind. -/
theorem eq_of_opens {kind other : LexemeKind} {c : Char} (h : kind.opens c = true)
    (hother : other.opens c = true) (hmarked : other ∈ marked) :
    kind = other := by
  simp only [marked, List.mem_cons, List.not_mem_nil, or_false] at hmarked
  rcases hmarked with rfl | rfl | rfl | rfl
  · obtain rfl : c = '"' := beq_iff_eq.1 hother
    cases kind <;> first | rfl | cases h
  · obtain rfl : c = '\'' := beq_iff_eq.1 hother
    cases kind <;> first | rfl | cases h
  · obtain rfl : c = '/' := beq_iff_eq.1 hother
    cases kind <;> first | rfl | cases h
  · by_contra hne
    rw [opens, isBlank_eq_false_of_opens h hne] at hother
    cases hother

theorem ne_of_mem_earlier {kind other : LexemeKind} (h : other ∈ kind.earlier) : other ≠ kind := by
  simpa using List.mem_takeWhile_imp h

/-- In front of what opens a kind, nothing is read earlier by those told by their first
character. -/
theorem read_eq_none_of_mem_earlier {kind other : LexemeKind} {c : Char} (h : kind.opens c = true)
    (hother : other ∈ kind.earlier) (hmarked : other ∈ marked)
    (s : List Char) : other.read (c :: s) = none := by
  refine read_eq_none_of_opens ?_ s
  by_contra hopens
  rw [Bool.not_eq_false] at hopens
  exact ne_of_mem_earlier hother (eq_of_opens h hopens hmarked).symm

theorem opens_of_read {kind : LexemeKind} {c : Char} {s : List Char} {parts : List Char × List Char}
    (h : kind.read (c :: s) = some parts) : kind.opens c = true := by
  by_contra hopens
  rw [read_eq_none_of_opens (by simpa using hopens)] at h
  cases h

end LexemeKind

/-- **A token stays where text is added that is parted from what it is added to**: the token in
front of a text is the one in front of the longer text. -/
theorem lexeme?_append_of_isParted {kind : LexemeKind} {s text rest behind : List Char}
    (hkind : kind.isGap = false) (h : lexeme? s = some ⟨kind, text, rest⟩)
    (hparted : IsParted behind) :
    lexeme? (s ++ behind) = some ⟨kind, text, rest ++ behind⟩ := by
  obtain ⟨hearlier, hread⟩ := lexeme?_eq_some_iff.1 h
  obtain ⟨happend, hne⟩ := LexemeKind.append_of_read hread
  have hhalts {other : LexemeKind} (hother : other ∉ LexemeKind.marked) :
      other.read (s ++ behind) = (other.read s).followedBy behind :=
    LexemeKind.halts_read hother s behind hparted
  refine lexeme?_eq_some_iff.2 ⟨fun other hother => ?_, ?_⟩
  · -- of the kinds tried earlier, some cannot start here, and the others halt
    by_cases hmarked : other ∈ LexemeKind.marked
    · obtain ⟨c, front, rfl⟩ : ∃ c front, s = c :: front :=
        List.exists_cons_of_ne_nil (happend ▸ List.append_ne_nil_of_left_ne_nil hne rest)
      exact LexemeKind.read_eq_none_of_mem_earlier (LexemeKind.opens_of_read hread) hother hmarked _
    · rw [hhalts hmarked, hearlier other hother]
      rfl
  · cases kind with
    | string =>
      rw [← happend, List.append_assoc]
      exact settles_readString _ _ _ hread _
    | character =>
      rw [← happend, List.append_assoc]
      exact settles_readCharacter _ _ _ hread _
    | comment => cases hkind
    | blank => cases hkind
    | _ =>
      rw [hhalts (by decide), hread]
      rfl

/-- What a kind reads that is told by its first character is a lexeme. -/
theorem lexeme?_eq_some_of_read {kind : LexemeKind} {s text rest : List Char}
    (hread : kind.read s = some (text, rest))
    (hmarked : kind ∈ LexemeKind.marked) :
    lexeme? s = some ⟨kind, text, rest⟩ := by
  refine lexeme?_eq_some_iff.2 ⟨fun other hother => ?_, hread⟩
  have hearlier : ∀ kind ∈ LexemeKind.marked, ∀ other ∈ kind.earlier,
      other ∈ LexemeKind.marked := by decide
  cases s with
  | nil =>
    obtain ⟨happend, hne⟩ := LexemeKind.append_of_read hread
    exact absurd (List.append_eq_nil_iff.1 happend).1 hne
  | cons c s =>
    exact LexemeKind.read_eq_none_of_mem_earlier (LexemeKind.opens_of_read hread) hother
      (hearlier kind hmarked other hother) s

/-- A blank character joins the run behind it, if there is one. -/
theorem lexeme?_cons_of_isBlank {c : Char} (hblank : Text.isBlank c = true) (s : List Char) :
    lexeme? (c :: s) = some ⟨.blank, [c], s⟩ ∨
      ∃ run rest, lexeme? s = some ⟨.blank, run, rest⟩ ∧
        lexeme? (c :: s) = some ⟨.blank, c :: run, rest⟩ := by
  rcases hrun : readRun Text.isBlank s with - | ⟨run, rest⟩
  · have hread : LexemeKind.blank.read (c :: s) = some ([c], s) :=
      readRun_eq_some_iff.2 ⟨rfl, by simp, by simpa using hblank, readRun_eq_none_iff.1 hrun⟩
    exact .inl (lexeme?_eq_some_of_read hread (by decide))
  · obtain ⟨rfl, -, hblanks, hrest⟩ := readRun_eq_some_iff.1 hrun
    have hread : LexemeKind.blank.read (c :: (run ++ rest)) = some (c :: run, rest) :=
      readRun_eq_some_iff.2 ⟨rfl, by simp, List.forall_mem_cons.2 ⟨hblank, hblanks⟩, hrest⟩
    exact .inr ⟨run, rest, lexeme?_eq_some_of_read hrun (by decide),
      lexeme?_eq_some_of_read hread (by decide)⟩

/-- A scan to the end of a text starts with the lexeme in front of it. -/
theorem LexesTo.exists_cons {kind : LexemeKind} {s text rest : List Char}
    {lexemes : List BareLexeme} (h : LexesTo s lexemes [])
    (hlexeme : lexeme? s = some ⟨kind, text, rest⟩) :
    ∃ later, lexemes = ⟨kind, text⟩ :: later ∧ LexesTo rest later [] := by
  cases h with
  | done =>
    rw [lexeme?_nil] at hlexeme
    cases hlexeme
  | step hearlier hread hlexes =>
    rw [lexeme?_eq_some_iff.2 ⟨hearlier, hread⟩] at hlexeme
    cases hlexeme
    exact ⟨_, rfl, hlexes⟩

/-! ### Spacing -/

/-- The characters only part tokens, whatever is behind them: blank characters, and comments with
the ends of their lines. -/
inductive IsSpacing : List Char → Prop where
  /-- Nothing. -/
  | nil : IsSpacing []
  /-- A blank character in front of a spacing. -/
  | blank {c : Char} {s : List Char} (hblank : Text.isBlank c = true) (h : IsSpacing s) :
      IsSpacing (c :: s)
  /-- A comment and the end of its line in front of a spacing. -/
  | comment {words s : List Char} (hline : '\n' ∉ words) (h : IsSpacing s) :
      IsSpacing ('/' :: '/' :: words ++ '\n' :: s)

theorem IsSpacing.isParted {s behind : List Char} (h : IsSpacing s)
    (hbehind : s = [] → IsParted behind) : IsParted (s ++ behind) := by
  cases h with
  | nil => exact hbehind rfl
  | blank hblank =>
    rintro _ ⟨⟩
    rw [isParting, hblank, Bool.true_or]
  | comment =>
    rintro _ ⟨⟩
    rfl

/-- The texts of the tokens among lexemes. -/
def spelled (lexemes : List BareLexeme) : List (List Char) :=
  (lexemes.filter fun bare => !bare.kind.isGap).map BareLexeme.text

/-- The text is scanned to its end, and the tokens that are found have the given texts. -/
def Spells (s : List Char) (texts : List (List Char)) : Prop :=
  ∃ lexemes, LexesTo s lexemes [] ∧ spelled lexemes = texts

namespace Spells

variable {s : List Char} {texts : List (List Char)}

theorem nil : Spells [] [] := ⟨[], .done [], rfl⟩

/-- A token in front of what parts it from others. -/
theorem token {text : List Char} {kind : LexemeKind} (hkind : kind.isGap = false)
    (halone : lexeme? text = some ⟨kind, text, []⟩) (hparted : IsParted s) (h : Spells s texts) :
    Spells (text ++ s) (text :: texts) := by
  obtain ⟨lexemes, hlexes, rfl⟩ := h
  obtain ⟨hearlier, hread⟩ :=
    lexeme?_eq_some_iff.1 (lexeme?_append_of_isParted hkind halone hparted)
  exact ⟨⟨kind, text⟩ :: lexemes, .step hearlier hread hlexes, by simp [spelled, hkind]⟩

/-- What only parts tokens, in front of a text. -/
theorem gap {kind : LexemeKind} {text rest : List Char} (hgap : kind.isGap = true)
    (hlexeme : lexeme? s = some ⟨kind, text, rest⟩) (h : Spells rest texts) : Spells s texts := by
  obtain ⟨lexemes, hlexes, rfl⟩ := h
  obtain ⟨hearlier, hread⟩ := lexeme?_eq_some_iff.1 hlexeme
  exact ⟨⟨kind, text⟩ :: lexemes, .step hearlier hread hlexes, by simp [spelled, hgap]⟩

/-- A blank character in front of a text that is scanned to its end. -/
theorem blank {c : Char} (hblank : Text.isBlank c = true) (h : Spells s texts) :
    Spells (c :: s) texts := by
  rcases lexeme?_cons_of_isBlank hblank s with hlexeme | ⟨run, rest, hrun, hlexeme⟩
  · exact h.gap rfl hlexeme
  · obtain ⟨lexemes, hlexes, rfl⟩ := h
    obtain ⟨later, rfl, hlater⟩ := hlexes.exists_cons hrun
    have hspells : Spells rest (spelled later) := ⟨later, hlater, rfl⟩
    exact hspells.gap rfl hlexeme

/-- A comment ends with its line. -/
theorem comment {words : List Char} (hline : '\n' ∉ words) (h : Spells s texts) :
    Spells ('/' :: '/' :: words ++ '\n' :: s) texts := by
  have hwords : ∀ c ∈ words, isOnLine c = true := fun c hc =>
    bne_iff_ne.2 (ne_of_mem_of_not_mem hc hline)
  have hread : LexemeKind.comment.read ('/' :: '/' :: words ++ '\n' :: s) =
      some ('/' :: '/' :: words, '\n' :: s) :=
    readComment_eq_some_iff.2 ⟨words, rfl, rfl, hwords, by rintro _ ⟨⟩; rfl⟩
  exact (h.blank rfl).gap rfl (lexeme?_eq_some_of_read hread (by decide))

theorem spacing {gap : List Char} (hgap : IsSpacing gap) (h : Spells s texts) :
    Spells (gap ++ s) texts := by
  induction hgap with
  | nil => exact h
  | blank hblank _ ih => exact ih.blank hblank
  | comment hline _ ih =>
    have hcomment := ih.comment hline
    rwa [← List.cons_append, ← List.append_assoc] at hcomment

end Spells

/-! ### Rows of tokens -/

/-- The token is what is read of its own text. -/
def Token.StandsAlone (token : Token) : Prop :=
  ∃ kind : LexemeKind, kind.isGap = false ∧
    lexeme? token.text.toList = some ⟨kind, token.text.toList, []⟩

/-- The lexemes that a scan finds are read of their own texts. -/
theorem LexesTo.lexeme?_text {s rest : List Char} {lexemes : List BareLexeme}
    (h : LexesTo s lexemes rest) :
    ∀ bare ∈ lexemes, lexeme? bare.text = some ⟨bare.kind, bare.text, []⟩ := by
  induction h with
  | done => exact List.forall_mem_nil _
  | @step kind s text behind rest lexemes hearlier hread hlexes ih =>
    have hlexeme : lexeme? s = some ⟨kind, text, [] ++ behind⟩ :=
      lexeme?_eq_some_iff.2 ⟨hearlier, hread⟩
    have halone := lexeme?_append_of_lexeme? hlexeme
    rw [List.append_nil] at halone
    exact List.forall_mem_cons.2 ⟨halone, ih⟩

theorem map_text_tokensAmong (before : List Char) (lexemes : List BareLexeme) :
    (tokensAmong before lexemes).map Token.text = (spelled lexemes).map String.ofList := by
  induction lexemes generalizing before with
  | nil => rfl
  | cons bare lexemes ih =>
    rw [tokensAmong]
    split
    · next hgap => rw [ih, spelled, spelled, List.filter_cons_of_neg (by simpa using hgap)]
    · next hgap =>
      rw [List.map_cons, ih, spelled, spelled, List.filter_cons_of_pos (by simpa using hgap)]
      rfl

theorem standsAlone_of_mem_tokensAmong {lexemes : List BareLexeme}
    (h : ∀ bare ∈ lexemes, lexeme? bare.text = some ⟨bare.kind, bare.text, []⟩)
    {before : List Char} {token : Token} (htoken : token ∈ tokensAmong before lexemes) :
    token.StandsAlone := by
  induction lexemes generalizing before with
  | nil => cases htoken
  | cons bare lexemes ih =>
    obtain ⟨hbare, hlexemes⟩ := List.forall_mem_cons.1 h
    rw [tokensAmong] at htoken
    split at htoken
    · exact ih hlexemes htoken
    · next hgap =>
      rcases List.mem_cons.1 htoken with rfl | hlater
      · refine ⟨bare.kind, by simpa using hgap, ?_⟩
        rw [String.toList_ofList]
        exact hbare
      · exact ih hlexemes hlater

/-- The tokens of a text are such that stand alone, and the empty token. -/
theorem exists_standsAlone_of_tokens {text : String} {ts : List Token} (h : tokens text = .ok ts) :
    ∃ front last, ts = front ++ [last] ∧ last.text = "" ∧ ∀ token ∈ front, token.StandsAlone := by
  obtain ⟨lexemes, hlexes, rfl⟩ := exists_lexesTo_of_tokens h
  exact ⟨_, _, rfl, rfl, fun token => standsAlone_of_mem_tokensAmong hlexes.lexeme?_text⟩

theorem isParted_nil : IsParted [] := by
  rintro _ ⟨⟩

/-- Spaced tokens are parted from the token in front of them. -/
theorem isParted_textOf {front : List SpacedToken} {last : SpacedToken}
    (hlast : last.token.text = "") (hspacing : ∀ spaced ∈ front ++ [last], IsSpacing spaced.gap)
    (hgaps : ∀ spaced ∈ front, spaced.gap ≠ []) : IsParted (textOf (front ++ [last])) := by
  cases front with
  | nil =>
    rw [List.nil_append, textOf_cons, hlast]
    exact (hspacing last List.mem_cons_self).isParted fun _ => isParted_nil
  | cons first front =>
    rw [List.cons_append, textOf_cons]
    exact (hspacing first List.mem_cons_self).isParted fun hnil =>
      absurd hnil (hgaps first List.mem_cons_self)

/-- Tokens that stand alone are read again with any spacing between them. -/
theorem spells_textOf {front : List SpacedToken} {last : SpacedToken}
    (halone : ∀ spaced ∈ front, spaced.token.StandsAlone) (hlast : last.token.text = "")
    (hspacing : ∀ spaced ∈ front ++ [last], IsSpacing spaced.gap)
    (hgaps : ∀ spaced ∈ front.tail, spaced.gap ≠ []) :
    Spells (textOf (front ++ [last])) (front.map fun spaced => spaced.token.text.toList) := by
  induction front with
  | nil =>
    rw [List.nil_append, textOf_cons, hlast]
    exact Spells.nil.spacing (hspacing last List.mem_cons_self)
  | cons spaced front ih =>
    -- what parts the first token from the others is known before they are read
    obtain ⟨⟨kind, hkind, hlexeme⟩, halone⟩ := List.forall_mem_cons.1 halone
    obtain ⟨hgap, hspacing⟩ := List.forall_mem_cons.1 hspacing
    have hback := ih halone hspacing fun other hother => hgaps other (List.mem_of_mem_tail hother)
    have hparted := isParted_textOf hlast hspacing hgaps
    rw [List.cons_append, textOf_cons]
    exact (hback.token hkind hlexeme hparted).spacing hgap

/-- **Tokens can be spaced anew.** If the tokens of a text are written down with gaps of any choice
in front of them, of blank characters and of comments with the ends of their lines, then this is
again a text with these tokens, only at other places. The gaps in front of the first token and of
the empty one behind all others may be left out. -/
theorem exists_tokens_textOf {text : String} {ts : List Token} (h : tokens text = .ok ts)
    {row : List SpacedToken} (hrow : row.map SpacedToken.token = ts)
    (hspacing : ∀ spaced ∈ row, IsSpacing spaced.gap)
    (hgaps : ∀ spaced ∈ row.tail.dropLast, spaced.gap ≠ []) :
    ∃ us, tokens (String.ofList (textOf row)) = .ok us ∧
      us.map Token.text = ts.map Token.text := by
  obtain ⟨_, _, rfl, hlast, halone⟩ := exists_standsAlone_of_tokens h
  obtain ⟨front, _, rfl, rfl, hback⟩ := List.map_eq_append_iff.1 hrow
  obtain ⟨last, rfl, rfl⟩ := List.map_eq_singleton_iff.1 hback
  -- Between two tokens means behind the first and in front of the empty one.
  have hinner : ∀ spaced ∈ front.tail, spaced.gap ≠ [] := by
    intro spaced hspaced
    refine hgaps spaced ?_
    cases front with
    | nil => cases hspaced
    | cons first front =>
      rw [List.cons_append, List.tail_cons, List.dropLast_concat]
      exact hspaced
  obtain ⟨lexemes, hlexes, hspelled⟩ :=
    spells_textOf (List.forall_mem_map.1 halone) hlast hspacing hinner
  have htext : LexesTo (String.ofList (textOf (front ++ [last]))).toList lexemes [] := by
    rwa [String.toList_ofList]
  refine ⟨_, tokens_of_lexesTo_nil htext, ?_⟩
  simp [map_text_tokensAmong, hspelled, hlast, Function.comp_def]

/-- The tokens of a text without gaps, parted by a space and comments. -/
def closeRow : List SpacedToken :=
  [⟨[], ⟨"1.5e2", ⟨1, 1⟩⟩⟩, ⟨['/', '/', '\n'], ⟨"-3", ⟨1, 6⟩⟩⟩, ⟨[' '], ⟨"\"//\"", ⟨1, 8⟩⟩⟩,
    ⟨['/', '/', 'f', '\n'], ⟨"->", ⟨1, 12⟩⟩⟩, ⟨[], ⟨"", ⟨1, 14⟩⟩⟩]

/-- One of the tokens is a literal with slashes in it, which open no comment. -/
theorem exists_tokens_textOf_closeRow :
    tokens "1.5e2-3\"//\"->" = .ok (closeRow.map SpacedToken.token) ∧
      textOf closeRow = "1.5e2//\n-3 \"//\"//f\n->".toList ∧
      ∃ us, tokens (String.ofList (textOf closeRow)) = .ok us ∧
        us.map Token.text = ["1.5e2", "-3", "\"//\"", "->", ""] := by
  have htokens : tokens "1.5e2-3\"//\"->" = .ok (closeRow.map SpacedToken.token) := by
    cbv
  have hspacing : ∀ spaced ∈ closeRow, IsSpacing spaced.gap := by
    have hline : '\n' ∉ ['f'] := by decide
    have hspace : IsSpacing [' '] := .blank rfl .nil
    have hempty : IsSpacing ['/', '/', '\n'] := .comment List.not_mem_nil .nil
    have hword : IsSpacing ['/', '/', 'f', '\n'] := .comment hline .nil
    simp [closeRow, hspace, hempty, hword, IsSpacing.nil]
  have hgaps : ∀ spaced ∈ closeRow.tail.dropLast, spaced.gap ≠ [] := by
    simp [closeRow]
  exact ⟨htokens, by cbv, exists_tokens_textOf htokens rfl hspacing hgaps⟩

end RequestRouter
