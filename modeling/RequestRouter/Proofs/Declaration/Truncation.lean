import RequestRouter.Proofs.Declaration.Readers

/-!
# Lexemes of a text that is cut off

What a kind of lexemes reads in front of a text is settled by the characters that it reads and the
one behind them. So it reads the same if the text is cut off anywhere behind them; and where it
reads nothing, it reads nothing in front of a text that is cut off, either
(`RequestRouter.ReadsFronts`). This is said of every reader that the kinds are made of, and passes
on to the lexeme in front of a text, although the kinds are tried one after the other. Main
statement: `RequestRouter.lexeme?_append_of_lexeme?`.

A reader that takes a run looks at one character behind it, which may be missing in the text that
is cut off. A number with a fraction takes several parts, and each of them is read in front of a
text that is cut off behind the last.
-/

namespace RequestRouter

/-! ### Readers that do not look behind what they read -/

/-- What is read does not depend on what stands behind it. -/
def Settles (read : List Char → Cut) : Prop :=
  ∀ s text rest, read s = some (text, rest) → ∀ behind, read (text ++ behind) = some (text, behind)

theorem settles_readToQuote : Settles readToQuote := by
  intro s text rest h behind
  fun_induction readToQuote s generalizing text with
  | case1 => cases h
  | case2 =>
    cases h
    rfl
  | case3 => cases h
  | case4 c _ hc ih =>
    obtain ⟨part, rfl, hpart⟩ := Cut.after_eq_some_iff.1 h
    show readToQuote ('\\' :: c :: (part ++ behind)) = _
    rw [readToQuote, if_neg hc, ih part hpart]
    rfl
  | case5 c _ _ _ hc ih =>
    obtain ⟨part, rfl, hpart⟩ := Cut.after_eq_some_iff.1 h
    show readToQuote (c :: (part ++ behind)) = _
    rw [readToQuote_cons hc, ih part hpart]
    rfl
  | case6 => cases h

theorem settles_readString : Settles readString := by
  intro s text rest h behind
  obtain ⟨s', part, rfl, rfl, hpart⟩ := readString_eq_some_iff.1 h
  exact readString_eq_some_iff.2
    ⟨part ++ behind, part, rfl, rfl, settles_readToQuote s' part rest hpart behind⟩

theorem settles_readCharacter : Settles readCharacter := by
  intro s text rest h behind
  obtain ⟨-, hform⟩ := readCharacter_eq_some_iff.1 h
  exact readCharacter_eq_some_iff.2 ⟨rfl, hform⟩

theorem settles_readExactly (text : List Char) : Settles (readExactly text) := by
  intro s text' rest h behind
  obtain ⟨rfl, -⟩ := readExactly_eq_some_iff.1 h
  exact readExactly_eq_some_iff.2 ⟨rfl, rfl⟩

theorem settles_readSymbol : Settles readSymbol := by
  intro s text rest h behind
  obtain ⟨c, hc, rfl, -⟩ := readSymbol_eq_some_iff.1 h
  exact readSymbol_eq_some_iff.2 ⟨c, hc, rfl, rfl⟩

theorem settles_readSuffix : Settles readSuffix := by
  intro s text rest h behind
  obtain ⟨c, hc, rfl, -⟩ := readSuffix_eq_some_iff.1 h
  exact readSuffix_eq_some_iff.2 ⟨c, hc, rfl, rfl⟩

/-! ### Readers of fronts -/

/-- What is read in front of a text is read of the text cut off behind it, and where something is
read, something is read with more behind the text. -/
structure ReadsFronts (read : List Char → Cut) : Prop where
  cut {s text rest behind : List Char} :
    read s = some (text, rest ++ behind) → read (text ++ rest) = some (text, rest)
  more {s : List Char} {parts : List Char × List Char} :
    read s = some parts → ∀ behind, ∃ others, read (s ++ behind) = some others

/-- Where nothing is read, nothing is read if the text is cut off. -/
theorem ReadsFronts.none {read : List Char → Cut} (h : ReadsFronts read) {s behind : List Char}
    (hnone : read (s ++ behind) = none) : read s = none := by
  cases hread : read s with
  | none => rfl
  | some parts =>
    obtain ⟨others, hothers⟩ := h.more hread behind
    rw [hnone] at hothers
    cases hothers

theorem Settles.readsFronts {read : List Char → Cut} (h : Settles read)
    (hsplits : ∀ s, (read s).Splits s) : ReadsFronts read where
  cut hread := h _ _ _ hread _
  more {s parts} hread behind := by
    obtain ⟨text, rest⟩ := parts
    obtain ⟨rfl, -⟩ := hsplits s text rest hread
    exact ⟨(text, rest ++ behind), by rw [List.append_assoc, h _ _ _ hread]⟩

theorem readsFronts_readRun (p : Char → Bool) : ReadsFronts (readRun p) where
  cut h := by
    obtain ⟨-, hne, htext, hrest⟩ := readRun_eq_some_iff.1 h
    exact readRun_eq_some_iff.2 ⟨rfl, hne, htext, fun c hc => hrest c (mem_head?_append hc)⟩
  more {s parts} h behind := by
    refine Option.ne_none_iff_exists'.1 fun hnone => ?_
    rw [readRun_eq_none_iff.2 fun c hc => readRun_eq_none_iff.1 hnone c (mem_head?_append hc)] at h
    cases h

theorem readsFronts_readDigits : ReadsFronts readDigits := readsFronts_readRun _

theorem readsFronts_readComment : ReadsFronts readComment where
  cut h := by
    obtain ⟨words, rfl, -, hwords, hrest⟩ := readComment_eq_some_iff.1 h
    exact readComment_eq_some_iff.2
      ⟨words, rfl, rfl, hwords, fun c hc => hrest c (mem_head?_append hc)⟩
  more {s parts} h behind := by
    obtain ⟨text, rest⟩ := parts
    obtain ⟨words, rfl, rfl, -⟩ := readComment_eq_some_iff.1 h
    exact ⟨_, rfl⟩

theorem readsFronts_readIdentifier : ReadsFronts readIdentifier where
  cut h := by
    obtain ⟨c, part, rfl, -, hstart, hpart, hrest⟩ := readIdentifier_eq_some_iff.1 h
    exact readIdentifier_eq_some_iff.2
      ⟨c, part, rfl, rfl, hstart, hpart, fun d hd => hrest d (mem_head?_append hd)⟩
  more {s parts} h behind := by
    obtain ⟨text, rest⟩ := parts
    obtain ⟨c, part, rfl, rfl, hstart, -⟩ := readIdentifier_eq_some_iff.1 h
    exact ⟨_, if_pos hstart⟩

/-! ### Numbers -/

/-- Where one of some fronts can be taken before what another reader reads, the texts in front of
which this is possible are read as the other reader does. -/
theorem ReadsFronts.of_fronts {read base : List Char → Cut} {fronts : List (List Char)}
    (hbase : ReadsFronts base)
    (h : ∀ s text rest, read s = some (text, rest) ↔ ∃ front ∈ fronts, ∃ part s',
      text = front ++ part ∧ s = front ++ s' ∧ base s' = some (part, rest)) :
    ReadsFronts read where
  cut {s text rest behind} hread := by
    obtain ⟨front, hfront, part, s', rfl, rfl, hpart⟩ := (h _ _ _).1 hread
    exact (h _ _ _).2
      ⟨front, hfront, part, part ++ rest, rfl, List.append_assoc _ _ _, hbase.cut hpart⟩
  more {s parts} hread behind := by
    obtain ⟨front, hfront, part, s', -, rfl, hpart⟩ := (h _ _ _).1 hread
    obtain ⟨others, hothers⟩ := hbase.more hpart behind
    exact ⟨(front ++ others.1, others.2), (h _ _ _).2
      ⟨front, hfront, others.1, s' ++ behind, rfl, List.append_assoc _ _ _, hothers⟩⟩

theorem readsFronts_readInteger : ReadsFronts readInteger :=
  readsFronts_readDigits.of_fronts fun _ _ _ => readInteger_eq_some_iff

theorem readsFronts_readExponent : ReadsFronts readExponent :=
  readsFronts_readDigits.of_fronts fun _ _ _ => readExponent_eq_some_iff

/-- Digits that stop short of the end of a text stop there with more behind it. -/
theorem readDigits_append {s text rest : List Char} {c : Char}
    (h : readDigits s = some (text, c :: rest)) (behind : List Char) :
    readDigits (s ++ behind) = some (text, c :: rest ++ behind) := by
  obtain ⟨rfl, hne, htext, hrest⟩ := readRun_eq_some_iff.1 h
  exact readRun_eq_some_iff.2 ⟨List.append_assoc _ _ _, hne, htext, hrest⟩

/-- An integer that stops short of the end of a text stops there with more behind it. -/
theorem readInteger_append {s text rest : List Char} {c : Char}
    (h : readInteger s = some (text, c :: rest)) (behind : List Char) :
    readInteger (s ++ behind) = some (text, c :: rest ++ behind) := by
  obtain ⟨sign, hsign, digits, s', rfl, rfl, hdigits⟩ := readInteger_eq_some_iff.1 h
  exact readInteger_eq_some_iff.2 ⟨sign, hsign, digits, s' ++ behind, rfl,
    List.append_assoc _ _ _, readDigits_append hdigits behind⟩

/-- What may be missing is read of the text cut off behind it, too. -/
theorem ReadsFronts.readOptional {read : List Char → Cut} (h : ReadsFronts read)
    {s text rest behind : List Char} (hread : readOptional read s = (text, rest ++ behind)) :
    RequestRouter.readOptional read (text ++ rest) = (text, rest) := by
  rw [RequestRouter.readOptional] at hread ⊢
  cases hcut : read s with
  | some pair =>
    rw [hcut] at hread
    obtain rfl : pair = (text, rest ++ behind) := hread
    rw [h.cut hcut]
    rfl
  | none =>
    rw [hcut] at hread
    obtain ⟨rfl, rfl⟩ := Prod.mk.inj hread
    rw [List.nil_append, h.none hcut]
    rfl

theorem readTail_append {s text rest behind : List Char}
    (h : readTail s = (text, rest ++ behind)) : readTail (text ++ rest) = (text, rest) := by
  obtain ⟨exponent, s', hexponent⟩ : ∃ exponent s', readOptional readExponent s = (exponent, s') :=
    ⟨_, _, rfl⟩
  obtain ⟨suffix, s'', hsuffix⟩ : ∃ suffix s'', readOptional readSuffix s' = (suffix, s'') :=
    ⟨_, _, rfl⟩
  simp only [readTail, hexponent, hsuffix, Prod.mk.injEq] at h
  obtain ⟨rfl, rfl⟩ := h
  have happend : suffix ++ (rest ++ behind) = s' := by
    have hparts := append_readOptional (splits_readSuffix s')
    rwa [hsuffix] at hparts
  rw [← happend, ← List.append_assoc] at hexponent
  have hfront := readsFronts_readExponent.readOptional hexponent
  have hback := (settles_readSuffix.readsFronts splits_readSuffix).readOptional hsuffix
  rw [readTail, List.append_assoc, hfront]
  simp only [hback]

theorem readsFronts_readFloat : ReadsFronts readFloat where
  cut {s text rest behind} h := by
    obtain ⟨whole, fraction, tail, r₁, r₂, hwhole, hfraction, htail, rfl⟩ :=
      readFloat_eq_some_iff.1 h
    -- What each part is read from, in terms of the parts behind it.
    have hr₂ : tail ++ (rest ++ behind) = r₂ := by simpa [htail] using append_readTail r₂
    have hr₁ : fraction ++ r₂ = r₁ := (splits_readDigits r₁ _ _ hfraction).1
    rw [← hr₁, ← hr₂] at hwhole
    rw [← hr₂] at hfraction
    refine readFloat_eq_some_iff.2 ⟨whole, fraction, tail, fraction ++ (tail ++ rest), tail ++ rest,
      ?_, ?_, readTail_append htail, rfl⟩
    · rw [← List.append_assoc, ← List.append_assoc, ← List.cons_append] at hwhole
      simpa using readsFronts_readInteger.cut hwhole
    · rw [← List.append_assoc] at hfraction
      exact readsFronts_readDigits.cut hfraction
  more {s parts} h behind := by
    obtain ⟨whole, fraction, tail, r₁, r₂, hwhole, hfraction, -, -⟩ := readFloat_eq_some_iff.1 h
    obtain ⟨others, hothers⟩ := readsFronts_readDigits.more hfraction behind
    exact ⟨_, readFloat_eq_some_iff.2 ⟨whole, others.1, _, r₁ ++ behind, others.2,
      readInteger_append hwhole behind, hothers, rfl, rfl⟩⟩

/-! ### The lexeme in front of a text that is cut off -/

theorem LexemeKind.readsFronts (kind : LexemeKind) : ReadsFronts kind.read := by
  cases kind with
  | string => exact settles_readString.readsFronts splits_readString
  | character => exact settles_readCharacter.readsFronts splits_readCharacter
  | comment => exact readsFronts_readComment
  | blank => exact readsFronts_readRun _
  | arrow => exact (settles_readExactly _).readsFronts (splits_readExactly (by simp))
  | separator => exact (settles_readExactly _).readsFronts (splits_readExactly (by simp))
  | float => exact readsFronts_readFloat
  | integer => exact readsFronts_readInteger
  | symbol => exact settles_readSymbol.readsFronts splits_readSymbol
  | identifier => exact readsFronts_readIdentifier

/-- **A lexeme stays where the text is cut off behind it**: it is the lexeme in front of what is
left, too. -/
theorem lexeme?_append_of_lexeme? {s text rest behind : List Char} {kind : LexemeKind}
    (h : lexeme? s = some ⟨kind, text, rest ++ behind⟩) :
    lexeme? (text ++ rest) = some ⟨kind, text, rest⟩ := by
  obtain ⟨hearlier, hread⟩ := lexeme?_eq_some_iff.1 h
  obtain ⟨rfl, -⟩ := LexemeKind.append_of_read hread
  refine lexeme?_eq_some_iff.2 ⟨fun other hother => ?_, kind.readsFronts.cut hread⟩
  have hnone := hearlier other hother
  rw [← List.append_assoc] at hnone
  exact other.readsFronts.none hnone

end RequestRouter
