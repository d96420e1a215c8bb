import RequestRouter.Text.Quoted

/-!
# What is between the quotes

`RequestRouter.Text.Quotes` says, of any text, that it is the quotation of another one, and does not
say how quotations are made: it stands between two double quotes, and what is between them spells
the other text one character after the other (`RequestRouter.Text.Spells`). A double quote is always
spelled with a backslash in front, so the one at the end is the only one that ends the quotation.

`RequestRouter.Text.quote` makes the only quotation of a text
(`RequestRouter.Text.quotes_iff`), and a quotation is that of one text only
(`RequestRouter.Text.Quotes.unique`).
-/

namespace RequestRouter

namespace Text

/-- The letters that stand behind a backslash, with the characters that they spell. -/
def backslashLetters : List (Char × Char) :=
  [('"', '"'), ('\\', '\\'), ('b', '\x08'), ('t', '\t'), ('n', '\n'), ('f', '\x0c'), ('r', '\r')]

/-- The digits of base sixteen, from zero on. -/
def sixteenDigits : List Char :=
  ['0', '1', '2', '3', '4', '5', '6', '7', '8', '9', 'a', 'b', 'c', 'd', 'e', 'f']

/-- The first characters, as they stand between double quotes, **spell** the others. -/
inductive Spells : List Char → List Char → Prop
  /-- Nothing spells nothing. -/
  | nil : Spells [] []
  /-- A character from the space on spells itself, except for the double quote and the backslash. -/
  | plain {c : Char} {shown text : List Char} (hspace : 0x20 ≤ c.toNat) (hquote : c ≠ '"')
      (hbackslash : c ≠ '\\') (h : Spells shown text) : Spells (c :: shown) (c :: text)
  /-- A backslash and a letter spell the character that belongs to the letter. -/
  | letter {e c : Char} {shown text : List Char} (hletter : (e, c) ∈ backslashLetters)
      (h : Spells shown text) : Spells ('\\' :: e :: shown) (c :: text)
  /-- Another character in front of the space is spelled by the four digits of its code point. -/
  | code {c high low : Char} {shown text : List Char} (hspace : c.toNat < 0x20)
      (hletter : c ∉ backslashLetters.map Prod.snd)
      (hhigh : sixteenDigits[c.toNat / 16]? = some high)
      (hlow : sixteenDigits[c.toNat % 16]? = some low) (h : Spells shown text) :
      Spells ('\\' :: 'u' :: '0' :: '0' :: high :: low :: shown) (c :: text)

/-- `shown` **is the quotation of** `text`. -/
def Quotes (shown text : String) : Prop :=
  ∃ inner, shown.toList = '"' :: (inner ++ ['"']) ∧ Spells inner text.toList

/-! ### The quotation that is made -/

/-- A character that has a letter is quoted by it. -/
theorem quotedChar_of_mem :
    ∀ letter ∈ backslashLetters, quotedChar letter.2 = ['\\', letter.1] := by
  decide

/-- The digits of the other characters in front of the space. -/
theorem quotedChar_of_lt : ∀ n < 0x20, Char.ofNat n ∉ backslashLetters.map Prod.snd →
    (quotedChar (Char.ofNat n)).map some =
      ['\\', 'u', '0', '0'].map some ++ [sixteenDigits[n / 16]?, sixteenDigits[n % 16]?] := by
  decide

theorem quotedChar_of_plain {c : Char} (hspace : 0x20 ≤ c.toNat) (hquote : c ≠ '"')
    (hbackslash : c ≠ '\\') : quotedChar c = [c] := by
  have hne {d : Char} (hd : d.toNat < 0x20) : c ≠ d := by
    rintro rfl
    omega
  rw [quotedChar, if_neg hquote, if_neg hbackslash, if_neg (hne (by decide)),
    if_neg (hne (by decide)), if_neg (hne (by decide)), if_neg (hne (by decide)),
    if_neg (hne (by decide)), if_neg (by omega), if_neg (by omega)]

/-- A character with a code point in front of the space has two digits. -/
theorem quotedChar_of_code {c high low : Char} (hspace : c.toNat < 0x20)
    (hletter : c ∉ backslashLetters.map Prod.snd)
    (hhigh : sixteenDigits[c.toNat / 16]? = some high)
    (hlow : sixteenDigits[c.toNat % 16]? = some low) :
    quotedChar c = ['\\', 'u', '0', '0', high, low] := by
  have hdigits := quotedChar_of_lt c.toNat hspace
  rw [Char.ofNat_toNat, hhigh, hlow] at hdigits
  exact List.map_inj_right (fun _ _ => Option.some.inj) |>.1 (hdigits hletter)

/-- What spells a text is what its characters are quoted by. -/
theorem Spells.eq_flatMap {shown text : List Char} (h : Spells shown text) :
    shown = text.flatMap quotedChar := by
  induction h with
  | nil => rfl
  | plain hspace hquote hbackslash _ ih =>
    rw [List.flatMap_cons, quotedChar_of_plain hspace hquote hbackslash, ← ih]
    rfl
  | letter hletter _ ih =>
    rw [List.flatMap_cons, quotedChar_of_mem _ hletter, ← ih]
    rfl
  | code hspace hletter hhigh hlow _ ih =>
    rw [List.flatMap_cons, quotedChar_of_code hspace hletter hhigh hlow, ← ih]
    rfl

theorem spells_flatMap (text : List Char) : Spells (text.flatMap quotedChar) text := by
  induction text with
  | nil => exact .nil
  | cons c text ih =>
    rw [List.flatMap_cons]
    by_cases hletter : c ∈ backslashLetters.map Prod.snd
    · obtain ⟨letter, hmem, rfl⟩ := List.mem_map.1 hletter
      rw [quotedChar_of_mem letter hmem]
      exact .letter hmem ih
    · by_cases hspace : c.toNat < 0x20
      · have hlength : sixteenDigits.length = 16 := rfl
        have hhigh : c.toNat / 16 < sixteenDigits.length := by omega
        have hlow : c.toNat % 16 < sixteenDigits.length := by omega
        have hdigits := quotedChar_of_code hspace hletter (List.getElem?_eq_getElem hhigh)
          (List.getElem?_eq_getElem hlow)
        rw [hdigits]
        exact .code hspace hletter (List.getElem?_eq_getElem hhigh)
          (List.getElem?_eq_getElem hlow) ih
      · have hne {e d : Char} (hmem : (e, d) ∈ backslashLetters) : c ≠ d := by
          rintro rfl
          exact hletter (List.mem_map_of_mem hmem)
        have hquote : c ≠ '"' := hne (e := '"') (by decide)
        have hbackslash : c ≠ '\\' := hne (e := '\\') (by decide)
        rw [quotedChar_of_plain (by omega) hquote hbackslash]
        exact .plain (by omega) hquote hbackslash ih

/-- **The quotation of a text is the one that is made.** -/
theorem quotes_iff {shown text : String} : Quotes shown text ↔ shown = quote text := by
  rw [← String.toList_inj, toList_quote, quotedChars]
  constructor
  · rintro ⟨inner, hshown, hspells⟩
    rw [hshown, hspells.eq_flatMap]
  · intro hshown
    exact ⟨_, hshown, spells_flatMap text.toList⟩

theorem quotes_quote (text : String) : Quotes (quote text) text := quotes_iff.2 rfl

/-! ### The text that is quoted -/

/-- A letter behind a backslash spells one character only, and is not the one in front of digits. -/
theorem backslashLetters_unique :
    (∀ a ∈ backslashLetters, ∀ b ∈ backslashLetters, a.1 = b.1 → a.2 = b.2) ∧
      ∀ a ∈ backslashLetters, a.1 ≠ 'u' := by
  decide

theorem sixteenDigits_inj {m n : Nat} {digit : Char} (hm : sixteenDigits[m]? = some digit)
    (hn : sixteenDigits[n]? = some digit) : m = n := by
  obtain ⟨hlt, -⟩ := List.getElem?_eq_some_iff.1 hm
  exact (List.getElem?_inj hlt (by decide)).1 (hm.trans hn.symm)

/-- **No two texts are spelled alike.** -/
theorem Spells.unique {shown text other : List Char} (h : Spells shown text)
    (hother : Spells shown other) : text = other := by
  obtain ⟨hsame, hno⟩ := backslashLetters_unique
  -- What the spelling starts with tells how it goes on: no backslash, one and a letter, or one and
  -- digits.
  induction h generalizing other with
  | nil =>
    cases hother
    rfl
  | plain _ _ hbackslash _ ih =>
    cases hother with
    | plain _ _ _ hrest => rw [ih hrest]
    | letter _ _ => exact absurd rfl hbackslash
    | code _ _ _ _ _ => exact absurd rfl hbackslash
  | letter hletter _ ih =>
    cases hother with
    | plain _ _ hbackslash _ => exact absurd rfl hbackslash
    | letter hletter' hrest =>
      rw [ih hrest]
      exact congrArg (List.cons · _) (hsame _ hletter _ hletter' rfl)
    | code _ _ _ _ _ => exact absurd rfl (hno _ hletter)
  | @code c _ _ _ _ _ _ hhigh hlow _ ih =>
    cases hother with
    | plain _ _ hbackslash _ => exact absurd rfl hbackslash
    | letter hletter' _ => exact absurd rfl (hno _ hletter')
    | @code d _ _ _ _ _ _ hhigh' hlow' hrest =>
      have hdiv : c.toNat / 16 = d.toNat / 16 := sixteenDigits_inj hhigh hhigh'
      have hmod : c.toNat % 16 = d.toNat % 16 := sixteenDigits_inj hlow hlow'
      have hcode : c.toNat = d.toNat := by omega
      rw [ih hrest, Char.toNat_inj.1 hcode]

/-- **A quotation is that of one text only.** -/
theorem Quotes.unique {shown text other : String} (h : Quotes shown text)
    (hother : Quotes shown other) : text = other := by
  obtain ⟨inner, hshown, hspells⟩ := h
  obtain ⟨inner', hshown', hspells'⟩ := hother
  have hinner : inner = inner' :=
    List.append_cancel_right (List.cons.inj (hshown.symm.trans hshown')).2
  exact String.toList_inj.1 (hspells.unique (hinner ▸ hspells'))

end Text

end RequestRouter
