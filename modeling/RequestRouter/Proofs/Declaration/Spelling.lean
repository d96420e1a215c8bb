import RequestRouter.Declaration.Token
import RequestRouter.Proofs.Declaration.Readers

/-!
# What tokens are spelled like

A token is kept as its text only, and what it can stand for is a question about that text. The
grammar asks several such questions of one token, in some order, so it matters that the answers
exclude each other: a name is neither a literal (`RequestRouter.Token.isLiteral_eq_false`) nor a
symbol (`RequestRouter.Token.text_ne_of_isIdentifier`), and an integer is not a string. All of
this is decided by the first character.

Names have no colon in them, so the last name of a path can be told from its text
(`RequestRouter.ClassName.simple_ofQualified_intercalate`).
-/

namespace RequestRouter

/-! ### First characters -/

/-- What a kind spans, it reads to the end. -/
theorem LexemeKind.spans_iff {kind : LexemeKind} {s : List Char} :
    kind.spans s = true ↔ kind.read s = some (s, []) := by
  rw [spans]
  exact beq_iff_eq

theorem LexemeKind.spans_eq_false {kind : LexemeKind} {s : List Char} (h : kind.read s = none) :
    kind.spans s = false := by
  rw [spans, h]
  rfl

/-- Names start with a letter or an underscore. -/
theorem toNat_of_isNameStart {c : Char} (h : isNameStart c = true) :
    c.toNat = 95 ∨ (65 ≤ c.toNat ∧ c.toNat ≤ 90) ∨ 97 ≤ c.toNat ∧ c.toNat ≤ 122 := by
  simp only [isNameStart, Bool.or_eq_true, Bool.and_eq_true, decide_eq_true_eq, beq_iff_eq,
    Char.le_def, UInt32.le_iff_toNat_le] at h
  rcases h with (h | h) | rfl
  · exact .inr (.inl h)
  · exact .inr (.inr h)
  · exact .inl rfl

theorem isDecimalDigit_eq_false {c : Char} (h : isNameStart c = true) :
    Text.isDecimalDigit c = false := by
  have hc := toNat_of_isNameStart h
  simp only [Text.isDecimalDigit, Text.decimalDigitRanges, Text.inRanges, List.any_cons,
    List.any_nil, Bool.or_false, Bool.or_eq_false_iff, Bool.and_eq_false_iff,
    decide_eq_false_iff_not]
  omega

/-- The characters of names are not blank. -/
theorem Text.isBlank_eq_false_of_isNamePart {c : Char} (h : isNamePart c = true) :
    isBlank c = false := by
  have hc : 33 ≤ c.toNat ∧ c.toNat < 128 := by
    rw [isNamePart, Bool.or_eq_true] at h
    rcases h with hstart | hdigit
    · have := toNat_of_isNameStart hstart
      omega
    · simp only [Bool.and_eq_true, decide_eq_true_eq, Char.le_def, UInt32.le_iff_toNat_le]
        at hdigit
      have hlow : 48 ≤ c.toNat := hdigit.1
      have hhigh : c.toNat ≤ 57 := hdigit.2
      omega
  simp only [isBlank, blankRanges, inRanges, List.any_cons, List.any_nil, Bool.or_false,
    Bool.or_eq_false_iff, Bool.and_eq_false_iff, decide_eq_false_iff_not]
  omega

theorem ne_of_isNameStart {c d : Char} (h : isNameStart c = true) (hd : isNameStart d = false) :
    c ≠ d := by
  rintro rfl
  rw [h] at hd
  cases hd

theorem readInteger_eq_none {c : Char} {rest : List Char} (hminus : c ≠ '-')
    (hdigit : Text.isDecimalDigit c = false) : readInteger (c :: rest) = none := by
  rw [readInteger]
  · exact readDigits_cons_eq_none hdigit rest
  · rintro rest' hcons
    exact hminus (List.cons.inj hcons).1

theorem readFloat_eq_none {s : List Char} (h : readInteger s = none) : readFloat s = none := by
  rw [readFloat, h]
  rfl

namespace Token

variable {token : Token}

/-! ### Names -/

/-- A name is a first character and others. -/
theorem exists_of_isIdentifier (h : token.isIdentifier = true) :
    ∃ c rest, token.text.toList = c :: rest ∧ isNameStart c = true ∧
      ∀ d ∈ rest, isNamePart d = true := by
  obtain ⟨c, rest, heq, -, hstart, hrest, -⟩ :=
    readIdentifier_eq_some_iff.1 (LexemeKind.spans_iff.1 h)
  exact ⟨c, rest, heq, hstart, hrest⟩

/-- Every character of a name may stand in one. -/
theorem isNamePart_of_mem (h : token.isIdentifier = true) {d : Char}
    (hd : d ∈ token.text.toList) : isNamePart d = true := by
  obtain ⟨c, rest, heq, hstart, hrest⟩ := exists_of_isIdentifier h
  rw [heq] at hd
  rcases List.mem_cons.1 hd with rfl | hd
  · rw [isNamePart, hstart, Bool.true_or]
  · exact hrest d hd

/-- A name is not a text that is none. -/
theorem text_ne_of_isIdentifier (h : token.isIdentifier = true) {text : String}
    (htext : LexemeKind.identifier.spans text.toList = false) : token.text ≠ text := by
  rintro rfl
  rw [isIdentifier, htext] at h
  cases h

/-! ### Literals -/

theorem isString_eq_false {c : Char} {rest : List Char} (h : token.text.toList = c :: rest)
    (hc : c ≠ '"') : token.isString = false := by
  rw [isString]
  split
  · next heq =>
    rw [h] at heq
    exact absurd (List.cons.inj heq).1 hc
  · rfl

theorem isCharacter_eq_false {c : Char} {rest : List Char} (h : token.text.toList = c :: rest)
    (hc : c ≠ '\'') : token.isCharacter = false := by
  rw [isCharacter]
  split
  · next heq =>
    rw [h] at heq
    exact absurd (List.cons.inj heq).1 hc
  · rfl

/-- Strings start with a quote, and integers do not. -/
theorem isString_eq_false_of_isInteger (h : token.isInteger = true) : token.isString = false := by
  rw [isString]
  split
  · next rest heq =>
    have hnone : readInteger ('"' :: rest) = none := readInteger_eq_none (by decide) rfl
    rw [isInteger, heq, LexemeKind.spans, LexemeKind.read, hnone] at h
    cases h
  · rfl

/-- **A name is not a literal**. -/
theorem isLiteral_eq_false (h : token.isIdentifier = true) :
    token.isString = false ∧ token.isInteger = false ∧ token.isFloat = false ∧
      token.isCharacter = false := by
  obtain ⟨c, rest, heq, hstart, -⟩ := exists_of_isIdentifier h
  have hinteger : readInteger (c :: rest) = none :=
    readInteger_eq_none (ne_of_isNameStart hstart rfl) (isDecimalDigit_eq_false hstart)
  refine ⟨isString_eq_false heq (ne_of_isNameStart hstart rfl), ?_, ?_,
    isCharacter_eq_false heq (ne_of_isNameStart hstart rfl)⟩
  · rw [isInteger, heq]
    exact LexemeKind.spans_eq_false hinteger
  · rw [isFloat, heq]
    exact LexemeKind.spans_eq_false (readFloat_eq_none hinteger)

end Token

/-! ### The last name of a path -/

theorem colon_notMem_of_isIdentifier {token : Token} (h : token.isIdentifier = true) :
    ':' ∉ token.text.toList := by
  intro hmem
  have hpart := Token.isNamePart_of_mem h hmem
  rw [show isNamePart ':' = false from rfl] at hpart
  cases hpart

theorem Text.splitLast?_eq_none {s : List Char} (h : ':' ∉ s) : splitLast? s = none := by
  induction s with
  | nil => rfl
  | cons c rest ih =>
    rw [List.mem_cons, not_or] at h
    obtain ⟨hc, hrest⟩ := h
    rw [splitLast?, ih hrest]
    simp [Ne.symm hc]

/-- A text is cut at its last separator. -/
theorem Text.splitLast?_append {front name : List Char} (h : ':' ∉ name) :
    splitLast? (front ++ ':' :: ':' :: name) = some (front, name) := by
  induction front with
  | nil =>
    have hhead : name.head? ≠ some ':' := fun hsome => h (List.mem_of_head? hsome)
    simp [splitLast?, splitLast?_eq_none h, hhead]
  | cons c rest ih => rw [List.cons_append, splitLast?, ih]

/-- **The last name of a path** is what its text ends with behind the last separator. -/
theorem ClassName.simple_ofQualified_intercalate {front : List String} {name : String}
    (h : ':' ∉ name.toList) :
    (ofQualified (Text.separator.intercalate (front ++ [name]))).simple = name := by
  rw [ofQualified]
  by_cases hfront : front = []
  · rw [hfront, List.nil_append, String.intercalate_singleton, Text.splitLast?_eq_none h]
  · have htext : (Text.separator.intercalate (front ++ [name])).toList =
        (Text.separator.intercalate front).toList ++ ':' :: ':' :: name.toList := by
      rw [String.intercalate_append_of_ne_nil hfront (List.cons_ne_nil _ _),
        String.intercalate_singleton, String.toList_append, String.toList_append,
        List.append_assoc]
      rfl
    rw [htext, Text.splitLast?_append h]
    exact String.ofList_toList

end RequestRouter
