import RequestRouter.Proofs.Declaration.Names
import RequestRouter.Text.Snake

/-!
# Snake case of names

Names are spelled with letters, digits and underscores of ASCII. On these, the snake case keeps
everything but the 26 capitals, which become small letters, some with an underscore in front of
them; so the snake case of a name is made of the same characters again
(`RequestRouter.Text.isNamePart_of_mem_snakeAfter`).

What is lost is where the capitals were: an underscore may have been there before, a small letter
may have been a capital in a row of capitals. In plain camel case neither can be
(`RequestRouter.Text.isCamel`), and names that are spelled like this have a snake case each of
their own (`RequestRouter.Text.snakeCase_inj_of_isCamel`).
-/

namespace RequestRouter

namespace Text

/-! ### Characters of names -/

/-- The small letter of a capital of ASCII. -/
def smallLetter (c : Char) : Char := Char.ofNat (c.toNat + 32)

theorem toNat_lt_of_isNamePart {c : Char} (h : isNamePart c = true) : c.toNat < 128 := by
  rw [isNamePart, Bool.or_eq_true] at h
  rcases h with hstart | hdigit
  · have hc := toNat_of_isNameStart hstart
    omega
  · simp only [Bool.and_eq_true, decide_eq_true_eq, Char.le_def, UInt32.le_iff_toNat_le] at hdigit
    have hc : c.toNat ≤ 57 := hdigit.2
    omega

/-- What there is to know about the capitals of ASCII. -/
theorem ascii_capitals : ∀ n < 128, isUppercase (Char.ofNat n) = true →
    lowercase (Char.ofNat n) = [smallLetter (Char.ofNat n)] ∧
      isNamePart (smallLetter (Char.ofNat n)) = true ∧
      (smallLetter (Char.ofNat n)).toNat = n + 32 := by
  decide +kernel

section

variable {c d : Char} (hc : isNamePart c = true) (hcapital : isUppercase c = true)

include hc hcapital

/-- A capital in a name has a small letter, which may stand in a name instead. -/
theorem lowercase_of_isUppercase :
    lowercase c = [smallLetter c] ∧ isNamePart (smallLetter c) = true ∧
      (smallLetter c).toNat = c.toNat + 32 := by
  have h := ascii_capitals c.toNat (toNat_lt_of_isNamePart hc)
  rw [Char.ofNat_toNat] at h
  exact h hcapital

/-- Different capitals have different small letters. -/
theorem smallLetter_inj (hd : isNamePart d = true) (hcapital' : isUppercase d = true)
    (h : smallLetter c = smallLetter d) : c = d := by
  obtain ⟨-, -, hnat⟩ := lowercase_of_isUppercase hc hcapital
  obtain ⟨-, -, hnat'⟩ := lowercase_of_isUppercase hd hcapital'
  rw [h, hnat'] at hnat
  exact Char.toNat_inj.1 (Nat.add_right_cancel hnat).symm

end

/-! ### Characters of a snake case -/

theorem snakeChar_of_isUppercase {before : Option Char} {c : Char} {after : List Char}
    (hc : isNamePart c = true) (h : isUppercase c = true) :
    snakeChar before c after =
      if opensWord before after then ['_', smallLetter c] else [smallLetter c] := by
  rw [snakeChar, if_pos h, (lowercase_of_isUppercase hc h).1]

theorem snakeChar_of_not_isUppercase {before : Option Char} {c : Char} {after : List Char}
    (h : isUppercase c = false) : snakeChar before c after = [c] := by
  rw [snakeChar, h]
  rfl

/-- The snake case of a name is made of the characters of names. -/
theorem isNamePart_of_mem_snakeAfter {before : Option Char} {s : List Char}
    (h : ∀ c ∈ s, isNamePart c = true) : ∀ d ∈ snakeAfter before s, isNamePart d = true := by
  induction s generalizing before with
  | nil => exact nofun
  | cons c rest ih =>
    obtain ⟨hc, hrest⟩ := List.forall_mem_cons.1 h
    rw [snakeAfter]
    refine List.forall_mem_append.2 ⟨?_, ih hrest⟩
    cases hcapital : isUppercase c with
    | false =>
      rw [snakeChar_of_not_isUppercase hcapital]
      exact List.forall_mem_singleton.2 hc
    | true =>
      have hsmall := (lowercase_of_isUppercase hc hcapital).2.1
      rw [snakeChar_of_isUppercase hc hcapital]
      split
      · exact List.forall_mem_cons.2 ⟨rfl, List.forall_mem_singleton.2 hsmall⟩
      · exact List.forall_mem_singleton.2 hsmall

/-! ### Texts behind a name -/

/-- A text that does not start with a small letter leaves the snake case of what is in front of
it alone. -/
theorem snakeAfter_append {t : List Char} (h : t.head?.any isLowercase = false)
    (before : Option Char) (s : List Char) :
    snakeAfter before (s ++ t) =
      snakeAfter before s ++ snakeAfter (s.getLast?.or before) t := by
  induction s generalizing before with
  | nil => rfl
  | cons c rest ih =>
    -- A capital is told to open a word by a small letter behind it, and there is none in `t`.
    have hopens : opensWord before (rest ++ t) = opensWord before rest := by
      cases before with
      | none => rfl
      | some b =>
        rw [opensWord, opensWord]
        cases rest with
        | nil => rw [List.nil_append, h]; rfl
        | cons => rfl
    have hchar : snakeChar before c (rest ++ t) = snakeChar before c rest := by
      rw [snakeChar, snakeChar, hopens]
    have hlast : ((c :: rest).getLast?.or before) = rest.getLast?.or (some c) := by
      rw [List.getLast?_cons]
      cases rest.getLast? <;> rfl
    rw [List.cons_append, snakeAfter, snakeAfter, hchar, ih, hlast, List.append_assoc]

/-- Behind any character, the last word of the name of a generated type is a word of its own. -/
theorem snakeAfter_util (b : Char) : snakeAfter (some b) "Util".toList = "_util".toList := by
  have hcapital : isUppercase 'U' = true ∧ lowercase 'U' = ['u'] := by decide +kernel
  have hsmall : isLowercase 't' = true ∧ isUppercase 't' = false ∧ isUppercase 'i' = false ∧
      isUppercase 'l' = false := by decide +kernel
  have hopens : opensWord (some b) ['t', 'i', 'l'] = true := by
    rw [opensWord, List.head?_cons, Option.any_some, hsmall.1, Bool.or_true]
  change snakeAfter (some b) ['U', 't', 'i', 'l'] = ['_', 'u', 't', 'i', 'l']
  simp [snakeChar, hcapital, hsmall, hopens]

/-- **The snake case of a generated type** is that of its interface, with a word behind it. -/
theorem snakeCase_append_util {name : String} (h : name ≠ "") :
    snakeCase (name ++ "Util") = snakeCase name ++ "_util" := by
  have hne : name.toList ≠ [] := fun hnil => h (String.toList_eq_nil_iff.1 hnil)
  have hhead : "Util".toList.head?.any isLowercase = false := by decide +kernel
  rw [snakeCase, snakeCase, String.toList_append, snakeAfter_append hhead,
    List.getLast?_eq_some_getLast hne, Option.some_or, snakeAfter_util, String.ofList_append,
    String.ofList_toList]

/-! ### Plain camel case -/

/-- Behind `b`, whether there are neither underscores nor capitals that follow each other. -/
def camelBehind (b : Char) : List Char → Bool
  | [] => true
  | c :: rest => c != '_' && !(isUppercase b && isUppercase c) && camelBehind c rest

/-- Whether the name is in plain camel case: it starts with a capital, every other capital starts
a word of its own, and there are no underscores. -/
def isCamel (name : String) : Bool :=
  match name.toList with
  | [] => false
  | c :: rest => isUppercase c && camelBehind c rest

theorem isCamel_iff {name : String} : isCamel name = true ↔
    ∃ c rest, name.toList = c :: rest ∧ isUppercase c = true ∧ camelBehind c rest = true := by
  rw [isCamel]
  cases name.toList with
  | nil => simp
  | cons c rest =>
    rw [Bool.and_eq_true]
    constructor
    · rintro ⟨hc, hrest⟩
      exact ⟨c, rest, rfl, hc, hrest⟩
    · rintro ⟨_, _, hcons, hc, hrest⟩
      cases hcons
      exact ⟨hc, hrest⟩

theorem camelBehind_cons {b c : Char} {rest : List Char} :
    camelBehind b (c :: rest) = true ↔
      c ≠ '_' ∧ (isUppercase c = true → isUppercase b = false) ∧ camelBehind c rest = true := by
  rw [camelBehind]
  cases isUppercase b <;> cases isUppercase c <;> simp

/-- In plain camel case, every capital opens a word. -/
theorem snakeAfter_camel {b c : Char} {rest : List Char} (hc : isNamePart c = true)
    (h : isUppercase c = true → isUppercase b = false) :
    snakeAfter (some b) (c :: rest) =
      if isUppercase c then '_' :: smallLetter c :: snakeAfter (some c) rest
      else c :: snakeAfter (some c) rest := by
  rw [snakeAfter]
  cases hcapital : isUppercase c with
  | false =>
    rw [snakeChar_of_not_isUppercase hcapital]
    rfl
  | true =>
    have hopens : opensWord (some b) rest = true := by
      rw [opensWord, h hcapital]
      rfl
    rw [snakeChar_of_isUppercase hc hcapital, hopens]
    rfl

/-- Behind a first character, plain camel case can be read off the snake case: by induction, since
an underscore tells that a capital follows. -/
theorem snakeAfter_inj_of_camelBehind {s t : List Char} {b b' : Char}
    (hs : ∀ c ∈ s, isNamePart c = true) (ht : ∀ c ∈ t, isNamePart c = true)
    (hcamel : camelBehind b s = true) (hcamel' : camelBehind b' t = true)
    (h : snakeAfter (some b) s = snakeAfter (some b') t) : s = t := by
  induction s generalizing b b' t with
  | nil =>
    cases t with
    | nil => rfl
    | cons d later =>
      obtain ⟨hd, -⟩ := List.forall_mem_cons.1 ht
      obtain ⟨-, hfollows, -⟩ := camelBehind_cons.1 hcamel'
      rw [snakeAfter_camel hd hfollows] at h
      split at h <;> cases h
  | cons c rest ih =>
    obtain ⟨hc, hrest⟩ := List.forall_mem_cons.1 hs
    obtain ⟨hplain, hfollows, hcamel⟩ := camelBehind_cons.1 hcamel
    rw [snakeAfter_camel hc hfollows] at h
    cases t with
    | nil => split at h <;> cases h
    | cons d later =>
      obtain ⟨hd, hlater⟩ := List.forall_mem_cons.1 ht
      obtain ⟨hplain', hfollows', hcamel'⟩ := camelBehind_cons.1 hcamel'
      rw [snakeAfter_camel hd hfollows'] at h
      -- Both are capitals, or neither is: an underscore stands in front of one only.
      split at h
      · next hcapital =>
        split at h
        · next hcapital' =>
          obtain ⟨hsmall, htail⟩ := List.cons.inj (List.cons.inj h).2
          obtain rfl := smallLetter_inj hc hcapital hd hcapital' hsmall
          rw [ih hrest hlater hcamel hcamel' htail]
        · exact absurd (List.cons.inj h).1.symm hplain'
      · split at h
        · exact absurd (List.cons.inj h).1 hplain
        · obtain ⟨rfl, htail⟩ := List.cons.inj h
          rw [ih hrest hlater hcamel hcamel' htail]

/-- **In plain camel case, different names have different snake cases**. -/
theorem snakeCase_inj_of_isCamel {name other : String} (hname : IsName name)
    (hother : IsName other) (hcamel : isCamel name = true) (hcamel' : isCamel other = true)
    (h : snakeCase name = snakeCase other) : name = other := by
  obtain ⟨c, rest, hlist, hcapital, hbehind⟩ := isCamel_iff.1 hcamel
  obtain ⟨d, later, hlist', hcapital', hbehind'⟩ := isCamel_iff.1 hcamel'
  have hparts : ∀ x ∈ c :: rest, isNamePart x = true :=
    fun x hx => hname.isNamePart_of_mem (hlist ▸ hx)
  have hparts' : ∀ x ∈ d :: later, isNamePart x = true :=
    fun x hx => hother.isNamePart_of_mem (hlist' ▸ hx)
  obtain ⟨hc, hrest⟩ := List.forall_mem_cons.1 hparts
  obtain ⟨hd, hlater⟩ := List.forall_mem_cons.1 hparts'
  rw [snakeCase, snakeCase, hlist, hlist', String.ofList_inj, snakeAfter, snakeAfter,
    snakeChar_of_isUppercase hc hcapital, snakeChar_of_isUppercase hd hcapital'] at h
  obtain ⟨hsmall, htail⟩ := List.cons.inj h
  obtain rfl := smallLetter_inj hc hcapital hd hcapital' hsmall
  have hbehindEq := snakeAfter_inj_of_camelBehind hrest hlater hbehind hbehind' htail
  exact String.toList_inj.1 (hlist.trans (hbehindEq ▸ hlist'.symm))

end Text

end RequestRouter
