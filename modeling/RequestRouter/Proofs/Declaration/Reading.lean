import RequestRouter.Proofs.Declaration.Derivation

/-!
# Readers and the parts that they read

A reader of declarations takes a cursor and answers a tree with the cursor behind it. This
file says what it means that a reader reads exactly the parts of a relation
(`RequestRouter.Reads`), and shows that the ways in which readers are put together keep
that: one reader after the other, a choice by the token at hand, and repetition.

* **Sound**: what a reader passes over is a part that spells its answer.
* **Complete**: in front of a part a reader answers the tree that it spells and stops behind
  it – provided that the token there cannot belong to the part, for readers take as much as
  they can. Which tokens these are is the second relation of `RequestRouter.Reads`.

All of this is about lists that end with an empty token and have no other
(`RequestRouter.EndsOnce`), as the lists of the tokenizer do: no test lets the empty token
pass, so the cursor never reaches the end of the list, where it would stand still.
-/

namespace RequestRouter

/-! ### Lists with one empty token -/

/-- The last token is empty, and no other is. -/
inductive EndsOnce : List Token → Prop
  /-- Only the empty token. -/
  | last {token : Token} : token.text = "" → EndsOnce [token]
  /-- A token more in front. -/
  | cons {token : Token} {ts : List Token} :
    token.text ≠ "" → EndsOnce ts → EndsOnce (token :: ts)

theorem EndsOnce.ne_nil {ts : List Token} (h : EndsOnce ts) : ts ≠ [] := by
  cases h <;> simp

/-- Behind a token that is not empty, the list goes on. -/
theorem EndsOnce.tail {token : Token} {ts : List Token} (h : EndsOnce (token :: ts))
    (hne : token.text ≠ "") : EndsOnce ts := by
  cases h with
  | last hempty => exact absurd hempty hne
  | cons _ hrest => exact hrest

theorem EndsOnce.eq_nil {token : Token} {ts : List Token} (h : EndsOnce (token :: ts))
    (hempty : token.text = "") : ts = [] := by
  cases h with
  | last _ => rfl
  | cons hne _ => exact absurd hempty hne

theorem EndsOnce.tail_of_ne_nil {token : Token} {ts : List Token} (h : EndsOnce (token :: ts))
    (hne : ts ≠ []) : EndsOnce ts := by
  cases h with
  | last _ => exact absurd rfl hne
  | cons _ hrest => exact hrest

theorem EndsOnce.of_append {ts us : List Token} (h : EndsOnce (ts ++ us)) (hne : us ≠ []) :
    EndsOnce us := by
  induction ts with
  | nil => exact h
  | cons token ts ih =>
    exact ih (h.tail_of_ne_nil (List.append_ne_nil_of_right_ne_nil ts hne))

/-- **The tokens of a text end once.** -/
theorem endsOnce_tokensAt {position : Position} {s : List Char} {ts : List Token}
    (h : tokensAt position s = .ok ts) : EndsOnce ts := by
  fun_induction tokensAt position s generalizing ts with
  | case1 position s l hl fault hlater => cases h
  | case2 position s l hl later hlater ih =>
    cases h
    split
    · exact ih hlater
    · refine EndsOnce.cons ?_ (ih hlater)
      intro hempty
      refine (append_of_lexeme? hl).2 ?_
      exact String.ofList_eq_empty_iff.1 hempty
  | case3 position s hl hempty =>
    cases h
    exact EndsOnce.last rfl
  | case4 position s hl hempty => cases h

namespace Cursor

/-! ### Passing over tokens -/

/-- The tokens from the cursor on. -/
def rest (c : Cursor) : List Token := c.current :: c.later

@[simp] theorem rest_start (first : Token) (later : List Token) :
    (start first later).rest = first :: later := rfl

theorem left_eq_length (c : Cursor) : c.left + 1 = c.rest.length := by
  rw [c.left_eq, rest, List.length_cons]

theorem rest_advance {c : Cursor} (h : c.later ≠ []) : c.advance.rest = c.later := by
  rw [advance]
  split
  · next hnil => exact absurd hnil h
  · next heq => exact heq.symm

/-- The cursor moves over `ts`, without reaching the end of the list. -/
def Passes : Cursor → List Token → Cursor → Prop
  | c, [], c' => c' = c
  | c, token :: ts, c' => c.current = token ∧ c.later ≠ [] ∧ Passes c.advance ts c'

@[simp] theorem passes_nil (c c' : Cursor) : Passes c [] c' ↔ c' = c := Iff.rfl

@[simp] theorem passes_cons (c c' : Cursor) (token : Token) (ts : List Token) :
    Passes c (token :: ts) c' ↔ c.current = token ∧ c.later ≠ [] ∧ Passes c.advance ts c' :=
  Iff.rfl

theorem passes_append {c c' : Cursor} {ts us : List Token} :
    Passes c (ts ++ us) c' ↔ ∃ d, Passes c ts d ∧ Passes d us c' := by
  induction ts generalizing c with
  | nil => simp
  | cons token ts ih =>
    rw [List.cons_append, passes_cons, ih]
    constructor
    · rintro ⟨hcur, hlater, d, hts, hus⟩
      exact ⟨d, ⟨hcur, hlater, hts⟩, hus⟩
    · rintro ⟨d, ⟨hcur, hlater, hts⟩, hus⟩
      exact ⟨hcur, hlater, d, hts, hus⟩

theorem Passes.rest_eq {c c' : Cursor} {ts : List Token} (h : Passes c ts c') :
    c.rest = ts ++ c'.rest := by
  induction ts generalizing c with
  | nil => rw [(passes_nil c c').1 h, List.nil_append]
  | cons token ts ih =>
    obtain ⟨hcur, hlater, hrest⟩ := h
    rw [List.cons_append, ← ih hrest, rest_advance hlater, ← hcur, rest]

/-- The token at hand is the first that is passed over, or else the one behind. -/
theorem Passes.current_eq {c c' : Cursor} {ts : List Token} (h : Passes c ts c') :
    c.current = ts.headD c'.current := by
  cases ts with
  | nil => rw [(passes_nil c c').1 h, List.headD_nil]
  | cons token ts => exact h.1

theorem Passes.left_eq {c c' : Cursor} {ts : List Token} (h : Passes c ts c') :
    c.left = ts.length + c'.left := by
  have hlength := congrArg List.length h.rest_eq
  rw [List.length_append, ← left_eq_length, ← left_eq_length] at hlength
  omega

theorem Passes.left_lt {c c' : Cursor} {token : Token} (h : Passes c [token] c') :
    c'.left < c.left := by
  rw [h.left_eq, List.length_singleton]
  omega

theorem Passes.endsOnce {c c' : Cursor} {ts : List Token} (h : Passes c ts c')
    (hc : EndsOnce c.rest) : EndsOnce c'.rest :=
  (h.rest_eq ▸ hc).of_append (List.cons_ne_nil _ _)

/-- A cursor is passed on over any tokens in front of the last one. -/
theorem exists_passes {c : Cursor} {ts us : List Token} (h : c.rest = ts ++ us) (hne : us ≠ []) :
    ∃ c', Passes c ts c' ∧ c'.rest = us := by
  induction ts generalizing c with
  | nil => exact ⟨c, rfl, h⟩
  | cons token ts ih =>
    obtain ⟨hcur, hlater⟩ := List.cons.inj h
    have hne' : c.later ≠ [] := by
      rw [hlater]
      exact List.append_ne_nil_of_right_ne_nil ts hne
    obtain ⟨c', hpasses, hrest⟩ := ih ((rest_advance hne').trans hlater)
    exact ⟨c', ⟨hcur, hne', hpasses⟩, hrest⟩

/-- The cursor stands at the end exactly if nothing is behind it. -/
theorem atEnd_iff {c : Cursor} (hc : EndsOnce c.rest) : c.atEnd = true ↔ c.later = [] := by
  rw [atEnd, Bool.or_eq_true, List.isEmpty_iff, Token.isEnd, String.isEmpty_iff]
  constructor
  · rintro (h | h)
    · exact h
    · exact EndsOnce.eq_nil hc h
  · exact Or.inl

/-- A test that the empty token fails. -/
def Proper (test : Token → Bool) : Prop := ∀ token : Token, token.text = "" → test token = false

theorem proper_is (text : String) (h : text ≠ "") : Proper (Token.is text) := by
  intro token htoken
  rw [Token.is, htoken]
  exact beq_eq_false_iff_ne.2 h.symm

theorem eat?_eq_some_iff {test : Token → Bool} (htest : Proper test) {c c' : Cursor}
    (hc : EndsOnce c.rest) :
    c.eat? test = some c' ↔ test c.current = true ∧ Passes c [c.current] c' := by
  rw [eat?]
  constructor
  · intro h
    split at h
    · next hpass =>
      refine ⟨hpass, rfl, ?_, (Option.some.inj h).symm⟩
      -- A token that passes the test is not empty, so it is not the last one.
      have htext : c.current.text ≠ "" := fun h0 => by simp [htest _ h0] at hpass
      exact (hc.tail htext).ne_nil
    · cases h
  · rintro ⟨hpass, -, -, rfl⟩
    rw [if_pos hpass]

theorem eat?_eq_none_iff {test : Token → Bool} {c : Cursor} :
    c.eat? test = none ↔ test c.current = false := by
  rw [eat?]
  split
  · next h => simp [h]
  · next h => simpa using h

end Cursor

theorem Derives.behind_iff {α : Type} {text : String} {part : List Token → α → Prop}
    {ts : List Token} {a : α} :
    Behind text part ts a ↔
      ∃ token us, ts = token :: us ∧ Token.is text token = true ∧ part us a := by
  constructor
  · rintro ⟨htoken, ha⟩
    exact ⟨_, _, rfl, beq_iff_eq.2 htoken, ha⟩
  · rintro ⟨token, us, rfl, htoken, ha⟩
    exact .intro (eq_of_beq htoken) ha

theorem Derives.Behind.headD {α : Type} {text : String} {part : List Token → α → Prop}
    {ts : List Token} {a : α} (h : Behind text part ts a) (token : Token) :
    (ts.headD token).text = text := by
  obtain ⟨htoken, -⟩ := h
  exact htoken

theorem Derives.Behind.exists_cons {α : Type} {text : String} {part : List Token → α → Prop}
    {ts : List Token} {a : α} (h : Behind text part ts a) :
    ∃ token us, ts = token :: us ∧ token.text = text := by
  obtain ⟨htoken, -⟩ := h
  exact ⟨_, _, rfl, htoken⟩

/-! ### Readers -/

open Cursor

variable {α β : Type}

/-- Two steps have an answer if the first has one from which the second has it. -/
theorem Parsed.bind_eq_ok_iff {first : Parsed α} {next : α → Parsed β} {b : β} :
    (first >>= next) = .ok b ↔ ∃ a, first = .ok a ∧ next a = .ok b := by
  cases first with
  | error fault => exact ⟨nofun, nofun⟩
  | ok a => exact ⟨fun h => ⟨a, rfl, h⟩, fun ⟨_, rfl, h⟩ => h⟩

/-- Two steps have a fault if the first has it, or has an answer from which the second has it. -/
theorem Parsed.bind_eq_error_iff {first : Parsed α} {next : α → Parsed β} {fault : ParseFault} :
    (first >>= next) = .error fault ↔
      first = .error fault ∨ ∃ a, first = .ok a ∧ next a = .error fault := by
  cases first with
  | error found =>
    refine ⟨fun h => .inl (congrArg _ (Except.error.inj h)), ?_⟩
    rintro (h | ⟨_, h, -⟩)
    · exact congrArg _ (Except.error.inj h)
    · cases h
  | ok a =>
    refine ⟨fun h => .inr ⟨a, rfl, h⟩, ?_⟩
    rintro (h | ⟨_, h, hnext⟩)
    · cases h
    · cases h
      exact hnext

/-- **The result reads the part at the cursor**: it is a tree only where a part stands that
spells it, and stops behind it; and where a part stands and `Stop` holds of the token behind
it, it is the tree that the part spells. -/
structure ReadsAt (c : Cursor) (result : Parsed (α × Cursor)) (Part : List Token → α → Prop)
    (Stop : α → Token → Prop) : Prop where
  /-- What is answered is spelled by what is passed over. -/
  sound {a : α} {c' : Cursor} : result = .ok (a, c') → ∃ ts, Passes c ts c' ∧ Part ts a
  /-- What is spelled is answered. -/
  complete {ts : List Token} {a : α} {c' : Cursor} :
    Passes c ts c' → Part ts a → Stop a c'.current → result = .ok (a, c')

/-- **The reader reads the parts of `Part`**, wherever they stand. -/
def Reads (read : Cursor → Parsed (α × Cursor)) (Part : List Token → α → Prop)
    (Stop : α → Token → Prop) : Prop :=
  ∀ c, EndsOnce c.rest → ReadsAt c (read c) Part Stop

/-- No condition on the token behind a part. -/
def Anything : α → Token → Prop := fun _ _ => True

/-- The token is none of the given texts. -/
def NoneOf (texts : List String) (token : Token) : Prop := token.text ∉ texts

theorem NoneOf.of_text_eq {texts : List String} {text : String} {token : Token}
    (h : token.text = text) (htext : text ∉ texts) : NoneOf texts token := by
  intro hmem
  exact htext (h ▸ hmem)

/-- Fewer texts are excluded. -/
theorem NoneOf.mono {texts texts' : List String} {token : Token} (h : NoneOf texts token)
    (hsub : ∀ text ∈ texts', text ∈ texts) : NoneOf texts' token :=
  fun hmem => h (hsub _ hmem)

theorem NoneOf.text_ne {texts : List String} {text : String} {token : Token}
    (h : NoneOf texts token) (htext : text ∈ texts) : token.text ≠ text := by
  rintro rfl
  exact h htext

/-- Behind a missing part, the text that would start it does not stand. -/
def Missing (text : String) (Stop : α → Token → Prop) : Option α → Token → Prop
  | none, token => token.text ≠ text
  | some a, token => Stop a token

namespace ReadsAt

variable {c : Cursor} {result : Parsed (α × Cursor)} {Part : List Token → α → Prop}
  {Stop : α → Token → Prop}

/-- The same parts in other words. -/
theorem congr {Part' : List Token → α → Prop} (hpart : ∀ ts a, Part ts a ↔ Part' ts a)
    (h : ReadsAt c result Part Stop) : ReadsAt c result Part' Stop where
  sound hread := by
    obtain ⟨ts, hpass, hts⟩ := h.sound hread
    exact ⟨ts, hpass, (hpart ts _).1 hts⟩
  complete hpass hts hbehind := h.complete hpass ((hpart _ _).2 hts) hbehind

/-- A stronger condition on the token behind. -/
theorem weaken {Stop' : α → Token → Prop} (hstop : ∀ a token, Stop' a token → Stop a token)
    (h : ReadsAt c result Part Stop) : ReadsAt c result Part Stop' where
  sound := h.sound
  complete hpass hts hbehind := h.complete hpass hts (hstop _ _ hbehind)

/-- An answer without reading. -/
theorem pure (a : α) : ReadsAt c (.ok (a, c)) (fun ts b => ts = [] ∧ b = a) Stop where
  sound hread := by
    cases hread
    exact ⟨[], rfl, rfl, rfl⟩
  complete hpass hts _ := by
    obtain ⟨rfl, rfl⟩ := hts
    rw [(passes_nil _ _).1 hpass]

/-- A fault reads nothing. -/
theorem refused (fault : ParseFault) :
    ReadsAt c (.error fault) (fun _ (_ : α) => False) Stop where
  sound := nofun
  complete _ := nofun

/-- **One reader after the other**. The token behind the first part is the first of the second
one, or behind both if that is empty. -/
theorem bind (hc : EndsOnce c.rest) (h : ReadsAt c result Part Stop)
    {next : α → Cursor → Parsed (β × Cursor)} {Part' : α → List Token → β → Prop}
    {Stop' : β → Token → Prop}
    (hnext : ∀ a d, EndsOnce d.rest → d.left ≤ c.left → ReadsAt d (next a d) (Part' a) Stop')
    (hstop : ∀ a ts b token, Part' a ts b → Stop' b token → Stop a (ts.headD token)) :
    ReadsAt c (result >>= fun read => next read.1 read.2)
      (fun ts b => ∃ us a vs, ts = us ++ vs ∧ Part us a ∧ Part' a vs b) Stop' where
  sound hread := by
    obtain ⟨⟨a, d⟩, hfirst, hread⟩ := Parsed.bind_eq_ok_iff.1 hread
    obtain ⟨us, hus, ha⟩ := h.sound hfirst
    have hd := hnext a d (hus.endsOnce hc) (hus.left_eq ▸ Nat.le_add_left _ _)
    obtain ⟨vs, hvs, hb⟩ := hd.sound hread
    exact ⟨us ++ vs, passes_append.2 ⟨d, hus, hvs⟩, us, a, vs, rfl, ha, hb⟩
  complete hpass hts hbehind := by
    obtain ⟨us, a, vs, rfl, ha, hb⟩ := hts
    obtain ⟨d, hus, hvs⟩ := passes_append.1 hpass
    have hd := hnext a d (hus.endsOnce hc) (hus.left_eq ▸ Nat.le_add_left _ _)
    have hfirst : result = .ok (a, d) :=
      h.complete hus ha (hvs.current_eq ▸ hstop a vs _ _ hb hbehind)
    rw [hfirst]
    exact hd.complete hvs hb hbehind

/-- An answer that is changed. -/
theorem map (h : ReadsAt c result Part Stop) (f : α → β) {Stop' : β → Token → Prop}
    (hstop : ∀ a token, Stop' (f a) token → Stop a token) :
    ReadsAt c (result >>= fun read => .ok (f read.1, read.2))
      (fun ts b => ∃ a, Part ts a ∧ b = f a) Stop' where
  sound hread := by
    obtain ⟨⟨a, d⟩, hfirst, hread⟩ := Parsed.bind_eq_ok_iff.1 hread
    cases hread
    obtain ⟨ts, hpass, hts⟩ := h.sound hfirst
    exact ⟨ts, hpass, a, hts, rfl⟩
  complete hpass hts hbehind := by
    obtain ⟨a, ha, rfl⟩ := hts
    rw [h.complete hpass ha (hstop _ _ hbehind)]
    rfl

/-! ### Single tokens -/

/-- A choice by the token at hand, where the second way need only be right for the tokens that
fail the test. -/
theorem choice_of_not (First : Token → List Token → α → Prop) (hc : EndsOnce c.rest)
    {test : Token → Bool} (htest : Proper test) {first : Cursor → Parsed (α × Cursor)}
    {second : Parsed (α × Cursor)} {Second : List Token → α → Prop}
    (hfirst : ∀ d, EndsOnce d.rest → d.left < c.left → ReadsAt d (first d) (First c.current) Stop)
    (hsecond : test c.current = false → ReadsAt c second Second Stop)
    (hapart : ∀ ts a token, Second ts a → Stop a token → test (ts.headD token) = false) :
    ReadsAt c
      (match c.eat? test with
        | some d => first d
        | none => second)
      (fun ts a =>
        (∃ token us, ts = token :: us ∧ test token = true ∧ First token us a) ∨ Second ts a)
      Stop where
  sound hread := by
    split at hread
    · next d heat =>
      obtain ⟨hpass, hmove⟩ := (eat?_eq_some_iff htest hc).1 heat
      obtain ⟨us, hus, ha⟩ := (hfirst d (hmove.endsOnce hc) hmove.left_lt).sound hread
      exact ⟨c.current :: us, passes_append.2 ⟨d, hmove, hus⟩, .inl ⟨_, us, rfl, hpass, ha⟩⟩
    · next heat =>
      obtain ⟨ts, hpass, ha⟩ := (hsecond (eat?_eq_none_iff.1 heat)).sound hread
      exact ⟨ts, hpass, .inr ha⟩
  complete hpass hts hbehind := by
    rcases hts with ⟨token, us, rfl, htoken, ha⟩ | ha
    · obtain ⟨d, hmove, hus⟩ := passes_append.1 (List.singleton_append ▸ hpass)
      obtain rfl := hmove.1
      rw [(eat?_eq_some_iff htest hc).2 ⟨htoken, hmove⟩]
      exact (hfirst d (hmove.endsOnce hc) hmove.left_lt).complete hus ha hbehind
    · have hfail : test c.current = false := hpass.current_eq ▸ hapart _ _ _ ha hbehind
      rw [eat?_eq_none_iff.2 hfail]
      exact (hsecond hfail).complete hpass ha hbehind

/-- **A choice by the token at hand**: if it passes the test, it is passed over and `first` goes
on behind it, else `second` reads from it on. -/
theorem choice (First : Token → List Token → α → Prop) (hc : EndsOnce c.rest)
    {test : Token → Bool} (htest : Proper test) {first : Cursor → Parsed (α × Cursor)}
    {second : Parsed (α × Cursor)} {Second : List Token → α → Prop}
    (hfirst : ∀ d, EndsOnce d.rest → d.left < c.left → ReadsAt d (first d) (First c.current) Stop)
    (hsecond : ReadsAt c second Second Stop)
    (hapart : ∀ ts a token, Second ts a → Stop a token → test (ts.headD token) = false) :
    ReadsAt c
      (match c.eat? test with
        | some d => first d
        | none => second)
      (fun ts a =>
        (∃ token us, ts = token :: us ∧ test token = true ∧ First token us a) ∨ Second ts a)
      Stop :=
  choice_of_not First hc htest hfirst (fun _ => hsecond) hapart

/-- A part that is not empty starts with the token at hand. -/
theorem of_current {test : Token → Bool} {b : Bool} (htest : test c.current = b)
    (h : ReadsAt c result Part Stop) (hne : ∀ a, ¬Part [] a) :
    ReadsAt c result (fun ts a => Part ts a ∧ ∃ token us, ts = token :: us ∧ test token = b)
      Stop where
  sound {a c'} hread := by
    obtain ⟨ts, hpass, ha⟩ := h.sound hread
    refine ⟨ts, hpass, ha, ?_⟩
    cases ts with
    | nil => exact absurd ha (hne a)
    | cons token us => exact ⟨token, us, rfl, hpass.1 ▸ htest⟩
  complete hpass hts hbehind := h.complete hpass hts.1 hbehind

theorem ite_advance {test : Token → Bool} (first : Cursor → Parsed (α × Cursor))
    (second : Parsed (α × Cursor)) :
    (if test c.current then first c.advance else second) =
      match c.eat? test with
      | some d => first d
      | none => second := by
  rw [eat?]
  split <;> rfl

/-- A part of which every first token passes a test that is made before. -/
theorem guard {test : Token → Bool} {fault : ParseFault} (h : ReadsAt c result Part Stop)
    (hpart : ∀ ts a token, Part ts a → test (ts.headD token) = true) :
    ReadsAt c (if test c.current then result else .error fault) Part Stop where
  sound hread := by
    split at hread
    · exact h.sound hread
    · cases hread
  complete hpass hts hbehind := by
    rw [if_pos (hpass.current_eq ▸ hpart _ _ _ hts)]
    exact h.complete hpass hts hbehind

/-- A part that is not empty, so that it does not stand at the end. -/
theorem unlessEnd {fault : ParseFault} (hc : EndsOnce c.rest) (h : ReadsAt c result Part Stop)
    (hne : ∀ a, ¬Part [] a) :
    ReadsAt c (if c.atEnd then .error fault else result) Part Stop where
  sound hread := by
    split at hread
    · cases hread
    · exact h.sound hread
  complete {ts a c'} hpass hts hbehind := by
    have hend : ¬c.atEnd = true := by
      rw [atEnd_iff hc]
      cases ts with
      | nil => exact absurd hts (hne a)
      | cons token ts => exact hpass.2.1
    rw [if_neg hend]
    exact h.complete hpass hts hbehind

/-- A token that has to pass a test, in front of what is read. -/
theorem token (hc : EndsOnce c.rest) {test : Token → Bool} (htest : Proper test)
    {what : Expectation} {next : Token → Cursor → Parsed (α × Cursor)}
    {Part : Token → List Token → α → Prop}
    (hnext : ∀ token d, EndsOnce d.rest → d.left < c.left →
      ReadsAt d (next token d) (Part token) Stop) :
    ReadsAt c (c.expect test what >>= fun read => next read.1 read.2)
      (fun ts a => ∃ token us, ts = token :: us ∧ test token = true ∧ Part token us a) Stop := by
  have heq : (c.expect test what >>= fun read => next read.1 read.2) =
      match c.eat? test with
      | some d => next c.current d
      | none => .error (c.expected what) := by
    rw [Cursor.expect]
    cases c.eat? test <;> rfl
  rw [heq]
  refine (choice Part hc htest (hnext c.current) (refused _) nofun).congr fun ts a => ?_
  exact or_iff_left id

/-- A symbol that has to stand in front of what is read. -/
theorem symbol (hc : EndsOnce c.rest) {text : String} (htext : text ≠ "")
    {next : Cursor → Parsed (α × Cursor)}
    (hnext : ∀ d, EndsOnce d.rest → d.left < c.left → ReadsAt d (next d) Part Stop) :
    ReadsAt c (c.expectSymbol text >>= next) (Derives.Behind text Part) Stop := by
  have heq : (c.expectSymbol text >>= next) =
      match c.eat? (Token.is text) with
      | some d => next d
      | none => .error (c.expected (.symbol text)) := by
    rw [Cursor.expectSymbol]
    cases c.eat? (Token.is text) <;> rfl
  rw [heq]
  refine (choice (fun _ => Part) hc (proper_is text htext) hnext (refused _) nofun).congr
    fun ts a => ?_
  rw [Derives.behind_iff]
  exact or_iff_left id

/-- A part that starts with a text, or nothing. -/
theorem maybe (First : Token → List Token → α → Prop) (hc : EndsOnce c.rest) {text : String}
    (htext : text ≠ "")
    (hpart : ∀ ts a, Part ts a ↔
      ∃ token us, ts = token :: us ∧ Token.is text token = true ∧ First token us a)
    {first : Cursor → Parsed (Option α × Cursor)}
    (hfirst : ∀ d, EndsOnce d.rest → d.left < c.left →
      ReadsAt d (first d) (fun ts r => ∃ a, First c.current ts a ∧ r = some a)
        (Missing text Stop)) :
    ReadsAt c
      (match c.eat? (Token.is text) with
        | none => .ok (none, c)
        | some d => first d)
      (Derives.Maybe Part) (Missing text Stop) := by
  -- The reader is a choice of which the cases are written the other way round.
  have heq : (match c.eat? (Token.is text) with
        | none => .ok (none, c)
        | some d => first d) =
      match c.eat? (Token.is text) with
        | some d => first d
        | none => .ok (none, c) := by
    cases c.eat? (Token.is text) <;> rfl
  rw [heq]
  refine (choice (fun token ts r => ∃ a, First token ts a ∧ r = some a) hc (proper_is text htext)
    hfirst (pure none) ?_).congr fun ts r => ?_
  · rintro ts r token ⟨rfl, rfl⟩ hstop
    exact beq_eq_false_iff_ne.2 hstop
  · constructor
    · rintro (⟨token, us, rfl, htoken, a, ha, rfl⟩ | ⟨rfl, rfl⟩)
      · exact .some ((hpart _ a).2 ⟨token, us, rfl, htoken, ha⟩)
      · exact .none
    · rintro (_ | ha)
      · exact .inr ⟨rfl, rfl⟩
      · obtain ⟨token, us, rfl, htoken, hfirst⟩ := (hpart _ _).1 ha
        exact .inl ⟨token, us, rfl, htoken, _, hfirst, rfl⟩

theorem expectSymbol_eq_ok_iff (hc : EndsOnce c.rest) {text : String} (htext : text ≠ "")
    {d : Cursor} :
    c.expectSymbol text = .ok d ↔ ∃ token, token.text = text ∧ Passes c [token] d := by
  have htest := proper_is text htext
  rw [Cursor.expectSymbol]
  constructor
  · intro h
    split at h
    · next next heat =>
      cases h
      obtain ⟨hpass, hmove⟩ := (eat?_eq_some_iff htest hc).1 heat
      exact ⟨_, eq_of_beq hpass, hmove⟩
    · cases h
  · rintro ⟨token, hcurrent, hmove⟩
    obtain rfl := hmove.1
    rw [(eat?_eq_some_iff htest hc).2 ⟨beq_iff_eq.2 hcurrent, hmove⟩]

end ReadsAt

/-! ### Repetition -/

theorem Derives.Row.imp {Part Part' : List Token → α → Prop} {ts : List Token} {as : List α}
    (h : Row Part ts as) (himp : ∀ ts a, Part ts a → Part' ts a) : Row Part' ts as := by
  induction h with
  | nil => exact .nil
  | cons ha _ ih => exact .cons (himp _ _ ha) ih

theorem headD_append (ts us : List Token) (token : Token) :
    (ts ++ us).headD token = ts.headD (us.headD token) := by
  cases ts <;> rfl

/-- The parts that a repeated reader reads: those that it answers something for, and then one
that ends the row. -/
def RowThen (Part : List Token → Option α → Prop) (ts : List Token) (as : List α) : Prop :=
  ∃ us vs, ts = us ++ vs ∧ Derives.Row (fun ts a => Part ts (some a)) us as ∧ Part vs none

section Many

variable {item : Cursor → Parsed (Option α × Cursor)} {Part : List Token → Option α → Prop}
  {Stop : Option α → Token → Prop}

theorem rowThen_nil {ts : List Token} (h : Part ts none) : RowThen Part ts [] :=
  ⟨[], ts, rfl, .nil, h⟩

theorem RowThen.cons {ts us : List Token} {a : α} {as : List α} (ha : Part ts (some a))
    (h : RowThen Part us as) : RowThen Part (ts ++ us) (a :: as) := by
  obtain ⟨vs, ws, rfl, hrow, hend⟩ := h
  exact ⟨ts ++ vs, ws, (List.append_assoc ..).symm, .cons ha hrow, hend⟩

theorem rowThen_maybe_iff {Part : List Token → α → Prop} {ts : List Token} {as : List α} :
    RowThen (Derives.Maybe Part) ts as ↔ Derives.Row Part ts as := by
  constructor
  · rintro ⟨us, vs, rfl, hrow, ⟨⟩⟩
    rw [List.append_nil]
    refine hrow.imp fun us a h => ?_
    cases h with
    | some ha => exact ha
  · intro hrow
    exact ⟨ts, [], (List.append_nil ts).symm, hrow.imp fun _ _ => .some, .none⟩

/-- The token behind an item belongs to the next one, or to what ends the row. -/
theorem RowThen.stop {ts : List Token} {as : List α} (h : RowThen Part ts as) {token : Token}
    (hend : Stop none token)
    (hstop : ∀ a ts r token, Part ts r → Stop r token → Stop (some a) (ts.headD token)) (a : α) :
    Stop (some a) (ts.headD token) := by
  obtain ⟨us, vs, rfl, hrow, hvs⟩ := h
  induction hrow generalizing a with
  | nil => exact hstop a vs none token hvs hend
  | @cons us us' b bs hb _ ih =>
    rw [List.append_assoc, headD_append]
    exact hstop a us (some b) _ hb (ih b)

/-- **Repetition reads rows**, if no item is empty and each item may be followed by what can
follow it in a row. -/
theorem Reads.many (hitem : Reads item Part Stop) (hne : ∀ a, ¬Part [] (some a))
    (hstop : ∀ a ts r token, Part ts r → Stop r token → Stop (some a) (ts.headD token)) :
    Reads (many item) (RowThen Part) (fun _ token => Stop none token) := by
  -- by induction on the number of tokens behind the cursor, which every item lowers
  intro c hc
  obtain ⟨n, hn⟩ : ∃ n, c.left = n := ⟨_, rfl⟩
  induction n using Nat.strongRecOn generalizing c with
  | ind n ih =>
    have hlower : ∀ {ts : List Token} {a : α} {d : Cursor}, Passes c ts d → Part ts (some a) →
        d.left < c.left := by
      intro ts a d hpass ha
      have hleft := hpass.left_eq
      have hpos : ts.length ≠ 0 := fun h0 => hne a (List.length_eq_zero_iff.1 h0 ▸ ha)
      omega
    constructor
    · intro as c' hread
      rw [RequestRouter.many] at hread
      split at hread
      · cases hread
      · next d hfirst =>
        cases hread
        obtain ⟨ts, hpass, hts⟩ := (hitem c hc).sound hfirst
        exact ⟨ts, hpass, rowThen_nil hts⟩
      · next a d hfirst =>
        obtain ⟨ts, hpass, hts⟩ := (hitem c hc).sound hfirst
        have hlt := hlower hpass hts
        rw [if_pos hlt] at hread
        split at hread
        · cases hread
        · next bs last hrest =>
          cases hread
          have hd := ih d.left (hn ▸ hlt) d (hpass.endsOnce hc) rfl
          obtain ⟨us, hus, hbs⟩ := hd.sound hrest
          exact ⟨ts ++ us, passes_append.2 ⟨d, hpass, hus⟩, RowThen.cons hts hbs⟩
    · intro ts as c' hpass hts hbehind
      rw [RequestRouter.many]
      obtain ⟨us, vs, rfl, hrow, hvs⟩ := hts
      cases hrow with
      | nil => rw [(hitem c hc).complete hpass hvs hbehind]
      | @cons us us' a as ha hrow =>
        rw [List.append_assoc] at hpass
        obtain ⟨d, hus, hrest⟩ := passes_append.1 hpass
        have hlt := hlower hus ha
        have hrow' : RowThen Part (us' ++ vs) as := ⟨us', vs, rfl, hrow, hvs⟩
        -- What stands behind the first item is the next one, or what ends the row.
        have hcurrent : Stop (some a) d.current :=
          hrest.current_eq ▸ hrow'.stop hbehind hstop a
        have hd := ih d.left (hn ▸ hlt) d (hus.endsOnce hc) rfl
        rw [(hitem c hc).complete hus ha hcurrent]
        simp only [if_pos hlt, hd.complete hrest hrow' hbehind]

/-- Where a repetition ends, the item reader answered nothing. -/
theorem Reads.item_eq_none_of_many (hitem : Reads item Part Stop) (hne : ∀ a, ¬Part [] (some a))
    {c c' : Cursor} (hc : EndsOnce c.rest) {as : List α}
    (h : RequestRouter.many item c = .ok (as, c')) :
    ∃ d, EndsOnce d.rest ∧ item d = .ok (none, c') := by
  fun_induction RequestRouter.many item c generalizing as with
  | case1 c fault hfirst => cases h
  | case2 c d hfirst =>
    cases h
    exact ⟨c, hc, hfirst⟩
  | case3 c a d hfirst hlt fault hrest ih => cases h
  | case4 c a d hfirst hlt rest last hrest ih =>
    cases h
    obtain ⟨ts, hpass, -⟩ := (hitem c hc).sound hfirst
    exact ih (hpass.endsOnce hc) hrest
  | case5 c a d hfirst hlt =>
    obtain ⟨ts, hpass, hts⟩ := (hitem c hc).sound hfirst
    have hleft := hpass.left_eq
    have hzero : ts = [] := List.length_eq_zero_iff.1 (by omega)
    exact absurd (hzero ▸ hts) (hne a)

/-- **Repetition of a part that starts with a text reads rows of it**, if the same text may
follow each. -/
theorem Reads.row {text : String} {item : Cursor → Parsed (Option α × Cursor)}
    {Part : List Token → α → Prop} {Follow : Token → Prop}
    (hitem : Reads item (Derives.Maybe Part) (Missing text fun _ => Follow))
    (hstart : ∀ ts a, Part ts a → ∃ token us, ts = token :: us ∧ token.text = text)
    (hfollow : ∀ token : Token, token.text = text → Follow token) :
    Reads (RequestRouter.many item) (Derives.Row Part)
      (fun _ token => token.text ≠ text ∧ Follow token) := by
  have hitem' : Reads item (Derives.Maybe Part)
      (fun r token => Missing text (fun _ => Follow) r token ∧ Follow token) :=
    fun c hc => (hitem c hc).weaken fun _ _ h => h.1
  intro c hc
  refine (hitem'.many ?_ ?_ c hc).congr fun ts as => rowThen_maybe_iff
  · rintro a (_ | ha)
    obtain ⟨token, us, hnil, -⟩ := hstart _ _ ha
    cases hnil
  · rintro a ts r token (_ | hpart) hstop
    · exact ⟨hstop.2, hstop.2⟩
    · obtain ⟨first, us, rfl, hfirst⟩ := hstart _ _ hpart
      exact ⟨hfollow _ hfirst, hfollow _ hfirst⟩

end Many

section Listed

variable {Part : List Token → α → Prop}

theorem Derives.Closed.cons {ts us : List Token} {comma : Token} {a : α} {as : List α}
    (ha : Part ts a) (hcomma : comma.text = ",") (h : Derives.Closed Part us as) :
    Derives.Closed Part (ts ++ comma :: us) (a :: as) := by
  cases h with
  | empty hclosing => exact .trailing (.single ha) hcomma hclosing
  | @parts closing us as has hclosing =>
    rw [← List.cons_append, ← List.append_assoc]
    exact .parts (.cons ha hcomma has) hclosing
  | @trailing comma' closing us as has hcomma' hclosing =>
    rw [← List.cons_append, ← List.append_assoc]
    exact .trailing (.cons ha hcomma has) hcomma' hclosing

/-- **What stands in front of a closing parenthesis**: nothing; one part; or a part and a comma,
and the same again. -/
theorem Derives.closed_iff {ts : List Token} {as : List α} :
    Derives.Closed Part ts as ↔
      (∃ closing : Token, closing.text = ")" ∧ ts = [closing] ∧ as = []) ∨
      (∃ us a, ∃ closing : Token, Part us a ∧ closing.text = ")" ∧ ts = us ++ [closing] ∧
        as = [a]) ∨
      ∃ us a, ∃ comma : Token, ∃ vs bs, Part us a ∧ comma.text = "," ∧ Derives.Closed Part vs bs ∧
        ts = us ++ comma :: vs ∧ as = a :: bs := by
  constructor
  · intro h
    cases h with
    | @empty closing hclosing => exact .inl ⟨closing, hclosing, rfl, rfl⟩
    | @parts closing us as has hclosing =>
      cases has with
      | @single us a ha => exact .inr (.inl ⟨us, a, closing, ha, hclosing, rfl, rfl⟩)
      | @cons us vs comma a bs ha hcomma hbs =>
        -- What is behind the first comma ends as the whole does.
        refine .inr (.inr ⟨us, a, comma, vs ++ [closing], bs, ha, hcomma, .parts hbs hclosing, ?_,
          rfl⟩)
        rw [List.append_assoc, List.cons_append]
    | @trailing comma closing us as has hcomma hclosing =>
      cases has with
      | @single us a ha =>
        exact .inr (.inr ⟨us, a, comma, [closing], [], ha, hcomma, .empty hclosing, rfl, rfl⟩)
      | @cons us vs comma' a bs ha hcomma' hbs =>
        refine .inr (.inr ⟨us, a, comma', vs ++ [comma, closing], bs, ha, hcomma',
          .trailing hbs hcomma hclosing, ?_, rfl⟩)
        rw [List.append_assoc, List.cons_append]
  · rintro (⟨closing, hclosing, rfl, rfl⟩ | ⟨us, a, closing, ha, hclosing, rfl, rfl⟩ |
      ⟨us, a, comma, vs, bs, ha, hcomma, hrest, rfl, rfl⟩)
    · exact .empty hclosing
    · exact .parts (.single ha) hclosing
    · exact hrest.cons ha hcomma

variable {item : Cursor → Parsed (α × Cursor)} {Stop : α → Token → Prop}

/-- What is listed stands in front of a closing parenthesis. -/
theorem Reads.listed_sound (hitem : Reads item Part Stop) {c c' : Cursor} (hc : EndsOnce c.rest)
    {as : List α} (h : RequestRouter.listed item c = .ok (as, c')) :
    ∃ ts, Passes c ts c' ∧ Derives.Closed Part ts as := by
  -- Answers are given in three cases: no item, a last one, and one with a comma behind it.
  fun_induction RequestRouter.listed item c generalizing as with
  | case1 c d heat =>
    cases h
    obtain ⟨hpass, hmove⟩ := (eat?_eq_some_iff (proper_is _ (by decide)) hc).1 heat
    exact ⟨_, hmove, .empty (eq_of_beq hpass)⟩
  | case2 | case3 | case5 | case7 => cases h
  | case4 c _ a d hfirst _ last hlast =>
    cases h
    obtain ⟨ts, hts, ha⟩ := (hitem c hc).sound hfirst
    obtain ⟨closing, hclosed, hmove⟩ :=
      (ReadsAt.expectSymbol_eq_ok_iff (hts.endsOnce hc) (by decide)).1 hlast
    exact ⟨ts ++ [closing], passes_append.2 ⟨d, hts, hmove⟩, .parts (.single ha) hclosed⟩
  | case6 c _ a d hfirst e heat _ bs last hrest ih =>
    cases h
    obtain ⟨ts, hts, ha⟩ := (hitem c hc).sound hfirst
    have hd := hts.endsOnce hc
    obtain ⟨hpass, hmove⟩ := (eat?_eq_some_iff (proper_is _ (by decide)) hd).1 heat
    obtain ⟨us, hus, hbs⟩ := ih (hmove.endsOnce hd) hrest
    exact ⟨ts ++ d.current :: us, passes_append.2 ⟨d, hts, passes_append.2 ⟨e, hmove, hus⟩⟩,
      hbs.cons ha (eq_of_beq hpass)⟩

/-- What stands in front of a closing parenthesis is listed. -/
theorem Reads.listed_complete (hitem : Reads item Part Stop) (hne : ∀ a, ¬Part [] a)
    (hstart : ∀ token ts a, Part (token :: ts) a → token.text ≠ ")")
    (hcomma : ∀ a (token : Token), token.text = "," → Stop a token)
    (hclosing : ∀ a (token : Token), token.text = ")" → Stop a token) {c c' : Cursor}
    (hc : EndsOnce c.rest) {ts : List Token} {as : List α} (hpass : Passes c ts c')
    (h : Derives.Closed Part ts as) : RequestRouter.listed item c = .ok (as, c') := by
  -- by induction on the number of tokens, since each comma is followed by a shorter list
  obtain ⟨n, hn⟩ : ∃ n, c.left = n := ⟨_, rfl⟩
  induction n using Nat.strongRecOn generalizing c ts as with
  | ind n ih =>
    -- No item starts with the parenthesis, so in front of one the list does not end.
    have hnot : ∀ {us vs a}, Part us a → Passes c (us ++ vs) c' →
        c.eat? (Token.is ")") = none := by
      intro us vs a ha hpass
      refine eat?_eq_none_iff.2 (beq_eq_false_iff_ne.2 ?_)
      cases us with
      | nil => exact absurd ha (hne a)
      | cons token us => exact hpass.1 ▸ hstart token us a ha
    rw [RequestRouter.listed]
    rcases Derives.closed_iff.1 h with ⟨closing, hclosed, rfl, rfl⟩ |
      ⟨us, a, closing, ha, hclosed, rfl, rfl⟩ |
      ⟨us, a, comma, vs, bs, ha, hcommas, hbs, rfl, rfl⟩
    · have hcurrent : c.current = closing := hpass.1
      rw [← hcurrent] at hclosed hpass
      rw [(eat?_eq_some_iff (proper_is _ (by decide)) hc).2 ⟨beq_iff_eq.2 hclosed, hpass⟩]
    · obtain ⟨d, hus, hmove⟩ := passes_append.1 hpass
      have hd := hus.endsOnce hc
      have hcurrent : d.current = closing := hmove.1
      have heat : d.eat? (Token.is ",") = none := by
        refine eat?_eq_none_iff.2 (beq_eq_false_iff_ne.2 ?_)
        rw [hcurrent, hclosed]
        decide
      rw [hnot ha hpass, (hitem c hc).complete hus ha (hclosing a _ (hcurrent ▸ hclosed))]
      simp only [heat,
        (ReadsAt.expectSymbol_eq_ok_iff hd (by decide)).2 ⟨closing, hclosed, hmove⟩]
    · obtain ⟨d, hus, hrest⟩ := passes_append.1 hpass
      have hd := hus.endsOnce hc
      obtain ⟨e, hmove, hvs⟩ := passes_append.1 (List.singleton_append ▸ hrest)
      have hcurrent : d.current = comma := hmove.1
      have hlt : e.left < c.left :=
        Nat.lt_of_lt_of_le hmove.left_lt (hus.left_eq ▸ Nat.le_add_left _ _)
      rw [hnot ha hpass, (hitem c hc).complete hus ha (hcomma a _ (hcurrent ▸ hcommas))]
      rw [← hcurrent] at hcommas hmove
      simp only [(eat?_eq_some_iff (proper_is _ (by decide)) hd).2 ⟨beq_iff_eq.2 hcommas, hmove⟩,
        if_pos hlt, ih e.left (hn ▸ hlt) (hmove.endsOnce hd) hvs hbs rfl]

/-- **Items between commas are read up to the parenthesis**, if no item is empty or starts with
a parenthesis, and a comma and a parenthesis may follow each. -/
theorem Reads.listed (hitem : Reads item Part Stop) (hne : ∀ a, ¬Part [] a)
    (hstart : ∀ token ts a, Part (token :: ts) a → token.text ≠ ")")
    (hcomma : ∀ a (token : Token), token.text = "," → Stop a token)
    (hclosing : ∀ a (token : Token), token.text = ")" → Stop a token) :
    Reads (listed item) (Derives.Closed Part) Anything := fun _ hc =>
  { sound := hitem.listed_sound hc
    complete := fun hpass hts _ =>
      hitem.listed_complete hne hstart hcomma hclosing hc hpass hts }

end Listed

end RequestRouter
