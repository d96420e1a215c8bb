import RequestRouter.Proofs.Declaration.Reading
import RequestRouter.Proofs.Text.Quoted

/-!
# How far a reader looks ahead

What a reader answers depends on the tokens that it passes over, and on the text of the one that it
stops at. If that is a fault, the fault is about this token: the tokens in front of it are the front
of a part, and none of the tokens of its text can stand behind them
(`RequestRouter.LooksAhead`). As with the parts that are read, the ways in which readers are put
together keep this. A reader behind another has to be able to go on whatever the first one passed
over, so that a front of the first part is one of the whole (`RequestRouter.Viable`).
-/

namespace RequestRouter

open Cursor

variable {α β : Type}

/-! ### Fronts of parts -/

/-- The texts that parts are completed with. -/
def fillers : List String := ["class", "a", ";", ":", "(", ")", ">", "\x7d"]

/-- The tokens are the front of a part: tokens of a few fixed texts complete them to one. -/
def Viable (Part : List Token → α → Prop) (ts : List Token) : Prop :=
  ∃ us a, (∀ token ∈ us, token.text ∈ fillers) ∧ Part (ts ++ us) a

section

variable {Part Part' : List Token → α → Prop} {Whole : List Token → β → Prop}
  {ts us : List Token}

/-- A part is a front of itself. -/
theorem Viable.of_part {a : α} (h : Part ts a) : Viable Part ts :=
  ⟨[], a, List.forall_mem_nil _, (List.append_nil ts).symm ▸ h⟩

/-- The first tokens of a front are a front. -/
theorem Viable.of_append (h : Viable Part (ts ++ us)) (hus : ∀ token ∈ us, token.text ∈ fillers) :
    Viable Part ts := by
  obtain ⟨vs, a, hvs, ha⟩ := h
  exact ⟨us ++ vs, a, List.forall_mem_append.2 ⟨hus, hvs⟩, List.append_assoc .. ▸ ha⟩

/-- A front of a part is a front of the whole, if parts are. -/
theorem Viable.trans (h : Viable Part ts)
    (hwhole : ∀ us a, Part us a → Viable Whole us) : Viable Whole ts := by
  obtain ⟨us, a, hus, ha⟩ := h
  exact (hwhole _ a ha).of_append hus

/-- What goes on from a front. -/
theorem viable_append_iff (us : List Token) :
    Viable Whole (us ++ ts) ↔ Viable (fun vs b => Whole (us ++ vs) b) ts := by
  simp only [Viable, List.append_assoc]

/-- Behind a front, nothing is a front. -/
theorem Viable.behind (h : Viable Whole ts) : Viable (fun us b => Whole (ts ++ us) b) [] :=
  (viable_append_iff ts).1 ((List.append_nil ts).symm ▸ h)

end

/-! ### Cursors at alike tokens -/

/-- The cursor passes over the tokens, and then stands at a token of the given text. -/
structure Meets (c : Cursor) (ts : List Token) (text : String) (d : Cursor) : Prop where
  endsOnce : EndsOnce c.rest
  passes : Passes c ts d
  current : d.current.text = text

/-- Cursors that meet the same stand at tokens of the same text. -/
theorem Meets.current_eq {c c' d d' : Cursor} {ts : List Token} (h : Meets c' ts d.current.text d')
    (hpass : Passes c ts d) : c'.current.text = c.current.text := by
  rw [h.passes.current_eq, hpass.current_eq]
  cases ts with
  | nil => exact h.current
  | cons token ts => rfl

theorem Meets.append {c' d d' e : Cursor} {ts us : List Token}
    (h : Meets c' (ts ++ us) e.current.text d') (hpass : Passes d us e) :
    ∃ e', Meets c' ts d.current.text e' ∧ Meets e' us e.current.text d' := by
  obtain ⟨e', hts, hus⟩ := passes_append.1 h.passes
  have hrest : Meets e' us e.current.text d' := ⟨hts.endsOnce h.endsOnce, hus, h.current⟩
  exact ⟨e', ⟨h.endsOnce, hts, hrest.current_eq hpass⟩, hrest⟩

theorem Meets.advance {c d : Cursor} {token : Token} {ts : List Token} {text : String}
    (h : Meets c (token :: ts) text d) : c.current = token ∧ Meets c.advance ts text d := by
  obtain ⟨hcurrent, hlater, hrest⟩ := h.passes
  have hmove : Passes c [c.current] c.advance := ⟨rfl, hlater, rfl⟩
  exact ⟨hcurrent, hmove.endsOnce h.endsOnce, hrest, h.current⟩

/-- Something passed over is left behind. -/
theorem Cursor.Passes.left_lt_of_ne_nil {c d : Cursor} {ts : List Token} (h : Passes c ts d)
    (hne : ts ≠ []) : d.left < c.left := by
  have hleft := h.left_eq
  have hpos := List.length_pos_iff.2 hne
  omega

/-- The fault stands at the token and quotes it. -/
def ParseFault.IsAbout (fault : ParseFault) (token : Token) : Prop :=
  fault.position = token.position ∧
    ∃ front shown, fault.reason.text = front ++ shown ∧ Text.Quotes shown token.text

theorem ParseFault.IsAbout.exists_message {fault : ParseFault} {token : Token}
    (h : fault.IsAbout token) :
    ∃ front shown, fault.message = front ++ shown ∧ Text.Quotes shown token.text := by
  obtain ⟨-, front, shown, hreason, hshown⟩ := h
  obtain ⟨place, hmessage⟩ : ∃ place, fault.message = place ++ fault.reason.text := ⟨_, rfl⟩
  exact ⟨place ++ front, shown, by rw [hmessage, hreason, String.append_assoc], hshown⟩

/-- The end of the list is seen at the token at hand. -/
theorem EndsOnce.atEnd_eq {c : Cursor} (hc : EndsOnce c.rest) : c.atEnd = c.current.isEnd := by
  rw [Bool.eq_iff_iff, atEnd_iff hc, Token.isEnd, String.isEmpty_iff]
  refine ⟨fun hnil => ?_, hc.eq_nil⟩
  rw [rest, hnil] at hc
  cases hc with
  | last hempty => exact hempty
  | cons _ hbehind => exact absurd rfl hbehind.ne_nil

theorem Token.is_congr (text : String) (token other : Token) (h : token.text = other.text) :
    Token.is text token = Token.is text other := by
  rw [is, is, h]

theorem isAbout_expected (what : Expectation) (c : Cursor) :
    (c.expected what).IsAbout c.current :=
  ⟨rfl, "Expected " ++ what.text ++ " but found ", _, rfl, Text.quotes_quote _⟩

theorem isAbout_unexpected (c : Cursor) : c.unexpected.IsAbout c.current :=
  ⟨rfl, "Unexpected token ", _, rfl, Text.quotes_quote _⟩

theorem isAbout_invalidInteger (token : Token) :
    ParseFault.IsAbout ⟨.invalidInteger token.text, token.position⟩ token :=
  ⟨rfl, "Invalid integer ", _, rfl, Text.quotes_quote _⟩

/-! ### Readers that look ahead by one token -/

/-- **The reader looks ahead by one token** at the cursor. Any other cursor that meets the tokens
passed over, and then a token of the same text, gets the same answer or a fault, too. A fault is
about the token at which the reader stops, and those passed over are the front of a part. -/
structure LooksAhead (read : Cursor → Parsed (α × Cursor)) (Part : List Token → α → Prop)
    (c : Cursor) : Prop where
  /-- An answer is given elsewhere, too. -/
  ok {a : α} {d : Cursor} : read c = .ok (a, d) →
    ∃ ts, Passes c ts d ∧ ∀ c' d', Meets c' ts d.current.text d' → read c' = .ok (a, d')
  /-- A fault is found as early as possible, and no earlier. -/
  error {fault : ParseFault} : read c = .error fault →
    ∃ ts d, Passes c ts d ∧ fault.IsAbout d.current ∧ Viable Part ts ∧
      ∀ c' d', Meets c' ts d.current.text d' → ∃ fault', read c' = .error fault'

namespace LooksAhead

variable {c : Cursor} {read : Cursor → Parsed (α × Cursor)} {Part : List Token → α → Prop}

/-- A reader that does the same wherever a token of the text at hand stands. -/
theorem of_eq {read' : Cursor → Parsed (α × Cursor)} (hc : EndsOnce c.rest)
    (heq : ∀ d, EndsOnce d.rest → d.current.text = c.current.text → read d = read' d)
    (h : LooksAhead read' Part c) : LooksAhead read Part c where
  ok hread := by
    rw [heq c hc rfl] at hread
    obtain ⟨ts, hpass, hsame⟩ := h.ok hread
    refine ⟨ts, hpass, fun c' d' hmeets => ?_⟩
    rw [heq c' hmeets.endsOnce (hmeets.current_eq hpass)]
    exact hsame c' d' hmeets
  error hread := by
    rw [heq c hc rfl] at hread
    obtain ⟨ts, d, hpass, habout, hviable, hsame⟩ := h.error hread
    refine ⟨ts, d, hpass, habout, hviable, fun c' d' hmeets => ?_⟩
    rw [heq c' hmeets.endsOnce (hmeets.current_eq hpass)]
    exact hsame c' d' hmeets

/-- More parts. -/
theorem imp {Part' : List Token → α → Prop} (h : LooksAhead read Part c)
    (himp : ∀ ts a, Part ts a → Part' ts a) : LooksAhead read Part' c where
  ok := h.ok
  error hread := by
    obtain ⟨ts, d, hpass, habout, hviable, hsame⟩ := h.error hread
    exact ⟨ts, d, hpass, habout, hviable.trans fun us a ha => .of_part (himp us a ha), hsame⟩

/-- An answer without reading. -/
theorem pure (a : α) : LooksAhead (fun c => .ok (a, c)) Part c where
  ok hread := by
    cases hread
    refine ⟨[], rfl, fun c' d' hmeets => ?_⟩
    rw [(passes_nil _ _).1 hmeets.passes]
  error := nofun

/-- A fault at the token at hand, where a part could start. -/
theorem refused (fault : Cursor → ParseFault) (habout : (fault c).IsAbout c.current)
    (hviable : Viable Part []) : LooksAhead (fun c => .error (fault c)) Part c where
  ok := nofun
  error hread := by
    cases hread
    exact ⟨[], c, rfl, habout, hviable, fun c' _ _ => ⟨fault c', rfl⟩⟩

/-- **One reader after the other**, if the first part can be completed to the whole. -/
theorem bind {next : α × Cursor → Parsed (β × Cursor)} {Whole : List Token → β → Prop}
    {Stop : α → Token → Prop} (hc : EndsOnce c.rest) (hreads : ReadsAt c (read c) Part Stop)
    (h : LooksAhead read Part c)
    (hnext : ∀ ts a d, Part ts a → Passes c ts d → EndsOnce d.rest →
      LooksAhead (fun e => next (a, e)) (fun us b => Whole (ts ++ us) b) d)
    (hwhole : ∀ ts a, Part ts a → Viable Whole ts) :
    LooksAhead (fun c => read c >>= next) Whole c where
  ok hread := by
    obtain ⟨⟨a, d⟩, hfirst, hread⟩ := Parsed.bind_eq_ok_iff.1 hread
    obtain ⟨ts, hts, ha⟩ := hreads.sound hfirst
    obtain ⟨ts', hts', hsame⟩ := h.ok hfirst
    obtain ⟨us, hus, hsame'⟩ := (hnext ts a d ha hts (hts.endsOnce hc)).ok hread
    refine ⟨ts' ++ us, passes_append.2 ⟨d, hts', hus⟩, fun c' d' hmeets => ?_⟩
    obtain ⟨e, hfront, hback⟩ := hmeets.append hus
    exact Parsed.bind_eq_ok_iff.2 ⟨(a, e), hsame c' e hfront, hsame' e d' hback⟩
  error hread := by
    rcases Parsed.bind_eq_error_iff.1 hread with hfirst | ⟨⟨a, d⟩, hfirst, hread⟩
    · -- What is missing of the first part can be completed, and the whole behind it.
      obtain ⟨ts, d, hpass, habout, hviable, hsame⟩ := h.error hfirst
      refine ⟨ts, d, hpass, habout, hviable.trans hwhole, fun c' d' hmeets => ?_⟩
      obtain ⟨fault, hfault⟩ := hsame c' d' hmeets
      exact ⟨fault, Parsed.bind_eq_error_iff.2 (.inl hfault)⟩
    · -- The first part is read elsewhere, too, and the fault is found behind it.
      obtain ⟨ts, hts, ha⟩ := hreads.sound hfirst
      obtain ⟨ts', hts', hsame⟩ := h.ok hfirst
      obtain ⟨us, e, hus, habout, hviable, hsame'⟩ :=
        (hnext ts a d ha hts (hts.endsOnce hc)).error hread
      obtain rfl : ts = ts' := List.append_cancel_right (hts.rest_eq.symm.trans hts'.rest_eq)
      refine ⟨ts ++ us, e, passes_append.2 ⟨d, hts, hus⟩, habout, (viable_append_iff ts).2 hviable,
        fun c' d' hmeets => ?_⟩
      obtain ⟨e', hfront, hback⟩ := hmeets.append hus
      obtain ⟨fault, hfault⟩ := hsame' e' d' hback
      exact ⟨fault, Parsed.bind_eq_error_iff.2 (.inr ⟨(a, e'), hsame c' e' hfront, hfault⟩)⟩

/-- An answer that is changed. -/
theorem map (h : LooksAhead read Part c) (f : α → β) {Whole : List Token → β → Prop}
    (hwhole : ∀ ts a, Part ts a → Whole ts (f a)) :
    LooksAhead (fun c => read c >>= fun result => .ok (f result.1, result.2)) Whole c where
  ok hread := by
    obtain ⟨⟨a, d⟩, hfirst, hread⟩ := Parsed.bind_eq_ok_iff.1 hread
    cases hread
    obtain ⟨ts, hts, hsame⟩ := h.ok hfirst
    exact ⟨ts, hts, fun c' d' hmeets =>
      Parsed.bind_eq_ok_iff.2 ⟨(a, d'), hsame c' d' hmeets, rfl⟩⟩
  error hread := by
    rcases Parsed.bind_eq_error_iff.1 hread with hfirst | ⟨_, -, hread⟩
    · obtain ⟨ts, d, hpass, habout, hviable, hsame⟩ := h.error hfirst
      refine ⟨ts, d, hpass, habout, hviable.trans fun us a ha => .of_part (hwhole us a ha),
        fun c' d' hmeets => ?_⟩
      obtain ⟨fault, hfault⟩ := hsame c' d' hmeets
      exact ⟨fault, Parsed.bind_eq_error_iff.2 (.inl hfault)⟩
    · cases hread

/-- **A choice by the text at hand**. -/
theorem ite (test : Cursor → Bool) (first second : Cursor → Parsed (α × Cursor))
    (htest : ∀ d, EndsOnce d.rest → d.current.text = c.current.text → test d = test c)
    (hread : ∀ d, read d = if test d then first d else second d) (hc : EndsOnce c.rest)
    (hfirst : test c = true → LooksAhead first Part c)
    (hsecond : test c = false → LooksAhead second Part c) : LooksAhead read Part c := by
  cases hvalue : test c with
  | true =>
    refine of_eq hc (fun d hd htext => ?_) (hfirst hvalue)
    rw [hread, htest d hd htext, hvalue, if_pos rfl]
  | false =>
    refine of_eq hc (fun d hd htext => ?_) (hsecond hvalue)
    rw [hread, htest d hd htext, hvalue, if_neg Bool.false_ne_true]

/-- Reading behind the token at hand, which is not the last one. -/
theorem advance (hc : EndsOnce c.rest) (hne : c.current.text ≠ "")
    (next : Token → Cursor → Parsed (α × Cursor))
    (h : ∀ d, Passes c [c.current] d → EndsOnce d.rest →
      LooksAhead (next c.current) (fun us a => Part (c.current :: us) a) d) :
    LooksAhead (fun c => next c.current c.advance) Part c := by
  have hmove : Passes c [c.current] c.advance := ⟨rfl, (hc.tail hne).ne_nil, rfl⟩
  have hnext := h c.advance hmove (hmove.endsOnce hc)
  constructor
  · intro a d hread
    obtain ⟨us, hus, hsame⟩ := hnext.ok hread
    refine ⟨c.current :: us, passes_append.2 ⟨_, hmove, hus⟩, fun c' d' hmeets => ?_⟩
    obtain ⟨hcurrent, hbehind⟩ := hmeets.advance
    rw [hcurrent]
    exact hsame _ d' hbehind
  · intro fault hread
    obtain ⟨us, d, hus, habout, hviable, hsame⟩ := hnext.error hread
    refine ⟨c.current :: us, d, passes_append.2 ⟨_, hmove, hus⟩, habout,
      (viable_append_iff [c.current]).2 hviable, fun c' d' hmeets => ?_⟩
    obtain ⟨hcurrent, hbehind⟩ := hmeets.advance
    rw [hcurrent]
    exact hsame _ d' hbehind

/-- **A choice by the token at hand**: if it passes the test, `first` goes on behind it. -/
theorem choice (first : Token → Cursor → Parsed (α × Cursor))
    (second : Cursor → Parsed (α × Cursor)) {test : Token → Bool} (hproper : Proper test)
    (htest : ∀ token other : Token, token.text = other.text → test token = test other)
    (hread : ∀ d, read d =
      if test d.current then first d.current d.advance else second d) (hc : EndsOnce c.rest)
    (hfirst : test c.current = true → ∀ d, Passes c [c.current] d → EndsOnce d.rest →
      LooksAhead (first c.current) (fun us a => Part (c.current :: us) a) d)
    (hsecond : test c.current = false → LooksAhead second Part c) : LooksAhead read Part c := by
  refine ite (fun d => test d.current) (fun d => first d.current d.advance) second
    (fun d _ htext => htest _ _ htext) hread hc (fun hpass => ?_) hsecond
  refine advance hc (fun hempty => ?_) first (hfirst hpass)
  rw [hproper _ hempty] at hpass
  cases hpass

/-- A token that has to pass a test, in front of what is read. -/
theorem token {next : Token × Cursor → Parsed (α × Cursor)} {test : Token → Bool}
    (hproper : Proper test)
    (htest : ∀ token other : Token, token.text = other.text → test token = test other)
    {what : Expectation} (hc : EndsOnce c.rest)
    (hnext : test c.current = true → ∀ d, Passes c [c.current] d → EndsOnce d.rest →
      LooksAhead (fun e => next (c.current, e)) (fun us a => Part (c.current :: us) a) d)
    (hviable : Viable Part []) :
    LooksAhead (fun c => c.expect test what >>= next) Part c := by
  refine choice (fun token e => next (token, e)) (fun d => .error (d.expected what)) hproper htest
    (fun d => ?_) hc hnext fun _ => refused _ (isAbout_expected what c) hviable
  rw [Cursor.expect, Cursor.eat?]
  cases test d.current <;> rfl

/-- **A choice by a word**: behind it, `first` goes on. -/
theorem word (text : String) (htext : text ≠ "") (first : Token → Cursor → Parsed (α × Cursor))
    (second : Cursor → Parsed (α × Cursor))
    (hread : ∀ d, read d =
      if d.current.is text then first d.current d.advance else second d) (hc : EndsOnce c.rest)
    (hfirst : c.current.text = text → ∀ d, Passes c [c.current] d → EndsOnce d.rest →
      LooksAhead (first c.current) (fun us a => Part (c.current :: us) a) d)
    (hsecond : c.current.text ≠ text → LooksAhead second Part c) : LooksAhead read Part c :=
  choice first second (proper_is text htext) (Token.is_congr text) hread hc
    (fun hpass => hfirst (eq_of_beq hpass)) fun hfail => hsecond (beq_eq_false_iff_ne.1 hfail)

/-- A symbol that has to stand in front of what is read. -/
theorem symbol {text : String} (htext : text ≠ "") {next : Cursor → Parsed (α × Cursor)}
    (hc : EndsOnce c.rest)
    (hnext : c.current.text = text → ∀ d, Passes c [c.current] d → EndsOnce d.rest →
      LooksAhead next (fun us a => Part (c.current :: us) a) d)
    (hviable : Viable Part []) : LooksAhead (fun c => c.expectSymbol text >>= next) Part c := by
  refine word text htext (fun _ => next) (fun d => .error (d.expected (.symbol text)))
    (fun d => ?_) hc hnext fun _ => refused _ (isAbout_expected (.symbol text) c) hviable
  rw [Cursor.expectSymbol, Cursor.eat?]
  cases Token.is text d.current <;> rfl

end LooksAhead

/-! ### Repetition -/

section Many

variable {item : Cursor → Parsed (Option α × Cursor)} {Part : List Token → Option α → Prop}
  {Stop : Option α → Token → Prop}

/-- The rest of a repetition behind an item. -/
def manyRest (item : Cursor → Parsed (Option α × Cursor)) :
    Option α → Cursor → Parsed (List α × Cursor)
  | none, c => .ok ([], c)
  | some a, c => many item c >>= fun rest => .ok (a :: rest.1, rest.2)

/-- No item is empty, so a repetition goes on behind each. -/
theorem many_eq (hreads : Reads item Part Stop) (hne : ∀ a, ¬Part [] (some a)) {c : Cursor}
    (hc : EndsOnce c.rest) :
    many item c = item c >>= fun result => manyRest item result.1 result.2 := by
  rw [many]
  rcases hitem : item c with fault | ⟨_ | a, d⟩
  · rfl
  · rfl
  · obtain ⟨ts, hpass, ha⟩ := (hreads c hc).sound hitem
    have hlt : d.left < c.left := hpass.left_lt_of_ne_nil fun hnil => hne a (hnil ▸ ha)
    simp only [if_pos hlt, bind, Except.bind, manyRest]
    cases many item d <;> rfl

/-- **Repetition looks ahead by one token**, if the item does and the row can end anywhere. -/
theorem LooksAhead.many (hreads : Reads item Part Stop) (hne : ∀ a, ¬Part [] (some a))
    (hitem : ∀ c, EndsOnce c.rest → LooksAhead item Part c)
    (hend : ∃ us, (∀ token ∈ us, token.text ∈ fillers) ∧ Part us none) (c : Cursor)
    (hc : EndsOnce c.rest) : LooksAhead (many item) (RowThen Part) c := by
  -- by induction on the number of tokens behind the cursor, which every item lowers
  induction hn : c.left using Nat.strongRecOn generalizing c with
  | ind n ih =>
    refine of_eq hc (fun d hd _ => many_eq hreads hne hd)
      (bind hc (hreads c hc) (hitem c hc) (fun ts r d hts hpass hd => ?_)
        fun ts r hts => ?_)
    · cases r with
      | none => exact pure []
      | some a =>
        have hlt : d.left < n := hn ▸ hpass.left_lt_of_ne_nil fun hnil => hne a (hnil ▸ hts)
        exact (ih d.left hlt d hd rfl).map (a :: ·) fun us as hus => RowThen.cons hts hus
    · cases r with
      | none => exact .of_part (rowThen_nil hts)
      | some a =>
        obtain ⟨us, hus, hnone⟩ := hend
        exact .of_append (.of_part (RowThen.cons hts (rowThen_nil hnone))) hus

/-- Rows, which can end anywhere. -/
theorem LooksAhead.row {Part : List Token → α → Prop}
    (hreads : Reads item (Derives.Maybe Part) Stop) (hne : ∀ a, ¬Part [] a)
    (hitem : ∀ c, EndsOnce c.rest → LooksAhead item (Derives.Maybe Part) c) (c : Cursor)
    (hc : EndsOnce c.rest) : LooksAhead (RequestRouter.many item) (Derives.Row Part) c := by
  have hmany : LooksAhead (RequestRouter.many item) (RowThen (Derives.Maybe Part)) c := by
    refine LooksAhead.many hreads ?_ hitem ⟨[], List.forall_mem_nil _, .none⟩ c hc
    rintro a (_ | ha)
    exact hne a ha
  exact hmany.imp fun ts as => rowThen_maybe_iff.1

end Many

section Listed

variable {item : Cursor → Parsed (α × Cursor)} {Part : List Token → α → Prop}
  {Stop : α → Token → Prop}

/-- The rest of a list behind an item. -/
def listedRest (item : Cursor → Parsed (α × Cursor)) (a : α) (c : Cursor) :
    Parsed (List α × Cursor) :=
  match c.eat? (Token.is ",") with
  | some d => listed item d >>= fun rest => .ok (a :: rest.1, rest.2)
  | none => c.expectSymbol ")" >>= fun d => .ok ([a], d)

/-- A list goes on behind a comma. -/
theorem listed_eq (hreads : Reads item Part Stop) {c : Cursor} (hc : EndsOnce c.rest) :
    listed item c =
      if c.current.is ")" then .ok ([], c.advance)
      else item c >>= fun result => listedRest item result.1 result.2 := by
  rw [listed, Cursor.eat?]
  by_cases hclosing : c.current.is ")" = true
  · simp only [if_pos hclosing]
  · simp only [if_neg hclosing]
    rcases hitem : item c with fault | ⟨a, d⟩
    · rfl
    · obtain ⟨ts, hpass, -⟩ := (hreads c hc).sound hitem
      simp only [bind, Except.bind, listedRest]
      cases heat : d.eat? (Token.is ",") with
      | none => cases d.expectSymbol ")" <;> rfl
      | some e =>
        have hlt : e.left < c.left := by
          obtain ⟨-, hmove⟩ :=
            (eat?_eq_some_iff (proper_is "," (by decide)) (hpass.endsOnce hc)).1 heat
          exact (passes_append.2 ⟨d, hpass, hmove⟩).left_lt_of_ne_nil (by simp)
        simp only [if_pos hlt]
        cases listed item e <;> rfl

/-- **Lists look ahead by one token**, if the item does. -/
theorem LooksAhead.listed (hreads : Reads item Part Stop)
    (hitem : ∀ c, EndsOnce c.rest → LooksAhead item Part c) (c : Cursor)
    (hc : EndsOnce c.rest) : LooksAhead (listed item) (Derives.Closed Part) c := by
  -- by induction on the number of tokens, since each comma is followed by a shorter list
  induction hn : c.left using Nat.strongRecOn generalizing c with
  | ind n ih =>
    refine of_eq hc (fun d hd _ => listed_eq hreads hd)
      (word ")" (by decide) (fun _ d => .ok ([], d)) _ (fun d => rfl) hc
        (fun _ d _ _ => pure []) fun _ => ?_)
    have hclosing : ∀ ts a, Part ts a → Viable (Derives.Closed Part) ts := fun ts a hts =>
      ⟨[⟨")", .first⟩], [a], List.forall_mem_singleton.2 (by decide), .parts (.single hts) rfl⟩
    refine bind hc (hreads c hc) (hitem c hc) (fun ts a d hts hpass hd => ?_) hclosing
    refine word "," (by decide) (fun _ e => RequestRouter.listed item e >>= fun rest =>
        .ok (a :: rest.1, rest.2)) (fun e => e.expectSymbol ")" >>= fun last => .ok ([a], last))
      (fun e => ?_) hd (fun hcomma e hmove he => ?_) fun _ => ?_
    · rw [listedRest, Cursor.eat?]
      cases Token.is "," e.current <;> rfl
    · have hlt : e.left < n := hn ▸ (passes_append.2 ⟨d, hpass, hmove⟩).left_lt_of_ne_nil (by simp)
      exact (ih e.left hlt e he rfl).map (a :: ·) fun us as hus =>
        hus.cons hts hcomma
    · exact symbol (by decide) hd (fun _ e _ _ => pure [a]) (hclosing ts a hts).behind

end Listed

end RequestRouter
