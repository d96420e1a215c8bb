import RequestRouter.Proofs.Declaration.Walks

/-!
# Walks and readers

A walk keeps an index, a reader a cursor. A cursor that was moved as often as the index tells stands
at the token that the walk looks at (`RequestRouter.Walk.run_current`), also behind the end of the
list. So walks can be compared with readers: a walk follows a reader from an index if it comes to an
end there, with the same result or the same fault (`RequestRouter.Walk.Follows`). This carries a
bound of the index and whatever is to be known about the place where the walk stops, and it is kept
by every way in which walks are put together.

The readers stop their repetitions when no token was used up, the walks do not. They come to the
same as long as rounds begin in front of the last token (`RequestRouter.Walk.Follows.repeated`).
-/

namespace RequestRouter

variable {α β : Type}

namespace Cursor

/-- The cursor moved on a number of times. -/
def advanced (c : Cursor) : Nat → Cursor
  | 0 => c
  | i + 1 => (c.advanced i).advance

theorem left_advanced (c : Cursor) (i : Nat) : (c.advanced i).left = c.left - i := by
  induction i with
  | zero => rfl
  | succ i ih => rw [advanced, left_advance, ih, Nat.sub_sub]

/-- Whoever has moved on inside the list has fewer tokens left. -/
theorem left_advanced_lt (c : Cursor) {i j : Nat} (hi : i < c.left) (hij : i < j) :
    (c.advanced j).left < (c.advanced i).left := by
  rw [left_advanced, left_advanced]
  omega

theorem advance_of_left_eq_zero {c : Cursor} (h : c.left = 0) :
    c.advance.current = c.current ∧ c.advance.rest = c.rest := by
  have hlater : c.later = [] := List.length_eq_zero_iff.1 (c.left_eq.symm.trans h)
  rw [advance]
  split
  · exact ⟨rfl, congrArg (c.current :: ·) hlater.symm⟩
  · next heq =>
    rw [hlater] at heq
    cases heq

/-- Behind the last token, that token is met again. -/
theorem current_advanced_succ {c : Cursor} {i : Nat} (h : c.left ≤ i) :
    (c.advanced (i + 1)).current = (c.advanced i).current :=
  (advance_of_left_eq_zero (by rw [left_advanced, Nat.sub_eq_zero_of_le h])).1

theorem rest_advanced (c : Cursor) (i : Nat) :
    (c.advanced i).rest = c.rest.drop (min i c.left) := by
  induction i with
  | zero => rfl
  | succ i ih =>
    have hleft := c.left_advanced i
    by_cases hi : i < c.left
    · have hlater : (c.advanced i).later ≠ [] := by
        rw [ne_eq, ← List.length_eq_zero_iff, ← left_eq]
        omega
      rw [Nat.min_eq_left (Nat.le_of_lt hi)] at ih
      rw [advanced, rest_advance hlater, Nat.min_eq_left hi, ← List.tail_drop, ← ih]
      rfl
    · rw [advanced, (advance_of_left_eq_zero (by omega)).2, ih]
      congr 1
      omega

theorem getElem?_rest (c : Cursor) (i : Nat) :
    c.rest[min i c.left]? = some (c.advanced i).current := by
  rw [← List.head?_drop, ← rest_advanced]
  rfl

theorem current_advanced_mem (c : Cursor) (i : Nat) : (c.advanced i).current ∈ c.rest :=
  List.mem_of_getElem? (c.getElem?_rest i)

theorem atEnd_advanced (c : Cursor) (i : Nat) :
    (c.advanced i).atEnd = (decide (c.left ≤ i) || (c.advanced i).current.isEnd) := by
  have hempty : (c.advanced i).later.isEmpty = decide (c.left ≤ i) := by
    rw [Bool.eq_iff_iff, List.isEmpty_iff, ← List.length_eq_zero_iff, ← left_eq, left_advanced,
      decide_eq_true_eq, Nat.sub_eq_zero_iff_le]
  rw [atEnd, hempty]

theorem eat?_of_eq_true {test : Token → Bool} {c : Cursor} {i : Nat}
    (h : test (c.advanced i).current = true) :
    (c.advanced i).eat? test = some (c.advanced (i + 1)) := if_pos h

theorem eat?_of_eq_false {test : Token → Bool} {c : Cursor} (h : test c.current = false) :
    c.eat? test = none := if_neg (ne_true_of_eq_false h)

theorem expectSymbol_bind (text : String) (c : Cursor) (next : Cursor → Parsed α) :
    (c.expectSymbol text >>= next) =
      c.expect (Token.is text) (.symbol text) >>= fun answer => next answer.2 := by
  rw [expectSymbol, expect]
  cases c.eat? (Token.is text) <;> rfl

end Cursor

theorem many_eq_bind (item : Cursor → Parsed (Option α × Cursor)) (c : Cursor) :
    many item c = item c >>= fun answer =>
      match answer with
      | (none, next) => .ok ([], next)
      | (some a, next) =>
        if next.left < c.left then
          many item next >>= fun later => .ok (a :: later.1, later.2)
        else .ok ([a], next) := by
  rw [many]
  cases item c with
  | error fault => rfl
  | ok answer =>
    obtain ⟨found, next⟩ := answer
    cases found with
    | none => rfl
    | some a =>
      change (if _ then _ else _) = if _ then _ else _
      split
      · cases many item next <;> rfl
      · rfl

theorem listed_eq_bind (item : Cursor → Parsed (α × Cursor)) (c : Cursor) :
    listed item c =
      match c.eat? (Token.is ")") with
      | some next => .ok ([], next)
      | none => item c >>= fun answer =>
        match answer.2.eat? (Token.is ",") with
        | some next =>
          if next.left < c.left then
            listed item next >>= fun later => .ok (answer.1 :: later.1, later.2)
          else .error next.unexpected
        | none => answer.2.expectSymbol ")" >>= fun last => .ok ([answer.1], last) := by
  rw [listed]
  cases c.eat? (Token.is ")") with
  | some next => rfl
  | none =>
    cases item c with
    | error fault => rfl
    | ok answer =>
      obtain ⟨a, behind⟩ := answer
      simp only [bind, Except.bind]
      cases behind.eat? (Token.is ",") with
      | none => cases behind.expectSymbol ")" <;> rfl
      | some next =>
        dsimp only
        split
        · cases listed item next <;> rfl
        · rfl

/-- The tape of the tokens from the cursor on. The index may get as far as twice their number. -/
def Tape.of (start : Cursor) : Tape := ⟨start.rest, 2 * (start.left + 1)⟩

namespace Walk

variable {start : Cursor} {i : Nat}

theorem run_current : current.run (Tape.of start) i = some (.ok (start.advanced i).current, i) := by
  rw [run, current, Tape.of, ← start.left_eq_length, Nat.add_sub_cancel, start.getElem?_rest]
  rfl

theorem run_advance (hi : i < 2 * (start.left + 1)) :
    advance.run (Tape.of start) i = some (.ok (), i + 1) := if_pos hi

theorem run_bind_ok {walk : Walk α} {next : α → Walk β} {tape : Tape} {k : Nat} {a : α}
    (h : walk.run tape i = some (.ok a, k)) :
    (walk >>= next).run tape i = (next a).run tape k := by
  change (walk.run tape i).bind _ = _
  rw [h]
  rfl

theorem run_bind_error {walk : Walk α} {next : α → Walk β} {tape : Tape} {k : Nat}
    {fault : ParseFault} (h : walk.run tape i = some (.error fault, k)) :
    (walk >>= next).run tape i = some (.error fault, k) := by
  change (walk.run tape i).bind _ = _
  rw [h]
  rfl

theorem run_peek (test : Token → Bool) :
    (peek test).run (Tape.of start) i = some (.ok (test (start.advanced i).current), i) :=
  run_bind_ok run_current

theorem run_eat_true {test : Token → Bool} (htest : test (start.advanced i).current = true)
    (hi : i < 2 * (start.left + 1)) :
    (eat test).run (Tape.of start) i = some (.ok true, i + 1) := by
  rw [eat, run_bind_ok (run_peek test), if_pos htest, run_bind_ok (run_advance hi)]
  rfl

theorem run_eat_false {test : Token → Bool} (htest : test (start.advanced i).current = false) :
    (eat test).run (Tape.of start) i = some (.ok false, i) := by
  rw [eat, run_bind_ok (run_peek test), if_neg (ne_true_of_eq_false htest)]
  rfl

theorem run_atEnd : atEnd.run (Tape.of start) i = some (.ok (start.advanced i).atEnd, i) := by
  rw [atEnd, run_bind_ok run_current, run, start.atEnd_advanced, Tape.of, ← start.left_eq_length,
    Nat.add_sub_cancel]

/-- If the index is behind the list, the last token, which is met again there, has the property. -/
def IfBehind (start : Cursor) (P : Token → Prop) (i : Nat) : Prop :=
  start.left < i → P (start.advanced i).current

namespace IfBehind

variable {P Q : Token → Prop}

theorem mono (h : IfBehind start P i) (himp : ∀ token, P token → Q token) : IfBehind start Q i :=
  fun hpast => himp _ (h hpast)

theorem of_le (hi : i ≤ start.left) : IfBehind start P i :=
  fun hpast => absurd hi (Nat.not_le_of_lt hpast)

/-- The token that was just passed over is met again behind the list. -/
theorem succ (h : P (start.advanced i).current) : IfBehind start P (i + 1) := by
  intro hpast
  rwa [Cursor.current_advanced_succ (Nat.le_of_lt_succ hpast)]

/-- Where a token without the property is met, the list is not over. -/
theorem inside (h : IfBehind start P i) (hnot : ¬P (start.advanced i).current) : i ≤ start.left :=
  Nat.le_of_not_lt fun hpast => hnot (h hpast)

/-- The same, for a text that is excluded. -/
theorem inside_of_is {texts : List String} {text : String}
    (h : IfBehind start (NoneOf texts) i) (hmem : text ∈ texts)
    (his : Token.is text (start.advanced i).current = true) : i ≤ start.left :=
  h.inside fun hnone => hnone.text_ne hmem (beq_iff_eq.1 his)

end IfBehind

/-- The walk from the index comes to an end, and to the result that reading the tokens has at the
cursor that was moved as often. If it is a fault, this is about one of the tokens. -/
inductive Follows (start : Cursor) (i : Nat) (walk : Walk α) (After : α → Nat → Prop) :
    Parsed (α × Cursor) → Prop where
  /-- There is an answer. -/
  | ok {a : α} {j : Nat} (hrun : walk.run (Tape.of start) i = some (.ok a, j))
      (hlimit : j ≤ 2 * (start.left + 1)) (hafter : After a j) :
      Follows start i walk After (.ok (a, start.advanced j))
  /-- There is a fault. -/
  | error {fault : ParseFault} {j k : Nat}
      (hrun : walk.run (Tape.of start) i = some (.error fault, j))
      (hlimit : j ≤ 2 * (start.left + 1)) (habout : fault.IsAbout (start.advanced k).current) :
      Follows start i walk After (.error fault)

namespace Follows

variable {walk : Walk α} {After : α → Nat → Prop} {result : Parsed (α × Cursor)}
  {Behind : β → Nat → Prop}

theorem mono (h : Follows start i walk After result) {After' : α → Nat → Prop}
    (himp : ∀ a j, After a j → After' a j) : Follows start i walk After' result := by
  cases h with
  | ok hrun hlimit hafter => exact .ok hrun hlimit (himp _ _ hafter)
  | error hrun hlimit habout => exact .error hrun hlimit habout

theorem pure {a : α} (hi : i ≤ 2 * (start.left + 1)) (h : After a i) :
    Follows start i (Pure.pure a) After (.ok (a, start.advanced i)) :=
  .ok rfl hi h

/-- What is walked the same way comes to the same. -/
theorem of_run_eq {other : Walk α} {k : Nat}
    (h : walk.run (Tape.of start) i = other.run (Tape.of start) k)
    (hother : Follows start k other After result) : Follows start i walk After result := by
  cases hother with
  | ok hrun hlimit hafter => exact .ok (h.trans hrun) hlimit hafter
  | error hrun hlimit habout => exact .error (h.trans hrun) hlimit habout

/-- A step that is known. -/
theorem step_bind {a : α} {k : Nat} (hstep : walk.run (Tape.of start) i = some (.ok a, k))
    {next : α → Walk β} {answer : Parsed (β × Cursor)}
    (h : Follows start k (next a) Behind answer) : Follows start i (walk >>= next) Behind answer :=
  of_run_eq (run_bind_ok hstep) h

/-- One walk behind another. -/
theorem bind (h : Follows start i walk After result) {next : α → Walk β}
    {nextResult : α × Cursor → Parsed (β × Cursor)}
    (hnext : ∀ a j, j ≤ 2 * (start.left + 1) → After a j →
      Follows start j (next a) Behind (nextResult (a, start.advanced j))) :
    Follows start i (walk >>= next) Behind (result >>= nextResult) := by
  cases h with
  | @ok a j hrun hlimit hafter => exact step_bind hrun (hnext a j hlimit hafter)
  | error hrun hlimit habout => exact .error (run_bind_error hrun) hlimit habout

/-- A fault about a token that was met. -/
theorem throw {fault : ParseFault} {k : Nat} (hi : i ≤ 2 * (start.left + 1))
    (habout : fault.IsAbout (start.advanced k).current) :
    Follows start i (MonadExcept.throw fault) After (.error fault) :=
  .error rfl hi habout

theorem unexpected (hi : i ≤ 2 * (start.left + 1)) :
    Follows start i unexpected After (.error (start.advanced i).unexpected) :=
  step_bind run_current (throw hi (isAbout_unexpected _))

variable {test : Token → Bool}

theorem ite_peek {yes no : Walk α}
    (hyes : test (start.advanced i).current = true → Follows start i yes After result)
    (hno : test (start.advanced i).current = false → Follows start i no After result) :
    Follows start i (peek test >>= fun answer => if answer = true then yes else no) After
      result := by
  refine step_bind (run_bind_ok run_current) ?_
  cases htest : test (start.advanced i).current with
  | true => exact hyes htest
  | false => exact hno htest

theorem ite_atEnd {yes no : Walk α}
    (hyes : (start.advanced i).atEnd = true → Follows start i yes After result)
    (hno : (start.advanced i).atEnd = false → Follows start i no After result) :
    Follows start i (atEnd >>= fun answer => if answer = true then yes else no) After
      result := by
  refine step_bind run_atEnd ?_
  cases hend : (start.advanced i).atEnd with
  | true => exact hyes hend
  | false => exact hno hend

/-- If the token passes the test, there has to be room for moving on. -/
theorem ite_eat {yes no : Walk α}
    (hyes : test (start.advanced i).current = true →
      i < 2 * (start.left + 1) ∧ Follows start (i + 1) yes After result)
    (hno : test (start.advanced i).current = false → Follows start i no After result) :
    Follows start i (eat test >>= fun answer => if answer = true then yes else no) After
      result := by
  cases htest : test (start.advanced i).current with
  | true =>
    obtain ⟨hroom, hfollows⟩ := hyes htest
    exact step_bind (run_eat_true htest hroom) hfollows
  | false => exact step_bind (run_eat_false htest) (hno htest)

theorem expect (what : Expectation) (hi : i ≤ 2 * (start.left + 1))
    (hroom : test (start.advanced i).current = true → i < 2 * (start.left + 1)) :
    Follows start i (expect test what)
      (fun token j => j = i + 1 ∧ token = (start.advanced i).current ∧ test token = true)
      ((start.advanced i).expect test what) := by
  rw [Cursor.expect]
  refine step_bind run_current (ite_eat (fun htest => ⟨hroom htest, ?_⟩) fun htest => ?_)
  · rw [Cursor.eat?_of_eq_true htest]
    exact .pure (hroom htest) ⟨rfl, rfl, htest⟩
  · rw [Cursor.eat?_of_eq_false htest]
    exact .throw hi (isAbout_expected _ _)

theorem symbol_bind {text : String} (hi : i ≤ 2 * (start.left + 1)) {next : Walk α}
    {nextResult : Cursor → Parsed (α × Cursor)}
    (hnext : Token.is text (start.advanced i).current = true →
      i < 2 * (start.left + 1) ∧
        Follows start (i + 1) next After (nextResult (start.advanced (i + 1)))) :
    Follows start i (symbol text >>= fun _ => next) After
      ((start.advanced i).expectSymbol text >>= nextResult) := by
  have hwalk : (symbol text >>= fun _ => next) =
      Walk.expect (Token.is text) (.symbol text) >>= fun _ => next := by
    rw [symbol, bind_assoc]
    rfl
  rw [hwalk, Cursor.expectSymbol_bind]
  refine (expect _ hi fun htest => (hnext htest).1).bind fun token j _ hbehind => ?_
  obtain ⟨rfl, rfl, htest⟩ := hbehind
  exact (hnext htest).2

/-! ### Repetitions -/

/-- What holds behind a round of a repetition: it goes on from a good place in front of the last
token, or it is over. -/
def Round (start : Cursor) (Good Done : Nat → Prop) (i : Nat) : Option α → Nat → Prop
  | some _, j => i < j ∧ i < start.left ∧ Good j
  | none, j => Done j

theorem repeated {i : Nat} {item : Walk (Option α)} {read : Cursor → Parsed (Option α × Cursor)}
    {Good Done : Nat → Prop}
    (hitem : ∀ i, i ≤ 2 * (start.left + 1) → Good i →
      Follows start i item (Round start Good Done i) (read (start.advanced i)))
    (hi : i ≤ 2 * (start.left + 1)) (hgood : Good i) :
    Follows start i (repeated item) (fun _ j => Done j) (many read (start.advanced i)) := by
  rw [Walk.repeated, many_eq_bind]
  refine (hitem i hi hgood).bind fun found j hj hround => ?_
  cases found with
  | none => exact .pure hj hround
  | some a =>
    obtain ⟨hlt, hlast, hgood⟩ := hround
    dsimp only
    rw [if_pos (start.left_advanced_lt hlast hlt)]
    refine (repeated hitem hj hgood).bind fun rest k hk hdone => ?_
    exact .pure hk hdone
termination_by start.left - i

/-- Items may begin inside the list, or behind an opening parenthesis or a comma at its end. -/
def Begins (start : Cursor) (i : Nat) : Prop :=
  i ≤ start.left + 1 ∧ IfBehind start (fun token => token.text ∈ ["(", ","]) i

/-- Items that end at the end of the list do so with a token that goes on with no list. -/
def ItemEnds (start : Cursor) (i j : Nat) : Prop :=
  i < j ∧ IfBehind start (NoneOf [",", ")"]) j

theorem listed {i : Nat} {item : Walk α} {read : Cursor → Parsed (α × Cursor)}
    (hitem : ∀ i, Begins start i →
      Follows start i item (fun _ j => ItemEnds start i j) (read (start.advanced i)))
    (hbegins : Begins start i) :
    Follows start i (listed item)
      (fun _ j => i < j ∧ j ≤ start.left + 1 ∧ IfBehind start (fun token => token.text = ")") j)
      (RequestRouter.listed read (start.advanced i)) := by
  obtain ⟨hi, hopen⟩ := id hbegins
  rw [Walk.listed, listed_eq_bind]
  refine ite_eat (fun hclose => ?_) fun hclose => ?_
  · have hinside : i ≤ start.left := by
      refine hopen.inside fun hmem => ?_
      rw [beq_iff_eq.1 hclose] at hmem
      exact absurd hmem (by decide)
    rw [Cursor.eat?_of_eq_true hclose]
    exact ⟨by omega, .pure (by omega) ⟨by omega, by omega, .succ (beq_iff_eq.1 hclose)⟩⟩
  · rw [Cursor.eat?_of_eq_false hclose]
    refine (hitem i hbegins).bind fun a j hj hends => ?_
    obtain ⟨hlt, hnone⟩ := hends
    refine ite_eat (fun hcomma => ?_) fun hcomma => ?_
    · have hinside := hnone.inside_of_is (by decide) hcomma
      -- Behind a comma there are fewer tokens, and the next item may begin there.
      have hnext : Begins start (j + 1) :=
        ⟨by omega, .succ (by rw [beq_iff_eq.1 hcomma]; decide)⟩
      rw [Cursor.eat?_of_eq_true hcomma]
      dsimp only
      rw [if_pos (start.left_advanced_lt (by omega) (by omega))]
      refine ⟨by omega, (listed hitem hnext).bind fun rest k hk hlast => ?_⟩
      exact .pure hk ⟨by omega, hlast.2⟩
    · rw [Cursor.eat?_of_eq_false hcomma]
      refine symbol_bind hj fun hclose => ?_
      have hinside := hnone.inside_of_is (by decide) hclose
      exact ⟨by omega, .pure (by omega) ⟨by omega, by omega, .succ (beq_iff_eq.1 hclose)⟩⟩
termination_by start.left + 1 - i

end Follows

end Walk

end RequestRouter
