import Mathlib
import RequestRouter.Proofs.Declaration.Following
import RequestRouter.Proofs.Declaration.Parts

/-!
# Reading ends on all lists of tokens

A list of tokens need not have come out of a text: an empty token may stand anywhere in it or
nowhere. Behind its end the last token is met again and again, so a walk over it could feed on this
token for ever. It does not (`RequestRouter.Walk.sourceFile_ends`), and it comes to what the readers
of the grammar come to, so that these never stop for want of tokens where a walk would go on.

For each part of the grammar there is one lemma about the walks over it. It tells where they may be
begun and where they end: inside the list, or behind it with a last token that is known from what
was passed over. That token decides how the walk goes on, and mostly it is not the one that is asked
for next. In two places it can be.

* An angle bracket at the end of the list closes every type that is open. Each of these took two
  tokens of the list to open, so what is counted is the index in front of a type and the one behind
  it together (`RequestRouter.Walk.follows_typeRef`).
* A name at the end of the list, behind a keyword or a mark, can be the keyword and the name of what
  was begun, but then nothing else (`RequestRouter.Walk.follows_element`).
-/

namespace RequestRouter

namespace Walk

open Grammar (noneOf_of_isIdentifier)

variable {start : Cursor} {i : Nat}

/-! ### Paths -/

/-- The place behind a name and perhaps more: inside the list, or at its end with a name there, or
behind it where it was begun. -/
structure Named (start : Cursor) (i j : Nat) : Prop where
  le : i ≤ j
  near : j ≤ start.left + 1 ∨ j = i
  behind : IfBehind start (fun token => token.isIdentifier = true) j

/-- A symbol is no name. -/
theorem isIdentifier_of_is {text : String} {token : Token} (h : Token.is text token = true)
    (htext : LexemeKind.identifier.spans text.toList = false) : ¬token.isIdentifier = true := by
  intro hname
  exact Token.text_ne_of_isIdentifier hname htext (beq_iff_eq.1 h)

theorem follows_pathSegment {m : Nat} (hi : i ≤ 2 * (start.left + 1)) (hnamed : Named start m i) :
    Follows start i pathSegment (Follows.Round start (Named start m) (Named start m) i)
      (Grammar.pathSegment (start.advanced i)) := by
  rw [pathSegment, Grammar.pathSegment]
  refine .ite_eat (fun hseparator => ?_) fun hseparator => ?_
  · have hinside : i ≤ start.left :=
      hnamed.behind.inside (isIdentifier_of_is hseparator (by decide))
    rw [Cursor.eat?_of_eq_true hseparator]
    refine ⟨by omega, (Follows.expect _ (by omega) fun _ => by omega).bind fun name j hj h => ?_⟩
    obtain ⟨rfl, rfl, hname⟩ := h
    have hbehind : IfBehind start (fun token => ¬token.isIdentifier = true) (i + 1) :=
      .succ (isIdentifier_of_is hseparator (by decide))
    have hinside := hbehind.inside (not_not_intro hname)
    have hle := hnamed.le
    exact .pure hj ⟨by omega, by omega, by omega, .inl (by omega), .succ hname⟩
  · rw [Cursor.eat?_of_eq_false hseparator]
    exact .pure hi hnamed

theorem follows_path (hi : i ≤ 2 * (start.left + 1))
    (hroom : (start.advanced i).current.isIdentifier = true → i < 2 * (start.left + 1)) :
    Follows start i path
      (fun _ j => (start.advanced i).current.isIdentifier = true ∧ Named start (i + 1) j)
      (Grammar.path (start.advanced i)) := by
  rw [path, Grammar.path]
  refine (Follows.expect _ hi hroom).bind fun first j hj h => ?_
  obtain ⟨rfl, rfl, hname⟩ := h
  have hnamed : Named start (i + 1) (i + 1) := ⟨Nat.le_refl _, .inr rfl, .succ hname⟩
  refine (Follows.repeated (fun k => follows_pathSegment) hj hnamed).bind fun rest k hk hdone => ?_
  exact .pure hk ⟨hname, hdone⟩

/-- What may not begin with the last token if that was passed over. -/
theorem follows_path_inside (hi : i ≤ start.left + 1)
    (hbegin : IfBehind start (fun token => ¬token.isIdentifier = true) i) :
    Follows start i path
      (fun _ j => i ≤ start.left ∧ i < j ∧ j ≤ start.left + 1 ∧
        IfBehind start (fun token => token.isIdentifier = true) j)
      (Grammar.path (start.advanced i)) := by
  refine (follows_path (by omega) fun hname => ?_).mono fun _ j h => ?_
  · have hinside := hbegin.inside (not_not_intro hname)
    omega
  · obtain ⟨hname, hle, hnear, hbehind⟩ := h
    have hinside := hbegin.inside (not_not_intro hname)
    exact ⟨hinside, by omega, by omega, hbehind⟩

/-! ### Types -/

/-- The texts that are asked for behind a type, besides the closing angle bracket. -/
def behindType : List String := [",", "=", ";", ")"]

theorem follows_closeType (name : String) (args : List TypeRef) (hi : i ≤ 2 * (start.left + 1))
    (hbehind : IfBehind start (NoneOf ("?" :: behindType)) i) :
    Follows start i (closeType name args)
      (fun _ j => (j = i ∨ j = i + 1 ∧ j ≤ start.left + 1) ∧ IfBehind start (NoneOf behindType) j)
      (.ok (Grammar.closeType name args (start.advanced i))) := by
  rw [closeType, Grammar.closeType, Grammar.nullability, Cursor.eat?]
  cases htest : Token.is "?" (start.advanced i).current with
  | true =>
    have hinside := hbehind.inside_of_is List.mem_cons_self htest
    refine .step_bind (run_eat_true htest (by omega)) (.pure (by omega) ⟨.inr ⟨rfl, by omega⟩, ?_⟩)
    exact .succ (.of_text_eq (beq_iff_eq.1 htest) (by decide))
  | false =>
    refine .step_bind (run_eat_false htest) (.pure hi ⟨.inl rfl, hbehind.mono fun token h => ?_⟩)
    exact h.mono fun text => List.mem_cons_of_mem _

mutual

/-- **A type ends within reach.** An angle bracket behind the list is paid for by one in front of
it, of which the index in front of the type is short. -/
theorem follows_typeRef {i : Nat} (hi : i ≤ start.left + 1)
    (hbegin : IfBehind start (fun token => ¬token.isIdentifier = true) i) :
    Follows start i typeRef
      (fun _ j => i < j ∧ i + j ≤ 2 * (start.left + 1) ∧ IfBehind start (NoneOf behindType) j)
      (Grammar.typeRef (start.advanced i)) := by
  rw [typeRef_eq, Grammar.typeRef]
  refine (follows_path_inside hi hbegin).bind fun name p hp h => ?_
  obtain ⟨hinside, hlt, hnear, hname⟩ := h
  have hbehind {texts : List String}
      (htexts : ∀ text ∈ texts, LexemeKind.identifier.spans text.toList = false) :
      IfBehind start (NoneOf texts) p :=
    hname.mono fun token h => noneOf_of_isIdentifier h htexts
  dsimp only
  refine .ite_eat (fun hopen => ?_) fun hopen => ?_
  · have hunopened : IfBehind start (NoneOf ["<"]) p := hbehind (by decide)
    have hp := hunopened.inside_of_is List.mem_cons_self hopen
    rw [Cursor.eat?_of_eq_true hopen]
    dsimp only
    rw [if_pos (start.left_advanced_lt (by omega) (by omega))]
    have hnext : IfBehind start (fun token => ¬token.isIdentifier = true) (p + 1) :=
      .succ (isIdentifier_of_is hopen (by decide))
    -- The bracket that opens the list is inside, and pays for the one that closes it.
    refine ⟨by omega, (follows_typeArgs (by omega) hnext).bind fun args r hr h => ?_⟩
    refine .symbol_bind hr fun hclose => ⟨by omega, ?_⟩
    have hbehind : IfBehind start (NoneOf ("?" :: behindType)) (r + 1) :=
      .succ (.of_text_eq (beq_iff_eq.1 hclose) (by decide))
    refine (follows_closeType name args (by omega) hbehind).mono fun _ k h => ?_
    exact ⟨by omega, by omega, h.2⟩
  · rw [Cursor.eat?_of_eq_false hopen]
    refine (follows_closeType name [] hp (hbehind (by decide))).mono fun _ k h => ?_
    exact ⟨by omega, by omega, h.2⟩
termination_by (start.left + 1 - i, 0)

theorem follows_typeArgs {i : Nat} (hi : i ≤ start.left + 1)
    (hbegin : IfBehind start (fun token => ¬token.isIdentifier = true) i) :
    Follows start i typeArgs (fun _ j => i < j ∧ i + j ≤ 2 * (start.left + 1))
      (Grammar.typeArgs (start.advanced i)) := by
  rw [typeArgs_eq, Grammar.typeArgs]
  refine (follows_typeRef hi hbegin).bind fun arg j hj h => ?_
  obtain ⟨hlt, hsum, hbehind⟩ := h
  dsimp only
  refine .ite_eat (fun hcomma => ?_) fun hcomma => ?_
  · have hinside := hbehind.inside_of_is (by decide) hcomma
    rw [Cursor.eat?_of_eq_true hcomma]
    dsimp only
    rw [if_pos (start.left_advanced_lt (by omega) (by omega))]
    have hnext : IfBehind start (fun token => ¬token.isIdentifier = true) (j + 1) :=
      .succ (isIdentifier_of_is hcomma (by decide))
    refine ⟨by omega, (follows_typeArgs (by omega) hnext).bind fun rest k hk h => ?_⟩
    exact .pure hk ⟨by omega, by omega⟩
  · rw [Cursor.eat?_of_eq_false hcomma]
    exact .pure hj ⟨hlt, hsum⟩
termination_by (start.left + 1 - i, 1)

end

/-- The bracket at the end of the list closes two types, the second behind the list. -/
example :
    typeRef.run ⟨["a", "<", "b", "<", "c", ">"].map fun text => ⟨text, .first⟩, 12⟩ 0 =
      some (.ok ⟨"a", [⟨"b", [⟨"c", [], false⟩], false⟩], false⟩, 7) := by
  cbv

/-! ### Marks -/

/-- The texts that stand around the items of lists and in front of default values. -/
def aroundItems : List String := ["(", ",", ")", "="]

/-- The test is one of the text of a token, and none of the texts around items passes it. -/
structure ForItems (test : Token → Bool) : Prop where
  /-- Only the text matters. -/
  text_only (token : Token) : test token = test ⟨token.text, Position.first⟩
  /-- The texts around items fail. -/
  eq_false : ∀ text ∈ aroundItems, test ⟨text, Position.first⟩ = false

theorem forItems_isString : ForItems Token.isString := ⟨fun _ => rfl, by decide⟩

theorem forItems_isInteger : ForItems Token.isInteger := ⟨fun _ => rfl, by decide⟩

theorem forItems_isLiteral : ForItems Grammar.isLiteral := ⟨fun _ => rfl, by decide⟩

theorem forItems_isIdentifier : ForItems Token.isIdentifier := ⟨fun _ => rfl, by decide⟩

namespace ForItems

variable {test : Token → Bool}

theorem noneOf (h : ForItems test) {token : Token} (htest : test token = true) :
    NoneOf aroundItems token := by
  intro hmem
  rw [h.text_only, h.eq_false _ hmem] at htest
  cases htest

/-- What is tested for is not met where items or default values begin behind the list. -/
theorem inside (h : ForItems test)
    (hbehind : IfBehind start (fun token => token.text ∈ aroundItems) i)
    (htest : test (start.advanced i).current = true) : i ≤ start.left :=
  hbehind.inside fun hmem => h.noneOf htest hmem

/-- What was tested for ends an item. -/
theorem itemEnds (h : ForItems test) (htest : test (start.advanced i).current = true) :
    Follows.ItemEnds start i (i + 1) :=
  ⟨Nat.lt_succ_self i, .succ ((h.noneOf htest).mono (by decide))⟩

end ForItems

theorem Follows.Begins.around (h : Follows.Begins start i) :
    IfBehind start (fun token => token.text ∈ aroundItems) i := by
  have hsub : ∀ text ∈ ["(", ","], text ∈ aroundItems := by decide
  exact h.2.mono fun token hmem => hsub _ hmem

/-- A path as an item. -/
theorem follows_path_item (hi : i ≤ start.left + 1)
    (hbehind : IfBehind start (fun token => token.text ∈ aroundItems) i) :
    Follows start i path (fun _ j => Follows.ItemEnds start i j)
      (Grammar.path (start.advanced i)) := by
  have hbegin : IfBehind start (fun token => ¬token.isIdentifier = true) i :=
    hbehind.mono fun token hmem hname => forItems_isIdentifier.noneOf hname hmem
  refine (follows_path_inside hi hbegin).mono fun _ j h => ?_
  obtain ⟨-, hlt, -, hname⟩ := h
  exact ⟨hlt, hname.mono fun token h => noneOf_of_isIdentifier h (by decide)⟩

theorem follows_markArg (hbegins : Follows.Begins start i) :
    Follows start i markArg (fun _ j => Follows.ItemEnds start i j)
      (Grammar.markArg (start.advanced i)) := by
  have hi := hbegins.1
  rw [markArg, Grammar.markArg]
  refine .step_bind run_current (.ite_eat (fun hstring => ?_) fun hstring => ?_)
  · have hinside := forItems_isString.inside hbegins.around hstring
    rw [if_pos hstring]
    exact ⟨by omega, .pure (by omega) (forItems_isString.itemEnds hstring)⟩
  rw [if_neg (ne_true_of_eq_false hstring)]
  refine .ite_eat (fun hinteger => ?_) fun hinteger => ?_
  · have hinside := forItems_isInteger.inside hbegins.around hinteger
    rw [if_pos hinteger]
    refine ⟨by omega, ?_⟩
    cases integerValue? (start.advanced i).current.text with
    | some value => exact .pure (by omega) (forItems_isInteger.itemEnds hinteger)
    | none => exact .throw (by omega) (isAbout_invalidInteger _)
  rw [if_neg (ne_true_of_eq_false hinteger)]
  refine .ite_peek (fun hname => ?_) fun hname => ?_
  · rw [if_pos hname]
    exact (follows_path_item hi hbegins.around).bind fun name j hj hends => .pure hj hends
  · rw [if_neg (ne_true_of_eq_false hname)]
    exact .unexpected (by omega)

theorem follows_markArgs (hi : i ≤ 2 * (start.left + 1))
    (hname : IfBehind start (fun token => token.isIdentifier = true) i) :
    Follows start i markArgs
      (fun _ j => i ≤ j ∧ (j = i ∨ j ≤ start.left + 1) ∧ IfBehind start (NoneOf ["@"]) j)
      (Grammar.markArgs (start.advanced i)) := by
  rw [markArgs, Grammar.markArgs]
  refine .ite_eat (fun hopen => ?_) fun hopen => ?_
  · have hinside := hname.inside (isIdentifier_of_is hopen (by decide))
    have hbegins : Follows.Begins start (i + 1) :=
      ⟨by omega, .succ (by rw [beq_iff_eq.1 hopen]; decide)⟩
    rw [Cursor.eat?_of_eq_true hopen]
    refine ⟨by omega, (Follows.listed (fun k => follows_markArg) hbegins).mono fun _ j h => ?_⟩
    obtain ⟨hlt, hnear, hclose⟩ := h
    exact ⟨by omega, .inr hnear, hclose.mono fun token h => .of_text_eq h (by decide)⟩
  · rw [Cursor.eat?_of_eq_false hopen]
    exact .pure hi ⟨Nat.le_refl _, .inl rfl,
      hname.mono fun token h => noneOf_of_isIdentifier h (by decide)⟩

/-- A place in the list or at its end where the last token is none of the given texts. -/
structure Before (start : Cursor) (texts : List String) (m i : Nat) : Prop where
  le : m ≤ i
  near : i ≤ start.left + 1
  behind : IfBehind start (NoneOf texts) i

theorem follows_mark {m : Nat} (h : Before start ["@"] m i) :
    Follows start i mark (Follows.Round start (Before start ["@"] m) (Before start ["@"] m) i)
      (Grammar.mark (start.advanced i)) := by
  have hnear := h.near
  have hle := h.le
  rw [mark, Grammar.mark]
  refine .step_bind run_current (.ite_eat (fun hat => ?_) fun hat => ?_)
  · have hinside := h.behind.inside_of_is List.mem_cons_self hat
    have hbegin : IfBehind start (fun token => ¬token.isIdentifier = true) (i + 1) :=
      .succ (isIdentifier_of_is hat (by decide))
    rw [Cursor.eat?_of_eq_true hat]
    refine ⟨by omega, (follows_path_inside (by omega) hbegin).bind fun name p hp h => ?_⟩
    obtain ⟨hinside, hlt, hnear, hname⟩ := h
    refine (follows_markArgs hp hname).bind fun args j hj h => ?_
    exact .pure hj ⟨by omega, by omega, by omega, by omega, h.2.2⟩
  · rw [Cursor.eat?_of_eq_false hat]
    exact .pure (by omega) h

theorem follows_marks (h : Before start ["@"] i i) :
    Follows start i marks (fun _ j => i ≤ j ∧ j ≤ start.left + 1)
      (Grammar.marks (start.advanced i)) := by
  have hnear := h.near
  exact (Follows.repeated (fun _ _ => follows_mark) (by omega) h).mono
    fun _ j hdone => ⟨hdone.le, hdone.near⟩

/-! ### Members -/

theorem follows_defaultValue (hi : i ≤ start.left + 1)
    (hbehind : IfBehind start (fun token => token.text ∈ aroundItems) i) :
    Follows start i defaultValue (fun _ j => Follows.ItemEnds start i j)
      (Grammar.defaultValue (start.advanced i)) := by
  rw [defaultValue, Grammar.defaultValue]
  refine .step_bind run_current (.ite_eat (fun hliteral => ?_) fun hliteral => ?_)
  · have hinside := forItems_isLiteral.inside hbehind hliteral
    rw [if_pos hliteral]
    exact ⟨by omega, .pure (by omega) (forItems_isLiteral.itemEnds hliteral)⟩
  rw [if_neg (ne_true_of_eq_false hliteral)]
  refine .ite_peek (fun hname => ?_) fun hname => ?_
  · rw [if_pos hname]
    exact follows_path_item hi hbehind
  · rw [if_neg (ne_true_of_eq_false hname)]
    exact .unexpected (by omega)

theorem follows_defaultPart (hi : i ≤ 2 * (start.left + 1))
    (hbehind : IfBehind start (NoneOf behindType) i) :
    Follows start i defaultPart (fun _ j => i ≤ j ∧ IfBehind start (NoneOf [",", ")"]) j)
      (Grammar.defaultPart (start.advanced i)) := by
  rw [defaultPart, Grammar.defaultPart]
  refine .ite_eat (fun hequals => ?_) fun hequals => ?_
  · have hinside := hbehind.inside_of_is (by decide) hequals
    have hvalue : IfBehind start (fun token => token.text ∈ aroundItems) (i + 1) :=
      .succ (by rw [beq_iff_eq.1 hequals]; decide)
    rw [Cursor.eat?_of_eq_true hequals]
    refine ⟨by omega, (follows_defaultValue (by omega) hvalue).bind fun value j hj hends => ?_⟩
    have hlt := hends.1
    exact .pure hj ⟨by omega, hends.2⟩
  · rw [Cursor.eat?_of_eq_false hequals]
    exact .pure hi ⟨Nat.le_refl _, hbehind.mono fun token h => h.mono (by decide)⟩

theorem follows_param (hbegins : Follows.Begins start i) :
    Follows start i param (fun _ j => Follows.ItemEnds start i j)
      (Grammar.param (start.advanced i)) := by
  have hopen : ∀ text ∈ ["(", ","], text ∉ ["@"] := by decide
  have hmarks : Before start ["@"] i i :=
    ⟨Nat.le_refl _, hbegins.1, hbegins.2.mono fun token hmem => hopen _ hmem⟩
  rw [param, Grammar.param]
  refine (follows_marks hmarks).bind fun marks m hm h => ?_
  obtain ⟨hle, hnear⟩ := h
  refine (Follows.expect _ hm fun _ => by omega).bind fun name j hj h => ?_
  obtain ⟨rfl, rfl, hname⟩ := h
  have hbehind : IfBehind start (fun token => token.isIdentifier = true) (m + 1) := .succ hname
  refine .symbol_bind hj fun hcolon => ?_
  have hinside := hbehind.inside (isIdentifier_of_is hcolon (by decide))
  -- A colon is no name, so the type may begin behind it even at the end of the list.
  have hbegin : IfBehind start (fun token => ¬token.isIdentifier = true) (m + 1 + 1) :=
    .succ (isIdentifier_of_is hcolon (by decide))
  refine ⟨by omega, (follows_typeRef (by omega) hbegin).bind fun type p hp h => ?_⟩
  obtain ⟨hlt, hsum, hbehind⟩ := h
  refine (follows_defaultPart hp hbehind).bind fun value k hk h => ?_
  exact .pure hk ⟨by omega, h.2⟩

/-- The place behind a part that ends with the given text, inside the list or at its end. -/
structure EndsWith (start : Cursor) (text : String) (i j : Nat) : Prop where
  lt : i < j
  near : j ≤ start.left + 1
  behind : IfBehind start (fun token => token.text = text) j

/-- Behind a semicolon, or whatever else ends a part. -/
theorem endsWith_succ {text : String} {m : Nat} (hm : m ≤ i) (hinside : i ≤ start.left)
    (his : Token.is text (start.advanced i).current = true) : EndsWith start text m (i + 1) :=
  ⟨by omega, by omega, .succ (beq_iff_eq.1 his)⟩

theorem follows_params (hi : i ≤ 2 * (start.left + 1))
    (hname : IfBehind start (fun token => token.isIdentifier = true) i) :
    Follows start i params (fun _ j => EndsWith start ")" i j)
      (Grammar.params (start.advanced i)) := by
  rw [params, Grammar.params]
  refine .symbol_bind hi fun hopen => ?_
  have hinside := hname.inside (isIdentifier_of_is hopen (by decide))
  have hbegins : Follows.Begins start (i + 1) :=
    ⟨by omega, .succ (by rw [beq_iff_eq.1 hopen]; decide)⟩
  refine ⟨by omega, (Follows.listed (fun k => follows_param) hbegins).mono fun _ j h => ?_⟩
  exact ⟨by omega, h.2.1, h.2.2⟩

theorem follows_returnType (hi : i ≤ 2 * (start.left + 1))
    (hclose : IfBehind start (fun token => token.text = ")") i) :
    Follows start i returnType (fun _ j => i ≤ j ∧ IfBehind start (NoneOf [";"]) j)
      (Grammar.returnType (start.advanced i)) := by
  rw [returnType, Grammar.returnType]
  refine .ite_eat (fun harrow => ?_) fun harrow => ?_
  · have hinside : i ≤ start.left := by
      refine hclose.inside fun htext => ?_
      rw [beq_iff_eq.1 harrow] at htext
      exact absurd htext (by decide)
    have hbegin : IfBehind start (fun token => ¬token.isIdentifier = true) (i + 1) :=
      .succ (isIdentifier_of_is harrow (by decide))
    rw [Cursor.eat?_of_eq_true harrow]
    refine ⟨by omega, (follows_typeRef (by omega) hbegin).bind fun type j hj h => ?_⟩
    exact .pure hj ⟨by omega, h.2.2.mono fun token h => h.mono (by decide)⟩
  · rw [Cursor.eat?_of_eq_false harrow]
    exact .pure hi ⟨Nat.le_refl _, hclose.mono fun token h => .of_text_eq h (by decide)⟩

theorem follows_method (marks : List Mark) (hi : i < 2 * (start.left + 1)) :
    Follows start i (method marks) (fun _ j => EndsWith start ";" i j)
      (Grammar.method marks (start.advanced i)) := by
  rw [method, Grammar.method]
  refine (Follows.expect _ (by omega) fun _ => hi).bind fun name j hj h => ?_
  obtain ⟨rfl, rfl, hname⟩ := h
  refine (follows_params hj (.succ hname)).bind fun params p hp h => ?_
  obtain ⟨hlt, -, hclose⟩ := h
  refine (follows_returnType hp hclose).bind fun returnType r hr h => ?_
  refine .symbol_bind hr fun hsemicolon => ?_
  have hinside := h.2.inside_of_is List.mem_cons_self hsemicolon
  exact ⟨by omega, .pure (by omega) (endsWith_succ (by omega) hinside hsemicolon)⟩

theorem follows_field (hi : i ≤ start.left + 1) :
    Follows start i field (fun _ j => EndsWith start ";" i j)
      (Grammar.field (start.advanced i)) := by
  rw [field, Grammar.field]
  refine (Follows.expect _ (by omega) fun _ => by omega).bind fun name j hj h => ?_
  obtain ⟨rfl, rfl, hname⟩ := h
  have hbehind : IfBehind start (fun token => token.isIdentifier = true) (i + 1) := .succ hname
  refine .symbol_bind hj fun hcolon => ?_
  have hinside := hbehind.inside (isIdentifier_of_is hcolon (by decide))
  have hbegin : IfBehind start (fun token => ¬token.isIdentifier = true) (i + 1 + 1) :=
    .succ (isIdentifier_of_is hcolon (by decide))
  refine ⟨by omega, (follows_typeRef (by omega) hbegin).bind fun type p hp h => ?_⟩
  obtain ⟨hlt, -, hbehind⟩ := h
  refine .symbol_bind hp fun hsemicolon => ?_
  have hinside := hbehind.inside_of_is (by decide) hsemicolon
  exact ⟨by omega, .pure (by omega) (endsWith_succ (by omega) hinside hsemicolon)⟩

/-- A member begins in front of the last token, so two names can still be passed over behind its
marks. -/
theorem follows_member {m : Nat} (h : Before start ["\x7d"] m i) :
    Follows start i member
      (Follows.Round start (Before start ["\x7d"] m) (fun j => m < j ∧ j ≤ start.left + 1) i)
      (Grammar.member (start.advanced i)) := by
  have hnear := h.near
  have hle := h.le
  rw [member, Grammar.member]
  refine .ite_eat (fun hclose => ?_) fun hclose => ?_
  · have hinside := h.behind.inside_of_is List.mem_cons_self hclose
    rw [Cursor.eat?_of_eq_true hclose]
    exact ⟨by omega, .pure (by omega) ⟨by omega, by omega⟩⟩
  rw [Cursor.eat?_of_eq_false hclose]
  refine .ite_atEnd (fun hend => ?_) fun hend => ?_
  · dsimp only
    rw [if_pos hend]
    exact .unexpected (by omega)
  -- Two names can still be passed over, because the last token is further on.
  have hlast : i < start.left := by
    rw [start.atEnd_advanced, Bool.or_eq_false_iff, decide_eq_false_iff_not] at hend
    omega
  dsimp only
  rw [if_neg (ne_true_of_eq_false hend)]
  refine (follows_marks ⟨Nat.le_refl _, hnear, .of_le (by omega)⟩).bind fun marks p hp h => ?_
  obtain ⟨hmarks, hnear⟩ := h
  dsimp only
  refine .ite_eat (fun hfn => ?_) fun hfn => ?_
  · rw [Cursor.eat?_of_eq_true hfn]
    refine ⟨by omega, (follows_method marks (by omega)).bind fun method j hj hends => ?_⟩
    have hlt := hends.lt
    exact .pure hj ⟨by omega, hlast, by omega, hends.near,
      hends.behind.mono fun token h => .of_text_eq h (by decide)⟩
  · rw [Cursor.eat?_of_eq_false hfn]
    refine (follows_field hnear).bind fun field j hj hends => ?_
    have hlt := hends.lt
    exact .pure hj ⟨by omega, hlast, by omega, hends.near,
      hends.behind.mono fun token h => .of_text_eq h (by decide)⟩

theorem follows_members (hi : i ≤ 2 * (start.left + 1))
    (hname : IfBehind start (fun token => token.isIdentifier = true) i) :
    Follows start i members (fun _ j => i < j ∧ j ≤ start.left + 1)
      (Grammar.members (start.advanced i)) := by
  rw [members, Grammar.members]
  refine .ite_eat (fun hsemicolon => ?_) fun hsemicolon => ?_
  · have hinside := hname.inside (isIdentifier_of_is hsemicolon (by decide))
    rw [Cursor.eat?_of_eq_true hsemicolon]
    exact ⟨by omega, .pure (by omega) ⟨by omega, by omega⟩⟩
  rw [Cursor.eat?_of_eq_false hsemicolon]
  refine .symbol_bind hi fun hopen => ?_
  have hinside := hname.inside (isIdentifier_of_is hopen (by decide))
  have hgood : Before start ["\x7d"] (i + 1) (i + 1) :=
    ⟨Nat.le_refl _, by omega, .succ (.of_text_eq (beq_iff_eq.1 hopen) (by decide))⟩
  refine ⟨by omega, (Follows.repeated (fun _ _ => follows_member) (by omega) hgood).mono ?_⟩
  exact fun _ j hdone => ⟨by omega, hdone.2⟩

/-! ### Elements and files -/

theorem follows_elementKind (hi : i < 2 * (start.left + 1)) :
    Follows start i elementKind (fun _ j => j = i + 1)
      (Grammar.elementKind (start.advanced i)) := by
  rw [elementKind, Grammar.elementKind]
  refine .ite_eat (fun hkind => ?_) fun hkind => ?_
  · rw [if_pos hkind]
    exact ⟨hi, .pure hi rfl⟩
  rw [if_neg (ne_true_of_eq_false hkind)]
  refine .ite_eat (fun hkind => ?_) fun hkind => ?_
  · rw [if_pos hkind]
    exact ⟨hi, .pure hi rfl⟩
  rw [if_neg (ne_true_of_eq_false hkind)]
  refine .ite_eat (fun hkind => ?_) fun hkind => ?_
  · rw [if_pos hkind]
    exact ⟨hi, .pure hi rfl⟩
  · rw [if_neg (ne_true_of_eq_false hkind)]
    exact .unexpected (by omega)

/-- An element begins in front of the last token. Its marks may end with the list; then its keyword
and its name may be the last token once more each, and nothing is behind them. -/
theorem follows_element (package : String) (imports : List String) (hi : i < start.left) :
    Follows start i (element package imports) (fun _ j => i < j ∧ j ≤ start.left + 1)
      (Grammar.element package imports (start.advanced i)) := by
  rw [element, Grammar.element]
  refine (follows_marks ⟨Nat.le_refl _, by omega, .of_le (by omega)⟩).bind fun marks m hm h => ?_
  obtain ⟨hle, hnear⟩ := h
  refine (follows_elementKind (by omega)).bind fun kind j hj h => ?_
  obtain rfl := h
  refine (Follows.expect _ hj fun _ => by omega).bind fun name k hk h => ?_
  obtain ⟨rfl, rfl, hname⟩ := h
  refine (follows_members hk (.succ hname)).bind fun members p hp h => ?_
  exact .pure hp ⟨by omega, h.2⟩

theorem follows_elementBeforeEnd (package : String) (imports : List String)
    (hi : i ≤ start.left + 1) :
    Follows start i (elementBeforeEnd package imports)
      (Follows.Round start (fun j => j ≤ start.left + 1) (fun j => j ≤ start.left + 1) i)
      (Grammar.elementBeforeEnd package imports (start.advanced i)) := by
  rw [elementBeforeEnd, Grammar.elementBeforeEnd]
  refine .ite_atEnd (fun hend => ?_) fun hend => ?_
  · rw [if_pos hend]
    exact .pure (by omega) hi
  · have hlast : i < start.left := by
      rw [start.atEnd_advanced, Bool.or_eq_false_iff, decide_eq_false_iff_not] at hend
      omega
    rw [if_neg (ne_true_of_eq_false hend)]
    refine (follows_element package imports hlast).bind fun element j hj h => ?_
    exact .pure hj ⟨h.1, hlast, h.2⟩

/-- Clauses end with a semicolon, so none of the given keywords is met behind one at the end of the
list. -/
theorem follows_clause {keyword : String} {keywords : List String} {m : Nat}
    (hkeyword : keyword ∈ keywords) (hsemicolon : ";" ∉ keywords)
    (h : Before start keywords m i) :
    Follows start i (clause keyword)
      (Follows.Round start (Before start keywords m) (Before start keywords m) i)
      (Grammar.clause keyword (start.advanced i)) := by
  have hnear := h.near
  have hle := h.le
  rw [clause, Grammar.clause]
  refine .ite_eat (fun hword => ?_) fun hword => ?_
  · have hinside := h.behind.inside_of_is hkeyword hword
    rw [Cursor.eat?_of_eq_true hword]
    refine ⟨by omega, (follows_path (by omega) fun _ => by omega).bind fun name p hp h => ?_⟩
    obtain ⟨-, hlt, -, hname⟩ := h
    refine .symbol_bind hp fun hend => ?_
    have hinside := hname.inside (isIdentifier_of_is hend (by decide))
    refine ⟨by omega, .pure (by omega) ⟨by omega, by omega, by omega, by omega, .succ ?_⟩⟩
    exact .of_text_eq (beq_iff_eq.1 hend) hsemicolon
  · rw [Cursor.eat?_of_eq_false hword]
    exact .pure (by omega) h

/-- **A file is walked to an end**, with the result that reading it has. -/
theorem follows_sourceFile :
    Follows start 0 sourceFile (fun _ _ => True) (Grammar.sourceFile start) := by
  have hfirst : Before start ["package", "use"] 0 0 :=
    ⟨Nat.le_refl _, by omega, .of_le (by omega)⟩
  rw [sourceFile, Grammar.sourceFile]
  refine (follows_clause (by decide) (by decide) hfirst).bind fun package p hp hround => ?_
  have hgood : Before start ["package", "use"] 0 p := by
    cases package with
    | none => exact hround
    | some name => exact hround.2.2
  refine (Follows.repeated (fun _ _ => follows_clause (by decide) (by decide)) hp hgood).bind
    fun imports q hq hdone => ?_
  refine (Follows.repeated (fun _ _ => follows_elementBeforeEnd _ imports) hq hdone.near).bind
    fun elements r hr _ => ?_
  exact .pure hr trivial

/-- **Reading ends on all lists of tokens.** Whatever tokens there are, with an empty one at the end
or without, reading them with an index that is not tied to the list comes to an end: no token
outside the list is looked at, the index is never moved beyond twice the number of tokens, and the
outcome is that of `RequestRouter.SourceFile.ofTokens`. A fault has the position and the quoted text
of one and the same token. Every round of every repetition moves the index, on this list as on all
others. -/
theorem sourceFile_ends (first : Token) (later : List Token) :
    (∃ last ≤ 2 * (first :: later).length,
      sourceFile.run ⟨first :: later, 2 * (first :: later).length⟩ 0 =
        some (SourceFile.ofTokens (first :: later), last)) ∧
      (∀ fault, SourceFile.ofTokens (first :: later) = .error fault →
        ∃ token ∈ first :: later, fault.IsAbout token) ∧
      RoundsGain := by
  have hfollows : Follows (Cursor.start first later) 0 sourceFile (fun _ _ => True)
      (Grammar.sourceFile (Cursor.start first later)) := follows_sourceFile
  rw [SourceFile.ofTokens]
  generalize Grammar.sourceFile (Cursor.start first later) = result at hfollows
  cases hfollows with
  | ok hrun hlimit =>
    refine ⟨⟨_, hlimit, hrun⟩, fun fault hfault => ?_, roundsGain⟩
    cases hfault
  | @error found _ k hrun hlimit habout =>
    refine ⟨⟨_, hlimit, hrun⟩, fun fault hfault => ?_, roundsGain⟩
    obtain rfl : found = fault := Except.error.inj hfault
    exact ⟨_, (Cursor.start first later).current_advanced_mem k, habout⟩

/-- The bound is met: the last token is passed over three times, as the name of a mark, and behind
the end of the list as the keyword and the name of the declared type. -/
theorem sourceFile_ends_interface :
    sourceFile.run ⟨[⟨"@", ⟨1, 1⟩⟩, ⟨"interface", ⟨1, 2⟩⟩], 4⟩ 0 =
        some (.error ⟨.expected (.symbol "\x7b") "interface", ⟨1, 2⟩⟩, 4) ∧
      SourceFile.ofTokens [⟨"@", ⟨1, 1⟩⟩, ⟨"interface", ⟨1, 2⟩⟩] =
        .error ⟨.expected (.symbol "\x7b") "interface", ⟨1, 2⟩⟩ ∧
      ParseFault.message ⟨.expected (.symbol "\x7b") "interface", ⟨1, 2⟩⟩ =
        "Parse error at line 1, column 2: Expected \"\x7b\" but found \"interface\"" := by
  have hrun : sourceFile.run ⟨[⟨"@", ⟨1, 1⟩⟩, ⟨"interface", ⟨1, 2⟩⟩], 4⟩ 0 =
      some (.error ⟨.expected (.symbol "\x7b") "interface", ⟨1, 2⟩⟩, 4) := by
    cbv
  obtain ⟨⟨last, -, hends⟩, -⟩ := sourceFile_ends ⟨"@", ⟨1, 1⟩⟩ [⟨"interface", ⟨1, 2⟩⟩]
  exact ⟨hrun, (Prod.mk.inj (Option.some.inj (hends.symm.trans hrun))).1, rfl⟩

end Walk

end RequestRouter
