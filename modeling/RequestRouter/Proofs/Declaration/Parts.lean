import RequestRouter.Proofs.Declaration.Reading
import RequestRouter.Proofs.Declaration.Spelling

/-!
# Reading paths, types and marks

The parts that occur inside of declarations, and how they are read: every reader reads exactly
the parts that the grammar derives (`RequestRouter.Reads`). Each proof puts the readers of
smaller parts together in the way in which the function does. What it has to add is where a
part ends, that is, which token behind it would have been taken along: a path goes on at a
separator, a type also at an angle bracket and at a question mark, and a mark at a separator
and at a parenthesis. Integers among the arguments of a mark are read if they fit into 64 bits
(`RequestRouter.integerValue?_eq_some_iff`).

Main statements: `RequestRouter.Grammar.reads_typeRef`, `RequestRouter.Grammar.reads_marks`.
-/

namespace RequestRouter

open Cursor Derives

/-! ### Integers -/

/-- Digits behind a number that was read go on with it. -/
theorem foldlM_digits_eq_some_iff {digits : List Char} {m n : Nat} :
    digits.foldlM (fun n c =>
        if c.isDigit then some (10 * n + (c.toNat - '0'.toNat)) else none) m = some n ↔
      (∀ d ∈ digits, d.isDigit = true) ∧ n = Nat.ofDigitChars 10 digits m := by
  induction digits generalizing m with
  | nil => exact ⟨fun h => ⟨nofun, (Option.some.inj h).symm⟩, fun h => congrArg some h.2.symm⟩
  | cons d digits ih =>
    rw [List.foldlM_cons, List.forall_mem_cons, and_assoc]
    by_cases hd : d.isDigit = true
    · rw [if_pos hd]
      exact ih.trans (and_iff_right hd).symm
    · rw [if_neg hd]
      exact ⟨nofun, fun h => absurd h.1 hd⟩

/-- The number of digits that have a value. -/
theorem digitsValue?_eq_some_iff {digits : List Char} {n : Nat} :
    digitsValue? digits = some n ↔ digits ≠ [] ∧ (∀ d ∈ digits, d.isDigit = true) ∧
      n = Nat.ofDigitChars 10 digits 0 := by
  by_cases hnil : digits = []
  · simp [digitsValue?, hnil]
  · rw [digitsValue?, if_neg (by simpa using hnil), foldlM_digits_eq_some_iff]
    exact (and_iff_right hnil).symm

theorem IsDecimal.integerValue? {text : String} {value : Int} (h : IsDecimal text value) :
    integerValue? text = if IsWord value then some value else none := by
  have hbound : signedBound = 9223372036854775808 := rfl
  obtain ⟨digits, hne, hdigits, ⟨htext, rfl⟩ | ⟨htext, rfl⟩⟩ := h
  · have hvalue := digitsValue?_eq_some_iff.2 ⟨hne, hdigits, rfl⟩
    rw [RequestRouter.integerValue?, htext]
    split
    · exact absurd (hdigits '-' List.mem_cons_self) (by decide)
    · rw [hvalue, Option.bind_some]
      exact if_congr (by rw [IsWord]; omega) rfl rfl
  · have hvalue := digitsValue?_eq_some_iff.2 ⟨hne, hdigits, rfl⟩
    rw [RequestRouter.integerValue?, htext]
    simp only [hvalue, Option.bind_some]
    exact if_congr (by rw [IsWord]; omega) rfl rfl

/-- **The value of an integer** is that of its ASCII digits, if it fits into 64 bits. -/
theorem integerValue?_eq_some_iff {text : String} {value : Int} :
    integerValue? text = some value ↔ IsDecimal text value ∧ IsWord value := by
  constructor
  · intro h
    -- Whatever is read was written in decimal; which number it is follows from that.
    have hdecimal : ∃ other, IsDecimal text other := by
      rw [integerValue?] at h
      split at h
      · next digits htext =>
        obtain ⟨n, hn, -⟩ := Option.bind_eq_some_iff.1 h
        obtain ⟨hne, hdigits, -⟩ := digitsValue?_eq_some_iff.1 hn
        exact ⟨_, digits, hne, hdigits, .inr ⟨htext, rfl⟩⟩
      · obtain ⟨n, hn, -⟩ := Option.bind_eq_some_iff.1 h
        obtain ⟨hne, hdigits, -⟩ := digitsValue?_eq_some_iff.1 hn
        exact ⟨_, text.toList, hne, hdigits, .inl ⟨rfl, rfl⟩⟩
    obtain ⟨other, hother⟩ := hdecimal
    rw [hother.integerValue?] at h
    obtain ⟨hword, hsame⟩ := Option.ite_none_right_eq_some.1 h
    obtain rfl := Option.some.inj hsame
    exact ⟨hother, hword⟩
  · rintro ⟨hdecimal, hword⟩
    rw [hdecimal.integerValue?, if_pos hword]

namespace Derives

/-! ### Parts by their first tokens -/

/-- A name, as its text. -/
def Name (ts : List Token) (text : String) : Prop :=
  ∃ token : Token, ts = [token] ∧ token.isIdentifier ∧ text = token.text

theorem path_iff {ts : List Token} {names : List String} :
    Path ts names ↔
      ∃ name us rest, ts = name :: us ∧ name.isIdentifier = true ∧
        Row (Behind "::" Name) us rest ∧ names = name.text :: rest := by
  constructor
  · intro h
    induction h with
    | single hname => exact ⟨_, [], [], rfl, hname, .nil, rfl⟩
    | cons hname hseparator _ ih =>
      obtain ⟨next, us, rest, rfl, hnext, hrow, rfl⟩ := ih
      exact ⟨_, _, _, rfl, hname, .cons (.intro hseparator ⟨next, rfl, hnext, rfl⟩) hrow, rfl⟩
  · rintro ⟨name, us, rest, rfl, hname, hrow, rfl⟩
    induction hrow generalizing name with
    | nil => exact .single hname
    | cons hsegment _ ih =>
      obtain ⟨hseparator, next, rfl, hnext, rfl⟩ := hsegment
      exact .cons hname hseparator (ih next hnext)

theorem Path.headD {ts : List Token} {names : List String} (h : Path ts names) (token : Token) :
    (ts.headD token).isIdentifier = true := by
  cases h with
  | single hname => exact hname
  | cons hname _ _ => exact hname

/-- A question mark or not, behind a type with the given path and arguments. -/
def Closing (name : String) (args : List TypeRef) (ts : List Token) (type : TypeRef) : Prop :=
  ∃ nullable, Absence ts nullable ∧ type = ⟨name, args, nullable⟩

theorem Closing.headD {name : String} {args : List TypeRef} {ts : List Token} {type : TypeRef}
    (h : Closing name args ts type) (token : Token) :
    ts.headD token = token ∨ (ts.headD token).text = "?" := by
  obtain ⟨nullable, _ | hquestion, rfl⟩ := h
  · exact .inl rfl
  · exact .inr hquestion

/-- What may stand behind the path of a type: arguments, and a question mark. -/
def Applied (name : String) (ts : List Token) (type : TypeRef) : Prop :=
  ∃ us args vs, ts = us ++ vs ∧ Commas Written us args ∧ Behind ">" (Closing name args) vs type

theorem written_iff {ts : List Token} {type : TypeRef} :
    Written ts type ↔
      ∃ us names vs, ts = us ++ vs ∧ Path us names ∧
        (Behind "<" (Applied (joined names)) vs type ∨ Closing (joined names) [] vs type) := by
  constructor
  · rintro (⟨hpath, habsence⟩ | ⟨hpath, hopening, hargs, hclosing, habsence⟩)
    · exact ⟨_, _, _, rfl, hpath, .inr ⟨_, habsence, rfl⟩⟩
    · exact ⟨_, _, _, rfl, hpath,
        .inl (.intro hopening ⟨_, _, _, rfl, hargs, .intro hclosing ⟨_, habsence, rfl⟩⟩)⟩
  · rintro ⟨us, names, vs, rfl, hpath, ⟨hopening, xs, args, ys, rfl, hargs, hrest⟩ |
      ⟨nullable, habsence, rfl⟩⟩
    · obtain ⟨hclosing, nullable, habsence, rfl⟩ := hrest
      exact .applied hpath hopening hargs hclosing habsence
    · exact .plain hpath habsence

theorem commas_iff {α : Type} {Part : List Token → α → Prop} {ts : List Token} {as : List α} :
    Commas Part ts as ↔
      ∃ us a vs, ts = us ++ vs ∧ Part us a ∧
        (Behind "," (fun ws bs => ∃ cs, Commas Part ws cs ∧ bs = a :: cs) vs as ∨
          vs = [] ∧ as = [a]) := by
  constructor
  · rintro (ha | ⟨ha, hcomma, has⟩)
    · exact ⟨_, _, [], (List.append_nil _).symm, ha, .inr ⟨rfl, rfl⟩⟩
    · exact ⟨_, _, _, rfl, ha, .inl (.intro hcomma ⟨_, has, rfl⟩)⟩
  · rintro ⟨us, a, vs, rfl, ha, ⟨hcomma, bs, has, rfl⟩ | ⟨rfl, rfl⟩⟩
    · exact .cons ha hcomma has
    · rw [List.append_nil]
      exact .single ha

theorem markArgument_iff {ts : List Token} {arg : MarkArg} :
    MarkArgument ts arg ↔
      (∃ token us, ts = token :: us ∧ token.isString = true ∧
        us = [] ∧ arg = .text (stringValue token.text)) ∨
      (∃ token us, ts = token :: us ∧ token.isInteger = true ∧
        us = [] ∧ ∃ value, integerValue? token.text = some value ∧ arg = .int value) ∨
      ∃ names, Path ts names ∧ arg = .path (joined names) := by
  constructor
  · rintro (hstring | ⟨hinteger, hdecimal, hword⟩ | hpath)
    · exact .inl ⟨_, [], rfl, hstring, rfl, rfl⟩
    · have hvalue := integerValue?_eq_some_iff.2 ⟨hdecimal, hword⟩
      exact .inr (.inl ⟨_, [], rfl, hinteger, rfl, _, hvalue, rfl⟩)
    · exact .inr (.inr ⟨_, hpath, rfl⟩)
  · rintro (⟨token, us, rfl, hstring, rfl, rfl⟩ |
      ⟨token, us, rfl, hinteger, rfl, value, hvalue, rfl⟩ | ⟨names, hpath, rfl⟩)
    · exact .text hstring
    · obtain ⟨hdecimal, hword⟩ := integerValue?_eq_some_iff.1 hvalue
      exact .int hinteger hdecimal hword
    · exact .path hpath

theorem not_markArgument_nil (arg : MarkArg) : ¬MarkArgument [] arg := by
  intro h
  rcases markArgument_iff.1 h with ⟨_, _, hnil, -⟩ | ⟨_, _, hnil, -⟩ | ⟨_, hpath, -⟩
  · cases hnil
  · cases hnil
  · cases hpath

theorem text_ne_of_markArgument {token : Token} {ts : List Token} {arg : MarkArg}
    (h : MarkArgument (token :: ts) arg) : token.text ≠ ")" := by
  intro htext
  rcases markArgument_iff.1 h with
    ⟨_, _, hcons, htoken, -⟩ | ⟨_, _, hcons, htoken, -⟩ | ⟨_, hpath, -⟩
  · rw [← (List.cons.inj hcons).1, Token.isString, htext] at htoken
    cases htoken
  · rw [← (List.cons.inj hcons).1, Token.isInteger, htext] at htoken
    cases htoken
  · exact Token.text_ne_of_isIdentifier (hpath.headD token) rfl htext

/-- What stands behind the sign of a mark: its path, and perhaps arguments. -/
def Signed (sign : Token) (ts : List Token) (mark : Mark) : Prop :=
  ∃ us front name vs, ts = us ++ vs ∧ Path us (front ++ [name]) ∧
    ∃ args, (Behind "(" (Closed MarkArgument) vs args ∨ vs = [] ∧ args = []) ∧
      mark = ⟨name, sign.position, args⟩

theorem marked_iff {ts : List Token} {mark : Mark} :
    Marked ts mark ↔
      ∃ sign us, ts = sign :: us ∧ Token.is "@" sign = true ∧ Signed sign us mark := by
  constructor
  · rintro (⟨hsign, hpath⟩ | ⟨hsign, hpath, hargs⟩)
    · exact ⟨_, _, rfl, beq_iff_eq.2 hsign, _, _, _, [], (List.append_nil _).symm, hpath, _,
        .inr ⟨rfl, rfl⟩, rfl⟩
    · exact ⟨_, _, rfl, beq_iff_eq.2 hsign, _, _, _, _, rfl, hpath, _, .inl hargs, rfl⟩
  · rintro ⟨sign, us, rfl, hsign, vs, front, name, ws, rfl, hpath, args, hargs | ⟨rfl, rfl⟩, rfl⟩
    · exact .called (eq_of_beq hsign) hpath hargs
    · rw [List.append_nil]
      exact .bare (eq_of_beq hsign) hpath

theorem Marked.exists_cons {ts : List Token} {mark : Mark} (h : Marked ts mark) :
    ∃ token us, ts = token :: us ∧ token.text = "@" := by
  obtain ⟨sign, us, rfl, hsign, -⟩ := marked_iff.1 h
  exact ⟨sign, us, rfl, eq_of_beq hsign⟩

theorem Path.colon_notMem {ts : List Token} {names : List String} (h : Path ts names) :
    ∀ name ∈ names, ':' ∉ name.toList := by
  induction h with
  | single hname =>
    intro name hmem
    rw [List.mem_singleton.1 hmem]
    exact colon_notMem_of_isIdentifier hname
  | cons hname _ _ ih =>
    intro name hmem
    rcases List.mem_cons.1 hmem with rfl | hmem
    · exact colon_notMem_of_isIdentifier hname
    · exact ih name hmem

/-- The last name of a path can be told from its text. -/
theorem Path.simple_ofQualified {ts : List Token} {front : List String} {name : String}
    (h : Path ts (front ++ [name])) :
    (ClassName.ofQualified (joined (front ++ [name]))).simple = name :=
  ClassName.simple_ofQualified_intercalate (h.colon_notMem name (by simp))

theorem Path.exists_last {ts : List Token} {names : List String} (h : Path ts names) :
    ∃ front name, names = front ++ [name] := by
  have hne : names ≠ [] := by
    cases h <;> exact List.cons_ne_nil _ _
  exact ⟨_, _, (List.dropLast_concat_getLast hne).symm⟩

end Derives

namespace Grammar

/-- Names are none of the symbols. -/
theorem noneOf_of_isIdentifier {texts : List String} {token : Token}
    (h : token.isIdentifier = true)
    (htexts : ∀ text ∈ texts, LexemeKind.identifier.spans text.toList = false) :
    NoneOf texts token := by
  intro hmem
  exact Token.text_ne_of_isIdentifier h (htexts _ hmem) rfl

theorem proper_isIdentifier : Proper Token.isIdentifier := by
  intro token h
  rw [Token.isIdentifier, h]
  rfl

/-! ### Paths -/

theorem reads_pathSegment :
    Reads pathSegment (Maybe (Behind "::" Name)) (Missing "::" fun _ _ => True) := by
  intro c hc
  refine ReadsAt.maybe (fun _ => Name) hc (by decide) (fun _ _ => behind_iff) fun d hd _ => ?_
  refine (ReadsAt.token hd proper_isIdentifier fun name e _ _ =>
    ReadsAt.pure (some name.text)).congr fun ts text => ?_
  constructor
  · rintro ⟨name, us, rfl, hname, rfl, rfl⟩
    exact ⟨_, ⟨name, rfl, hname, rfl⟩, rfl⟩
  · rintro ⟨_, ⟨name, rfl, hname, rfl⟩, rfl⟩
    exact ⟨name, [], rfl, hname, rfl, rfl⟩

/-- **Paths**. -/
theorem reads_path :
    Reads path (fun ts text => ∃ names, Path ts names ∧ text = joined names)
      (fun _ => NoneOf ["::"]) := by
  intro c hc
  refine (ReadsAt.token hc proper_isIdentifier fun first d hd _ =>
    ((reads_pathSegment.row (fun _ _ => Behind.exists_cons) fun _ _ => trivial) d hd).map
      (fun rest => Text.separator.intercalate (first.text :: rest)) ?_).congr fun ts text => ?_
  · intro rest token hstop
    exact ⟨NoneOf.text_ne hstop (by decide), trivial⟩
  · constructor
    · rintro ⟨first, us, rfl, hfirst, rest, hrow, rfl⟩
      exact ⟨_, path_iff.2 ⟨first, us, rest, rfl, hfirst, hrow, rfl⟩, rfl⟩
    · rintro ⟨names, hpath, rfl⟩
      obtain ⟨first, us, rest, rfl, hfirst, hrow, rfl⟩ := path_iff.1 hpath
      exact ⟨first, us, rfl, hfirst, rest, hrow, rfl⟩

/-! ### Types -/

theorem closeType_eq (name : String) (args : List TypeRef) (c : Cursor) :
    (.ok (closeType name args c) : Parsed (TypeRef × Cursor)) =
      match c.eat? (Token.is "?") with
      | some d => .ok (⟨name, args, true⟩, d)
      | none => .ok (⟨name, args, false⟩, c) := by
  rw [closeType, nullability]
  cases c.eat? (Token.is "?") <;> rfl

/-- The end of a type behind its path and arguments. -/
theorem readsAt_closeType (name : String) (args : List TypeRef) {c : Cursor}
    (hc : EndsOnce c.rest) :
    ReadsAt c (.ok (closeType name args c)) (Closing name args) (fun _ => NoneOf ["?"]) := by
  rw [closeType_eq]
  refine (ReadsAt.choice (fun _ ts type => ts = [] ∧ type = ⟨name, args, true⟩) hc
    (proper_is "?" (by decide)) (fun d _ _ => ReadsAt.pure _) (ReadsAt.pure _) ?_).congr
    fun ts type => ?_
  · rintro ts type token ⟨rfl, rfl⟩ hstop
    exact beq_eq_false_iff_ne.2 (hstop.text_ne (by decide))
  · constructor
    · rintro (⟨token, us, rfl, htoken, rfl, rfl⟩ | ⟨rfl, rfl⟩)
      · exact ⟨true, .allowed (eq_of_beq htoken), rfl⟩
      · exact ⟨false, .never, rfl⟩
    · rintro ⟨nullable, _ | htoken, rfl⟩
      · exact .inr ⟨rfl, rfl⟩
      · exact .inl ⟨_, [], rfl, beq_iff_eq.2 htoken, rfl, rfl⟩

/-- A cursor behind a token that was eaten has fewer tokens behind it. -/
theorem left_lt_of_eat? {c d : Cursor} {text : String} (hc : EndsOnce c.rest) (htext : text ≠ "")
    (h : c.eat? (Token.is text) = some d) : d.left < c.left :=
  ((eat?_eq_some_iff (proper_is text htext) hc).1 h).2.left_lt

/-- What is answered is not in front of the cursor that it was asked at. -/
theorem left_le_of_reads {α : Type} {read : Cursor → Parsed (α × Cursor)}
    {Part : List Token → α → Prop} {Stop : α → Token → Prop} {c d : Cursor} {a : α}
    (h : ReadsAt c (read c) Part Stop) (hc : EndsOnce c.rest) (hread : read c = .ok (a, d)) :
    d.left ≤ c.left ∧ EndsOnce d.rest := by
  obtain ⟨ts, hpass, -⟩ := h.sound hread
  exact ⟨hpass.left_eq ▸ Nat.le_add_left _ _, hpass.endsOnce hc⟩

/-- The rest of a type behind its path. -/
def typeRest (name : String) (c : Cursor) : Parsed (TypeRef × Cursor) :=
  match c.eat? (Token.is "<") with
  | some d => typeArgs d >>= fun args => args.2.expectSymbol ">" >>= fun e =>
      .ok (closeType name args.1 e)
  | none => .ok (closeType name [] c)

/-- The rest of arguments behind the first. -/
def argsRest (arg : TypeRef) (c : Cursor) : Parsed (List TypeRef × Cursor) :=
  match c.eat? (Token.is ",") with
  | some d => typeArgs d >>= fun rest => .ok (arg :: rest.1, rest.2)
  | none => .ok ([arg], c)

/-- Behind an opening bracket there are fewer tokens than in front of the type. -/
theorem typeRef_eq {c : Cursor} (hc : EndsOnce c.rest) :
    typeRef c = path c >>= fun read => typeRest read.1 read.2 := by
  rw [typeRef]
  cases hpath : path c with
  | error fault => rfl
  | ok read =>
    obtain ⟨name, behind⟩ := read
    obtain ⟨hle, hbehind⟩ := left_le_of_reads (reads_path c hc) hc hpath
    simp only [bind, Except.bind, typeRest]
    cases heat : behind.eat? (Token.is "<") with
    | none => rfl
    | some d =>
      have hlt := left_lt_of_eat? hbehind (by decide) heat
      simp only [if_pos (Nat.lt_of_lt_of_le hlt hle)]

theorem typeArgs_eq {c : Cursor} {Stop : TypeRef → Token → Prop}
    (h : ReadsAt c (typeRef c) Written Stop) (hc : EndsOnce c.rest) :
    typeArgs c = typeRef c >>= fun read => argsRest read.1 read.2 := by
  rw [typeArgs]
  cases htype : typeRef c with
  | error fault => rfl
  | ok read =>
    obtain ⟨type, behind⟩ := read
    obtain ⟨hle, hbehind⟩ := left_le_of_reads h hc htype
    simp only [bind, Except.bind, argsRest]
    cases heat : behind.eat? (Token.is ",") with
    | none => rfl
    | some d =>
      have hlt := left_lt_of_eat? hbehind (by decide) heat
      simp only [if_pos (Nat.lt_of_lt_of_le hlt hle)]

/-- The rest of a type, if arguments are read behind the cursor. -/
theorem readsAt_typeRest (name : String) {c : Cursor} (hc : EndsOnce c.rest)
    (hargs : ∀ d, EndsOnce d.rest → d.left < c.left →
      ReadsAt d (typeArgs d) (Commas Written) (fun _ => NoneOf ["::", "<", "?", ","])) :
    ReadsAt c (typeRest name c)
      (fun ts type => Behind "<" (Applied name) ts type ∨ Closing name [] ts type)
      (fun _ => NoneOf ["::", "<", "?"]) := by
  refine (ReadsAt.choice (fun _ => Applied name) hc (proper_is "<" (by decide)) (fun d hd hlt => ?_)
    ((readsAt_closeType name [] hc).weaken ?_) ?_).congr fun ts type => ?_
  · refine ReadsAt.bind hd (hargs d hd hlt) (fun args e he _ => ReadsAt.symbol he (by decide)
      fun f hf _ => (readsAt_closeType name args hf).weaken ?_) ?_
    · intro type token hstop
      exact hstop.mono (by decide)
    · intro args ts type token hrest _
      exact .of_text_eq (hrest.headD token) (by decide)
  · intro type token hstop
    exact hstop.mono (by decide)
  · intro ts type token hclosing hstop
    refine beq_eq_false_iff_ne.2 ?_
    rcases hclosing.headD token with htoken | hquestion
    · rw [htoken]
      exact hstop.text_ne (by decide)
    · rw [hquestion]
      decide
  · rw [behind_iff]

/-- The rest of arguments, if those behind the cursor are read. -/
theorem readsAt_argsRest (arg : TypeRef) {c : Cursor} (hc : EndsOnce c.rest)
    (hargs : ∀ d, EndsOnce d.rest → d.left < c.left →
      ReadsAt d (typeArgs d) (Commas Written) (fun _ => NoneOf ["::", "<", "?", ","])) :
    ReadsAt c (argsRest arg c)
      (fun ts args => Behind "," (fun us bs => ∃ as, Commas Written us as ∧ bs = arg :: as) ts args
        ∨ ts = [] ∧ args = [arg])
      (fun _ => NoneOf ["::", "<", "?", ","]) := by
  refine (ReadsAt.choice (fun _ us bs => ∃ as, Commas Written us as ∧ bs = arg :: as) hc
    (proper_is "," (by decide)) (fun d hd hlt => ?_) (ReadsAt.pure [arg]) ?_).congr
    fun ts args => ?_
  · exact (hargs d hd hlt).map (arg :: ·) fun _ _ hstop => hstop
  · rintro ts args token ⟨rfl, rfl⟩ hstop
    exact beq_eq_false_iff_ne.2 (hstop.text_ne (by decide))
  · rw [behind_iff]

/-- A type and types with commas between them. -/
theorem reads_typeRef_typeArgs (c : Cursor) (hc : EndsOnce c.rest) :
    ReadsAt c (typeRef c) Written (fun _ => NoneOf ["::", "<", "?"]) ∧
      ReadsAt c (typeArgs c) (Commas Written) (fun _ => NoneOf ["::", "<", "?", ","]) := by
  -- both by induction on the number of tokens behind the cursor, for a bracket and a comma
  -- lower it; the first type of a list stands where the list does, so it comes first
  obtain ⟨n, hn⟩ : ∃ n, c.left = n := ⟨_, rfl⟩
  induction n using Nat.strongRecOn generalizing c with
  | ind n ih =>
    have hargs : ∀ d, EndsOnce d.rest → d.left < c.left →
        ReadsAt d (typeArgs d) (Commas Written) (fun _ => NoneOf ["::", "<", "?", ","]) :=
      fun d hd hlt => (ih d.left (hn ▸ hlt) d hd rfl).2
    have htype : ReadsAt c (typeRef c) Written (fun _ => NoneOf ["::", "<", "?"]) := by
      rw [typeRef_eq hc]
      refine (ReadsAt.bind hc (reads_path c hc) (fun name d hd hle => readsAt_typeRest name hd
        fun e he hlt => hargs e he (Nat.lt_of_lt_of_le hlt hle)) ?_).congr fun ts type => ?_
      · rintro name ts type token (hbehind | hclosing) hstop
        · exact .of_text_eq (hbehind.headD token) (by decide)
        · rcases hclosing.headD token with htoken | hquestion
          · rw [htoken]
            exact hstop.mono (by decide)
          · exact .of_text_eq hquestion (by decide)
      · rw [written_iff]
        constructor
        · rintro ⟨us, name, vs, rfl, ⟨names, hpath, rfl⟩, hrest⟩
          exact ⟨us, names, vs, rfl, hpath, hrest⟩
        · rintro ⟨us, names, vs, rfl, hpath, hrest⟩
          exact ⟨us, _, vs, rfl, ⟨names, hpath, rfl⟩, hrest⟩
    refine ⟨htype, ?_⟩
    rw [typeArgs_eq htype hc]
    refine (ReadsAt.bind hc htype (fun arg d hd hle => readsAt_argsRest arg hd
      fun e he hlt => hargs e he (Nat.lt_of_lt_of_le hlt hle)) ?_).congr fun ts args => ?_
    · rintro arg ts args token (hbehind | ⟨rfl, rfl⟩) hstop
      · exact .of_text_eq (hbehind.headD token) (by decide)
      · exact hstop.mono (by decide)
    · exact commas_iff.symm

/-- **Types**. -/
theorem reads_typeRef : Reads typeRef Written (fun _ => NoneOf ["::", "<", "?"]) :=
  fun c hc => (reads_typeRef_typeArgs c hc).1

/-! ### Marks -/

theorem proper_isString : Proper Token.isString := by
  intro token h
  rw [Token.isString, h]
  rfl

theorem proper_isInteger : Proper Token.isInteger := by
  intro token h
  rw [Token.isInteger, h]
  rfl

theorem markArg_eq (c : Cursor) :
    markArg c =
      match c.eat? Token.isString with
      | some d => .ok (.text (stringValue c.current.text), d)
      | none =>
        match c.eat? Token.isInteger with
        | some d =>
          match integerValue? c.current.text with
          | some value => .ok (.int value, d)
          | none => .error ⟨.invalidInteger c.current.text, c.current.position⟩
        | none =>
          if c.current.isIdentifier then path c >>= fun read => .ok (.path read.1, read.2)
          else .error c.unexpected := by
  by_cases hstring : c.current.isString
  · simp only [markArg, eat?, if_pos hstring]
  · by_cases hinteger : c.current.isInteger
    · cases hvalue : integerValue? c.current.text with
      | none => simp only [markArg, eat?, if_neg hstring, if_pos hinteger, hvalue]
      | some value => simp only [markArg, eat?, if_neg hstring, if_pos hinteger, hvalue]
    · simp only [markArg, eat?, if_neg hstring, if_neg hinteger]

/-- The argument that is a path, where a name stands. -/
theorem readsAt_markPath {c : Cursor} (hc : EndsOnce c.rest) :
    ReadsAt c
      (if c.current.isIdentifier then path c >>= fun read => .ok (.path read.1, read.2)
        else .error c.unexpected)
      (fun ts arg => ∃ names, Path ts names ∧ arg = MarkArg.path (joined names))
      (fun _ => NoneOf ["::"]) := by
  refine (((reads_path c hc).map MarkArg.path fun _ _ h => h).congr fun ts arg => ?_).guard ?_
  · constructor
    · rintro ⟨text, ⟨names, hpath, rfl⟩, rfl⟩
      exact ⟨names, hpath, rfl⟩
    · rintro ⟨names, hpath, rfl⟩
      exact ⟨_, ⟨names, hpath, rfl⟩, rfl⟩
  · rintro ts arg token ⟨names, hpath, -⟩
    exact hpath.headD token

/-- Behind an integer, it only matters whether it has a value. -/
theorem readsAt_markInteger (token : Token) (c : Cursor) :
    ReadsAt c
      (match integerValue? token.text with
        | some value => .ok (.int value, c)
        | none => .error ⟨.invalidInteger token.text, token.position⟩)
      (fun ts arg => ts = [] ∧ ∃ value, integerValue? token.text = some value ∧
        arg = MarkArg.int value) (fun _ => NoneOf ["::"]) := by
  cases hvalue : integerValue? token.text with
  | none =>
    refine (ReadsAt.refused _).congr fun ts arg => ?_
    simp
  | some value =>
    refine (ReadsAt.pure _).congr fun ts arg => ?_
    simp

/-- **Arguments of marks**. -/
theorem reads_markArg : Reads markArg MarkArgument (fun _ => NoneOf ["::"]) := by
  intro c hc
  rw [markArg_eq]
  -- The tests are made in the order string, integer, name, so the choices are nested in it.
  have hnumber := ReadsAt.choice (fun token us arg => us = [] ∧
    ∃ value, integerValue? token.text = some value ∧ arg = MarkArg.int value) hc
    proper_isInteger (fun d _ _ => readsAt_markInteger c.current d) (readsAt_markPath hc) ?_
  · refine (ReadsAt.choice (fun token us arg => us = [] ∧ arg = .text (stringValue token.text)) hc
      proper_isString (fun d _ _ => ReadsAt.pure _) hnumber ?_).congr
        fun ts arg => markArgument_iff.symm
    rintro ts arg token (⟨first, us, rfl, hfirst, -⟩ | ⟨names, hpath, -⟩) -
    · exact Token.isString_eq_false_of_isInteger hfirst
    · exact (Token.isLiteral_eq_false (hpath.headD token)).1
  · rintro ts arg token ⟨names, hpath, -⟩ -
    exact (Token.isLiteral_eq_false (hpath.headD token)).2.1

theorem reads_markArgs :
    Reads markArgs
      (fun ts args => Behind "(" (Closed MarkArgument) ts args ∨ ts = [] ∧ args = [])
      (fun _ => NoneOf ["("]) := by
  intro c hc
  have hlisted : Reads (listed markArg) (Closed MarkArgument) (fun _ => NoneOf ["("]) := by
    intro d hd
    refine (reads_markArg.listed not_markArgument_nil (fun _ _ _ => text_ne_of_markArgument) ?_ ?_ d
      hd).weaken fun _ _ _ => trivial
    · intro arg token htoken
      exact .of_text_eq htoken (by decide)
    · intro arg token htoken
      exact .of_text_eq htoken (by decide)
  refine (ReadsAt.choice (fun _ => Closed MarkArgument) hc (proper_is "(" (by decide))
    (fun d hd _ => hlisted d hd) (ReadsAt.pure []) ?_).congr fun ts args => ?_
  · rintro ts args token ⟨rfl, rfl⟩ hstop
    exact beq_eq_false_iff_ne.2 (hstop.text_ne (by decide))
  · rw [behind_iff]

theorem readsAt_signed (sign : Token) {c : Cursor} (hc : EndsOnce c.rest) :
    ReadsAt c
      (path c >>= fun read => markArgs read.2 >>= fun args =>
        .ok (some (⟨(ClassName.ofQualified read.1).simple, sign.position, args.1⟩ : Mark), args.2))
      (fun ts r => ∃ mark, Signed sign ts mark ∧ r = some mark)
      (Missing "@" (fun _ => NoneOf ["::", "("])) := by
  refine (ReadsAt.bind hc (reads_path c hc) (fun name d hd _ => (reads_markArgs d hd).map
    (fun args => some (⟨(ClassName.ofQualified name).simple, sign.position, args⟩ : Mark)) ?_)
    ?_).congr fun ts r => ?_
  · intro args token hstop
    exact hstop.mono (by decide)
  · rintro name ts r token ⟨args, hbehind | ⟨rfl, -⟩, rfl⟩ hstop
    · exact .of_text_eq (hbehind.headD token) (by decide)
    · exact hstop.mono (by decide)
  · constructor
    · rintro ⟨us, text, vs, rfl, ⟨names, hpath, rfl⟩, args, hargs, rfl⟩
      obtain ⟨front, name, rfl⟩ := hpath.exists_last
      rw [hpath.simple_ofQualified]
      exact ⟨_, ⟨us, front, name, vs, rfl, hpath, args, hargs, rfl⟩, rfl⟩
    · rintro ⟨mark, ⟨us, front, name, vs, rfl, hpath, args, hargs, rfl⟩, rfl⟩
      refine ⟨us, _, vs, rfl, ⟨_, hpath, rfl⟩, args, hargs, ?_⟩
      rw [hpath.simple_ofQualified]

/-- **Marks**. -/
theorem reads_mark : Reads mark (Maybe Marked) (Missing "@" (fun _ => NoneOf ["::", "("])) := by
  intro c hc
  exact ReadsAt.maybe Signed hc (by decide) (fun _ _ => marked_iff)
    fun d hd _ => readsAt_signed c.current hd

/-- **Marks in a row**. -/
theorem reads_marks : Reads marks (Row Marked) (fun _ => NoneOf ["@", "::", "("]) := by
  intro c hc
  refine (reads_mark.row (fun _ _ => Marked.exists_cons) ?_ c hc).weaken ?_
  · intro token htoken
    exact NoneOf.of_text_eq htoken (by decide)
  · intro marks token hstop
    exact ⟨hstop.text_ne (by decide), hstop.mono (by decide)⟩

end Grammar

end RequestRouter
