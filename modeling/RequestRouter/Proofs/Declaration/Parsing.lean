import Mathlib
import RequestRouter.Proofs.Declaration.Parts

/-!
# Declaration files are read as the grammar says

Members, declared types and whole files: for each, its reader reads exactly the parts that the
grammar derives (`RequestRouter.Reads`). A file is read up to its last token, which is the only
empty one, so that nothing is left behind it.

Main statement: `RequestRouter.SourceFile.ofTokens_eq_ok_iff`.
-/

namespace RequestRouter

open Cursor Derives

namespace Derives

/-! ### First tokens -/

/-- Marks in a row start with an at sign, or there are none. -/
theorem Row.headD_marked {ts : List Token} {marks : List Mark} (h : Row Marked ts marks)
    (token : Token) : ts.headD token = token ∨ (ts.headD token).text = "@" := by
  cases h with
  | nil => exact .inl rfl
  | cons hmark _ =>
    obtain ⟨first, us, rfl, hfirst⟩ := hmark.exists_cons
    exact .inr hfirst

theorem Parameter.headD {ts : List Token} {param : Param} (h : Parameter ts param)
    (token : Token) : (ts.headD token).text = "@" ∨ (ts.headD token).isIdentifier = true := by
  cases h with
  | @intro ms _ _ _ name _ _ _ hmarks hname _ _ _ =>
    rw [headD_append, List.headD_cons]
    rcases hmarks.headD_marked name with hsame | hsign
    · rw [hsame]
      exact .inr hname
    · exact .inl hsign

theorem not_parameter_nil (param : Param) : ¬Parameter [] param := by
  intro h
  rcases h.headD ⟨"", ⟨0, 0⟩⟩ with htext | hname
  · exact absurd htext (by decide)
  · cases hname

theorem text_ne_of_parameter {token : Token} {ts : List Token} {param : Param}
    (h : Parameter (token :: ts) param) : token.text ≠ ")" := by
  rcases h.headD token with htext | hname
  · rw [List.headD_cons] at htext
    rw [htext]
    decide
  · exact Token.text_ne_of_isIdentifier hname rfl

/-- What stands behind the keyword of a method. -/
def MethodRest (marks : List Mark) (ts : List Token) (method : Method) : Prop :=
  ∃ name us, ts = name :: us ∧ name.isIdentifier = true ∧
    ∃ ps params vs, us = ps ++ vs ∧ Behind "(" (Closed Parameter) ps params ∧
      ∃ rs result ws, vs = rs ++ ws ∧ Maybe (Behind "->" Written) rs result ∧
        Behind ";" (fun xs m => xs = [] ∧ m = ⟨name.text, name.position, marks, params, result⟩)
          ws method

/-- What stands behind the marks of a property. -/
def FieldRest (ts : List Token) (field : Field) : Prop :=
  ∃ name us, ts = name :: us ∧ name.isIdentifier = true ∧
    Behind ":" (fun vs f => ∃ ws type xs, vs = ws ++ xs ∧ Written ws type ∧
      Behind ";" (fun ys f => ys = [] ∧ f = ⟨name.text, name.position, type⟩) xs f) us field

/-- What stands behind the marks of a member. -/
def MemberRest (marks : List Mark) (ts : List Token) (member : Grammar.Member) : Prop :=
  Behind "fn" (fun us m => ∃ method, MethodRest marks us method ∧ m = .method method) ts member ∨
    ∃ field, (FieldRest ts field ∧ ∃ token us, ts = token :: us ∧ Token.is "fn" token = false) ∧
      member = .field field

theorem member_iff {ts : List Token} {member : Grammar.Member} :
    Member ts member ↔
      ∃ ms marks us, ts = ms ++ us ∧ Row Marked ms marks ∧ MemberRest marks us member := by
  constructor
  · rintro (⟨hmarks, hkeyword, hname, hparams, hresult, hsemicolon⟩ |
      ⟨hmarks, hname, hne, hcolon, htype, hsemicolon⟩)
    · exact ⟨_, _, _, rfl, hmarks, .inl (.intro hkeyword ⟨_, ⟨_, _, rfl, hname, _, _, _, rfl,
        hparams, _, _, _, rfl, hresult, .intro hsemicolon ⟨rfl, rfl⟩⟩, rfl⟩)⟩
    · exact ⟨_, _, _, rfl, hmarks, .inr ⟨_, ⟨⟨_, _, rfl, hname, .intro hcolon ⟨_, _, _, rfl, htype,
        .intro hsemicolon ⟨rfl, rfl⟩⟩⟩, _, _, rfl, beq_eq_false_iff_ne.2 hne⟩, rfl⟩⟩
  · rintro ⟨ms, marks, us, rfl, hmarks, ⟨hkeyword, method, hrest, rfl⟩ |
      ⟨field, ⟨hrest, first, vs, hfirst, hne⟩, rfl⟩⟩
    · obtain ⟨name, _, rfl, hname, ps, params, _, rfl, hparams, rs, result, _, rfl, hresult,
        hsemicolon, rfl, rfl⟩ := hrest
      exact .method hmarks hkeyword hname hparams hresult hsemicolon
    · obtain ⟨name, _, rfl, hname, hcolon, ws, type, _, rfl, htype, hsemicolon, rfl, rfl⟩ := hrest
      obtain ⟨rfl, -⟩ := List.cons.inj hfirst
      exact .field hmarks hname (beq_eq_false_iff_ne.1 hne) hcolon htype hsemicolon

theorem not_fieldRest_nil (field : Field) : ¬FieldRest [] field := by
  rintro ⟨name, us, hcons, -⟩
  cases hcons

/-- Members start with an at sign, `fn` or a name. -/
theorem Member.headD {ts : List Token} {member : Grammar.Member} (h : Member ts member)
    (token : Token) :
    (ts.headD token).text = "@" ∨ (ts.headD token).text = "fn" ∨
      (ts.headD token).isIdentifier = true := by
  obtain ⟨ms, marks, us, rfl, hmarks, hrest⟩ := member_iff.1 h
  rw [headD_append]
  rcases hmarks.headD_marked (us.headD token) with hsame | hsign
  · rw [hsame]
    rcases hrest with hmethod | ⟨field, ⟨⟨name, vs, rfl, hname, -⟩, -⟩, -⟩
    · exact .inr (.inl (hmethod.headD token))
    · exact .inr (.inr hname)
  · exact .inl hsign

theorem not_member_nil (member : Grammar.Member) : ¬Member [] member := by
  intro h
  rcases h.headD ⟨"", ⟨0, 0⟩⟩ with htext | htext | hname
  · exact absurd htext (by decide)
  · exact absurd htext (by decide)
  · cases hname

/-- A member, or the brace behind the last one. -/
def MemberOrBrace (ts : List Token) : Option Grammar.Member → Prop
  | none => ∃ closing : Token, ts = [closing] ∧ closing.text = "\x7d"
  | some member => Member ts member

theorem rowThen_memberOrBrace_iff {ts : List Token} {members : List Grammar.Member} :
    RowThen MemberOrBrace ts members ↔
      ∃ us, ∃ closing : Token, ts = us ++ [closing] ∧ Row Member us members ∧
        closing.text = "\x7d" := by
  constructor
  · rintro ⟨us, vs, rfl, hrow, closing, rfl, hclosing⟩
    exact ⟨us, closing, rfl, hrow, hclosing⟩
  · rintro ⟨us, closing, rfl, hrow, hclosing⟩
    exact ⟨us, [closing], rfl, hrow, closing, rfl, hclosing⟩

theorem body_iff {ts : List Token} {members : List Grammar.Member} :
    Body ts members ↔
      (∃ token us, ts = token :: us ∧ Token.is ";" token = true ∧ us = [] ∧ members = []) ∨
      Behind "\x7b" (RowThen MemberOrBrace) ts members := by
  constructor
  · rintro (hsemicolon | ⟨hopening, hrow, hclosing⟩)
    · exact .inl ⟨_, [], rfl, beq_iff_eq.2 hsemicolon, rfl, rfl⟩
    · exact .inr (.intro hopening (rowThen_memberOrBrace_iff.2 ⟨_, _, rfl, hrow, hclosing⟩))
  · rintro (⟨token, us, rfl, hsemicolon, rfl, rfl⟩ | ⟨hopening, hrest⟩)
    · exact .none (eq_of_beq hsemicolon)
    · obtain ⟨us, closing, rfl, hrow, hclosing⟩ := rowThen_memberOrBrace_iff.1 hrest
      exact .members hopening hrow hclosing

/-- Declared types start with an at sign or with a keyword. -/
theorem Declared.headD {package : String} {imports : List String} {ts : List Token}
    {element : Element} (h : Declared package imports ts element) (token : Token) :
    (ts.headD token).text = "@" ∨ ∃ kind, (ts.headD token).text = keyword kind := by
  cases h with
  | @intro ms _ _ kind word _ _ hmarks hword _ _ =>
    rw [headD_append, List.headD_cons]
    rcases hmarks.headD_marked word with hsame | hsign
    · rw [hsame]
      exact .inr ⟨kind, hword⟩
    · exact .inl hsign

theorem Declared.ne_nil {package : String} {imports : List String} {ts : List Token}
    {element : Element} (h : Declared package imports ts element) : ts ≠ [] := by
  rintro rfl
  rcases h.headD ⟨"", ⟨0, 0⟩⟩ with htext | ⟨kind, htext⟩
  · exact absurd htext (by decide)
  · cases kind <;> exact absurd htext (by decide)

theorem not_maybe_declared_nil {package : String} {imports : List String} (element : Element) :
    ¬Maybe (Declared package imports) [] (some element) := by
  rintro (_ | hdeclared)
  exact hdeclared.ne_nil rfl

/-- Declared types in a row, or the end of the file, start with no other word. -/
theorem Row.text_ne_of_declared {package : String} {imports : List String} {ts : List Token}
    {elements : List Element} (h : Row (Declared package imports) ts elements) {token : Token}
    (hend : token.text = "") {text : String} (htext : text ≠ "" ∧ text ≠ "@")
    (hword : ∀ kind, keyword kind ≠ text) : (ts.headD token).text ≠ text := by
  cases h with
  | nil => exact hend ▸ htext.1.symm
  | cons hdeclared _ =>
    rw [headD_append]
    rcases hdeclared.headD _ with hsign | ⟨kind, hkind⟩
    · rw [hsign]
      exact htext.2.symm
    · rw [hkind]
      exact hword kind

end Derives

namespace Grammar

/-! ### Parameters -/

theorem proper_isLiteral : Proper isLiteral := by
  intro token h
  rw [isLiteral, Token.isString, Token.isInteger, Token.isFloat, Token.isCharacter, h]
  rfl

theorem isLiteral_iff {token : Token} :
    isLiteral token = true ↔
      token.isString ∨ token.isInteger ∨ token.isFloat ∨ token.isCharacter := by
  rw [isLiteral, Bool.or_eq_true, Bool.or_eq_true, Bool.or_eq_true, or_assoc, or_assoc]

theorem isLiteral_eq_false {token : Token} (h : token.isIdentifier = true) :
    isLiteral token = false := by
  obtain ⟨hstring, hinteger, hfloat, hcharacter⟩ := Token.isLiteral_eq_false h
  rw [isLiteral, hstring, hinteger, hfloat, hcharacter]
  rfl

/-- **Default values**. -/
theorem reads_defaultValue : Reads defaultValue Default (fun _ => NoneOf ["::"]) := by
  intro c hc
  have hpath : ReadsAt c (if c.current.isIdentifier then path c else .error c.unexpected)
      (fun ts text => ∃ names, Path ts names ∧ text = joined names)
      (fun _ => NoneOf ["::"]) := by
    refine (reads_path c hc).guard ?_
    rintro ts text token ⟨names, hpath, -⟩
    exact hpath.headD token
  rw [defaultValue, ReadsAt.ite_advance fun d => .ok (c.current.text, d)]
  refine (ReadsAt.choice (fun token us text => us = [] ∧ text = token.text) hc proper_isLiteral
    (fun d _ _ => ReadsAt.pure _) hpath ?_).congr fun ts text => ?_
  · rintro ts text token ⟨names, hpath, -⟩ -
    exact isLiteral_eq_false (hpath.headD token)
  · constructor
    · rintro (⟨token, us, rfl, htoken, rfl, rfl⟩ | ⟨names, hpath, rfl⟩)
      · exact .literal (isLiteral_iff.1 htoken)
      · exact .path hpath
    · rintro (htoken | hpath)
      · exact .inl ⟨_, [], rfl, isLiteral_iff.2 htoken, rfl, rfl⟩
      · exact .inr ⟨_, hpath, rfl⟩

theorem reads_defaultPart :
    Reads defaultPart (Maybe (Behind "=" Default)) (Missing "=" fun _ => NoneOf ["::"]) := by
  intro c hc
  exact ReadsAt.maybe (fun _ => Default) hc (by decide) (fun _ _ => behind_iff)
    fun d hd _ => (reads_defaultValue d hd).map some fun _ _ h => h

/-- **Parameters**. -/
theorem reads_param : Reads param Parameter (fun _ => NoneOf ["::", "<", "?", "="]) := by
  intro c hc
  refine (ReadsAt.bind hc (reads_marks c hc) (fun marks d hd _ =>
    ReadsAt.token hd proper_isIdentifier fun name e he _ =>
    ReadsAt.symbol he (by decide) fun f hf _ =>
    ReadsAt.bind hf (reads_typeRef f hf) (fun type g hg _ => (reads_defaultPart g hg).map
      (fun default => (⟨name.text, name.position, marks, type, default⟩ : Param)) ?_) ?_)
    ?_).congr fun ts param => ?_
  · intro default token hstop
    cases default with
    | none => exact hstop.text_ne (by decide)
    | some text => exact hstop.mono (by decide)
  · rintro type ts param token ⟨default, _ | hdefault, rfl⟩ hstop
    · exact hstop.mono (by decide)
    · exact .of_text_eq (hdefault.headD token) (by decide)
  · rintro marks ts param token ⟨name, us, rfl, hname, -⟩ -
    exact noneOf_of_isIdentifier hname (by decide)
  · constructor
    · rintro ⟨ms, marks, _, rfl, hmarks, name, _, rfl, hname, hcolon, ws, type, ds, rfl, htype,
        default, hdefault, rfl⟩
      exact .intro hmarks hname hcolon htype hdefault
    · rintro ⟨hmarks, hname, hcolon, htype, hdefault⟩
      exact ⟨_, _, _, rfl, hmarks, _, _, rfl, hname, .intro hcolon ⟨_, _, _, rfl, htype, _,
        hdefault, rfl⟩⟩

theorem reads_params : Reads params (Behind "(" (Closed Parameter)) Anything := by
  intro c hc
  refine ReadsAt.symbol hc (by decide) fun d hd _ => ?_
  refine reads_param.listed not_parameter_nil (fun _ _ _ => text_ne_of_parameter) ?_ ?_ d hd
  · intro param token htoken
    exact .of_text_eq htoken (by decide)
  · intro param token htoken
    exact .of_text_eq htoken (by decide)

/-! ### Members -/

theorem reads_returnType :
    Reads returnType (Maybe (Behind "->" Written))
      (Missing "->" fun _ => NoneOf ["::", "<", "?"]) := by
  intro c hc
  exact ReadsAt.maybe (fun _ => Written) hc (by decide) (fun _ _ => behind_iff)
    fun d hd _ => (reads_typeRef d hd).map some fun _ _ h => h

theorem reads_method (marks : List Mark) :
    Reads (method marks) (MethodRest marks) Anything := by
  intro c hc
  refine ReadsAt.token hc proper_isIdentifier fun name d hd _ =>
    ReadsAt.bind hd (reads_params d hd) (fun params e he _ =>
    ReadsAt.bind he (reads_returnType e he) (fun result f hf _ =>
    ReadsAt.symbol hf (by decide) fun g _ _ => ReadsAt.pure
      (⟨name.text, name.position, marks, params, result⟩ : Method)) ?_) ?_
  · intro result ts method token hsemicolon _
    cases result with
    | none =>
      have htoken := hsemicolon.headD token
      exact fun harrow => absurd (htoken.symm.trans harrow) (by decide)
    | some type => exact .of_text_eq (hsemicolon.headD token) (by decide)
  · intro params ts method token _ _
    trivial

theorem reads_field : Reads field FieldRest Anything := by
  intro c hc
  refine ReadsAt.token hc proper_isIdentifier fun name d hd _ =>
    ReadsAt.symbol hd (by decide) fun e he _ =>
    ReadsAt.bind he (reads_typeRef e he) (fun type f hf _ =>
    ReadsAt.symbol hf (by decide) fun g _ _ => ReadsAt.pure
      (⟨name.text, name.position, type⟩ : Field)) ?_
  intro type ts field token hsemicolon _
  exact .of_text_eq (hsemicolon.headD token) (by decide)

/-- What a member is behind its marks. -/
def memberRest (marks : List Mark) (c : Cursor) : Parsed (Option Member × Cursor) :=
  match c.eat? (Token.is "fn") with
  | some d => method marks d >>= fun read => .ok (some (.method read.1), read.2)
  | none => field c >>= fun read => .ok (some (.field read.1), read.2)

theorem reads_memberRest (marks : List Mark) :
    Reads (memberRest marks) (fun ts r => ∃ member, MemberRest marks ts member ∧ r = some member)
      Anything := by
  intro c hc
  refine (ReadsAt.choice_of_not (fun _ ts r => ∃ m, MethodRest marks ts m ∧ r = some (.method m)) hc
    (proper_is "fn" (by decide)) (fun d hd _ => (reads_method marks d hd).map
      (fun m => some (Member.method m)) fun _ _ h => h)
    (fun htest => ((reads_field c hc).of_current htest not_fieldRest_nil).map
      (fun f => some (Member.field f)) fun _ _ h => h) ?_).congr fun ts r => ?_
  · rintro ts r token ⟨field, ⟨-, first, us, rfl, hfirst⟩, -⟩ -
    exact hfirst
  · constructor
    · rintro (⟨token, us, rfl, htoken, m, hm, rfl⟩ | ⟨f, hf, rfl⟩)
      · exact ⟨_, .inl (.intro (eq_of_beq htoken) ⟨m, hm, rfl⟩), rfl⟩
      · exact ⟨_, .inr ⟨f, hf, rfl⟩, rfl⟩
    · rintro ⟨_, ⟨htoken, m, hm, rfl⟩ | ⟨f, hf, rfl⟩, rfl⟩
      · exact .inl ⟨_, _, rfl, beq_iff_eq.2 htoken, m, hm, rfl⟩
      · exact .inr ⟨f, hf, rfl⟩

/-- A member, of which the marks are read first. -/
theorem reads_markedMember : Reads (fun c => marks c >>= fun read => memberRest read.1 read.2)
    (fun ts r => ∃ member, Derives.Member ts member ∧ r = some member) Anything := by
  intro c hc
  refine (ReadsAt.bind hc (reads_marks c hc) (fun marks d hd _ => reads_memberRest marks d hd)
    ?_).congr fun ts r => ?_
  · rintro marks ts r token ⟨member, hmethod | ⟨field, ⟨⟨name, us, rfl, hname, -⟩, -⟩, -⟩, -⟩ -
    · exact .of_text_eq (hmethod.headD token) (by decide)
    · exact noneOf_of_isIdentifier hname (by decide)
  · constructor
    · rintro ⟨ms, marks, us, rfl, hmarks, member, hmember, rfl⟩
      exact ⟨member, member_iff.2 ⟨ms, marks, us, rfl, hmarks, hmember⟩, rfl⟩
    · rintro ⟨member, hmember, rfl⟩
      obtain ⟨ms, marks, us, rfl, hmarks, hrest⟩ := member_iff.1 hmember
      exact ⟨ms, marks, us, rfl, hmarks, member, hrest, rfl⟩

/-- **Members**, up to the brace behind the last. -/
theorem reads_member : Reads member MemberOrBrace Anything := by
  intro c hc
  refine (ReadsAt.choice (fun _ ts r => ts = [] ∧ r = none) hc (proper_is "\x7d" (by decide))
    (fun d _ _ => ReadsAt.pure none) ((reads_markedMember c hc).unlessEnd hc ?_) ?_).congr
    fun ts r => ?_
  · rintro r ⟨member, hmember, -⟩
    exact not_member_nil member hmember
  · -- A member starts with a mark, a method or a name, and none of them with the brace.
    rintro ts r token ⟨member, hmember, -⟩ -
    refine beq_eq_false_iff_ne.2 ?_
    rcases hmember.headD token with htext | htext | hname
    · rw [htext]
      decide
    · rw [htext]
      decide
    · exact Token.text_ne_of_isIdentifier hname rfl
  · constructor
    · rintro (⟨closing, us, rfl, hclosing, rfl, rfl⟩ | ⟨member, hmember, rfl⟩)
      · exact ⟨closing, rfl, eq_of_beq hclosing⟩
      · exact hmember
    · intro h
      cases r with
      | none =>
        obtain ⟨closing, rfl, hclosing⟩ := h
        exact .inl ⟨closing, [], rfl, beq_iff_eq.2 hclosing, rfl, rfl⟩
      | some member => exact .inr ⟨member, h, rfl⟩

theorem reads_members : Reads members Body Anything := by
  intro c hc
  refine (ReadsAt.choice (fun _ us ms => us = [] ∧ ms = []) hc (proper_is ";" (by decide))
    (fun d _ _ => ReadsAt.pure []) (ReadsAt.symbol hc (by decide) fun d hd _ =>
      reads_member.many not_member_nil (fun _ _ _ _ _ _ => trivial) d hd) ?_).congr
    fun ts ms => body_iff.symm
  intro ts ms token hopening _
  refine beq_eq_false_iff_ne.2 ?_
  rw [hopening.headD token]
  decide

/-! ### Elements -/

/-- A keyword of one of the given kinds. -/
def KeywordOf (kinds : List ElementKind) (ts : List Token) (kind : ElementKind) : Prop :=
  ∃ word : Token, ts = [word] ∧ word.text = keyword kind ∧ kind ∈ kinds

/-- One kind more, in front of others. -/
theorem readsAt_keyword (kind : ElementKind) {kinds : List ElementKind} {c : Cursor}
    (hc : EndsOnce c.rest) {second : Parsed (ElementKind × Cursor)}
    (hsecond : ReadsAt c second (KeywordOf kinds) Anything)
    (hkinds : ∀ other ∈ kinds, keyword other ≠ keyword kind) :
    ReadsAt c (if c.current.is (keyword kind) then .ok (kind, c.advance) else second)
      (KeywordOf (kind :: kinds)) Anything := by
  have hne : keyword kind ≠ "" := by
    cases kind <;> decide
  rw [ReadsAt.ite_advance fun d => .ok (kind, d)]
  refine (ReadsAt.choice (fun _ us k => us = [] ∧ k = kind) hc (proper_is _ hne)
    (fun d _ _ => ReadsAt.pure kind) hsecond ?_).congr fun ts k => ?_
  · rintro ts other token ⟨word, rfl, hword, hother⟩ -
    exact beq_eq_false_iff_ne.2 (hword ▸ hkinds other hother)
  · constructor
    · rintro (⟨word, us, rfl, hword, rfl, rfl⟩ | ⟨word, rfl, hword, hk⟩)
      · exact ⟨word, rfl, eq_of_beq hword, List.mem_cons_self⟩
      · exact ⟨word, rfl, hword, List.mem_cons_of_mem _ hk⟩
    · rintro ⟨word, rfl, hword, hk⟩
      rcases List.mem_cons.1 hk with rfl | hk
      · exact .inl ⟨word, [], rfl, beq_iff_eq.2 hword, rfl, rfl⟩
      · exact .inr ⟨word, rfl, hword, hk⟩

theorem reads_elementKind :
    Reads elementKind (fun ts kind => ∃ word : Token, ts = [word] ∧ word.text = keyword kind)
      Anything := by
  intro c hc
  have hnone : ReadsAt c (.error c.unexpected) (KeywordOf []) Anything :=
    (ReadsAt.refused _).congr fun ts kind => ⟨nofun, fun ⟨_, _, _, hmem⟩ => nomatch hmem⟩
  -- From the last of the three tests to the first: each is made where those before it failed.
  have hobject := readsAt_keyword .objectType hc hnone nofun
  have hclass := readsAt_keyword .classType hc hobject (by decide)
  have hinterface := readsAt_keyword .interfaceType hc hclass (by decide)
  refine hinterface.congr fun ts kind => ?_
  constructor
  · rintro ⟨word, rfl, hword, -⟩
    exact ⟨word, rfl, hword⟩
  · rintro ⟨word, rfl, hword⟩
    refine ⟨word, rfl, hword, ?_⟩
    cases kind <;> decide

/-- **Declared types**. -/
theorem reads_element (package : String) (imports : List String) :
    Reads (element package imports) (Declared package imports) Anything := by
  intro c hc
  refine (ReadsAt.bind hc (reads_marks c hc) (fun marks d hd _ =>
    ReadsAt.bind hd (reads_elementKind d hd) (fun kind e he _ =>
    ReadsAt.token he proper_isIdentifier fun name f hf _ => (reads_members f hf).map
      (fun members =>
        ({ name := name.text
           package := package
           imports := imports
           position := name.position
           kind := kind
           marks := marks
           methods := members.filterMap Member.method?
           fields := members.filterMap Member.field? } : Element)) fun _ _ h => h) ?_)
    ?_).congr fun ts element => ?_
  · intro kind ts element token _ _
    trivial
  · rintro marks ts element token ⟨_, kind, us, rfl, ⟨word, rfl, hword⟩, -⟩ -
    refine NoneOf.of_text_eq hword ?_
    cases kind <;> decide
  · constructor
    · rintro ⟨ms, marks, _, rfl, hmarks, _, kind, _, rfl, ⟨word, rfl, hword⟩, name, bs, rfl, hname,
        members, hbody, rfl⟩
      exact .intro hmarks hword hname hbody
    · rintro ⟨hmarks, hword, hname, hbody⟩
      exact ⟨_, _, _, rfl, hmarks, _, _, _, rfl, ⟨_, rfl, hword⟩, _, _, rfl, hname, _, hbody, rfl⟩

/-- Declared types, up to the end of the file. -/
theorem reads_elementBeforeEnd (package : String) (imports : List String) :
    Reads (elementBeforeEnd package imports) (Maybe (Declared package imports))
      (fun r token => r = none → token.text = "") := by
  intro c hc
  have helement := (reads_element package imports c hc).map some
    fun _ _ (h : Anything _ _) => h
  -- At the end there is no type to read, for a type takes up at least one token.
  rw [elementBeforeEnd]
  split
  · next hend =>
    constructor
    · intro r c' hread
      cases hread
      exact ⟨[], rfl, .none⟩
    · intro ts r c' hpass hts _
      cases hts with
      | none => rw [(passes_nil _ _).1 hpass]
      | some hdeclared =>
        obtain ⟨token, us, rfl⟩ := List.exists_cons_of_ne_nil hdeclared.ne_nil
        exact absurd ((atEnd_iff hc).1 hend) hpass.2.1
  · next hend =>
    constructor
    · intro r c' hread
      obtain ⟨ts, hpass, element, hdeclared, rfl⟩ := helement.sound hread
      exact ⟨ts, hpass, .some hdeclared⟩
    · intro ts r c' hpass hts hstop
      cases hts with
      | none =>
        refine absurd ?_ hend
        have hempty := hstop rfl
        rw [(passes_nil _ _).1 hpass] at hempty
        rw [atEnd, Token.isEnd, hempty]
        exact Bool.or_true _
      | some hdeclared => exact helement.complete hpass ⟨_, hdeclared, rfl⟩ trivial

/-! ### Files -/

/-- A clause behind its keyword, or nothing. -/
theorem reads_clause {word : String} (hword : word ≠ "") :
    Reads (clause word) (Maybe (Behind word Statement)) (Missing word Anything) := by
  intro c hc
  refine ReadsAt.maybe (fun _ => Statement) hc hword (fun _ _ => behind_iff) fun d hd _ => ?_
  refine (ReadsAt.bind hd (reads_path d hd) (fun text e he _ =>
    ReadsAt.symbol he (by decide) fun f _ _ => ReadsAt.pure (some text)) ?_).congr fun ts r => ?_
  · intro text ts r token hsemicolon _
    exact .of_text_eq (hsemicolon.headD token) (by decide)
  · constructor
    · rintro ⟨us, text, _, rfl, ⟨names, hpath, rfl⟩, hsemicolon, rfl, rfl⟩
      exact ⟨_, .intro hpath hsemicolon, rfl⟩
    · rintro ⟨text, ⟨hpath, hsemicolon⟩, rfl⟩
      exact ⟨_, _, _, rfl, ⟨_, hpath, rfl⟩, .intro hsemicolon ⟨rfl, rfl⟩⟩

theorem reads_elements (package : String) (imports : List String) :
    Reads (many (elementBeforeEnd package imports)) (Row (Declared package imports))
      (fun _ token => token.text = "") := by
  intro c hc
  refine (((reads_elementBeforeEnd package imports).many not_maybe_declared_nil ?_ c hc).congr
    fun ts elements => rowThen_maybe_iff).weaken fun _ _ h _ => h
  rintro element ts r token _ _ ⟨⟩

theorem reads_imports :
    Reads (many (clause "use")) (Row (Behind "use" Statement))
      (fun _ token => token.text ≠ "use") := by
  intro c hc
  have hclause : Reads (clause "use") (Maybe (Behind "use" Statement))
      (Missing "use" fun _ _ => True) := reads_clause (by decide)
  exact (hclause.row (fun _ _ => Behind.exists_cons) (fun _ _ => trivial) c hc).weaken
    fun _ _ h => ⟨h, trivial⟩

/-- **Files**. -/
theorem reads_sourceFile : Reads sourceFile File (fun _ token => token.text = "") := by
  intro c hc
  refine (ReadsAt.bind hc (reads_clause (by decide) c hc) (fun package d hd _ =>
    ReadsAt.bind hd (reads_imports d hd) (fun imports e he _ =>
    (reads_elements (package.getD "") imports e he).map
      (fun elements => (⟨package, imports, elements⟩ : SourceFile)) fun _ _ h => h) ?_)
    ?_).congr fun ts file => ?_
  · rintro imports ts file token ⟨elements, hrow, -⟩ hend
    exact hrow.text_ne_of_declared hend (by decide) (by rintro ⟨⟩ <;> decide)
  -- Where no package was read, none may stand: what follows starts with another word.
  · rintro (_ | _) ts file token ⟨us, imports, vs, rfl, huses, elements, hrow, -⟩ hend
    · rw [headD_append]
      cases huses with
      | nil => exact hrow.text_ne_of_declared hend (by decide) (by rintro ⟨⟩ <;> decide)
      | cons huse _ =>
        rw [headD_append]
        exact fun hpackage => absurd ((huse.headD _).symm.trans hpackage) (by decide)
    · trivial
  · constructor
    · rintro ⟨ps, package, _, rfl, hpackage, us, imports, es, rfl, himports, elements, helements,
        rfl⟩
      exact .intro hpackage himports helements
    · rintro ⟨hpackage, himports, helements⟩
      exact ⟨_, _, _, rfl, hpackage, _, _, _, rfl, himports, _, helements, rfl⟩

/-- Declared types are read up to the last token. -/
theorem later_eq_nil_of_elements {package : String} {imports : List String} {c c' : Cursor}
    {elements : List Element} (hc : EndsOnce c.rest)
    (h : many (elementBeforeEnd package imports) c = .ok (elements, c')) : c'.later = [] := by
  obtain ⟨d, hd, hlast⟩ :=
    (reads_elementBeforeEnd package imports).item_eq_none_of_many not_maybe_declared_nil hc h
  rw [elementBeforeEnd] at hlast
  split at hlast
  · next hend =>
    cases hlast
    exact (atEnd_iff hd).1 hend
  · -- Behind a type there is more to read, so the repetition would not end here.
    obtain ⟨read, -, hread⟩ := Parsed.bind_eq_ok_iff.1 hlast
    cases hread

/-- **A file is read up to the last token**. -/
theorem later_eq_nil_of_sourceFile {c c' : Cursor} {file : SourceFile} (hc : EndsOnce c.rest)
    (h : sourceFile c = .ok (file, c')) : c'.later = [] := by
  rw [sourceFile] at h
  obtain ⟨⟨package, d⟩, hpackage, h⟩ := Parsed.bind_eq_ok_iff.1 h
  obtain ⟨-, hd⟩ := left_le_of_reads (reads_clause (by decide) c hc) hc hpackage
  obtain ⟨⟨imports, e⟩, himports, h⟩ := Parsed.bind_eq_ok_iff.1 h
  obtain ⟨-, he⟩ := left_le_of_reads (reads_imports d hd) hd himports
  obtain ⟨⟨elements, last⟩, helements, h⟩ := Parsed.bind_eq_ok_iff.1 h
  cases h
  exact later_eq_nil_of_elements he helements

end Grammar

/-- **Declaration files are read as the grammar says**. Of the tokens of a text, exactly those
lists that the grammar derives are read, up to the empty token at the end, and what is read is
the tree of the derivation. -/
theorem SourceFile.ofTokens_eq_ok_iff {text : String} {ts : List Token} (h : tokens text = .ok ts)
    (file : SourceFile) : SourceFile.ofTokens ts = .ok file ↔ Derives.File ts.dropLast file := by
  obtain ⟨first, later, rfl⟩ := List.exists_cons_of_ne_nil (endsOnce_tokensAt h).ne_nil
  have hends : EndsOnce (Cursor.start first later).rest := endsOnce_tokensAt h
  have hreads := Grammar.reads_sourceFile (.start first later) hends
  rw [SourceFile.ofTokens]
  constructor
  · intro hfile
    cases hread : Grammar.sourceFile (.start first later) with
    | error fault =>
      rw [hread] at hfile
      cases hfile
    | ok read =>
      obtain ⟨file', c'⟩ := read
      rw [hread] at hfile
      cases hfile
      -- What was passed over is all but the last token, since the reader stands at that one.
      obtain ⟨us, hpass, hderives⟩ := hreads.sound hread
      have hlast := Grammar.later_eq_nil_of_sourceFile hends hread
      have hrest : first :: later = us ++ [c'.current] := by
        rw [← rest_start, hpass.rest_eq, rest, hlast]
      rw [hrest, List.dropLast_concat]
      exact hderives
  · intro hderives
    obtain ⟨us, last, hsplit⟩ : ∃ us last, first :: later = us ++ [last] :=
      ⟨_, _, (List.dropLast_concat_getLast (List.cons_ne_nil first later)).symm⟩
    rw [hsplit, List.dropLast_concat] at hderives
    obtain ⟨c', hpass, hrest⟩ :=
      exists_passes (c := .start first later) hsplit (List.cons_ne_nil _ _)
    -- A file may end in front of the empty token, and this is the last one.
    have hempty : c'.current.text = "" := by
      have hlast := hpass.endsOnce hends
      rw [rest, (List.cons.inj hrest).2] at hlast
      cases hlast with
      | last htext => exact htext
      | cons _ hnil => exact absurd rfl hnil.ne_nil
    rw [hreads.complete hpass hderives hempty]
    rfl

theorem SourceFile.ofTokens_property_of_class :
    ∃ ts, tokens "package a; class B \x7b q: T?; \x7d" = .ok ts ∧
      Derives.File ts.dropLast
        ⟨some "a", [], [⟨"B", "a", [], ⟨1, 18⟩, .classType, [], [],
          [⟨"q", ⟨1, 22⟩, ⟨"T", [], true⟩⟩]⟩]⟩ := by
  have htokens : tokens "package a; class B \x7b q: T?; \x7d" =
      .ok [⟨"package", ⟨1, 1⟩⟩, ⟨"a", ⟨1, 9⟩⟩, ⟨";", ⟨1, 10⟩⟩, ⟨"class", ⟨1, 12⟩⟩,
        ⟨"B", ⟨1, 18⟩⟩, ⟨"\x7b", ⟨1, 20⟩⟩, ⟨"q", ⟨1, 22⟩⟩, ⟨":", ⟨1, 23⟩⟩, ⟨"T", ⟨1, 25⟩⟩,
        ⟨"?", ⟨1, 26⟩⟩, ⟨";", ⟨1, 27⟩⟩, ⟨"\x7d", ⟨1, 29⟩⟩, ⟨"", ⟨1, 30⟩⟩] := by
    cbv
  refine ⟨_, htokens, (SourceFile.ofTokens_eq_ok_iff htokens _).1 ?_⟩
  cbv

end RequestRouter
