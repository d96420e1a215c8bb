import RequestRouter.Proofs.Declaration.Lookahead
import RequestRouter.Proofs.Declaration.Names
import RequestRouter.Proofs.Declaration.Positions

/-!
# Faults at the first token that does not fit

What does not fit is noticed where it stands. Every reader of the grammar looks ahead by one token
(`RequestRouter.LooksAhead`), so what was read in front of a fault is the front of a file, and no
file goes on from there with the token at the fault
(`RequestRouter.SourceFile.exists_token_of_ofTokens_eq_error`). The proofs follow the grammar. What
each has to add are the tokens that complete what was read before.
-/

namespace RequestRouter

open Cursor Derives

namespace Grammar

/-! ### Tokens to go on with -/

/-- The token of the text. -/
def filler (text : String) : Token := ⟨text, .first⟩

theorem path_filler : Path [filler "a"] ["a"] := .single (by decide)

theorem written_filler : Written [filler "a"] ⟨joined ["a"], [], false⟩ := .plain path_filler .never

/-- Whether nothing is left can be told from the token at hand. -/
theorem atEnd_congr {c d : Cursor} (hc : EndsOnce c.rest) (hd : EndsOnce d.rest)
    (htext : d.current.text = c.current.text) : d.atEnd = c.atEnd := by
  rw [hd.atEnd_eq, hc.atEnd_eq, Token.isEnd, Token.isEnd, htext]

/-! ### Paths and types -/

theorem isIdentifier_congr (token other : Token) (h : token.text = other.text) :
    token.isIdentifier = other.isIdentifier := by
  rw [Token.isIdentifier, Token.isIdentifier, h]

theorem looksAhead_pathSegment (c : Cursor) (hc : EndsOnce c.rest) :
    LooksAhead pathSegment (Maybe (Behind "::" Name)) c := by
  refine .word "::" (by decide) (fun _ d => d.expect Token.isIdentifier .identifier >>= fun name =>
      .ok (some name.1.text, name.2)) (fun d => .ok (none, d)) (fun d => ?_) hc
    (fun hseparator d _ hd => ?_) fun _ => .pure none
  · rw [pathSegment, Cursor.eat?]
    change _ = if Token.is Text.separator d.current then _ else _
    cases Token.is Text.separator d.current <;> rfl
  · refine .token proper_isIdentifier isIdentifier_congr hd
      (fun _ e _ _ => .pure (some d.current.text)) ?_
    exact ⟨[filler "a"], some "a", by decide,
      .some (.intro hseparator ⟨_, rfl, by decide, rfl⟩)⟩

theorem looksAhead_path (c : Cursor) (hc : EndsOnce c.rest) :
    LooksAhead path (fun ts text => ∃ names, Path ts names ∧ text = joined names) c := by
  refine .token proper_isIdentifier isIdentifier_congr hc (fun hfirst d _ hd => ?_) ?_
  · refine (LooksAhead.row reads_pathSegment ?_ looksAhead_pathSegment d hd).map
      (fun rest => Text.separator.intercalate (c.current.text :: rest)) fun us rest hrest => ?_
    · rintro _ ⟨⟩
    · exact ⟨_, path_iff.2 ⟨c.current, us, rest, rfl, hfirst, hrest, rfl⟩, rfl⟩
  · exact ⟨[filler "a"], _, by decide, _, .single (by decide), rfl⟩

theorem looksAhead_closeType (name : String) (args : List TypeRef)
    {Part : List Token → TypeRef → Prop} (c : Cursor) (hc : EndsOnce c.rest) :
    LooksAhead (fun d => .ok (closeType name args d)) Part c := by
  refine .word "?" (by decide) (fun _ d => .ok (⟨name, args, true⟩, d))
    (fun d => .ok (⟨name, args, false⟩, d)) (fun d => ?_) hc (fun _ d _ _ => .pure _)
    fun _ => .pure _
  rw [closeType_eq, Cursor.eat?]
  cases Token.is "?" d.current <;> rfl

theorem looksAhead_typeRef_typeArgs (c : Cursor) (hc : EndsOnce c.rest) :
    LooksAhead typeRef Written c ∧ LooksAhead typeArgs (Commas Written) c := by
  -- both by induction on the number of tokens behind the cursor, as they are read
  induction hn : c.left using Nat.strongRecOn generalizing c with
  | ind n ih =>
    have htype : LooksAhead typeRef Written c := by
      refine .of_eq hc (fun d hd _ => typeRef_eq hd)
        (.bind hc (reads_path c hc) (looksAhead_path c hc) ?_ ?_)
      · rintro ts name d ⟨names, hpath, rfl⟩ hpass hd
        refine .word "<" (by decide) (fun _ e => typeArgs e >>= fun args =>
            args.2.expectSymbol ">" >>= fun f => .ok (closeType (joined names) args.1 f))
          (fun e => .ok (closeType (joined names) [] e)) (fun e => ?_) hd
          (fun hopening e hmove he => ?_) fun _ => looksAhead_closeType _ _ d hd
        · rw [typeRest, Cursor.eat?]
          cases Token.is "<" e.current <;> rfl
        · have hlt : e.left < n :=
            hn ▸ (passes_append.2 ⟨d, hpass, hmove⟩).left_lt_of_ne_nil (by simp)
          have hclosing : ∀ us args, Commas Written us args → Viable (fun vs type =>
              Written (ts ++ d.current :: vs) type) us := fun us args hargs =>
            ⟨[filler ">"], ⟨joined names, args, false⟩, by decide,
              .applied hpath hopening hargs rfl .never⟩
          refine .bind he (reads_typeRef_typeArgs e he).2 (ih e.left hlt e he rfl).2
            (fun us args f hargs _ hf => ?_) hclosing
          exact .symbol (by decide) hf (fun _ g _ hg => looksAhead_closeType _ _ g hg)
            (hclosing us args hargs).behind
      · rintro ts name ⟨names, hpath, rfl⟩
        exact ⟨[], _, List.forall_mem_nil _, .plain hpath .never⟩
    refine ⟨htype, .of_eq hc (fun d hd _ => typeArgs_eq (reads_typeRef d hd) hd)
      (.bind hc (reads_typeRef c hc) htype (fun ts arg d harg hpass hd => ?_)
        fun ts arg harg => .of_part (.single harg))⟩
    refine .word "," (by decide) (fun _ e => typeArgs e >>= fun rest => .ok (arg :: rest.1, rest.2))
      (fun e => .ok ([arg], e)) (fun e => ?_) hd (fun hcomma e hmove he => ?_) fun _ => .pure _
    · rw [argsRest, Cursor.eat?]
      cases Token.is "," e.current <;> rfl
    · have hlt : e.left < n := hn ▸ (passes_append.2 ⟨d, hpass, hmove⟩).left_lt_of_ne_nil (by simp)
      exact (ih e.left hlt e he rfl).2.map (arg :: ·) fun us args hargs =>
        .cons harg hcomma hargs

theorem looksAhead_typeRef (c : Cursor) (hc : EndsOnce c.rest) : LooksAhead typeRef Written c :=
  (looksAhead_typeRef_typeArgs c hc).1

/-! ### Marks -/

theorem isString_congr (token other : Token) (h : token.text = other.text) :
    token.isString = other.isString := by
  rw [Token.isString, Token.isString, h]

theorem isInteger_congr (token other : Token) (h : token.text = other.text) :
    token.isInteger = other.isInteger := by
  rw [Token.isInteger, Token.isInteger, h]

/-- Where an argument is missing, a path can stand. -/
theorem viable_markArgument : Viable MarkArgument [] :=
  ⟨[filler "a"], _, by decide, .path (.single (by decide))⟩

theorem looksAhead_markArg (c : Cursor) (hc : EndsOnce c.rest) :
    LooksAhead markArg MarkArgument c := by
  refine .choice (fun token d => .ok (.text (stringValue token.text), d)) _ proper_isString
    isString_congr (fun _ => rfl) hc (fun _ d _ _ => .pure _) fun _ => ?_
  refine .ite (fun d => d.current.isInteger) _ _ (fun d _ => isInteger_congr _ _) (fun _ => rfl) hc
    (fun hinteger => ?_) fun _ => ?_
  · cases hvalue : integerValue? c.current.text with
    | some value =>
      refine .of_eq hc (fun d _ htext => by rw [htext, hvalue])
        (.advance hc (fun hempty => ?_) (fun _ d => .ok (.int value, d)) fun d _ _ => .pure _)
      rw [proper_isInteger _ hempty] at hinteger
      cases hinteger
    | none =>
      -- The integer is refused where it stands, not behind it.
      exact .of_eq hc (fun d _ htext => by rw [htext, hvalue])
        (.refused (fun d => ⟨.invalidInteger c.current.text, d.current.position⟩)
          (isAbout_invalidInteger c.current) viable_markArgument)
  · refine .ite (fun d => d.current.isIdentifier) _ _ (fun d _ => isIdentifier_congr _ _)
      (fun _ => rfl) hc (fun _ => ?_) fun _ =>
        .refused _ (isAbout_unexpected c) viable_markArgument
    refine (looksAhead_path c hc).map MarkArg.path ?_
    rintro ts _ ⟨names, hpath, rfl⟩
    exact .path hpath

theorem looksAhead_markArgs (c : Cursor) (hc : EndsOnce c.rest) :
    LooksAhead markArgs
      (fun ts args => Behind "(" (Closed MarkArgument) ts args ∨ ts = [] ∧ args = []) c := by
  refine .word "(" (by decide) (fun _ => listed markArg) (fun d => .ok ([], d)) (fun d => ?_) hc
    (fun hopening d _ hd => ?_) fun _ => .pure []
  · rw [markArgs, Cursor.eat?]
    cases Token.is "(" d.current <;> rfl
  · exact (LooksAhead.listed reads_markArg looksAhead_markArg d hd).imp fun ts args hargs =>
      .inl (.intro hopening hargs)

theorem looksAhead_mark (c : Cursor) (hc : EndsOnce c.rest) : LooksAhead mark (Maybe Marked) c := by
  refine .word "@" (by decide) (fun sign d => path d >>= fun name => markArgs name.2 >>= fun args =>
      .ok (some (⟨(ClassName.ofQualified name.1).simple, sign.position, args.1⟩ : Mark), args.2))
    (fun d => .ok (none, d)) (fun d => ?_) hc (fun hsign d _ hd => ?_) fun _ => .pure none
  · rw [mark, Cursor.eat?]
    cases Token.is "@" d.current <;> rfl
  · -- A path behind the sign is a mark already, so nothing is needed to complete it.
    refine .bind hd (reads_path d hd) (looksAhead_path d hd) ?_ ?_
    · rintro ts _ e ⟨names, hpath, rfl⟩ - he
      obtain ⟨front, name, rfl⟩ := hpath.exists_last
      simp only [hpath.simple_ofQualified]
      refine (looksAhead_markArgs e he).map
        (fun args => some (⟨name, c.current.position, args⟩ : Mark)) ?_
      rintro us args (hargs | ⟨rfl, rfl⟩)
      · exact .some (.called hsign hpath hargs)
      · rw [List.append_nil]
        exact .some (.bare hsign hpath)
    · rintro ts _ ⟨names, hpath, rfl⟩
      obtain ⟨front, name, rfl⟩ := hpath.exists_last
      exact .of_part (.some (.bare hsign hpath))

theorem not_marked_nil (mark : Mark) : ¬Marked [] mark := by
  intro h
  obtain ⟨_, _, hnil, -⟩ := h.exists_cons
  cases hnil

theorem looksAhead_marks (c : Cursor) (hc : EndsOnce c.rest) : LooksAhead marks (Row Marked) c :=
  LooksAhead.row reads_mark not_marked_nil looksAhead_mark c hc

/-! ### Parameters -/

theorem isLiteral_congr (token other : Token) (h : token.text = other.text) :
    isLiteral token = isLiteral other := by
  rw [isLiteral, isLiteral, isString_congr _ _ h, isInteger_congr _ _ h, Token.isFloat,
    Token.isFloat, Token.isCharacter, Token.isCharacter, h]

theorem looksAhead_defaultValue (c : Cursor) (hc : EndsOnce c.rest) :
    LooksAhead defaultValue Default c := by
  refine .choice (fun token d => .ok (token.text, d)) _ proper_isLiteral isLiteral_congr
    (fun _ => rfl) hc (fun _ d _ _ => .pure _) fun _ => ?_
  refine .ite (fun d => d.current.isIdentifier) _ _ (fun d _ => isIdentifier_congr _ _)
    (fun _ => rfl) hc (fun _ => ?_) fun _ => ?_
  · refine (looksAhead_path c hc).imp ?_
    rintro ts _ ⟨names, hpath, rfl⟩
    exact .path hpath
  · exact .refused _ (isAbout_unexpected c)
      ⟨[filler "a"], _, by decide, .path (.single (by decide))⟩

theorem looksAhead_defaultPart (c : Cursor) (hc : EndsOnce c.rest) :
    LooksAhead defaultPart (Maybe (Behind "=" Default)) c := by
  refine .word "=" (by decide)
    (fun _ d => defaultValue d >>= fun value => .ok (some value.1, value.2))
    (fun d => .ok (none, d)) (fun d => ?_) hc (fun hequals d _ hd => ?_) fun _ => .pure none
  · rw [defaultPart, Cursor.eat?]
    cases Token.is "=" d.current <;> rfl
  · exact (looksAhead_defaultValue d hd).map some fun ts value hvalue =>
      .some (.intro hequals hvalue)

theorem looksAhead_param (c : Cursor) (hc : EndsOnce c.rest) : LooksAhead param Parameter c := by
  -- What is missing of a parameter is some of a name, a colon and a type.
  have hwhole : ∀ ms marks, Row Marked ms marks → Viable Parameter ms := fun ms marks hmarks =>
    ⟨[filler "a", filler ":", filler "a"], _, by decide,
      .intro hmarks (by decide) rfl written_filler .none⟩
  refine .bind hc (reads_marks c hc) (looksAhead_marks c hc) (fun ms marks d hmarks _ hd => ?_)
    hwhole
  refine .token proper_isIdentifier isIdentifier_congr hd (fun hname e _ he => ?_)
    (hwhole ms marks hmarks).behind
  refine .symbol (by decide) he (fun hcolon f _ hf => ?_)
    ⟨[filler ":", filler "a"], _, by decide, .intro hmarks hname rfl written_filler .none⟩
  refine .bind hf (reads_typeRef f hf) (looksAhead_typeRef f hf) (fun ts type g htype _ hg => ?_)
    fun ts type htype => ⟨[], _, List.forall_mem_nil _, .intro hmarks hname hcolon htype .none⟩
  exact (looksAhead_defaultPart g hg).map _ fun ds default hdefault =>
    .intro hmarks hname hcolon htype hdefault

theorem looksAhead_params (c : Cursor) (hc : EndsOnce c.rest) :
    LooksAhead params (Behind "(" (Closed Parameter)) c := by
  refine .symbol (by decide) hc (fun hopening d _ hd => ?_)
    ⟨[filler "(", filler ")"], [], by decide, .intro rfl (.empty rfl)⟩
  exact (LooksAhead.listed reads_param looksAhead_param d hd).imp fun ts params hparams =>
    .intro hopening hparams

/-! ### Members -/

theorem looksAhead_returnType (c : Cursor) (hc : EndsOnce c.rest) :
    LooksAhead returnType (Maybe (Behind "->" Written)) c := by
  refine .word "->" (by decide) (fun _ d => typeRef d >>= fun type => .ok (some type.1, type.2))
    (fun d => .ok (none, d)) (fun d => ?_) hc
    (fun harrow d _ hd => ?_) fun _ => .pure none
  · rw [returnType, Cursor.eat?]
    cases Token.is "->" d.current <;> rfl
  · exact (looksAhead_typeRef d hd).map some fun ts type htype =>
      .some (.intro harrow htype)

theorem looksAhead_method {ms : List Token} {marks : List Mark} {keyword : Token}
    (hmarks : Row Marked ms marks) (hkeyword : keyword.text = "fn") (c : Cursor)
    (hc : EndsOnce c.rest) :
    LooksAhead (method marks) (fun ts m => Derives.Member (ms ++ keyword :: ts) (.method m)) c := by
  refine .token proper_isIdentifier isIdentifier_congr hc (fun hname d _ hd => ?_)
    ⟨[filler "a", filler "(", filler ")", filler ";"], _, by decide,
      .method hmarks hkeyword (by decide) (.intro rfl (.empty rfl)) .none rfl⟩
  refine .bind hd (reads_params d hd) (looksAhead_params d hd)
    (fun ps params e hparams _ he => ?_) fun ps params hparams =>
      ⟨[filler ";"], _, by decide, .method hmarks hkeyword hname hparams .none rfl⟩
  have hclosing : ∀ rs result, Maybe (Behind "->" Written) rs result → Viable (fun us m =>
      Derives.Member (ms ++ keyword :: c.current :: (ps ++ us)) (.method m)) rs :=
    fun rs result hresult =>
      ⟨[filler ";"], _, by decide, .method hmarks hkeyword hname hparams hresult rfl⟩
  refine .bind he (reads_returnType e he) (looksAhead_returnType e he)
    (fun rs result f hresult _ hf => ?_) hclosing
  exact .symbol (by decide) hf (fun _ g _ _ => .pure _) (hclosing rs result hresult).behind

theorem looksAhead_field {ms : List Token} {marks : List Mark} (hmarks : Row Marked ms marks)
    (c : Cursor) (hc : EndsOnce c.rest) (hne : c.current.text ≠ "fn") :
    LooksAhead field (fun ts f => Derives.Member (ms ++ ts) (.field f)) c := by
  refine .token proper_isIdentifier isIdentifier_congr hc (fun hname d _ hd => ?_)
    ⟨[filler "a", filler ":", filler "a", filler ";"], _, by decide,
      .field hmarks (by decide) (by decide) rfl written_filler rfl⟩
  refine .symbol (by decide) hd (fun hcolon e _ he => ?_)
    ⟨[filler ":", filler "a", filler ";"], _, by decide,
      .field hmarks hname hne rfl written_filler rfl⟩
  have hclosing : ∀ ts type, Written ts type → Viable (fun us f =>
      Derives.Member (ms ++ c.current :: d.current :: us) (.field f)) ts := fun ts type htype =>
    ⟨[filler ";"], _, by decide, .field hmarks hname hne hcolon htype rfl⟩
  refine .bind he (reads_typeRef e he) (looksAhead_typeRef e he) (fun ts type f htype _ hf => ?_)
    hclosing
  exact .symbol (by decide) hf (fun _ g _ _ => .pure _) (hclosing ts type htype).behind

theorem looksAhead_member (c : Cursor) (hc : EndsOnce c.rest) :
    LooksAhead member MemberOrBrace c := by
  -- Marks can be completed to a property, wherever they end.
  have hwhole : ∀ ms marks, Row Marked ms marks → Viable MemberOrBrace ms := fun ms marks hmarks =>
    ⟨[filler "a", filler ":", filler "a", filler ";"], some _, by decide,
      .field hmarks (by decide) (by decide) rfl written_filler rfl⟩
  refine .word "\x7d" (by decide) (fun _ d => .ok (none, d)) (fun d =>
      if d.atEnd then .error d.unexpected
      else marks d >>= fun marks => memberRest marks.1 marks.2) (fun d => ?_) hc
    (fun _ d _ _ => .pure none) fun _ => ?_
  · rw [member, Cursor.eat?]
    cases Token.is "\x7d" d.current <;> rfl
  refine .ite Cursor.atEnd _ _ (fun d => atEnd_congr hc) (fun _ => rfl) hc
    (fun _ => .refused _ (isAbout_unexpected c) (hwhole [] [] .nil)) fun _ => ?_
  refine .bind hc (reads_marks c hc) (looksAhead_marks c hc) (fun ms marks d hmarks _ hd => ?_)
    hwhole
  refine .word "fn" (by decide)
    (fun _ e => method marks e >>= fun m => .ok (some (.method m.1), m.2))
    (fun e => field e >>= fun f => .ok (some (.field f.1), f.2)) (fun e => ?_) hd
    (fun hkeyword e _ he => ?_) fun hne => ?_
  · rw [memberRest, Cursor.eat?]
    cases Token.is "fn" e.current <;> rfl
  · exact (looksAhead_method hmarks hkeyword e he).map
      (fun m => some (Member.method m)) fun ts m hm => hm
  · exact (looksAhead_field hmarks d hd hne).map
      (fun f => some (Member.field f)) fun ts f hf => hf

theorem looksAhead_members (c : Cursor) (hc : EndsOnce c.rest) : LooksAhead members Body c := by
  refine .word ";" (by decide) (fun _ d => .ok ([], d))
    (fun d => d.expectSymbol "\x7b" >>= many member) (fun d => ?_) hc (fun _ d _ _ => .pure [])
    fun _ => ?_
  · rw [members, Cursor.eat?]
    cases Token.is ";" d.current <;> rfl
  refine .symbol (by decide) hc (fun hopening d _ hd => ?_) ⟨[filler ";"], [], by decide, .none rfl⟩
  refine (LooksAhead.many reads_member not_member_nil looksAhead_member
    ⟨[filler "\x7d"], by decide, _, rfl, rfl⟩ d hd).imp fun ts members hmembers => ?_
  obtain ⟨us, closing, rfl, hrow, hclosing⟩ := rowThen_memberOrBrace_iff.1 hmembers
  exact .members hopening hrow hclosing

/-! ### Elements and files -/

theorem looksAhead_elementKind (c : Cursor) (hc : EndsOnce c.rest) :
    LooksAhead elementKind
      (fun ts kind => ∃ word : Token, ts = [word] ∧ word.text = keyword kind) c := by
  refine .word "interface" (by decide) (fun _ d => .ok (.interfaceType, d)) _ (fun _ => rfl) hc
    (fun _ d _ _ => .pure _) fun _ => ?_
  refine .word "class" (by decide) (fun _ d => .ok (.classType, d)) _ (fun _ => rfl) hc
    (fun _ d _ _ => .pure _) fun _ => ?_
  refine .word "object" (by decide) (fun _ d => .ok (.objectType, d)) _ (fun _ => rfl) hc
    (fun _ d _ _ => .pure _) fun _ => ?_
  exact .refused _ (isAbout_unexpected c)
    ⟨[filler "class"], .classType, by decide, filler "class", rfl, rfl⟩

theorem looksAhead_element (package : String) (imports : List String) (c : Cursor)
    (hc : EndsOnce c.rest) :
    LooksAhead (element package imports) (Declared package imports) c := by
  refine .bind hc (reads_marks c hc) (looksAhead_marks c hc) (fun ms marks d hmarks _ hd => ?_)
    fun ms marks hmarks => ?_
  refine .bind hd (reads_elementKind d hd) (looksAhead_elementKind d hd) ?_ ?_
  · rintro _ kind e ⟨word, rfl, hword⟩ - he
    refine .token proper_isIdentifier isIdentifier_congr he (fun hname f _ hf => ?_)
      ⟨[filler "a", filler ";"], _, by decide, .intro hmarks hword (by decide) (.none rfl)⟩
    exact .bind hf (reads_members f hf) (looksAhead_members f hf)
      (fun bs members g _ _ _ => .pure _) fun bs members hbody =>
        .of_part (.intro hmarks hword hname hbody)
  · rintro _ kind ⟨word, rfl, hword⟩
    exact ⟨[filler "a", filler ";"], _, by decide, .intro hmarks hword (by decide) (.none rfl)⟩
  · have hword : (filler "class").text = keyword .classType := rfl
    exact ⟨[filler "class", filler "a", filler ";"], _, by decide,
      .intro hmarks hword (by decide) (.none rfl)⟩

theorem looksAhead_elementBeforeEnd (package : String) (imports : List String) (c : Cursor)
    (hc : EndsOnce c.rest) :
    LooksAhead (elementBeforeEnd package imports) (Maybe (Declared package imports)) c := by
  refine .ite Cursor.atEnd _ _ (fun d => atEnd_congr hc) (fun _ => rfl) hc (fun _ => .pure none)
    fun _ => ?_
  exact (looksAhead_element package imports c hc).map some fun ts element => .some

theorem looksAhead_clause {word : String} (hword : word ≠ "") (c : Cursor) (hc : EndsOnce c.rest) :
    LooksAhead (clause word) (Maybe (Behind word Statement)) c := by
  refine .word word hword (fun _ d => path d >>= fun name => name.2.expectSymbol ";" >>= fun e =>
      .ok (some name.1, e)) (fun d => .ok (none, d)) (fun d => ?_) hc (fun hkeyword d _ hd => ?_)
    fun _ => .pure none
  · rw [clause, Cursor.eat?]
    cases Token.is word d.current <;> rfl
  have hclosing : ∀ ts text, (∃ names, Path ts names ∧ text = joined names) →
      Viable (fun us r => Maybe (Behind word Statement) (c.current :: us) r) ts := by
    rintro ts _ ⟨names, hpath, rfl⟩
    exact ⟨[filler ";"], some _, by decide, .some (.intro hkeyword (.intro hpath rfl))⟩
  refine .bind hd (reads_path d hd) (looksAhead_path d hd) (fun ts text e hpath _ he => ?_) hclosing
  exact .symbol (by decide) he (fun _ f _ _ => .pure (some text)) (hclosing ts text hpath).behind

theorem looksAhead_sourceFile (c : Cursor) (hc : EndsOnce c.rest) :
    LooksAhead sourceFile File c := by
  have hpackageWord : "package" ≠ "" := by decide
  have huseWord : "use" ≠ "" := by decide
  refine .bind hc (reads_clause hpackageWord c hc) (looksAhead_clause hpackageWord c hc)
    (fun ps package d hpackage _ hd => ?_) fun ps package hpackage => ?_
  · have himportsAhead := LooksAhead.row (reads_clause huseWord) (by rintro _ ⟨⟩)
      (looksAhead_clause huseWord) d hd
    refine .bind hd (reads_imports d hd) himportsAhead (fun us imports e himports _ he => ?_)
      fun us imports himports => ?_
    · refine (LooksAhead.row (reads_elementBeforeEnd (package.getD "") imports)
        (fun element hdeclared => hdeclared.ne_nil rfl) (looksAhead_elementBeforeEnd _ imports) e
        he).map (fun elements => (⟨package, imports, elements⟩ : SourceFile))
          fun es elements helements => .intro hpackage himports helements
    · have hfile := File.intro hpackage himports .nil
      rw [List.append_nil] at hfile
      exact .of_part hfile
  · have hfile := File.intro hpackage .nil .nil
    rw [List.append_nil, List.append_nil] at hfile
    exact .of_part hfile

end Grammar

/-! ### Lists of tokens -/

/-- A list as the tokenizer makes them: tokens that occur in texts, and the empty one. -/
structure IsTokenList (ts : List Token) : Prop where
  /-- The empty token is the last one, and no other. -/
  endsOnce : EndsOnce ts
  /-- Every token is spelled like one of some text. -/
  produced : ∀ token ∈ ts, ∃ source us, tokens source = .ok us ∧ token.text ∈ us.map Token.text

theorem isTokenList_of_tokens {text : String} {ts : List Token} (h : tokens text = .ok ts) :
    IsTokenList ts :=
  ⟨endsOnce_tokensAt h, fun _ hmem => ⟨text, ts, h, List.mem_map_of_mem hmem⟩⟩

/-- A list with another end. -/
theorem EndsOnce.append {ts us vs : List Token} (h : EndsOnce (ts ++ us)) (hne : us ≠ [])
    (hvs : EndsOnce vs) : EndsOnce (ts ++ vs) := by
  induction ts with
  | nil => exact hvs
  | cons token ts ih =>
    have hbehind : ts ++ us ≠ [] := List.append_ne_nil_of_right_ne_nil ts hne
    have htoken : token.text ≠ "" := fun hempty => hbehind (h.eq_nil hempty)
    exact .cons htoken (ih (h.tail htoken))

theorem IsTokenList.append {ts us vs : List Token} (h : IsTokenList (ts ++ us)) (hne : us ≠ [])
    (hvs : IsTokenList vs) : IsTokenList (ts ++ vs) where
  endsOnce := h.endsOnce.append hne hvs.endsOnce
  produced := List.forall_mem_append.2
    ⟨fun token hmem => h.produced token (List.mem_append_left us hmem), hvs.produced⟩

/-- The fillers are spelled like the tokens of a text. -/
theorem tokens_fillers : tokens "class a;:()>\x7d" = .ok [⟨"class", ⟨1, 1⟩⟩, ⟨"a", ⟨1, 7⟩⟩,
    ⟨";", ⟨1, 8⟩⟩, ⟨":", ⟨1, 9⟩⟩, ⟨"(", ⟨1, 10⟩⟩, ⟨")", ⟨1, 11⟩⟩, ⟨">", ⟨1, 12⟩⟩,
    ⟨"\x7d", ⟨1, 13⟩⟩, ⟨"", ⟨1, 14⟩⟩] := by
  cbv

/-- The tokens that parts are completed with, and the end of the file. -/
theorem isTokenList_fillers {ts : List Token} (h : ∀ token ∈ ts, token.text ∈ fillers)
    (position : Position) : IsTokenList (ts ++ [⟨"", position⟩]) := by
  constructor
  · induction ts with
    | nil => exact .last rfl
    | cons token ts ih =>
      obtain ⟨htoken, hts⟩ := List.forall_mem_cons.1 h
      have hne : ∀ text ∈ fillers, text ≠ "" := by decide
      exact .cons (hne _ htoken) (ih hts)
  · intro token hmem
    refine ⟨_, _, tokens_fillers, ?_⟩
    change token.text ∈ fillers ++ [""]
    rcases List.mem_append.1 hmem with hfiller | hlast
    · exact List.mem_append_left _ (h token hfiller)
    · rw [List.mem_singleton.1 hlast]
      exact List.mem_append_right _ (List.mem_singleton_self "")

theorem Parsed.map_eq_ok_iff {α β : Type} {x : Parsed α} {f : α → β} {b : β} :
    Except.map f x = .ok b ↔ ∃ a, x = .ok a ∧ f a = b := by
  rcases x with fault | a
  · exact ⟨nofun, nofun⟩
  · simp [Except.map]

namespace SourceFile

/-- A file of the grammar is read, up to the end of the list. -/
theorem ofTokens_of_file {ts : List Token} {last : Token} {file : SourceFile}
    (hends : EndsOnce (ts ++ [last])) (hfile : File ts file) :
    ofTokens (ts ++ [last]) = .ok file := by
  obtain ⟨first, later, hsplit⟩ := List.exists_cons_of_ne_nil hends.ne_nil
  rw [hsplit] at hends ⊢
  have hreads := Grammar.reads_sourceFile (.start first later) hends
  obtain ⟨d, hpass, hrest⟩ := exists_passes (c := .start first later) hsplit.symm
    (List.cons_ne_nil last [])
  have hd : EndsOnce d.rest := hpass.endsOnce hends
  have hempty : d.current.text = "" := by
    rw [← String.isEmpty_iff, ← Token.isEnd, ← hd.atEnd_eq, atEnd_iff hd]
    exact (List.cons.inj hrest).2
  rw [ofTokens, hreads.complete hpass hfile hempty]
  rfl

/-- What is read of a list is derived from all of its tokens but the last. -/
theorem derives_of_ofTokens {ts : List Token} {file : SourceFile} (hends : EndsOnce ts)
    (h : ofTokens ts = .ok file) : File ts.dropLast file := by
  obtain ⟨first, later, rfl⟩ := List.exists_cons_of_ne_nil hends.ne_nil
  have hstart : EndsOnce (Cursor.start first later).rest := hends
  rw [ofTokens] at h
  obtain ⟨⟨_, d⟩, hread, rfl⟩ := Parsed.map_eq_ok_iff.1 h
  obtain ⟨us, hpass, hfile⟩ := (Grammar.reads_sourceFile _ hstart).sound hread
  have hpassed : first :: later = us ++ [d.current] := by
    rw [← rest_start, hpass.rest_eq, rest, Grammar.later_eq_nil_of_sourceFile hstart hread]
  rwa [hpassed, List.dropLast_concat]

/-- The tokens are the start of a file, and with the token behind them they are not. -/
structure FirstMisfit (before : List Token) (token : Token) : Prop where
  /-- A file that starts with the tokens in front. -/
  completed : ∃ later file,
    IsTokenList (before ++ later) ∧ ofTokens (before ++ later) = .ok file
  /-- There is none that goes on with the token, wherever it and those in front stand. -/
  refused : ∀ us, IsTokenList us →
    (before ++ [token]).map Token.text <+: us.map Token.text → ∀ file, ofTokens us ≠ .ok file

theorem exists_ofTokens_of_viable {before us : List Token} (hlist : IsTokenList (before ++ us))
    (hne : us ≠ []) (hviable : Viable File before) :
    ∃ later file, IsTokenList (before ++ later) ∧ ofTokens (before ++ later) = .ok file := by
  obtain ⟨vs, file, hvs, hfile⟩ := hviable
  have hcompleted := hlist.append hne (isTokenList_fillers hvs .first)
  refine ⟨vs ++ [⟨"", .first⟩], file, hcompleted, ?_⟩
  rw [← List.append_assoc]
  exact ofTokens_of_file (List.append_assoc .. ▸ hcompleted.endsOnce) hfile

/-- If no cursor reads a file from the tokens on, no list that is spelled so is read. -/
theorem ofTokens_ne_ok_of_meets {before after us : List Token} {token : Token}
    (hbefore : EndsOnce (before ++ token :: after))
    (hmeets : ∀ c d, Meets c before token.text d →
      ∃ fault, Grammar.sourceFile c = .error fault)
    (hus : EndsOnce us) (hspelled : (before ++ [token]).map Token.text <+: us.map Token.text)
    (file : SourceFile) : ofTokens us ≠ .ok file := by
  intro hfile
  obtain ⟨rest, hrest⟩ := hspelled
  rw [List.map_append, List.append_assoc] at hrest
  obtain ⟨vs, ws, rfl, hvs, hws⟩ := List.map_eq_append_iff.1 hrest.symm
  obtain ⟨other, later, rfl, hother, -⟩ := List.map_eq_cons_iff.1 hws
  -- The list reads like one that starts with the very tokens.
  have hends : EndsOnce (before ++ other :: later) :=
    hbefore.append (List.cons_ne_nil _ _) (hus.of_append (List.cons_ne_nil _ _))
  have htexts : (vs ++ other :: later).map Token.text =
      (before ++ other :: later).map Token.text := by
    rw [List.map_append, List.map_append, hvs]
  obtain ⟨file', hfile', -⟩ := exists_ofTokens_of_map_text_eq hus.ne_nil htexts hfile .first
  obtain ⟨first, behind, hsplit⟩ := List.exists_cons_of_ne_nil hends.ne_nil
  rw [hsplit] at hends hfile'
  obtain ⟨d, hpass, hd⟩ := exists_passes (c := .start first behind) hsplit.symm
    (List.cons_ne_nil other later)
  have hcurrent : d.current.text = token.text := by
    rw [(List.cons.inj hd).1, hother]
  obtain ⟨fault, hfault⟩ := hmeets (.start first behind) d ⟨hends, hpass, hcurrent⟩
  rw [ofTokens, hfault] at hfile'
  cases hfile'

/-- **Faults are found at the first token that does not fit**. The fault in the tokens of a text
has the position of just one of them, and quotes it. The tokens in front of that one are the start
of a file, and no file starts with them and a token spelled like it. -/
theorem exists_token_of_ofTokens_eq_error {text : String} {ts : List Token} {fault : ParseFault}
    (htokens : tokens text = .ok ts) (hfault : ofTokens ts = .error fault) :
    ∃ before token after, ts = before ++ token :: after ∧
      fault.position = token.position ∧
      fault.position ∉ (before ++ after).map Token.position ∧
      (∃ front shown, fault.message = front ++ shown ∧ Text.Quotes shown token.text) ∧
      FirstMisfit before token := by
  obtain ⟨first, later, rfl⟩ := List.exists_cons_of_ne_nil (endsOnce_tokensAt htokens).ne_nil
  have hends : EndsOnce (Cursor.start first later).rest := endsOnce_tokensAt htokens
  have hread : Grammar.sourceFile (.start first later) = .error fault := by
    rw [ofTokens] at hfault
    cases hread : Grammar.sourceFile (.start first later) with
    | error fault' =>
      rw [hread] at hfault
      cases hfault
      rfl
    | ok read =>
      rw [hread] at hfault
      cases hfault
  obtain ⟨before, d, hpass, habout, hviable, hmeets⟩ :=
    (Grammar.looksAhead_sourceFile _ hends).error hread
  have hsplit : first :: later = before ++ d.current :: d.later := hpass.rest_eq
  have hlist := isTokenList_of_tokens htokens
  rw [hsplit] at hlist
  -- No two tokens have the same position, so it tells which one the fault is about.
  have hpositions : ((before ++ d.current :: d.later).map Token.position).Nodup :=
    hsplit ▸ (pairwise_before_of_tokensAt htokens).imp Position.Before.ne
  rw [List.map_append, List.map_cons, List.nodup_middle, ← List.map_append] at hpositions
  refine ⟨before, d.current, d.later, hsplit, habout.1, ?_, habout.exists_message,
    exists_ofTokens_of_viable hlist (List.cons_ne_nil _ _) hviable, fun us hus hspelled =>
      ofTokens_ne_ok_of_meets hlist.endsOnce hmeets hus.endsOnce hspelled⟩
  rw [habout.1]
  exact (List.nodup_cons.1 hpositions).1

theorem exists_token_of_ofTokens_eq_error_keyword :
    ∃ ts fault, tokens "class C \x7b fn: T;" = .ok ts ∧ ofTokens ts = .error fault ∧
      fault.message = "Parse error at line 1, column 13: Expected method name but found \":\"" ∧
      ∃ before token after, ts = before ++ token :: after ∧ token.position = ⟨1, 13⟩ ∧
        FirstMisfit before token := by
  have htokens : tokens "class C \x7b fn: T;" = .ok [⟨"class", ⟨1, 1⟩⟩, ⟨"C", ⟨1, 7⟩⟩,
      ⟨"\x7b", ⟨1, 9⟩⟩, ⟨"fn", ⟨1, 11⟩⟩, ⟨":", ⟨1, 13⟩⟩, ⟨"T", ⟨1, 15⟩⟩, ⟨";", ⟨1, 16⟩⟩,
      ⟨"", ⟨1, 17⟩⟩] := by
    cbv
  have hfault : ofTokens [⟨"class", ⟨1, 1⟩⟩, ⟨"C", ⟨1, 7⟩⟩, ⟨"\x7b", ⟨1, 9⟩⟩, ⟨"fn", ⟨1, 11⟩⟩,
      ⟨":", ⟨1, 13⟩⟩, ⟨"T", ⟨1, 15⟩⟩, ⟨";", ⟨1, 16⟩⟩, ⟨"", ⟨1, 17⟩⟩] =
        .error ⟨.expected .methodName ":", ⟨1, 13⟩⟩ := by
    cbv
  obtain ⟨before, token, after, hsplit, hposition, -, -, hmisfit⟩ :=
    exists_token_of_ofTokens_eq_error htokens hfault
  exact ⟨_, _, htokens, hfault, rfl, before, token, after, hsplit, hposition.symm, hmisfit⟩

end SourceFile

end RequestRouter
