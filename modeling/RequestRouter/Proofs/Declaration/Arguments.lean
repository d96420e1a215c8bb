import Mathlib.Data.List.Forall2
import RequestRouter.Proofs.Declaration.Concatenation
import RequestRouter.Proofs.Declaration.Literals
import RequestRouter.Proofs.Text.Segments

/-!
# Arguments of marks, written and read

A mark keeps the arguments that are written between its parentheses: if strings are written as
literals, integers in decimal and paths as they are, with a comma and a space between them, then
just these are read. An integer of more than 64 bits cannot be kept; the first one among the
arguments is the fault of the text. Main statement: `RequestRouter.SourceFile.parse_listing`.

The tokens of such a text are found piece by piece (`RequestRouter.Cuts`): what a piece is cut into
depends on what is in front of it only by its positions, and on what is behind it only by one
character. If several pieces are spelled in this way, then so is the list of them with commas
between (`RequestRouter.IsSpelled.commas`).
-/

namespace RequestRouter

open Cursor Derives

/-! ### Pieces of a text and their tokens -/

/-- Between `before` and `behind`, the text is cut into the tokens. -/
def Cuts (before text : List Char) (ts : List Token) (behind : List Char) : Prop :=
  tokensAt (Position.after before) (text ++ behind) =
    (tokensAt (Position.after (before ++ text)) behind).map (ts ++ ·)

namespace Cuts

variable {before text other behind : List Char} {ts us : List Token}

theorem nil : Cuts before [] [] behind := by
  rw [Cuts, List.append_nil, List.nil_append]
  cases tokensAt (Position.after before) behind <;> rfl

theorem append (h : Cuts before text ts (other ++ behind))
    (h' : Cuts (before ++ text) other us behind) :
    Cuts before (text ++ other) (ts ++ us) behind := by
  rw [Cuts, List.append_assoc, h, h', ← List.append_assoc]
  cases tokensAt (Position.after (before ++ text ++ other)) behind <;> simp [Except.map]

/-- A lexeme that is none that only parts tokens. -/
theorem token {kind : LexemeKind} {text : String}
    (h : lexeme? (text.toList ++ behind) = some ⟨kind, text.toList, behind⟩)
    (hkind : kind.isGap = false) :
    Cuts before text.toList [⟨text, Position.after before⟩] behind := by
  rw [Cuts, tokensAt_of_lexeme? h, Position.behind_after]
  simp [hkind]

theorem symbol {text : String} {c : Char} (htext : text.toList = [c]) (hc : c ∈ symbols)
    (hne : c ≠ ':') : Cuts before text.toList [⟨text, Position.after before⟩] behind := by
  have hsymbol := lexeme?_symbol hc hne behind
  rw [← List.singleton_append, ← htext] at hsymbol
  exact token hsymbol rfl

/-- A colon that is not half a separator. -/
theorem colon (hbehind : ∀ c ∈ behind.head?, c ≠ ':') :
    Cuts before ":".toList [⟨":", Position.after before⟩] behind :=
  token (lexeme?_colon hbehind) rfl

theorem name {text : String} (h : IsName text)
    (hbehind : ∀ c ∈ behind.head?, isNamePart c = false) :
    Cuts before text.toList [⟨text, Position.after before⟩] behind :=
  token (h.lexeme? hbehind) rfl

theorem blank {c : Char} (hc : Text.isBlank c = true) : Cuts before [c] [] behind := by
  rw [Cuts, tokensAt_append_of_isBlank (List.forall_mem_singleton.2 hc), Position.behind_after]
  cases tokensAt (Position.after (before ++ [c])) behind <;> rfl

end Cuts

/-- The part is spelled by the text: wherever this stands, in front of a character that stops it, it
is cut into tokens of the part. -/
def IsSpelled {α : Type} (Part : List Token → α → Prop) (Stop : Char → Prop) (text : String)
    (a : α) : Prop :=
  ∀ before behind : List Char, (∀ c ∈ behind.head?, Stop c) →
    ∃ ts, Cuts before text.toList ts behind ∧ Part ts a

theorem cuts_comma_space (before behind : List Char) :
    Cuts before [',', ' '] [⟨",", Position.after before⟩] behind := by
  have hcomma : Cuts before ",".toList [⟨",", Position.after before⟩] ([' '] ++ behind) :=
    .symbol rfl (by decide) (by decide)
  exact hcomma.append (.blank rfl)

/-- **Texts with commas between them** spell the list of what each of them spells. -/
theorem IsSpelled.commas {α : Type} {Part : List Token → α → Prop} {Stop : Char → Prop}
    {texts : List String} {as : List α} (h : List.Forall₂ (IsSpelled Part Stop) texts as)
    (hne : as ≠ []) (hstop : Stop ',') :
    IsSpelled (Commas Part) Stop (", ".intercalate texts) as := by
  intro before behind hbehind
  induction h generalizing before with
  | nil => exact absurd rfl hne
  | @cons text a texts as hfirst hrest ih =>
    cases hrest with
    | nil =>
      obtain ⟨ts, hcuts, hts⟩ := hfirst before behind hbehind
      rw [String.intercalate_singleton]
      exact ⟨ts, hcuts, .single hts⟩
    | @cons other b texts as hother hrest =>
      obtain ⟨us, hcuts', hus⟩ := ih (List.cons_ne_nil _ _) (before ++ (text.toList ++ [',', ' ']))
      obtain ⟨ts, hcuts, hts⟩ := hfirst before
        (',' :: ' ' :: ((", ".intercalate (other :: texts)).toList ++ behind))
        (by rintro _ ⟨⟩; exact hstop)
      -- The first text goes on with a comma, where what it spells may stop.
      have hlist : (", ".intercalate (text :: other :: texts)).toList =
          text.toList ++ [',', ' '] ++ (", ".intercalate (other :: texts)).toList := by
        rw [String.intercalate_cons_cons, String.toList_append, String.toList_append]
        rfl
      rw [hlist]
      refine ⟨_, Cuts.append (hcuts.append (cuts_comma_space _ _)) hcuts', ?_⟩
      rw [List.append_assoc]
      exact .cons hts rfl hus

/-! ### Written arguments -/

/-- The text of an argument: a string as a literal, an integer in decimal, a path as it is. -/
def MarkArg.written : MarkArg → String
  | .text value => literalOf value
  | .int value => toString value
  | .path value => value

/-- The argument can be written: integers have 64 bits, and paths are made of names. -/
def MarkArg.Writable : MarkArg → Prop
  | .text _ => True
  | .int value => IsWord value
  | .path value => ∃ names, names ≠ [] ∧ (∀ name ∈ names, IsName name) ∧ value = joined names

theorem newline_notMem_joined {names : List String} (hnames : ∀ name ∈ names, IsName name) :
    '\n' ∉ (joined names).toList := by
  induction names with
  | nil => decide
  | cons name names ih =>
    obtain ⟨hname, hnames⟩ := List.forall_mem_cons.1 hnames
    have hnewline : '\n' ∉ name.toList := hname.notMem rfl
    cases names with
    | nil => rwa [joined, String.intercalate_singleton]
    | cons other names =>
      rw [toList_joined_cons _ (List.cons_ne_nil _ _)]
      simpa [hnewline] using ih hnames

/-- Names spell a path with separators between them. -/
theorem isSpelled_joined {names : List String} (hne : names ≠ [])
    (hnames : ∀ name ∈ names, IsName name) :
    IsSpelled Derives.Path (isNamePart · = false) (joined names) names := by
  intro before behind hbehind
  induction names generalizing before with
  | nil => exact absurd rfl hne
  | cons name names ih =>
    obtain ⟨hname, hnames⟩ := List.forall_mem_cons.1 hnames
    cases names with
    | nil =>
      rw [joined_singleton]
      exact ⟨_, .name hname hbehind, .single hname⟩
    | cons other names =>
      have hseparator (front : List Char) :
          Cuts front "::".toList [⟨"::", Position.after front⟩]
            ((joined (other :: names)).toList ++ behind) :=
        .token (lexeme?_separator _) rfl
      obtain ⟨ts, hcuts, hpath⟩ :=
        ih (List.cons_ne_nil _ _) hnames (before ++ name.toList ++ "::".toList)
      rw [toList_joined_cons _ (List.cons_ne_nil _ _)]
      refine ⟨_, Cuts.append (.name hname ?_) ((hseparator _).append hcuts),
        .cons hname rfl hpath⟩
      rintro _ ⟨⟩
      rfl

/-- **An argument in a list** is cut into tokens that spell it. -/
theorem MarkArg.Writable.isSpelled {arg : MarkArg} (h : arg.Writable) :
    IsSpelled MarkArgument (fun c => c = ',' ∨ c = ')') arg.written arg := by
  intro before behind hbehind
  cases arg with
  | text value =>
    have hargument := MarkArgument.text (isString_literalOf value (Position.after before))
    rw [stringValue_literalOf] at hargument
    exact ⟨_, .token (lexeme?_literalOf value behind) rfl, hargument⟩
  | int value =>
    have hdecimal := isDecimal_toString value
    exact ⟨_, .token (hdecimal.lexeme? hbehind) rfl, .int (hdecimal.isInteger _) hdecimal h⟩
  | path value =>
    obtain ⟨names, hne, hnames, rfl⟩ := h
    obtain ⟨ts, hcuts, hpath⟩ := isSpelled_joined hne hnames before behind fun c hc => by
      rcases hbehind c hc with rfl | rfl <;> rfl
    exact ⟨ts, hcuts, .path hpath⟩

/-! ### Lists of arguments -/

/-- A part with a comma behind it. -/
def Trailed {α : Type} (Part : List Token → α → Prop) (ts : List Token) (a : α) : Prop :=
  ∃ us comma, ts = us ++ [comma] ∧ Part us a ∧ comma.text = ","

/-- The characters of items with a comma and a space behind each. -/
def trailedChars (items : List String) : List Char :=
  items.flatMap fun item => item.toList ++ [',', ' ']

/-- The characters of items with a comma and a space in front of each. -/
def ledChars (items : List String) : List Char :=
  items.flatMap fun item => ',' :: ' ' :: item.toList

theorem toList_intercalate (front : List String) (item : String) (back : List String) :
    (", ".intercalate (front ++ item :: back)).toList =
      trailedChars front ++ (item.toList ++ ledChars back) := by
  induction front generalizing item back with
  | nil =>
    induction back generalizing item with
    | nil => simp [trailedChars, ledChars]
    | cons other back ih =>
      have hback := ih other
      rw [List.nil_append] at hback
      simp [String.intercalate_cons_cons, hback, trailedChars, ledChars]
  | cons first front ih =>
    obtain ⟨other, rest, hrest⟩ := List.exists_cons_of_ne_nil
      (List.append_ne_nil_of_right_ne_nil front (List.cons_ne_nil item back))
    have hfront := ih item back
    rw [hrest] at hfront
    simp [hrest, String.intercalate_cons_cons, hfront, trailedChars]

theorem isListed_comma (s : List Char) : IsListed (',' :: s) := by
  rintro _ ⟨⟩
  exact .inl rfl

theorem isListed_closing (s : List Char) : IsListed (')' :: s) := by
  rintro _ ⟨⟩
  exact .inr rfl

/-- Arguments in front of others. -/
theorem exists_cuts_trailed {args : List MarkArg} (hargs : ∀ arg ∈ args, arg.Writable)
    (before behind : List Char) :
    ∃ ts, Cuts before (trailedChars (args.map MarkArg.written)) ts behind ∧
      Row (Trailed MarkArgument) ts args := by
  induction args generalizing before with
  | nil => exact ⟨[], .nil, .nil⟩
  | cons arg args ih =>
    obtain ⟨harg, hargs⟩ := List.forall_mem_cons.1 hargs
    obtain ⟨ts, hcuts, hts⟩ := harg.isSpelled before _
      (isListed_comma (' ' :: (trailedChars (args.map MarkArg.written) ++ behind)))
    obtain ⟨us, hcuts', hus⟩ := ih hargs (before ++ (arg.written.toList ++ [',', ' ']))
    exact ⟨_, Cuts.append (hcuts.append (cuts_comma_space _ _)) hcuts',
      .cons ⟨ts, _, rfl, hts, rfl⟩ hus⟩

/-- The item of a list can be cut out: it is a written argument or an integer of any size. -/
def IsItem (item : String) : Prop :=
  (∃ arg : MarkArg, arg.Writable ∧ item = arg.written) ∨ ∃ value, IsDecimal item value

theorem IsItem.exists_cuts {item : String} (h : IsItem item) (before : List Char)
    {behind : List Char} (hbehind : IsListed behind) :
    ∃ ts, Cuts before item.toList ts behind := by
  rcases h with ⟨arg, harg, rfl⟩ | ⟨value, hvalue⟩
  · obtain ⟨ts, hcuts, -⟩ := harg.isSpelled before behind hbehind
    exact ⟨ts, hcuts⟩
  · exact ⟨_, .token (hvalue.lexeme? hbehind) rfl⟩

/-- Items behind others. -/
theorem exists_cuts_led {items : List String} (hitems : ∀ item ∈ items, IsItem item)
    (before : List Char) {behind : List Char} (hbehind : IsListed behind) :
    ∃ ts, Cuts before (ledChars items) ts behind := by
  induction items generalizing before with
  | nil => exact ⟨[], .nil⟩
  | cons item items ih =>
    obtain ⟨hitem, hitems⟩ := List.forall_mem_cons.1 hitems
    obtain ⟨us, hcuts'⟩ := ih hitems (before ++ [',', ' '] ++ item.toList)
    have hlisted : IsListed (ledChars items ++ behind) := by
      cases items with
      | nil => exact hbehind
      | cons other items => exact isListed_comma _
    obtain ⟨ts, hcuts⟩ := hitem.exists_cuts (before ++ [',', ' ']) hlisted
    exact ⟨_, (cuts_comma_space _ _).append (hcuts.append hcuts')⟩

/-- **A list of arguments** is cut into tokens that spell it, with the parenthesis behind them. -/
theorem exists_cuts_intercalate {args : List MarkArg} (hargs : ∀ arg ∈ args, arg.Writable)
    (before s : List Char) :
    ∃ ts, Cuts before (", ".intercalate (args.map MarkArg.written)).toList ts (')' :: s) ∧
      ∀ closing : Token, closing.text = ")" → Closed MarkArgument (ts ++ [closing]) args := by
  by_cases hne : args = []
  · subst hne
    exact ⟨[], .nil, fun closing hclosing => .empty hclosing⟩
  · have hspelled : List.Forall₂ (IsSpelled MarkArgument fun c => c = ',' ∨ c = ')')
        (args.map MarkArg.written) args :=
      List.forall₂_map_left_iff.2 (List.forall₂_same.2 fun arg harg => (hargs arg harg).isSpelled)
    obtain ⟨ts, hcuts, hts⟩ :=
      IsSpelled.commas hspelled hne (.inl rfl) before _ (isListed_closing s)
    exact ⟨ts, hcuts, fun closing hclosing => .parts hts hclosing⟩

/-! ### The first fault in a list -/

/-- A token that is passed is eaten where its text is looked for. -/
theorem Cursor.Passes.eat?_is {c d : Cursor} {token : Token} {text : String}
    (h : Passes c [token] d) (hc : EndsOnce c.rest) (htext : token.text = text)
    (hne : text ≠ "") : c.eat? (Token.is text) = some d := by
  have hcurrent : c.current = token := h.1
  exact (eat?_eq_some_iff (proper_is text hne) hc).2
    ⟨beq_iff_eq.2 (hcurrent ▸ htext), hcurrent ▸ h⟩

/-- A list is refused at the first item that is, behind others. -/
theorem Reads.listed_eq_error {α : Type} {item : Cursor → Parsed (α × Cursor)}
    {Part : List Token → α → Prop} {Stop : α → Token → Prop} (hitem : Reads item Part Stop)
    (hne : ∀ a, ¬Part [] a) (hstart : ∀ token ts a, Part (token :: ts) a → token.text ≠ ")")
    (hcomma : ∀ a (token : Token), token.text = "," → Stop a token) {c d : Cursor}
    (hc : EndsOnce c.rest) {ts : List Token} {as : List α} (h : Row (Trailed Part) ts as)
    (hpass : Passes c ts d) (hd : d.current.text ≠ ")") {fault : ParseFault}
    (hfault : item d = .error fault) : RequestRouter.listed item c = .error fault := by
  induction h generalizing c with
  | nil =>
    obtain rfl : d = c := hpass
    have heat : d.eat? (Token.is ")") = none := eat?_eq_none_iff.2 (beq_eq_false_iff_ne.2 hd)
    rw [RequestRouter.listed, heat, hfault]
  | @cons ts us a as ha _ ih =>
    obtain ⟨vs, comma, rfl, ha, hcommas⟩ := ha
    obtain ⟨first, ws, rfl⟩ : ∃ first ws, vs = first :: ws :=
      List.exists_cons_of_ne_nil fun hnil => hne a (hnil ▸ ha)
    obtain ⟨f, hpass, hrest⟩ := passes_append.1 hpass
    obtain ⟨e, hitems, hmove⟩ := passes_append.1 hpass
    have he := hitems.endsOnce hc
    have hcurrent : e.current = comma := hmove.1
    have hclosing : c.eat? (Token.is ")") = none := by
      refine eat?_eq_none_iff.2 (beq_eq_false_iff_ne.2 ?_)
      rw [hitems.1]
      exact hstart first ws a ha
    have heat : e.eat? (Token.is ",") = some f := hmove.eat?_is he hcommas (by decide)
    have hlt : f.left < c.left :=
      Nat.lt_of_lt_of_le hmove.left_lt (hitems.left_eq ▸ Nat.le_add_left _ _)
    -- The item and its comma are read, and what follows is refused by the hypothesis.
    rw [RequestRouter.listed, hclosing,
      (hitem c hc).complete hitems ha (hcomma a _ (hcurrent ▸ hcommas))]
    simp only [heat, if_pos hlt, ih (hmove.endsOnce he) hrest]

namespace Grammar

/-- A mark is refused if its arguments are. -/
theorem mark_eq_error {c d : Cursor} {sign opening : Token} {ts : List Token} {names : List String}
    (hc : EndsOnce c.rest) (hsign : sign.text = "@") (hpath : Path ts names)
    (hopening : opening.text = "(") (hpass : Passes c (sign :: (ts ++ [opening])) d)
    {fault : ParseFault} (hfault : listed markArg d = .error fault) : mark c = .error fault := by
  rw [← List.singleton_append] at hpass
  obtain ⟨e, hmove, hpass⟩ := passes_append.1 hpass
  obtain ⟨f, hnames, hmove'⟩ := passes_append.1 hpass
  have he := hmove.endsOnce hc
  have hcurrent : f.current = opening := hmove'.1
  have heat : c.eat? (Token.is "@") = some e := hmove.eat?_is hc hsign (by decide)
  have heat' : f.eat? (Token.is "(") = some d :=
    hmove'.eat?_is (hnames.endsOnce he) hopening (by decide)
  have hname := (reads_path e he).complete hnames ⟨names, hpath, rfl⟩
    (.of_text_eq (hcurrent ▸ hopening) (by decide))
  have hargs : markArgs f = .error fault := by
    rw [markArgs, heat']
    exact hfault
  rw [mark, heat]
  simp only [hname]
  change (markArgs f >>= _) = _
  rw [hargs]
  rfl

/-- A file is refused if the mark is that it starts with. -/
theorem sourceFile_eq_error {c : Cursor} (hc : EndsOnce c.rest) (hsign : c.current.text = "@")
    {fault : ParseFault} (hfault : mark c = .error fault) : sourceFile c = .error fault := by
  -- A mark is no clause, so the first element is read where the file starts.
  have hclause {word : String} (hword : word ≠ "@") : clause word c = .ok (none, c) := by
    have heat : c.eat? (Token.is word) = none :=
      eat?_eq_none_iff.2 (beq_eq_false_iff_ne.2 (hsign ▸ hword.symm))
    rw [clause, heat]
  have hend : c.atEnd = false := by
    rw [hc.atEnd_eq, Token.isEnd, hsign]
    rfl
  have helements : many (elementBeforeEnd "" []) c = .error fault := by
    rw [many, elementBeforeEnd, hend, element, marks, many, hfault]
    rfl
  have huses : many (clause "use") c = .ok ([], c) := by
    rw [many, hclause (by decide)]
  rw [sourceFile, hclause (by decide)]
  change (many (clause "use") c >>= _) = _
  rw [huses]
  change (many (elementBeforeEnd "" []) c >>= _) = _
  rw [helements]
  rfl

/-- An integer that does not fit is refused. -/
theorem markArg_eq_error {c : Cursor} (hinteger : c.current.isInteger = true)
    (hvalue : integerValue? c.current.text = none) :
    markArg c = .error ⟨.invalidInteger c.current.text, c.current.position⟩ := by
  simp [markArg, Token.isString_eq_false_of_isInteger hinteger, hinteger, hvalue]

end Grammar

/-! ### Texts with a list of arguments -/

theorem Position.after_of_newline_notMem {s : List Char} (h : '\n' ∉ s) :
    after s = ⟨1, 1 + s.length⟩ := by
  have hline : s.rtakeWhile (· ≠ '\n') = s :=
    List.rtakeWhile_eq_self_iff.2 fun c hc => decide_eq_true (ne_of_mem_of_not_mem hc h)
  rw [after, List.count_eq_zero.2 h, hline]

/-- Arguments are written on one line. -/
theorem MarkArg.Writable.newline_notMem {arg : MarkArg} (h : arg.Writable) :
    '\n' ∉ arg.written.toList := by
  cases arg with
  | text value => exact newline_notMem_literalOf value
  | int value => exact (isDecimal_toString value).newline_notMem
  | path value =>
    obtain ⟨names, -, hnames, rfl⟩ := h
    exact newline_notMem_joined hnames

theorem newline_notMem_trailedChars {args : List MarkArg} (hargs : ∀ arg ∈ args, arg.Writable) :
    '\n' ∉ trailedChars (args.map MarkArg.written) := by
  intro hmem
  obtain ⟨item, hitem, hchars⟩ := List.mem_flatMap.1 hmem
  obtain ⟨arg, harg, rfl⟩ := List.mem_map.1 hitem
  rcases List.mem_append.1 hchars with hwritten | hcomma
  · exact (hargs arg harg).newline_notMem hwritten
  · exact absurd hcomma (by decide)

theorem newline_notMem_intercalate {args : List MarkArg} (hargs : ∀ arg ∈ args, arg.Writable) :
    '\n' ∉ (", ".intercalate (args.map MarkArg.written)).toList := by
  rcases List.eq_nil_or_concat' args with rfl | ⟨front, last, rfl⟩
  · decide
  · obtain ⟨hfront, hlast⟩ := List.forall_mem_append.1 hargs
    rw [List.map_append, List.map_singleton, toList_intercalate, ledChars, List.flatMap_nil,
      List.append_nil, List.mem_append, not_or]
    exact ⟨newline_notMem_trailedChars hfront, (List.forall_mem_singleton.1 hlast).newline_notMem⟩

/-- An interface with a mark that has the given arguments. -/
def listing (items : List String) : String :=
  "@A(" ++ ", ".intercalate items ++ ") interface R \x7b\x7d"

/-- The tokens in front of the arguments. -/
def headTokens : List Token := [⟨"@", ⟨1, 1⟩⟩, ⟨"A", ⟨1, 2⟩⟩, ⟨"(", ⟨1, 3⟩⟩]

/-- The tokens behind the arguments, but the empty one. -/
def tailTokens (position : Position) : List Token :=
  [⟨")", position⟩, ⟨"interface", ⟨position.line, position.column + 2⟩⟩,
    ⟨"R", ⟨position.line, position.column + 12⟩⟩,
    ⟨"\x7b", ⟨position.line, position.column + 14⟩⟩,
    ⟨"\x7d", ⟨position.line, position.column + 15⟩⟩]

theorem tokensAt_tail (position : Position) :
    tokensAt position ") interface R \x7b\x7d".toList =
      .ok (tailTokens position ++ [⟨"", ⟨position.line, position.column + 16⟩⟩]) := by
  rcases position with ⟨line, column⟩
  cbv

theorem cuts_head (behind : List Char) : Cuts [] "@A(".toList headTokens behind := by
  have hsign : Cuts [] "@".toList [⟨"@", ⟨1, 1⟩⟩] ("A".toList ++ "(".toList ++ behind) :=
    .symbol rfl (by decide) (by decide)
  have hname : Cuts ([] ++ "@".toList) "A".toList [⟨"A", ⟨1, 2⟩⟩] ("(".toList ++ behind) :=
    .name (by decide) (by rintro _ ⟨⟩; rfl)
  have hopening : Cuts ([] ++ "@".toList ++ "A".toList) "(".toList [⟨"(", ⟨1, 3⟩⟩] behind :=
    .symbol rfl (by decide) (by decide)
  exact hsign.append (hname.append hopening)

/-- The tokens of a text are those of its list of arguments, between others. -/
theorem tokens_listing {items : List String} {ts : List Token}
    (h : Cuts "@A(".toList (", ".intercalate items).toList ts ") interface R \x7b\x7d".toList) :
    ∃ last, tokens (listing items) = .ok (headTokens ++ ts ++
      (tailTokens (Position.after ("@A(" ++ ", ".intercalate items).toList) ++ [last])) := by
  have hcuts := (cuts_head _).append h
  rw [Cuts, List.nil_append, tokensAt_tail, ← String.toList_append, ← String.toList_append] at hcuts
  exact ⟨_, hcuts⟩

theorem file_listing {ts : List Token} {args : List MarkArg}
    (h : ∀ closing : Token, closing.text = ")" → Closed MarkArgument (ts ++ [closing]) args)
    (position : Position) :
    File (headTokens ++ ts ++ tailTokens position) ⟨none, [],
      [⟨"R", "", [], ⟨position.line, position.column + 12⟩, .interfaceType,
        [⟨"A", ⟨1, 1⟩, args⟩], [], []⟩]⟩ := by
  have hname : Derives.Path [⟨"A", ⟨1, 2⟩⟩] ([] ++ ["A"]) := .single (by decide)
  have hargs : Behind "(" (Closed MarkArgument) (⟨"(", ⟨1, 3⟩⟩ :: (ts ++ [⟨")", position⟩])) args :=
    .intro rfl (h _ rfl)
  have hmark : Marked (⟨"@", ⟨1, 1⟩⟩ :: ([⟨"A", ⟨1, 2⟩⟩] ++ (⟨"(", ⟨1, 3⟩⟩ ::
      (ts ++ [⟨")", position⟩])))) ⟨"A", ⟨1, 1⟩, args⟩ := .called rfl hname hargs
  have hbody : Body [⟨"\x7b", ⟨position.line, position.column + 14⟩⟩,
      ⟨"\x7d", ⟨position.line, position.column + 15⟩⟩] [] := .members rfl .nil rfl
  have hletter : Token.isIdentifier ⟨"R", ⟨position.line, position.column + 12⟩⟩ :=
    (by decide : IsName "R")
  have hword : Token.text ⟨"interface", ⟨position.line, position.column + 2⟩⟩ =
    keyword .interfaceType := rfl
  have hdeclared : Declared "" [] _ _ := .intro (.cons hmark .nil) hword hletter hbody
  have hfile := File.intro .none .nil (.cons hdeclared .nil)
  simpa [headTokens, tailTokens] using hfile

namespace SourceFile

/-- Arguments that can be written are read. -/
theorem parse_listing_ok {args : List MarkArg} (hargs : ∀ arg ∈ args, arg.Writable) :
    parse (listing (args.map MarkArg.written)) = .ok ⟨none, [],
      [⟨"R", "", [], ⟨1, 16 + (", ".intercalate (args.map MarkArg.written)).length⟩, .interfaceType,
        [⟨"A", ⟨1, 1⟩, args⟩], [], []⟩]⟩ := by
  obtain ⟨ts, hcuts, hclosed⟩ :=
    exists_cuts_intercalate hargs "@A(".toList " interface R \x7b\x7d".toList
  obtain ⟨last, htokens⟩ := tokens_listing hcuts
  have hends := endsOnce_tokensAt htokens
  have hline : '\n' ∉ ("@A(" ++ ", ".intercalate (args.map MarkArg.written)).toList := by
    rw [String.toList_append, List.mem_append, not_or]
    exact ⟨by decide, newline_notMem_intercalate hargs⟩
  have hposition := Position.after_of_newline_notMem hline
  rw [String.length_toList, String.length_append, show "@A(".length = 3 from rfl] at hposition
  rw [← List.append_assoc] at htokens hends
  rw [parse, htokens]
  refine (ofTokens_of_file hends (file_listing hclosed _)).trans ?_
  have hcolumn (n : Nat) : 1 + (3 + n) + 12 = 16 + n := by omega
  rw [hposition, ← hcolumn]

/-- An integer that does not fit is the fault, if the arguments in front of it are read. -/
theorem ofTokens_eq_error {ts later : List Token} {token : Token} {args : List MarkArg}
    (hends : EndsOnce (headTokens ++ (ts ++ token :: later)))
    (hts : Row (Trailed MarkArgument) ts args)
    (hinteger : token.isInteger = true) (hvalue : integerValue? token.text = none) :
    ofTokens (headTokens ++ (ts ++ token :: later)) =
      .error ⟨.invalidInteger token.text, token.position⟩ := by
  obtain ⟨c, hrest, hsign, hread⟩ : ∃ c : Cursor, c.rest = headTokens ++ (ts ++ token :: later) ∧
      c.current.text = "@" ∧
      ofTokens (headTokens ++ (ts ++ token :: later)) = (Grammar.sourceFile c).map Prod.fst :=
    ⟨.start _ _, rfl, rfl, rfl⟩
  rw [← hrest] at hends
  obtain ⟨d, hhead, hd⟩ :=
    exists_passes hrest (List.append_ne_nil_of_right_ne_nil ts (List.cons_ne_nil token later))
  obtain ⟨e, hargs, he⟩ := exists_passes hd (List.cons_ne_nil token later)
  have hcurrent : e.current = token := (List.cons.inj he).1
  have hclosing : e.current.text ≠ ")" := by
    intro htext
    rw [hcurrent] at htext
    rw [Token.isInteger, htext] at hinteger
    exact absurd hinteger (by decide)
  have hitem : Grammar.markArg e = .error ⟨.invalidInteger token.text, token.position⟩ :=
    hcurrent ▸ Grammar.markArg_eq_error (hcurrent ▸ hinteger) (hcurrent ▸ hvalue)
  -- The fault is passed on from the argument to the list, the mark and the file.
  have hlist := Grammar.reads_markArg.listed_eq_error not_markArgument_nil
    (fun _ _ _ => text_ne_of_markArgument) (fun _ _ hcomma => .of_text_eq hcomma (by decide))
    (hhead.endsOnce hends) hts hargs hclosing hitem
  have hname : Derives.Path [⟨"A", ⟨1, 2⟩⟩] ["A"] := .single (by decide)
  have hmark := Grammar.mark_eq_error hends rfl hname rfl hhead hlist
  rw [hread, Grammar.sourceFile_eq_error hends hsign hmark]
  rfl

/-- The first integer that does not fit is the fault, behind arguments that can be written. -/
theorem parse_listing_error {args : List MarkArg} (hargs : ∀ arg ∈ args, arg.Writable)
    {literal : String} {value : Int} (hliteral : IsDecimal literal value) (hvalue : ¬IsWord value)
    {back : List String} (hback : ∀ item ∈ back, IsItem item) :
    parse (listing (args.map MarkArg.written ++ literal :: back)) = .error
      ⟨.invalidInteger literal, ⟨1, 4 + (trailedChars (args.map MarkArg.written)).length⟩⟩ := by
  have hlisted : IsListed (ledChars back ++ ") interface R \x7b\x7d".toList) := by
    cases back with
    | nil => exact isListed_closing _
    | cons item back => exact isListed_comma _
  obtain ⟨ts, hfront, hts⟩ := exists_cuts_trailed hargs "@A(".toList
    (literal.toList ++ ledChars back ++ ") interface R \x7b\x7d".toList)
  obtain ⟨us, hback⟩ := exists_cuts_led hback
    ("@A(".toList ++ trailedChars (args.map MarkArg.written) ++ literal.toList)
    (isListed_closing " interface R \x7b\x7d".toList)
  have hcuts := hfront.append ((Cuts.token (hliteral.lexeme? hlisted) rfl).append hback)
  rw [← toList_intercalate] at hcuts
  obtain ⟨last, htokens⟩ := tokens_listing hcuts
  have hends := endsOnce_tokensAt htokens
  simp only [List.append_assoc, List.singleton_append] at htokens hends
  have hvalue' := hliteral.integerValue?
  rw [if_neg hvalue] at hvalue'
  rw [parse, htokens]
  refine (ofTokens_eq_error hends hts (hliteral.isInteger _) hvalue').trans ?_
  have hline : '\n' ∉ "@A(".toList ++ trailedChars (args.map MarkArg.written) := by
    rw [List.mem_append, not_or]
    exact ⟨by decide, newline_notMem_trailedChars hargs⟩
  rw [Position.after_of_newline_notMem hline, List.length_append, ← Nat.add_assoc]
  rfl

/-- **Arguments of marks are read as they are written.** If each of them can be written, then the
text of an interface with a mark that has them is read, and the mark has just these arguments; and
if an integer in ASCII digits that does not fit into 64 bits is written behind them, then the text
is refused, whatever items follow, and the fault stands at the integer and quotes it. -/
theorem parse_listing {args : List MarkArg} (hargs : ∀ arg ∈ args, arg.Writable) :
    parse (listing (args.map MarkArg.written)) = .ok ⟨none, [],
        [⟨"R", "", [], ⟨1, 16 + (", ".intercalate (args.map MarkArg.written)).length⟩,
          .interfaceType, [⟨"A", ⟨1, 1⟩, args⟩], [], []⟩]⟩ ∧
      ∀ (literal : String) (value : Int) (back : List String), IsDecimal literal value →
        ¬IsWord value → (∀ item ∈ back, IsItem item) →
          parse (listing (args.map MarkArg.written ++ literal :: back)) = .error
            ⟨.invalidInteger literal, ⟨1, 4 + (trailedChars (args.map MarkArg.written)).length⟩⟩ :=
  ⟨parse_listing_ok hargs, fun _ _ _ hliteral hvalue hback =>
    parse_listing_error hargs hliteral hvalue hback⟩

/-- A string with all that is escaped and a slash, the least integer, a path; and the least integer
that is too large. -/
theorem parse_listing_extremes :
    parse "@A(\"\\\\\\\"//\\n\", -9223372036854775808, a::b) interface R \x7b\x7d" =
        .ok ⟨none, [], [⟨"R", "", [], ⟨1, 54⟩, .interfaceType, [⟨"A", ⟨1, 1⟩,
          [.text "\\\"//\n", .int (-9223372036854775808), .path "a::b"]⟩], [], []⟩]⟩ ∧
      parse ("@A(\"\\\\\\\"//\\n\", -9223372036854775808, a::b, 9223372036854775808, -01)" ++
          " interface R \x7b\x7d") =
        .error ⟨.invalidInteger "9223372036854775808", ⟨1, 44⟩⟩ := by
  have hargs : ∀ arg ∈ [MarkArg.text "\\\"//\n", .int (-9223372036854775808), .path "a::b"],
      arg.Writable := by
    have hpath : ∀ name ∈ ["a", "b"], IsName name := by decide
    have hword : IsWord (-9223372036854775808) := by decide
    simp only [List.forall_mem_cons]
    exact ⟨trivial, hword, ⟨["a", "b"], nofun, hpath, rfl⟩, nofun⟩
  have hliteral : IsDecimal "9223372036854775808" 9223372036854775808 :=
    isDecimal_toString 9223372036854775808
  have hback : ∀ item ∈ ["-01"], IsItem item := by
    have hdigits : ∀ d ∈ ['0', '1'], d.isDigit = true := by simp
    exact List.forall_mem_singleton.2 (.inr ⟨-1, ['0', '1'], nofun, hdigits, .inr ⟨rfl, rfl⟩⟩)
  obtain ⟨hok, herror⟩ := parse_listing hargs
  have hfault := herror _ _ _ hliteral (by decide) hback
  have hitems : [MarkArg.text "\\\"//\n", .int (-9223372036854775808), .path "a::b"].map
      MarkArg.written = ["\"\\\\\\\"//\\n\"", "-9223372036854775808", "a::b"] := by
    rfl
  rw [hitems] at hok hfault
  exact ⟨hok, hfault⟩

end SourceFile

end RequestRouter
