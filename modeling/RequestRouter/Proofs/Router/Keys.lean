import Mathlib.Data.List.Basic
import Mathlib.Data.List.Flatten
import RequestRouter.Proofs.Declaration.Readers
import RequestRouter.Proofs.Router.Declared
import RequestRouter.Proofs.Rust.Lines

/-!
# Keys in generated source

Generated source has the keys of extras in it, and a key may be any text. What is written of it is a
string literal of Rust that stands for the key and ends where it should: of its quotes only the
first and the last are not escaped, and it has no line end. So different keys are told apart, and
the statement that stores an extra is a line of the source whatever its key is
(`RequestRouter.Router.keys_stay_literals`).

A literal is made of what is written for one character after the other. That is either the character
itself, which is then harmless, or a backslash, the character that it escapes, and perhaps some
harmless ones (`RequestRouter.Text.literalChar_cases`); in either case nothing is escaped behind it.
-/

namespace RequestRouter

/-! ### Escaped characters -/

/-- Whether a character behind the given ones is escaped: there is a backslash in front of it that
is not escaped itself. -/
def Rust.escapes (before : List Char) : Bool :=
  before.foldl (fun escaped c => !escaped && c == '\\') false

namespace Text

open Rust

theorem isPlain_of_mem_hexDigits {n : Nat} {d : Char} (hd : d ∈ hexDigits n) :
    isPlain d = true := by
  have hdigit : ∀ m : Fin 16, isPlain (m : Nat).digitChar = true := by decide
  induction n using Nat.strongRecOn with
  | ind n ih =>
    rcases Nat.lt_or_ge n 16 with hn | hn
    · rw [hexDigits, Nat.toDigits_of_lt_base hn] at hd
      exact List.mem_singleton.1 hd ▸ hdigit ⟨n, hn⟩
    · rw [hexDigits, Nat.toDigits_of_base_le (by decide) hn] at hd
      rcases List.mem_append.1 hd with hfront | hlast
      · exact ih (n / 16) (by omega) hfront
      · exact List.mem_singleton.1 hlast ▸ hdigit ⟨n % 16, Nat.mod_lt _ (by decide)⟩

/-- What is written for a character is the character, if it can stand for itself, or it starts with
a backslash, which is over with the next character. -/
theorem literalChar_cases (c : Char) :
    (literalChar '"' c = [c] ∧ isPlain c = true) ∨
      ∃ d tail, literalChar '"' c = '\\' :: d :: tail ∧ d ≠ '\n' ∧
        ∀ e ∈ tail, isPlain e = true := by
  rw [literalChar]
  split
  · exact .inr ⟨'0', [], rfl, by decide, List.forall_mem_nil _⟩
  split
  · exact .inr ⟨'t', [], rfl, by decide, List.forall_mem_nil _⟩
  split
  · exact .inr ⟨'r', [], rfl, by decide, List.forall_mem_nil _⟩
  split
  · exact .inr ⟨'n', [], rfl, by decide, List.forall_mem_nil _⟩
  split
  · exact .inr ⟨'\\', [], rfl, by decide, List.forall_mem_nil _⟩
  split
  · -- The quote, which is no line end, for that was asked about before.
    next hline _ _ => exact .inr ⟨c, [], rfl, hline, List.forall_mem_nil _⟩
  split
  · refine .inr ⟨'u', '\x7b' :: hexDigits c.toNat ++ ['\x7d'], rfl, by decide, fun e he => ?_⟩
    rw [List.cons_append, List.mem_cons, List.mem_append, List.mem_singleton] at he
    rcases he with rfl | hdigit | rfl
    · rfl
    · exact isPlain_of_mem_hexDigits hdigit
    · rfl
  · next hline hslash hquote _ => exact .inl ⟨rfl, isPlain_iff.2 ⟨hquote, hslash, hline⟩⟩

/-- A literal stays on its line. -/
theorem newline_notMem_stringLiteral (s : String) : '\n' ∉ (stringLiteral s).toList := by
  have hchar (c : Char) : '\n' ∉ literalChar '"' c := by
    rcases literalChar_cases c with ⟨hc, hplain⟩ | ⟨d, tail, hc, hd, htail⟩
    · simpa [hc] using (isPlain_iff.1 hplain).2.2.symm
    · have hline : '\n' ∉ tail := fun hmem => (isPlain_iff.1 (htail _ hmem)).2.2 rfl
      simp [hc, hd.symm, hline]
  simp [stringLiteralChars, hchar]

/-- **Different texts have different literals.** -/
theorem stringLiteral_injective : Function.Injective stringLiteral := by
  intro s t h
  have hlex (u : String) : Rust.lex (stringLiteral u) = some [.text u] :=
    (Rust.scans_literal u).before.lex_eq
  have hpieces := hlex t
  rw [← h, hlex s] at hpieces
  simpa using hpieces

end Text

/-! ### Escaped quotes -/

namespace Rust

open Text

theorem escapes_concat (before : List Char) (c : Char) :
    escapes (before ++ [c]) = (!escapes before && c == '\\') := by
  rw [escapes, List.foldl_append]
  rfl

theorem escapes_append_of_isPlain {before part : List Char} (h : escapes before = false)
    (hpart : ∀ c ∈ part, isPlain c = true) : escapes (before ++ part) = false := by
  induction part generalizing before with
  | nil => rwa [List.append_nil]
  | cons c part ih =>
    obtain ⟨hc, hpart⟩ := List.forall_mem_cons.1 hpart
    have hbehind : escapes (before ++ [c]) = false := by
      simp [escapes_concat, (isPlain_iff.1 hc).2.1]
    rw [← List.singleton_append, ← List.append_assoc]
    exact ih hbehind hpart

variable {before front back : List Char}

/-- What is written for a character escapes nothing behind it, and escapes its own quotes. -/
theorem escapes_literalChar (h : escapes before = false) (c : Char) :
    escapes (before ++ literalChar '"' c) = false ∧
      ∀ front back, literalChar '"' c = front ++ '"' :: back →
        escapes (before ++ front) = true := by
  rcases literalChar_cases c with ⟨hc, hplain⟩ | ⟨d, tail, hc, -, htail⟩
  · rw [hc]
    refine ⟨escapes_append_of_isPlain h (List.forall_mem_singleton.2 hplain), ?_⟩
    intro front back hsplit
    have hmem : '"' ∈ [c] := hsplit ▸ List.mem_append_right front List.mem_cons_self
    exact absurd (List.mem_singleton.1 hmem).symm (isPlain_iff.1 hplain).1
  · have hslash : escapes (before ++ ['\\']) = true := by
      rw [escapes_concat, h]
      rfl
    have hescaped : escapes (before ++ ['\\'] ++ [d]) = false := by
      rw [escapes_concat, hslash]
      rfl
    rw [hc]
    constructor
    · have hall := escapes_append_of_isPlain hescaped htail
      rwa [List.append_assoc, List.append_assoc] at hall
    -- a quote is not the backslash, and none of the harmless characters, so it is the one between
    · rintro (_ | ⟨e, _ | ⟨e', front⟩⟩) back hsplit
      · cases (List.cons.inj hsplit).1
      · rwa [← (List.cons.inj hsplit).1]
      · have htail' := (List.cons.inj (List.cons.inj hsplit).2).2
        have hmem : '"' ∈ tail := htail' ▸ List.mem_append_right front List.mem_cons_self
        exact absurd rfl (isPlain_iff.1 (htail _ hmem)).1

theorem escapes_literalChars (h : escapes before = false) (s : List Char) :
    escapes (before ++ s.flatMap (literalChar '"')) = false ∧
      ∀ front back, s.flatMap (literalChar '"') = front ++ '"' :: back →
        escapes (before ++ front) = true := by
  induction s generalizing before with
  | nil =>
    rw [List.flatMap_nil, List.append_nil]
    exact ⟨h, fun front back hsplit =>
      absurd hsplit.symm (List.append_ne_nil_of_right_ne_nil front (List.cons_ne_nil _ _))⟩
  | cons c s ih =>
    obtain ⟨hbehind, hinside⟩ := escapes_literalChar h c
    obtain ⟨hall, hlater⟩ := ih hbehind
    rw [List.flatMap_cons, ← List.append_assoc]
    refine ⟨hall, fun front back hsplit => ?_⟩
    -- the quote is written for a later character, or it is in what this one is written as
    rcases List.append_eq_append_iff.1 hsplit with ⟨part, rfl, hpart⟩ | ⟨part, hpart, hrest⟩
    · rw [← List.append_assoc]
      exact hlater part back hpart
    · rcases part with - | ⟨e, part⟩
      · rw [List.append_nil] at hpart
        rw [← hpart, ← List.append_nil (before ++ _)]
        exact hlater [] back hrest.symm
      · rw [List.cons_append, List.cons.injEq] at hrest
        exact hinside front part (hrest.1 ▸ hpart)

/-- **Of the quotes of a literal only the first and the last are not escaped.** -/
theorem escapes_eq_false_iff {s : String} (h : (stringLiteral s).toList = front ++ '"' :: back) :
    escapes front = false ↔ front = [] ∨ back = [] := by
  have hopening : escapes ['"'] = false := rfl
  obtain ⟨hclosing, hinside⟩ := escapes_literalChars hopening s.toList
  rw [toList_stringLiteral, stringLiteralChars] at h
  rcases front with - | ⟨e, front⟩
  · exact ⟨fun _ => .inl rfl, fun _ => rfl⟩
  · obtain ⟨rfl, hsplit⟩ := List.cons.inj h
    rcases List.eq_nil_or_concat' back with rfl | ⟨back, last, rfl⟩
    · obtain ⟨rfl, -⟩ := List.append_inj' hsplit rfl
      exact ⟨fun _ => .inr rfl, fun _ => hclosing⟩
    · -- The quote is not the last one, so it stands among the characters in between.
      have hmiddle : s.toList.flatMap (literalChar '"') ++ ['"'] =
          front ++ '"' :: back ++ [last] := by
        rw [hsplit, List.append_assoc]
        rfl
      obtain ⟨hchars, -⟩ := List.append_inj' hmiddle rfl
      have hescaped : escapes ('"' :: front) = true := hinside front back hchars
      simp [hescaped]

end Rust

/-! ### Lines of generated source -/

/-- The lines of a text that is put together from lines are those of each of them. -/
theorem splitOn_intercalate_newline {lines : List String} (hne : lines ≠ []) :
    ("\n".intercalate lines).toList.splitOn '\n' =
      lines.flatMap fun line => line.toList.splitOn '\n' := by
  induction lines with
  | nil => exact absurd rfl hne
  | cons line lines ih =>
    cases lines with
    | nil => simp
    | cons other lines =>
      rw [String.intercalate_cons_cons, String.toList_append, String.toList_append,
        List.append_assoc, show "\n".toList = ['\n'] from rfl, List.singleton_append,
        List.splitOn_append_cons_self, ih (List.cons_ne_nil _ _)]
      rfl

theorem newline_notMem_of_mem_splitOn {s line : List Char} (h : line ∈ s.splitOn '\n') :
    '\n' ∉ line := by
  induction s generalizing line with
  | nil =>
    rw [List.splitOn_nil, List.mem_singleton] at h
    exact h ▸ List.not_mem_nil
  | cons c s ih =>
    rw [List.splitOn_cons_eq_if_modifyHead] at h
    split at h
    · rcases List.mem_cons.1 h with rfl | hlater
      · exact List.not_mem_nil
      · exact ih hlater
    · next hc =>
      -- The character goes to the front of the first line, and the others stay.
      obtain ⟨first, later, hlines⟩ := List.exists_cons_of_ne_nil (List.splitOn_ne_nil '\n' s)
      rw [hlines] at h ih
      rcases List.mem_cons.1 h with rfl | hlater
      · rw [List.mem_cons, not_or]
        exact ⟨fun heq => hc (beq_iff_eq.2 heq.symm), ih List.mem_cons_self⟩
      · exact ih (List.mem_cons_of_mem _ hlater)

/-- **Some of the lines that a text is put into are lines of it** exactly if there are no line ends
in them. -/
theorem sublist_splitOn_intercalate_iff {rows lines : List String} (hne : lines ≠ [])
    (h : rows.Sublist lines) :
    (rows.map String.toList).Sublist (("\n".intercalate lines).toList.splitOn '\n') ↔
      ∀ row ∈ rows, '\n' ∉ row.toList := by
  constructor
  · exact fun hsublist row hrow =>
      newline_notMem_of_mem_splitOn (hsublist.subset (List.mem_map_of_mem hrow))
  · intro hline
    have hrows : rows.map String.toList = rows.flatMap fun row => row.toList.splitOn '\n' := by
      rw [List.map_eq_flatMap]
      exact List.flatMap_congr fun row hrow => (List.splitOn_eq_singleton (hline row hrow)).symm
    rw [hrows, splitOn_intercalate_newline hne]
    exact h.flatMap _

/-- The line of the statement that stores an extra in the named request. -/
def Route.storeRow (request : String) (param : RouteParam) (binding : Binding) : String :=
  (if param.type.nullable then "            " else "        ") ++
    storeStatement request param binding

namespace Router

/-- The lines of the statements that store the extras, in order. -/
def storeRows (router : Router) : List String :=
  router.routes.flatMap fun route =>
    route.extras.map fun extra => Route.storeRow route.requestName extra.1 extra.2

/-- The statements that store the extras are lines of the generated source, in order. -/
def StoresOnLines (router : Router) : Prop :=
  (router.storeRows.map String.toList).Sublist (router.emit.source.toList.splitOn '\n')

end Router

theorem Route.singleton_sublist_storeLines (request : String) (param : RouteParam)
    (binding : Binding) : [storeRow request param binding].Sublist
      (storeLines request param binding) := by
  rw [storeRow, storeLines]
  split
  · exact .cons _ (.cons_cons _ (List.nil_sublist _))
  · exact .refl _

theorem Route.sublist_implementation (route : Route) (destination : ClassName) :
    (route.extras.map fun extra => storeRow route.requestName extra.1 extra.2).Sublist
      (route.implementation destination) := by
  have hstores : (route.extras.map fun extra =>
      storeRow route.requestName extra.1 extra.2).Sublist
        (route.extras.flatMap fun extra => storeLines route.requestName extra.1 extra.2) := by
    rw [List.map_eq_flatMap]
    exact .flatMap_right _ fun extra _ => singleton_sublist_storeLines _ extra.1 extra.2
  have hbody : (route.extras.map fun extra =>
      storeRow route.requestName extra.1 extra.2).Sublist (route.body destination) :=
    (hstores.cons _).trans (List.sublist_append_left _ _)
  exact (hbody.trans (List.sublist_append_right _ _)).trans (List.sublist_append_left _ _)

theorem sublist_separated (parts : List (List String)) :
    parts.flatten.Sublist (separated parts) := by
  fun_induction separated parts with
  | case1 => exact .refl _
  | case2 part =>
    rw [List.flatten_singleton]
  | case3 part rest hne ih =>
    rw [List.flatten_cons]
    exact (List.sublist_append_left _ _).append ih

theorem Router.sublist_storeRows_lines (router : Router) :
    router.storeRows.Sublist router.lines := by
  have hmethods : router.storeRows.Sublist
      (separated (router.routes.map fun route => route.implementation router.destination)) := by
    refine .trans ?_ (sublist_separated _)
    rw [← List.flatMap_def]
    exact .flatMap_right _ fun route _ => route.sublist_implementation router.destination
  have himpl : router.storeRows.Sublist router.implLines :=
    (hmethods.trans (List.sublist_append_right _ _)).trans (List.sublist_append_left _ _)
  exact (himpl.trans (List.sublist_append_right _ _)).trans (List.sublist_append_left _ _)

theorem newline_mem_emittedName_iff {name : String} :
    '\n' ∈ (emittedName name).toList ↔ '\n' ∈ name.toList := by
  rw [emittedName]
  split <;> simp

theorem newline_notMem_requestName (route : Route) : '\n' ∉ route.requestName.toList := by
  obtain ⟨k, -, hname, -⟩ :=
    exists_freshName_eq "request" (route.params.map RouteParam.emittedName)
  rw [Route.requestName, hname, underscored, String.toList_append, String.toList_ofList]
  simp

/-- A statement that stores an extra has no line end but those of the name of its parameter. -/
theorem newline_mem_storeRow_iff {request : String} (hrequest : '\n' ∉ request.toList)
    (param : RouteParam) (binding : Binding) :
    '\n' ∈ (Route.storeRow request param binding).toList ↔ '\n' ∈ param.name.toList := by
  have hname : '\n' ∈ param.emittedName.toList ↔ _ := newline_mem_emittedName_iff
  have hliteral := Text.newline_notMem_stringLiteral binding.key
  have hoperation : '\n' ∉ binding.kind.storeOperation.toList := by
    cases binding.kind <;> simp [ExtraKind.storeOperation]
  rw [← hname, Route.storeRow, Route.storeStatement]
  split <;> simp [hrequest, hoperation, hliteral, -Text.toList_stringLiteral]

theorem Router.newline_notMem_storeRows_iff {router : Router} :
    (∀ row ∈ router.storeRows, '\n' ∉ row.toList) ↔
      ∀ route ∈ router.routes, ∀ extra ∈ route.extras, '\n' ∉ extra.1.name.toList := by
  have hrow (route : Route) (extra : RouteParam × Binding) :=
    newline_mem_storeRow_iff (newline_notMem_requestName route) extra.1 extra.2
  simp only [storeRows, List.forall_mem_flatMap, List.forall_mem_map, hrow]

theorem Router.lines_ne_nil (router : Router) : router.lines ≠ [] :=
  List.append_ne_nil_of_right_ne_nil _ (List.cons_ne_nil _ _)

/-- **Keys do not matter for the lines**: only line ends in the names of parameters do. -/
theorem Router.storesOnLines_iff {router : Router} :
    router.StoresOnLines ↔
      ∀ route ∈ router.routes, ∀ extra ∈ route.extras, '\n' ∉ extra.1.name.toList := by
  simp only [← newline_notMem_storeRows_iff, StoresOnLines, emit]
  exact sublist_splitOn_intercalate_iff router.lines_ne_nil router.sublist_storeRows_lines

/-- The routers of a declaration file have no such names. -/
theorem Router.storesOnLines_of_parse {text : String} {file : SourceFile} {element : Element}
    {host : Host} {router : Router} (hparse : SourceFile.parse text = .ok file)
    (helement : element ∈ file.elements) (h : element.router host = .ok router) :
    router.StoresOnLines := by
  refine storesOnLines_iff.2 fun route hroute extra hextra => ?_
  have hnames := SourceFile.hasNames_of_parse hparse element helement
  obtain ⟨-, hroutes⟩ := Element.forall₂_isOf_of_router_eq_ok h
  obtain ⟨method, hmethod, hof⟩ := exists_mem_of_forall₂ hroutes hroute
  obtain ⟨param, hparam, role, hrouted⟩ :=
    exists_mem_of_forall₂ hof.params (Route.mem_params_of_mem_extras hextra)
  have hname : extra.1.name = param.name := congrArg RouteParam.name hrouted
  exact hname ▸ ((hnames.methods method hmethod).params param hparam).notMem rfl

/-- **Keys neither break nor alter generated source.** For every text there is a literal: Rust reads
it as one piece, of which the text is the value; it is on one line; and it is between quotes, of
which only these two are not escaped. So different keys have different literals. And the statements
that store the extras of a router are lines of its source, in order, whatever their keys are; only
line ends in the names of parameters would make a difference, and the routers of declaration files
have none. -/
theorem Router.keys_stay_literals :
    (∀ s : String, Rust.lex (Text.stringLiteral s) = some [.text s] ∧
      '\n' ∉ (Text.stringLiteral s).toList ∧
      (∃ inner, (Text.stringLiteral s).toList = '"' :: (inner ++ ['"'])) ∧
      ∀ front back, (Text.stringLiteral s).toList = front ++ '"' :: back →
        (Rust.escapes front = false ↔ front = [] ∨ back = [])) ∧
    Function.Injective Text.stringLiteral ∧
    (∀ router : Router, router.StoresOnLines ↔
      ∀ route ∈ router.routes, ∀ extra ∈ route.extras, '\n' ∉ extra.1.name.toList) ∧
    ∀ (text : String) (file : SourceFile) (element : Element) (host : Host) (router : Router),
      SourceFile.parse text = .ok file → element ∈ file.elements →
        element.router host = .ok router → router.StoresOnLines := by
  refine ⟨fun s => ⟨?_, Text.newline_notMem_stringLiteral s, ⟨_, Text.toList_stringLiteral s⟩,
    fun front back h => Rust.escapes_eq_false_iff h⟩, Text.stringLiteral_injective,
    fun router => storesOnLines_iff, fun _ _ _ _ _ => storesOnLines_of_parse⟩
  exact (Rust.scans_literal s).before.lex_eq

/-- An interface with a key that would end its literal, its statement and its line. -/
def breakingText : String :=
  "class T;@Intention(T)interface R\x7bfn go(c:Context,@Extra(\"\\\");\\n//\")n:Int)->Request;\x7d"

/-- The interface of the text. -/
def breakingElement : Element where
  name := "R"
  package := ""
  imports := []
  position := ⟨1, 32⟩
  kind := .interfaceType
  marks := [⟨"Intention", ⟨1, 9⟩, [.path "T"]⟩]
  methods :=
    [⟨"go", ⟨1, 37⟩, [],
      [⟨"c", ⟨1, 40⟩, [], .named "Context", none⟩,
        ⟨"n", ⟨1, 68⟩, [⟨"Extra", ⟨1, 50⟩, [.text "\");\n//"]⟩], .named "Int", none⟩],
      some (.named "Request")⟩]
  fields := []

/-- The file of the text. -/
def breakingFile : SourceFile :=
  ⟨none, [], [⟨"T", "", [], ⟨1, 7⟩, .classType, [], [], []⟩, breakingElement]⟩

/-- The router of the text. -/
def breakingRouter : Router :=
  ⟨"R", "", [], ⟨"", "T"⟩, [⟨"go", "c",
    [⟨"c", .named "Context", .context⟩, ⟨"n", .named "i32", .extra ⟨.scalar, "\");\n//"⟩⟩]⟩]⟩

/-- The quote in the key is escaped, and the statement is one line. -/
theorem Router.keys_stay_literals_breaking :
    SourceFile.parse breakingText = .ok breakingFile ∧
      breakingElement.router (SymbolTable.ofFiles [breakingFile] []).host = .ok breakingRouter ∧
      Rust.lex "\"\\\");\\n//\"" = some [.text "\");\n//"] ∧ Rust.escapes ['"', '\\'] = true ∧
      "        request.put_extra(\"\\\");\\n//\", n);".toList ∈
        breakingRouter.emit.source.toList.splitOn '\n' := by
  have hparse : SourceFile.parse breakingText = .ok breakingFile := by
    cbv
  have hrouter : breakingElement.router (SymbolTable.ofFiles [breakingFile] []).host =
      .ok breakingRouter := by
    cbv
  obtain ⟨hliterals, -, -, hdeclared⟩ := keys_stay_literals
  have hliteral : Text.stringLiteral "\");\n//" = "\"\\\");\\n//\"" := by
    decide +kernel
  obtain ⟨hlex, -, -, hquotes⟩ := hliterals "\");\n//"
  rw [hliteral] at hlex hquotes
  have hescaped := (hquotes ['"', '\\'] [')', ';', '\\', 'n', '/', '/', '"'] rfl).not.2 (by simp)
  have hrows : breakingRouter.storeRows =
      ["        request.put_extra(\"\\\");\\n//\", n);"] := by
    decide +kernel
  have hlines := hdeclared _ _ _ _ _ hparse (List.mem_cons_of_mem _ List.mem_cons_self) hrouter
  rw [StoresOnLines, hrows, List.map_singleton, List.singleton_sublist] at hlines
  exact ⟨hparse, hrouter, hlex, by simpa using hescaped, hlines⟩

end RequestRouter
