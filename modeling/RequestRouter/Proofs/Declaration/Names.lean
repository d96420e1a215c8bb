import RequestRouter.Proofs.Declaration.Parsing

/-!
# Declared names

Every name in a declaration file is a token of its text. So the types, methods and parameters of
a file are named by identifiers, and its package is a path of them
(`RequestRouter.SourceFile.hasNames_of_parse`).

Tokens stand one behind the other (`RequestRouter.pairwise_before_of_tokensAt`), and declarations
are kept in the order in which they are written: the positions of declared names are some of those
of the tokens, in order (`RequestRouter.Derives.File.declares`). So a position tells a declared
name from all others, even from one that is spelled the same
(`RequestRouter.SourceFile.pairwise_declaredPositions`).
-/

namespace RequestRouter

open Derives

/-- What is read from a text is derived from a front of its tokens. -/
theorem SourceFile.exists_derives_of_parse {text : String} {file : SourceFile}
    (h : SourceFile.parse text = .ok file) :
    ∃ ts us, tokens text = .ok ts ∧ us <+: ts ∧ Derives.File us file := by
  obtain ⟨ts, htokens, hfile⟩ := Parsed.bind_eq_ok_iff.1 h
  have hends := endsOnce_tokensAt htokens
  obtain ⟨first, later, rfl⟩ := List.exists_cons_of_ne_nil hends.ne_nil
  rw [ofTokens] at hfile
  cases hread : Grammar.sourceFile (.start first later) with
  | error fault =>
    rw [hread] at hfile
    cases hfile
  | ok read =>
    rw [hread] at hfile
    cases hfile
    obtain ⟨us, hpass, hderives⟩ :=
      (Grammar.reads_sourceFile (.start first later) hends).sound hread
    exact ⟨_, us, htokens, ⟨_, hpass.rest_eq.symm⟩, hderives⟩

/-! ### Names and paths -/

/-- The text is spelled like a name. -/
def IsName (text : String) : Prop := LexemeKind.identifier.spans text.toList = true

instance (text : String) : Decidable (IsName text) :=
  inferInstanceAs (Decidable (LexemeKind.identifier.spans text.toList = true))

theorem IsName.isNamePart_of_mem {text : String} (h : IsName text) {c : Char}
    (hc : c ∈ text.toList) : isNamePart c = true := by
  have htoken : (⟨text, .first⟩ : Token).isIdentifier = true := h
  exact Token.isNamePart_of_mem htoken hc

theorem IsName.ne_empty {text : String} (h : IsName text) : text ≠ "" := by
  rintro rfl
  cases h

/-- A name is free of the characters that no name has. -/
theorem IsName.notMem {text : String} (h : IsName text) {c : Char}
    (hc : isNamePart c = false) : c ∉ text.toList := by
  intro hmem
  rw [h.isNamePart_of_mem hmem] at hc
  cases hc

/-- A name may be prolonged by characters of names. -/
theorem IsName.append {text part : String} (h : IsName text)
    (hpart : ∀ c ∈ part.toList, isNamePart c = true) : IsName (text ++ part) := by
  have htoken : (⟨text, .first⟩ : Token).isIdentifier = true := h
  obtain ⟨c, rest, hlist, hstart, hrest⟩ := Token.exists_of_isIdentifier htoken
  change text.toList = c :: rest at hlist
  have hall : ∀ d ∈ rest ++ part.toList, isNamePart d = true :=
    List.forall_mem_append.2 ⟨hrest, hpart⟩
  refine LexemeKind.spans_iff.2 ?_
  change readIdentifier (text ++ part).toList = _
  rw [String.toList_append, hlist, List.cons_append, readIdentifier, if_pos hstart,
    ← List.append_nil (rest ++ part.toList), List.takeWhile_append_of_pos hall,
    List.dropWhile_append_of_pos hall]
  rfl

/-- The text is made of names with separators between them. Without names it is the root
package. -/
def IsPackage (text : String) : Prop :=
  ∃ names, (∀ name ∈ names, IsName name) ∧ text = joined names

theorem isPackage_empty : IsPackage "" := ⟨[], nofun, rfl⟩

/-- The names of the method and of its parameters are names. -/
structure Method.HasNames (method : Method) : Prop where
  name : IsName method.name
  params : ∀ param ∈ method.params, IsName param.name

/-- The names in the element are names, and its package is made of them. -/
structure Element.HasNames (element : Element) : Prop where
  name : IsName element.name
  package : IsPackage element.package
  methods : ∀ method ∈ element.methods, method.HasNames

namespace Derives

theorem Path.isName {ts : List Token} {names : List String} (h : Path ts names) :
    ∀ name ∈ names, IsName name := by
  induction h with
  | single hname => exact List.forall_mem_singleton.2 hname
  | cons hname _ _ ih => exact List.forall_mem_cons.2 ⟨hname, ih⟩

section

variable {α : Type} {part : List Token → α → Prop} {p : α → Prop}

theorem Row.forall_mem (hpart : ∀ ts a, part ts a → p a) {ts : List Token} {as : List α}
    (h : Row part ts as) : ∀ a ∈ as, p a := by
  induction h with
  | nil => exact nofun
  | cons ha _ ih => exact List.forall_mem_cons.2 ⟨hpart _ _ ha, ih⟩

theorem Commas.forall_mem (hpart : ∀ ts a, part ts a → p a) {ts : List Token} {as : List α}
    (h : Commas part ts as) : ∀ a ∈ as, p a := by
  induction h with
  | single ha => exact List.forall_mem_singleton.2 (hpart _ _ ha)
  | cons ha _ _ ih => exact List.forall_mem_cons.2 ⟨hpart _ _ ha, ih⟩

theorem Closed.forall_mem (hpart : ∀ ts a, part ts a → p a) {ts : List Token} {as : List α}
    (h : Closed part ts as) : ∀ a ∈ as, p a := by
  cases h with
  | empty _ => exact nofun
  | parts hcommas _ => exact hcommas.forall_mem hpart
  | trailing hcommas _ _ => exact hcommas.forall_mem hpart

end

theorem Member.hasNames {ts : List Token} {member : Grammar.Member} (h : Member ts member) :
    ∀ method ∈ member.method?, method.HasNames := by
  cases h with
  | method _ _ hname hparams _ _ =>
    obtain ⟨-, hclosed⟩ := hparams
    rintro _ ⟨⟩
    refine ⟨hname, hclosed.forall_mem ?_⟩
    rintro _ _ ⟨-, hparam, -, -, -⟩
    exact hparam
  | field _ _ _ _ _ _ => exact nofun

theorem Body.hasNames {ts : List Token} {members : List Grammar.Member} (h : Body ts members) :
    ∀ method ∈ members.filterMap Grammar.Member.method?, method.HasNames := by
  intro method hmethod
  obtain ⟨member, hmember, hsome⟩ := List.mem_filterMap.1 hmethod
  cases h with
  | none _ => cases hmember
  | members _ hrow _ =>
    have hall := hrow.forall_mem (p := fun member => ∀ method ∈ member.method?, method.HasNames)
      fun _ _ h => h.hasNames
    exact hall member hmember method hsome

theorem Declared.hasNames {package : String} {imports : List String} {ts : List Token}
    {element : Element} (h : Declared package imports ts element) (hpackage : IsPackage package) :
    element.HasNames := by
  obtain ⟨-, -, hname, hbody⟩ := h
  exact ⟨hname, hpackage, hbody.hasNames⟩

theorem File.hasNames {ts : List Token} {file : SourceFile} (h : File ts file) :
    ∀ element ∈ file.elements, element.HasNames := by
  obtain ⟨hpackage, -, helements⟩ := h
  refine helements.forall_mem fun _ _ helement => helement.hasNames ?_
  cases hpackage with
  | none => exact isPackage_empty
  | some hclause =>
    obtain ⟨-, hpath, -⟩ := hclause
    exact ⟨_, hpath.isName, rfl⟩

end Derives

/-- **Declarations are named by identifiers**. -/
theorem SourceFile.hasNames_of_parse {text : String} {file : SourceFile}
    (h : SourceFile.parse text = .ok file) : ∀ element ∈ file.elements, element.HasNames := by
  obtain ⟨-, _, -, -, hfile⟩ := exists_derives_of_parse h
  exact hfile.hasNames

/-! ### Tokens one behind the other -/

/-- The position stands in front of the other, on its line or on an earlier one. -/
def Position.Before (p q : Position) : Prop :=
  p.line < q.line ∨ p.line = q.line ∧ p.column < q.column

namespace Position

variable {p q r : Position}

theorem Before.trans (h : p.Before q) (h' : q.Before r) : p.Before r := by
  rw [Before] at *
  omega

theorem Before.ne (h : p.Before q) : p ≠ q := by
  rintro rfl
  rw [Before] at h
  omega

theorem before_next (p : Position) (c : Char) : p.Before (p.next c) := by
  rw [next]
  split
  · exact .inl (Nat.lt_succ_self _)
  · exact .inr ⟨rfl, Nat.lt_succ_self _⟩

theorem before_behind (p : Position) {text : List Char} (hne : text ≠ []) :
    p.Before (p.behind text) := by
  induction text generalizing p with
  | nil => exact absurd rfl hne
  | cons c rest ih =>
    have hnext := p.before_next c
    rw [behind, List.foldl_cons]
    cases rest with
    | nil => exact hnext
    | cons d rest => exact hnext.trans (ih _ (List.cons_ne_nil d rest))

end Position

/-- The tokens of a text stand at its start or behind it. -/
theorem eq_or_before_of_tokensAt {position : Position} {s : List Char} {ts : List Token}
    (h : tokensAt position s = .ok ts) :
    ∀ token ∈ ts, token.position = position ∨ position.Before token.position := by
  fun_induction tokensAt position s generalizing ts with
  | case1 position s l hl fault hlater => cases h
  | case2 position s l hl later hlater ih =>
    cases h
    have hbehind := position.before_behind (append_of_lexeme? hl).2
    -- Behind a lexeme, which is not empty, all positions are further on.
    have hall : ∀ token ∈ later, token.position = position ∨ position.Before token.position := by
      intro token hmem
      rcases ih hlater token hmem with heq | hbefore
      · exact .inr (heq ▸ hbehind)
      · exact .inr (hbehind.trans hbefore)
    split
    · exact hall
    · exact List.forall_mem_cons.2 ⟨.inl rfl, hall⟩
  | case3 position s hl hempty =>
    cases h
    exact List.forall_mem_singleton.2 (.inl rfl)
  | case4 position s hl hempty => cases h

/-- **The tokens of a text stand one behind the other**. -/
theorem pairwise_before_of_tokensAt {position : Position} {s : List Char} {ts : List Token}
    (h : tokensAt position s = .ok ts) : (ts.map Token.position).Pairwise Position.Before := by
  fun_induction tokensAt position s generalizing ts with
  | case1 position s l hl fault hlater => cases h
  | case2 position s l hl later hlater ih =>
    cases h
    split
    · exact ih hlater
    · have hbehind := position.before_behind (append_of_lexeme? hl).2
      refine List.pairwise_cons.2 ⟨fun other hother => ?_, ih hlater⟩
      obtain ⟨token, hmem, rfl⟩ := List.mem_map.1 hother
      rcases eq_or_before_of_tokensAt hlater token hmem with heq | hbefore
      · exact heq ▸ hbehind
      · exact hbehind.trans hbefore
  | case3 position s hl hempty =>
    cases h
    exact List.pairwise_singleton _ _
  | case4 position s hl hempty => cases h

/-! ### The positions of names, in order -/

/-- The positions of the name of a method and of those of its parameters. -/
def Method.declaredPositions (method : Method) : List Position :=
  method.position :: method.params.map Param.position

/-- The positions of the name of a type and of those in its methods. -/
def Element.declaredPositions (element : Element) : List Position :=
  element.position :: element.methods.flatMap Method.declaredPositions

/-- The positions of the names of the types of a file, and of those in them. -/
def SourceFile.declaredPositions (file : SourceFile) : List Position :=
  file.elements.flatMap Element.declaredPositions

/-- The positions that a member declares; those of properties are left out. -/
def Grammar.Member.declaredPositions : Grammar.Member → List Position
  | .method m => m.declaredPositions
  | .field _ => []

theorem Grammar.Member.flatMap_declaredPositions (members : List Grammar.Member) :
    members.flatMap declaredPositions =
      (members.filterMap method?).flatMap Method.declaredPositions := by
  induction members with
  | nil => rfl
  | cons member rest ih =>
    cases member with
    | method m =>
      rw [List.flatMap_cons, ih]
      rfl
    | field f => exact ih

namespace Derives

/-- The positions that a part declares are some of those of its tokens, in order. -/
def Declares {α : Type} (part : List Token → α → Prop) (positions : α → List Position) : Prop :=
  ∀ ts a, part ts a → (positions a).Sublist (ts.map Token.position)

section

variable {α : Type} {part : List Token → α → Prop} {positions : α → List Position}

theorem Declares.row (h : Declares part positions) :
    Declares (Row part) (List.flatMap positions) := by
  intro ts as hrow
  induction hrow with
  | nil => exact .slnil
  | cons hpart _ ih =>
    rw [List.flatMap_cons, List.map_append]
    exact (h _ _ hpart).append ih

theorem Declares.commas (h : Declares part positions) :
    Declares (Commas part) (List.flatMap positions) := by
  intro ts as hcommas
  induction hcommas with
  | single hpart =>
    rw [List.flatMap_singleton]
    exact h _ _ hpart
  | cons hpart _ _ ih =>
    rw [List.flatMap_cons, List.map_append, List.map_cons]
    exact (h _ _ hpart).append (ih.cons _)

theorem Declares.closed (h : Declares part positions) :
    Declares (Closed part) (List.flatMap positions) := by
  intro ts as hclosed
  cases hclosed with
  | empty _ => exact List.nil_sublist _
  | parts hcommas _ =>
    rw [List.map_append]
    exact (h.commas _ _ hcommas).trans (List.sublist_append_left _ _)
  | trailing hcommas _ _ =>
    rw [List.map_append]
    exact (h.commas _ _ hcommas).trans (List.sublist_append_left _ _)

theorem Declares.behind (h : Declares part positions) (text : String) :
    Declares (Behind text part) positions := by
  rintro ts a ⟨-, hpart⟩
  exact (h _ _ hpart).cons _

end

theorem Parameter.declares : Declares Parameter fun param => [param.position] := by
  rintro ts param ⟨-, -, -, -, -⟩
  rw [List.map_append, List.map_cons]
  exact ((List.nil_sublist _).cons_cons _).trans (List.sublist_append_right _ _)

theorem Member.declares : Declares Member Grammar.Member.declaredPositions := by
  intro ts member hmember
  cases hmember with
  | method _ _ _ hparams _ _ =>
    have hsublist := Parameter.declares.closed.behind "(" _ _ hparams
    rw [← List.map_eq_flatMap] at hsublist
    rw [List.map_append, List.map_cons, List.map_cons, List.map_append]
    refine .trans ?_ (List.sublist_append_right _ _)
    exact ((hsublist.trans (List.sublist_append_left _ _)).cons_cons _).cons _
  | field _ _ _ _ _ _ => exact List.nil_sublist _

theorem Body.declares : Declares Body (List.flatMap Grammar.Member.declaredPositions) := by
  intro ts members hbody
  cases hbody with
  | none _ => exact List.nil_sublist _
  | members _ hrow _ =>
    rw [List.map_cons, List.map_append]
    exact ((Member.declares.row _ _ hrow).trans (List.sublist_append_left _ _)).cons _

theorem Declared.declares (package : String) (imports : List String) :
    Declares (Declared package imports) Element.declaredPositions := by
  rintro ts element ⟨-, -, -, hbody⟩
  have hsublist := Body.declares _ _ hbody
  rw [Grammar.Member.flatMap_declaredPositions] at hsublist
  rw [List.map_append, List.map_cons, List.map_cons]
  exact ((hsublist.cons_cons _).cons _).trans (List.sublist_append_right _ _)

theorem File.declares : Declares File SourceFile.declaredPositions := by
  rintro ts file ⟨-, -, helements⟩
  rw [List.map_append, List.map_append]
  exact (((Declared.declares _ _).row _ _ helements).trans
    (List.sublist_append_right _ _)).trans (List.sublist_append_right _ _)

end Derives

/-- **A position tells a declared name from all others**: the names in a file stand one behind
the other. -/
theorem SourceFile.pairwise_declaredPositions {text : String} {file : SourceFile}
    (h : SourceFile.parse text = .ok file) :
    file.declaredPositions.Pairwise Position.Before := by
  obtain ⟨ts, us, htokens, hstarts, hfile⟩ := exists_derives_of_parse h
  have hsublist := Derives.File.declares _ _ hfile
  exact (pairwise_before_of_tokensAt htokens).sublist
    (hsublist.trans (hstarts.sublist.map Token.position))

end RequestRouter
