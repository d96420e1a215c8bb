import RequestRouter.Proofs.Declaration.Reading

/-!
# Reading commutes with moving tokens

The reader of declarations looks at the texts of tokens. Positions it only copies: into the tree,
beside names and marks, and into faults. So if every token is moved to another position, the same
tree is read with its positions moved (`RequestRouter.SourceFile.ofTokens_moved`), and a fault
appears at the moved position. The proof follows the grammar function by function
(`RequestRouter.Moves`); nothing about the shape of the list of tokens is needed.
-/

namespace RequestRouter

section

variable (φ : Position → Position)

/-! ### Moved trees -/

/-- The token at its moved position. -/
def Token.moved (token : Token) : Token := { token with position := φ token.position }

/-- The fault at its moved position. -/
def ParseFault.moved (fault : ParseFault) : ParseFault :=
  { fault with position := φ fault.position }

/-- The mark at its moved position. -/
def Mark.moved (mark : Mark) : Mark := { mark with position := φ mark.position }

/-- The parameter with its positions moved. -/
def Param.moved (param : Param) : Param :=
  { param with position := φ param.position, marks := param.marks.map (Mark.moved φ) }

/-- The method with its positions moved. -/
def Method.moved (method : Method) : Method :=
  { method with
    position := φ method.position
    marks := method.marks.map (Mark.moved φ)
    params := method.params.map (Param.moved φ) }

/-- The property at its moved position. -/
def Field.moved (field : Field) : Field := { field with position := φ field.position }

/-- The declared type with its positions moved. -/
def Element.moved (element : Element) : Element :=
  { element with
    position := φ element.position
    marks := element.marks.map (Mark.moved φ)
    methods := element.methods.map (Method.moved φ)
    fields := element.fields.map (Field.moved φ) }

/-- The file with its positions moved. -/
def SourceFile.moved (file : SourceFile) : SourceFile :=
  { file with elements := file.elements.map (Element.moved φ) }

/-- The member with its positions moved. -/
def Grammar.Member.moved : Grammar.Member → Grammar.Member
  | .method m => .method (m.moved φ)
  | .field f => .field (f.moved φ)

/-! ### Moved cursors and answers -/

/-- The cursor in the list of moved tokens. -/
def Cursor.moved (c : Cursor) : Cursor :=
  ⟨c.current.moved φ, c.later.map (Token.moved φ), c.index, c.left, by
    rw [c.left_eq, List.length_map]⟩

/-- The moved answer: its value, or its fault. -/
def Parsed.moved {α β : Type} (f : α → β) : Parsed α → Parsed β
  | .ok a => .ok (f a)
  | .error fault => .error (fault.moved φ)

/-- The reader reads moved tokens as what it reads of the tokens, moved by `f`. -/
def Moves {α : Type} (f : α → α) (read : Cursor → Parsed (α × Cursor)) : Prop :=
  ∀ c, read (c.moved φ) = (read c).moved φ (Prod.map f (Cursor.moved φ))

variable {φ} {α β : Type}

@[simp] theorem Token.text_moved (token : Token) : (token.moved φ).text = token.text := rfl

@[simp] theorem Parsed.moved_ok (f : α → β) (a : α) :
    Parsed.moved φ f (.ok a) = .ok (f a) := rfl

@[simp] theorem Parsed.moved_error (f : α → β) (fault : ParseFault) :
    Parsed.moved φ f (.error fault) = .error (fault.moved φ) := rfl

/-- One answer behind the other is moved, if both are. -/
theorem Parsed.moved_bind {γ δ : Type} {f : α → γ} {g : β → δ} {x : Parsed α} {k : α → Parsed β}
    {k' : γ → Parsed δ} (h : ∀ a, k' (f a) = (k a).moved φ g) :
    x.moved φ f >>= k' = (x >>= k).moved φ g := by
  cases x with
  | ok a => exact h a
  | error fault => rfl

/-- A choice is moved, if it is made alike and both of its outcomes are moved. -/
theorem Parsed.moved_ite {γ : Type} {f : α → γ} {p q : Prop} [Decidable p] [Decidable q]
    {x y : Parsed α} {x' y' : Parsed γ} (h : p ↔ q) (hx : q → x' = Parsed.moved φ f x)
    (hy : y' = Parsed.moved φ f y) :
    (if p then x' else y') = Parsed.moved φ f (if q then x else y) := by
  by_cases hq : q
  · rw [if_pos hq, if_pos (h.2 hq), hx hq]
  · rw [if_neg hq, if_neg (mt h.1 hq), hy]

namespace Cursor

@[simp] theorem current_moved (c : Cursor) : (c.moved φ).current = c.current.moved φ := rfl

theorem atEnd_moved (c : Cursor) : (c.moved φ).atEnd = c.atEnd := by
  rw [atEnd, atEnd, moved, List.isEmpty_map]
  rfl

theorem advance_moved (c : Cursor) : (c.moved φ).advance = c.advance.moved φ := by
  obtain ⟨current, later, index, left, hleft⟩ := c
  cases later <;> rfl

/-- Tests look at the text of a token only. -/
theorem eat?_moved {test : Token → Bool} (htest : ∀ token, test (token.moved φ) = test token)
    (c : Cursor) : (c.moved φ).eat? test = (c.eat? test).map (moved φ) := by
  rw [eat?, eat?, current_moved, htest, advance_moved]
  split <;> rfl

theorem eat?_is_moved (text : String) (c : Cursor) :
    (c.moved φ).eat? (Token.is text) = (c.eat? (Token.is text)).map (moved φ) :=
  eat?_moved (fun _ => rfl) c

theorem expectSymbol_moved (text : String) (c : Cursor) :
    (c.moved φ).expectSymbol text = Parsed.moved φ (moved φ) (c.expectSymbol text) := by
  rw [expectSymbol, expectSymbol, eat?_is_moved]
  cases c.eat? (Token.is text) <;> rfl

theorem expect_moved {test : Token → Bool} (htest : ∀ token, test (token.moved φ) = test token)
    (what : Expectation) (c : Cursor) : (c.moved φ).expect test what =
      Parsed.moved φ (Prod.map (Token.moved φ) (moved φ)) (c.expect test what) := by
  rw [expect, expect, eat?_moved htest]
  cases c.eat? test <;> rfl

end Cursor

open Cursor

/-! ### Repetition -/

theorem Moves.many {f : α → α} {item : Cursor → Parsed (Option α × Cursor)}
    (hitem : Moves φ (Option.map f) item) : Moves φ (List.map f) (many item) := by
  intro c
  -- by induction on the number of tokens behind the cursor, which moving them keeps
  induction hn : c.left using Nat.strongRecOn generalizing c with
  | ind n ih =>
    subst hn
    rw [RequestRouter.many, hitem, RequestRouter.many]
    rcases item c with fault | ⟨_ | a, d⟩
    · rfl
    · rfl
    · refine Parsed.moved_ite Iff.rfl (fun hlt => ?_) rfl
      rw [ih d.left hlt d rfl]
      cases RequestRouter.many item d <;> rfl

theorem Moves.listed {f : α → α} {item : Cursor → Parsed (α × Cursor)} (hitem : Moves φ f item) :
    Moves φ (List.map f) (listed item) := by
  intro c
  induction hn : c.left using Nat.strongRecOn generalizing c with
  | ind n ih =>
    subst hn
    rw [RequestRouter.listed, eat?_is_moved, hitem, RequestRouter.listed]
    cases c.eat? (Token.is ")") with
    | some d => rfl
    | none =>
      rcases item c with fault | ⟨a, d⟩
      · rfl
      · simp only [Option.map, Parsed.moved_ok, Prod.map, eat?_is_moved, expectSymbol_moved]
        cases d.eat? (Token.is ",") with
        | none => cases d.expectSymbol ")" <;> rfl
        | some e =>
          refine Parsed.moved_ite Iff.rfl (fun hlt => ?_) rfl
          rw [ih e.left hlt e rfl]
          cases RequestRouter.listed item e <;> rfl

theorem Moves.many_id {item : Cursor → Parsed (Option α × Cursor)} (hitem : Moves φ id item) :
    Moves φ id (RequestRouter.many item) := by
  have hitem' : Moves φ (Option.map id) item := by
    rwa [Option.map_id]
  have hmany := hitem'.many
  rwa [List.map_id_fun] at hmany

theorem Moves.listed_id {item : Cursor → Parsed (α × Cursor)} (hitem : Moves φ id item) :
    Moves φ id (RequestRouter.listed item) := by
  have hlisted := hitem.listed
  rwa [List.map_id_fun] at hlisted

namespace Grammar

/-! ### The grammar -/

theorem isIdentifier_moved (token : Token) : (token.moved φ).isIdentifier = token.isIdentifier :=
  rfl

theorem moves_pathSegment : Moves φ id pathSegment := by
  intro c
  rw [pathSegment, pathSegment, eat?_is_moved]
  cases c.eat? (Token.is Text.separator) with
  | none => rfl
  | some d =>
    simp only [Option.map, expect_moved isIdentifier_moved]
    exact Parsed.moved_bind fun name => rfl

theorem moves_path : Moves φ id path := by
  intro c
  rw [path, path, expect_moved isIdentifier_moved]
  refine Parsed.moved_bind fun first => ?_
  simp only [Prod.map, moves_pathSegment.many_id first.2]
  exact Parsed.moved_bind fun rest => rfl

theorem closeType_moved (name : String) (args : List TypeRef) (c : Cursor) :
    closeType name args (c.moved φ) = Prod.map id (moved φ) (closeType name args c) := by
  rw [closeType, closeType, nullability, nullability, eat?_is_moved]
  cases c.eat? (Token.is "?") <;> rfl

/-- Types have no positions. -/
theorem typeRef_moved (c : Cursor) :
    typeRef (c.moved φ) = Parsed.moved φ (Prod.map id (moved φ)) (typeRef c) ∧
      typeArgs (c.moved φ) = Parsed.moved φ (Prod.map id (moved φ)) (typeArgs c) := by
  -- both by induction on the number of tokens behind the cursor, which moving them keeps
  induction hn : c.left using Nat.strongRecOn generalizing c with
  | ind n ih =>
    subst hn
    have htype : typeRef (c.moved φ) = Parsed.moved φ (Prod.map id (moved φ)) (typeRef c) := by
      rw [typeRef, typeRef, moves_path]
      refine Parsed.moved_bind fun name => ?_
      simp only [Prod.map, eat?_is_moved]
      cases name.2.eat? (Token.is "<") with
      | none =>
        simp only [Option.map, closeType_moved]
        rfl
      | some next =>
        refine Parsed.moved_ite Iff.rfl (fun hlt => ?_) rfl
        rw [(ih next.left hlt next rfl).2]
        refine Parsed.moved_bind fun args => ?_
        simp only [Prod.map, expectSymbol_moved]
        refine Parsed.moved_bind fun e => ?_
        simp only [closeType_moved]
        rfl
    refine ⟨htype, ?_⟩
    rw [typeArgs, typeArgs, htype]
    refine Parsed.moved_bind fun arg => ?_
    simp only [Prod.map, eat?_is_moved]
    cases arg.2.eat? (Token.is ",") with
    | none => rfl
    | some next =>
      refine Parsed.moved_ite Iff.rfl (fun hlt => ?_) rfl
      rw [(ih next.left hlt next rfl).2]
      exact Parsed.moved_bind fun rest => rfl

theorem moves_typeRef : Moves φ id typeRef := fun c => (typeRef_moved c).1

theorem moves_markArg : Moves φ id markArg := by
  intro c
  rw [markArg, markArg]
  simp only [current_moved, Token.text_moved, advance_moved, moves_path c]
  refine Parsed.moved_ite Iff.rfl (fun _ => rfl) (Parsed.moved_ite Iff.rfl (fun _ => ?_)
    (Parsed.moved_ite Iff.rfl (fun _ => Parsed.moved_bind fun name => rfl) rfl))
  cases integerValue? c.current.text <;> rfl

theorem moves_markArgs : Moves φ id markArgs := by
  intro c
  rw [markArgs, markArgs, eat?_is_moved]
  cases c.eat? (Token.is "(") with
  | none => rfl
  | some d => exact moves_markArg.listed_id d

theorem moves_mark : Moves φ (Option.map (Mark.moved φ)) mark := by
  intro c
  rw [mark, mark, eat?_is_moved]
  cases c.eat? (Token.is "@") with
  | none => rfl
  | some next =>
    simp only [Option.map, moves_path next]
    refine Parsed.moved_bind fun name => ?_
    simp only [Prod.map, moves_markArgs name.2]
    exact Parsed.moved_bind fun args => rfl

theorem moves_marks : Moves φ (List.map (Mark.moved φ)) marks := moves_mark.many

theorem moves_defaultValue : Moves φ id defaultValue := by
  intro c
  rw [defaultValue, defaultValue]
  simp only [current_moved, Token.text_moved, advance_moved, moves_path c]
  exact Parsed.moved_ite Iff.rfl (fun _ => rfl) (Parsed.moved_ite Iff.rfl (fun _ => rfl) rfl)

theorem moves_defaultPart : Moves φ id defaultPart := by
  intro c
  rw [defaultPart, defaultPart, eat?_is_moved]
  cases c.eat? (Token.is "=") with
  | none => rfl
  | some d =>
    simp only [Option.map, moves_defaultValue d]
    exact Parsed.moved_bind fun value => rfl

theorem moves_param : Moves φ (Param.moved φ) param := by
  intro c
  rw [param, param, moves_marks c]
  refine Parsed.moved_bind fun marks => ?_
  simp only [Prod.map, expect_moved isIdentifier_moved]
  refine Parsed.moved_bind fun name => ?_
  simp only [Prod.map, expectSymbol_moved]
  refine Parsed.moved_bind fun d => ?_
  simp only [moves_typeRef d]
  refine Parsed.moved_bind fun type => ?_
  simp only [Prod.map, moves_defaultPart type.2]
  exact Parsed.moved_bind fun default => rfl

theorem moves_params : Moves φ (List.map (Param.moved φ)) params := by
  intro c
  rw [params, params, expectSymbol_moved]
  exact Parsed.moved_bind fun d => moves_param.listed d

theorem moves_returnType : Moves φ id returnType := by
  intro c
  rw [returnType, returnType, eat?_is_moved]
  cases c.eat? (Token.is "->") with
  | none => rfl
  | some d =>
    simp only [Option.map, moves_typeRef d]
    exact Parsed.moved_bind fun type => rfl

theorem method_moved (marks : List Mark) (c : Cursor) :
    method (marks.map (Mark.moved φ)) (c.moved φ) =
      Parsed.moved φ (Prod.map (Method.moved φ) (moved φ)) (method marks c) := by
  rw [method, method, expect_moved isIdentifier_moved]
  refine Parsed.moved_bind fun name => ?_
  simp only [Prod.map, moves_params name.2]
  refine Parsed.moved_bind fun params => ?_
  simp only [Prod.map, moves_returnType params.2]
  refine Parsed.moved_bind fun type => ?_
  simp only [Prod.map, expectSymbol_moved]
  exact Parsed.moved_bind fun d => rfl

theorem moves_field : Moves φ (Field.moved φ) field := by
  intro c
  rw [field, field, expect_moved isIdentifier_moved]
  refine Parsed.moved_bind fun name => ?_
  simp only [Prod.map, expectSymbol_moved]
  refine Parsed.moved_bind fun d => ?_
  simp only [moves_typeRef d]
  refine Parsed.moved_bind fun type => ?_
  simp only [Prod.map, expectSymbol_moved]
  exact Parsed.moved_bind fun e => rfl

theorem moves_member : Moves φ (Option.map (Member.moved φ)) member := by
  intro c
  rw [member, member, eat?_is_moved]
  cases c.eat? (Token.is "\x7d") with
  | some next => rfl
  | none =>
    refine Parsed.moved_ite (by rw [atEnd_moved]) (fun _ => rfl) ?_
    rw [moves_marks c]
    refine Parsed.moved_bind fun marks => ?_
    simp only [Prod.map, eat?_is_moved]
    cases marks.2.eat? (Token.is "fn") with
    | none =>
      simp only [Option.map, moves_field marks.2]
      exact Parsed.moved_bind fun f => rfl
    | some d =>
      simp only [Option.map, method_moved]
      exact Parsed.moved_bind fun m => rfl

theorem moves_members : Moves φ (List.map (Member.moved φ)) members := by
  intro c
  rw [members, members, eat?_is_moved]
  cases c.eat? (Token.is ";") with
  | some next => rfl
  | none =>
    simp only [Option.map, expectSymbol_moved]
    exact Parsed.moved_bind fun d => moves_member.many d

theorem moves_elementKind : Moves φ id elementKind := by
  intro c
  rw [elementKind, elementKind]
  simp only [current_moved, advance_moved]
  exact Parsed.moved_ite Iff.rfl (fun _ => rfl) (Parsed.moved_ite Iff.rfl (fun _ => rfl)
    (Parsed.moved_ite Iff.rfl (fun _ => rfl) rfl))

theorem filterMap_method?_moved (members : List Member) :
    (members.map (Member.moved φ)).filterMap Member.method? =
      (members.filterMap Member.method?).map (Method.moved φ) := by
  rw [List.filterMap_map, List.map_filterMap]
  refine congrArg (fun f => members.filterMap f) (funext fun member => ?_)
  cases member <;> rfl

theorem filterMap_field?_moved (members : List Member) :
    (members.map (Member.moved φ)).filterMap Member.field? =
      (members.filterMap Member.field?).map (Field.moved φ) := by
  rw [List.filterMap_map, List.map_filterMap]
  refine congrArg (fun f => members.filterMap f) (funext fun member => ?_)
  cases member <;> rfl

theorem moves_element (package : String) (imports : List String) :
    Moves φ (Element.moved φ) (element package imports) := by
  intro c
  rw [element, element, moves_marks c]
  refine Parsed.moved_bind fun marks => ?_
  simp only [Prod.map, moves_elementKind marks.2]
  refine Parsed.moved_bind fun kind => ?_
  simp only [Prod.map, expect_moved isIdentifier_moved]
  refine Parsed.moved_bind fun name => ?_
  simp only [Prod.map, moves_members name.2]
  refine Parsed.moved_bind fun members => ?_
  simp only [Prod.map, filterMap_method?_moved, filterMap_field?_moved]
  rfl

theorem moves_elementBeforeEnd (package : String) (imports : List String) :
    Moves φ (Option.map (Element.moved φ)) (elementBeforeEnd package imports) := by
  intro c
  rw [elementBeforeEnd, elementBeforeEnd]
  refine Parsed.moved_ite (by rw [atEnd_moved]) (fun _ => rfl) ?_
  rw [moves_element package imports c]
  exact Parsed.moved_bind fun element => rfl

theorem moves_clause (word : String) : Moves φ id (clause word) := by
  intro c
  rw [clause, clause, eat?_is_moved]
  cases c.eat? (Token.is word) with
  | none => rfl
  | some d =>
    simp only [Option.map, moves_path d]
    refine Parsed.moved_bind fun name => ?_
    simp only [Prod.map, expectSymbol_moved]
    exact Parsed.moved_bind fun e => rfl

theorem moves_sourceFile : Moves φ (SourceFile.moved φ) sourceFile := by
  intro c
  rw [sourceFile, sourceFile, moves_clause "package" c]
  refine Parsed.moved_bind fun package => ?_
  simp only [Prod.map, (moves_clause "use").many_id package.2]
  refine Parsed.moved_bind fun imports => ?_
  simp only [Prod.map, id, (moves_elementBeforeEnd (package.1.getD "") imports.1).many imports.2]
  exact Parsed.moved_bind fun elements => rfl

end Grammar

end

/-- **Reading commutes with moving tokens**, if there are any. -/
theorem SourceFile.ofTokens_moved (φ : Position → Position) {ts : List Token} (hne : ts ≠ []) :
    ofTokens (ts.map (Token.moved φ)) = Parsed.moved φ (SourceFile.moved φ) (ofTokens ts) := by
  obtain ⟨first, later, rfl⟩ := List.exists_cons_of_ne_nil hne
  have hstart : Cursor.start (first.moved φ) (later.map (Token.moved φ)) =
      (Cursor.start first later).moved φ := by
    simp only [Cursor.start, Cursor.moved, List.length_map]
  rw [List.map_cons, ofTokens, ofTokens, hstart, Grammar.moves_sourceFile]
  cases Grammar.sourceFile (.start first later) <;> rfl

/-- Tokens of the same texts are the same once they are moved to one position. -/
theorem map_moved_eq_of_map_text_eq {ts us : List Token}
    (h : ts.map Token.text = us.map Token.text) (position : Position) :
    ts.map (Token.moved fun _ => position) = us.map (Token.moved fun _ => position) := by
  have hall : ∀ ws : List Token, ws.map (Token.moved fun _ => position) =
      (ws.map Token.text).map fun text => ⟨text, position⟩ := by
    intro ws
    rw [List.map_map]
    rfl
  rw [hall, hall, h]

/-- **What is read depends on the texts of the tokens**, apart from positions. -/
theorem SourceFile.exists_ofTokens_of_map_text_eq {ts us : List Token} (hne : ts ≠ [])
    (h : ts.map Token.text = us.map Token.text) {file : SourceFile} (hfile : ofTokens ts = .ok file)
    (position : Position) : ∃ file', ofTokens us = .ok file' ∧
      file'.moved (fun _ => position) = file.moved fun _ => position := by
  have hne' : us ≠ [] := by
    rintro rfl
    exact hne (List.map_eq_nil_iff.1 h)
  have hread := ofTokens_moved (fun _ => position) hne
  rw [map_moved_eq_of_map_text_eq h position, ofTokens_moved _ hne', hfile] at hread
  cases hother : ofTokens us with
  | error fault =>
    rw [hother] at hread
    cases hread
  | ok file' =>
    rw [hother] at hread
    exact ⟨file', rfl, Except.ok.inj hread⟩

end RequestRouter
