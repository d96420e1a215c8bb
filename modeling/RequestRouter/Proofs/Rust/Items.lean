import RequestRouter.Proofs.Rust.Running

/-!
# Items of Rust

The items of a generated file, read from their pieces: traits with their signatures, types without
fields, implementations with their methods, imports and attributes. Types of parameters and bodies
of methods are kept as pieces. Brackets tell where they end (`RequestRouter.Rust.readTo`), so that
a comma between the arguments of a type, or a brace of a guard, does not end them early.

Methods can be called: `RequestRouter.Rust.Method.call` binds the arguments to the parameters that
the signature names, and runs the body.
-/

namespace RequestRouter

namespace Rust

/-! ### Forms -/

/-- The signature of a method that takes `&self` and returns a request. -/
structure Signature where
  /-- The name. -/
  name : String
  /-- The parameters behind `&self`: their names, and the pieces of their types. -/
  params : List (String × List Piece)
deriving DecidableEq

/-- A method. -/
structure Method where
  /-- The signature. -/
  signature : Signature
  /-- The pieces of the body. -/
  body : List Piece
deriving DecidableEq

/-- An item. -/
inductive Item where
  /-- An attribute, with the pieces between its brackets. -/
  | mark (pieces : List Piece)
  /-- An import. -/
  | use (pieces : List Piece)
  /-- A public trait and the signatures in it. -/
  | trait (name : String) (signatures : List Signature)
  /-- A public type without fields. -/
  | unit (name : String)
  /-- An implementation of a trait for a type. -/
  | impl (name target : String) (methods : List Method)
deriving DecidableEq

/-! ### Pieces of the forms -/

/-- The pieces of a parameter. -/
def paramPieces (param : String × List Piece) : List Piece :=
  .word param.1 :: .symbol ':' :: param.2 ++ [.symbol ',']

/-- The pieces of the signature. -/
def Signature.pieces (signature : Signature) : List Piece :=
  [.word "fn", .word signature.name, .symbol '(', .symbol '&', .word "self", .symbol ',']
    ++ signature.params.flatMap paramPieces
    ++ [.symbol ')', .symbol '-', .symbol '>', .word "Request"]

/-- The pieces of the signature, with a semicolon. -/
def Signature.declared (signature : Signature) : List Piece := signature.pieces ++ [.symbol ';']

/-- The pieces of the method. -/
def Method.pieces (method : Method) : List Piece :=
  method.signature.pieces ++ .symbol '\x7b' :: method.body ++ [.symbol '\x7d']

/-- The pieces of the item. -/
def Item.pieces : Item → List Piece
  | mark pieces => .symbol '#' :: .symbol '[' :: pieces ++ [.symbol ']']
  | use pieces => .word "use" :: pieces ++ [.symbol ';']
  | trait name signatures =>
    .word "pub" :: .word "trait" :: .word name :: .symbol '\x7b'
      :: signatures.flatMap Signature.declared ++ [.symbol '\x7d']
  | unit name => [.word "pub", .word "struct", .word name, .symbol ';']
  | impl name target methods =>
    .word "impl" :: .word name :: .word "for" :: .word target :: .symbol '\x7b'
      :: methods.flatMap Method.pieces ++ [.symbol '\x7d']

/-! ### Reading -/

/-- How the pieces that a bracketed form is made of are told from its end. -/
structure Brackets where
  /-- What opens a bracket inside. -/
  opening : Piece
  /-- What closes one. -/
  closing : Piece
  /-- What ends the form, outside of all brackets. -/
  stop : Piece

namespace Brackets

/-- Types of parameters. -/
def ofType : Brackets := ⟨.symbol '<', .symbol '>', .symbol ','⟩

/-- Bodies. -/
def ofBody : Brackets := ⟨.symbol '\x7b', .symbol '\x7d', .symbol '\x7d'⟩

/-- Imports. -/
def ofUse : Brackets := ⟨.symbol '\x7b', .symbol '\x7d', .symbol ';'⟩

/-- Attributes. -/
def ofMark : Brackets := ⟨.symbol '[', .symbol ']', .symbol ']'⟩

/-- The number of open brackets behind a piece. -/
def depth (brackets : Brackets) (before : Nat) (piece : Piece) : Nat :=
  if piece = brackets.opening then before + 1
  else if piece = brackets.closing then before - 1
  else before

/-- The number of open brackets behind pieces that do not end the form. -/
def depth? (brackets : Brackets) (before : Nat) : List Piece → Option Nat
  | [] => some before
  | piece :: rest =>
    if before = 0 ∧ piece = brackets.stop then none
    else brackets.depth? (brackets.depth before piece) rest

end Brackets

/-- Reads up to the end of a form, and over it. -/
def readTo (brackets : Brackets) (depth : Nat) : List Piece → Option (List Piece × List Piece)
  | [] => none
  | piece :: rest =>
    if depth = 0 ∧ piece = brackets.stop then some ([], rest)
    else
      (readTo brackets (brackets.depth depth piece) rest).map fun (front, behind) =>
        (piece :: front, behind)

/-- Reads one after another what `read` reads, up to the piece `stop`, and over it. -/
def readAll {α : Type} (read : List Piece → Option (α × List Piece)) (stop : Piece)
    (pieces : List Piece) : Option (List α × List Piece) :=
  match pieces with
  | [] => none
  | piece :: rest =>
    if piece = stop then some ([], rest)
    else
      match read (piece :: rest) with
      | some (a, behind) =>
        if behind.length ≤ rest.length then
          (readAll read stop behind).map fun (others, left) => (a :: others, left)
        else none
      | none => none
termination_by pieces.length

/-- Reads a parameter. -/
def readParam : List Piece → Option ((String × List Piece) × List Piece)
  | .word name :: .symbol ':' :: rest =>
    (readTo .ofType 0 rest).map fun (type, behind) => ((name, type), behind)
  | _ => none

/-- Reads a signature. -/
def readSignature : List Piece → Option (Signature × List Piece)
  | .word "fn" :: .word name :: .symbol '(' :: .symbol '&' :: .word "self" :: .symbol ',' ::
      rest =>
    match readAll readParam (.symbol ')') rest with
    | some (params, .symbol '-' :: .symbol '>' :: .word "Request" :: behind) =>
      some (⟨name, params⟩, behind)
    | _ => none
  | _ => none

/-- Reads a signature that ends in a semicolon. -/
def readDeclared (pieces : List Piece) : Option (Signature × List Piece) :=
  match readSignature pieces with
  | some (signature, .symbol ';' :: rest) => some (signature, rest)
  | _ => none

/-- Reads a method. -/
def readMethod (pieces : List Piece) : Option (Method × List Piece) :=
  match readSignature pieces with
  | some (signature, .symbol '\x7b' :: rest) =>
    (readTo .ofBody 0 rest).map fun (body, behind) => (⟨signature, body⟩, behind)
  | _ => none

/-- Reads an item. -/
def readItem : List Piece → Option (Item × List Piece)
  | .symbol '#' :: .symbol '[' :: rest =>
    (readTo .ofMark 0 rest).map fun (pieces, behind) => (.mark pieces, behind)
  | .word "use" :: rest =>
    (readTo .ofUse 0 rest).map fun (pieces, behind) => (.use pieces, behind)
  | .word "pub" :: .word "trait" :: .word name :: .symbol '\x7b' :: rest =>
    (readAll readDeclared (.symbol '\x7d') rest).map fun (signatures, behind) =>
      (.trait name signatures, behind)
  | .word "pub" :: .word "struct" :: .word name :: .symbol ';' :: rest => some (.unit name, rest)
  | .word "impl" :: .word trait :: .word "for" :: .word target :: .symbol '\x7b' :: rest =>
    (readAll readMethod (.symbol '\x7d') rest).map fun (methods, behind) =>
      (.impl trait target methods, behind)
  | _ => none

/-- Reads items to the end. -/
def readItems (pieces : List Piece) : Option (List Item) :=
  if pieces.isEmpty then some []
  else
    match readItem pieces with
    | some (item, rest) =>
      if rest.length < pieces.length then (readItems rest).map (item :: ·) else none
    | none => none
termination_by pieces.length

/-- The items of a source text. -/
def read (source : String) : Option (List Item) := (lex source).bind readItems

/-! ### Calls -/

/-- The request that a call of the method returns. The parameters must have different names that
variables may have, and there must be an argument for each. -/
def Method.call (method : Method) (arguments : List Value) : Option Request :=
  let names := method.signature.params.map Prod.fst
  if names.all isLegal ∧ names.Nodup ∧ names.length = arguments.length then
    (readBlock method.body).bind fun block =>
      block.run (List.zipWith (fun name value => ⟨name, false, some value⟩) names arguments)
  else none

/-! ### Brackets -/

namespace Brackets

variable {brackets : Brackets} {pieces others : List Piece} {d e : Nat}

theorem depth?_append :
    brackets.depth? d (pieces ++ others) =
      (brackets.depth? d pieces).bind (brackets.depth? · others) := by
  induction pieces generalizing d with
  | nil => rfl
  | cons piece pieces ih =>
    rw [List.cons_append, depth?, depth?, ih]
    split <;> rfl

/-- The pieces close all brackets that they open, and do not end the form. -/
def Balanced (brackets : Brackets) (pieces : List Piece) : Prop :=
  ∀ d, brackets.depth? d pieces = some d

/-- The same for pieces that stand between brackets. -/
def BalancedInside (brackets : Brackets) (pieces : List Piece) : Prop :=
  ∀ d, brackets.depth? (d + 1) pieces = some (d + 1)

theorem Balanced.inside (h : brackets.Balanced pieces) : brackets.BalancedInside pieces :=
  fun d => h (d + 1)

theorem balanced_nil : brackets.Balanced [] := fun _ => rfl

theorem Balanced.append (h : brackets.Balanced pieces) (h' : brackets.Balanced others) :
    brackets.Balanced (pieces ++ others) := by
  intro d
  rw [depth?_append, h d, Option.bind_some, h' d]

theorem BalancedInside.append (h : brackets.BalancedInside pieces)
    (h' : brackets.BalancedInside others) : brackets.BalancedInside (pieces ++ others) := by
  intro d
  rw [depth?_append, h d, Option.bind_some, h' d]

theorem Balanced.flatMap {α : Type} {l : List α} {f : α → List Piece}
    (h : ∀ a ∈ l, brackets.Balanced (f a)) : brackets.Balanced (l.flatMap f) := by
  induction l with
  | nil => exact balanced_nil
  | cons a l ih =>
    rw [List.flatMap_cons]
    exact (h a (List.mem_cons_self ..)).append (ih fun b hb => h b (List.mem_cons_of_mem _ hb))

/-- The piece is no bracket and does not end the form. -/
def IsPlain (brackets : Brackets) (piece : Piece) : Prop :=
  piece ≠ brackets.opening ∧ piece ≠ brackets.closing ∧ piece ≠ brackets.stop

theorem balanced_of_isPlain (h : ∀ piece ∈ pieces, brackets.IsPlain piece) :
    brackets.Balanced pieces := by
  intro d
  induction pieces with
  | nil => rfl
  | cons piece pieces ih =>
    obtain ⟨hopening, hclosing, hstop⟩ := h piece (List.mem_cons_self ..)
    rw [depth?, if_neg fun hend => hstop hend.2, depth, if_neg hopening, if_neg hclosing]
    exact ih fun other hmem => h other (List.mem_cons_of_mem _ hmem)

/-- What stands between two brackets is balanced with them. -/
theorem BalancedInside.enclosed (h : brackets.BalancedInside pieces)
    (hopening : brackets.opening ≠ brackets.stop) (hclosing : brackets.closing ≠ brackets.opening) :
    brackets.Balanced (brackets.opening :: pieces ++ [brackets.closing]) := by
  intro d
  have hopen : brackets.depth d brackets.opening = d + 1 := if_pos rfl
  have hclose : brackets.depth (d + 1) brackets.closing = d := by
    rw [depth, if_neg hclosing, if_pos rfl, Nat.add_sub_cancel]
  -- The stop only counts outside of all brackets, and behind `opening` one is open.
  rw [List.cons_append, depth?, if_neg fun hend => hopening hend.2, hopen, depth?_append, h d,
    Option.bind_some, depth?, if_neg fun hend => absurd hend.1 (Nat.succ_ne_zero d), hclose]
  rfl

end Brackets

variable {brackets : Brackets} {pieces rest : List Piece}

theorem readTo_append {d e : Nat} (h : brackets.depth? d pieces = some e) :
    readTo brackets d (pieces ++ rest) =
      (readTo brackets e rest).map fun (front, behind) => (pieces ++ front, behind) := by
  induction pieces generalizing d with
  | nil =>
    cases h
    exact Option.map_id'.symm
  | cons piece pieces ih =>
    rw [Brackets.depth?] at h
    split at h
    · cases h
    · next hstop =>
      rw [List.cons_append, readTo, if_neg hstop, ih h, Option.map_map]
      rfl

/-- **Balanced pieces are read up to the end of their form.** -/
theorem readTo_of_balanced (h : brackets.Balanced pieces) :
    readTo brackets 0 (pieces ++ brackets.stop :: rest) = some (pieces, rest) := by
  rw [readTo_append (h 0), readTo, if_pos ⟨rfl, rfl⟩]
  simp

/-! ### Reading back -/

/-- The reader takes the pieces for `a`, whatever stands behind them. -/
def Takes {α : Type} (read : List Piece → Option (α × List Piece)) (pieces : List Piece) (a : α) :
    Prop :=
  ∀ rest, read (pieces ++ rest) = some (a, rest)

/-- What is read one after another is read back, where nothing of it starts with `stop`. -/
theorem readAll_flatMap {α : Type} {read : List Piece → Option (α × List Piece)} {stop : Piece}
    {form : α → List Piece} {l : List α} (hread : ∀ a ∈ l, Takes read (form a) a)
    (hstop : ∀ a ∈ l, ∃ piece behind, form a = piece :: behind ∧ piece ≠ stop) :
    readAll read stop (l.flatMap form ++ stop :: rest) = some (l, rest) := by
  induction l with
  | nil => rw [List.flatMap_nil, List.nil_append, readAll, if_pos rfl]
  | cons a l ih =>
    obtain ⟨piece, behind, heq, hne⟩ := hstop a (List.mem_cons_self ..)
    have htake := hread a (List.mem_cons_self ..) (l.flatMap form ++ stop :: rest)
    have hrest := ih (fun b hb => hread b (List.mem_cons_of_mem _ hb))
      fun b hb => hstop b (List.mem_cons_of_mem _ hb)
    rw [heq, List.cons_append] at htake
    rw [List.flatMap_cons, List.append_assoc, heq, List.cons_append, readAll, if_neg hne, htake]
    have hle : (l.flatMap form ++ stop :: rest).length ≤
        (behind ++ (l.flatMap form ++ stop :: rest)).length :=
      (List.suffix_append behind _).length_le
    simp only [if_pos hle, hrest, Option.map_some]

/-- The types of the parameters can be told from what follows them. -/
def Signature.IsClear (signature : Signature) : Prop :=
  ∀ param ∈ signature.params, Brackets.ofType.Balanced param.2

/-- The body and the types of the parameters can be told from what follows them. -/
structure Method.IsClear (method : Method) : Prop where
  signature : method.signature.IsClear
  body : Brackets.ofBody.Balanced method.body

/-- The parts of the item can be told from what follows them. -/
def Item.IsClear : Item → Prop
  | mark pieces => Brackets.ofMark.Balanced pieces
  | use pieces => Brackets.ofUse.Balanced pieces
  | trait _ signatures => ∀ signature ∈ signatures, signature.IsClear
  | unit _ => True
  | impl _ _ methods => ∀ method ∈ methods, method.IsClear

theorem takes_param {param : String × List Piece} (h : Brackets.ofType.Balanced param.2) :
    Takes readParam (paramPieces param) param := by
  intro rest
  have hread : readTo .ofType 0 (param.2 ++ .symbol ',' :: rest) = some (param.2, rest) :=
    readTo_of_balanced h
  simp [paramPieces, readParam, hread]

theorem takes_signature {signature : Signature} (h : signature.IsClear) :
    Takes readSignature signature.pieces signature := by
  intro rest
  have hread : readAll readParam (.symbol ')') (signature.params.flatMap paramPieces ++
      .symbol ')' :: .symbol '-' :: .symbol '>' :: .word "Request" :: rest) =
        some (signature.params, .symbol '-' :: .symbol '>' :: .word "Request" :: rest) := by
    refine readAll_flatMap (fun param hparam => takes_param (h param hparam)) fun param _ => ?_
    exact ⟨.word param.1, _, rfl, by simp⟩
  simp [Signature.pieces, readSignature, hread]

theorem takes_declared {signature : Signature} (h : signature.IsClear) :
    Takes readDeclared signature.declared signature := by
  intro rest
  have hread := takes_signature h (.symbol ';' :: rest)
  simp [Signature.declared, readDeclared, hread]

/-- **A method is read back from its pieces.** -/
theorem takes_method {method : Method} (h : method.IsClear) :
    Takes readMethod method.pieces method := by
  intro rest
  have hsignature := takes_signature h.signature
    (.symbol '\x7b' :: (method.body ++ .symbol '\x7d' :: rest))
  have hbody : readTo .ofBody 0 (method.body ++ .symbol '\x7d' :: rest) =
      some (method.body, rest) := readTo_of_balanced h.body
  simp [Method.pieces, readMethod, hsignature, hbody]

/-- **An item is read back from its pieces.** -/
theorem takes_item {item : Item} (h : item.IsClear) : Takes readItem item.pieces item := by
  intro rest
  cases item with
  | mark pieces =>
    have hread : readTo .ofMark 0 (pieces ++ .symbol ']' :: rest) = some (pieces, rest) :=
      readTo_of_balanced h
    simp [Item.pieces, readItem, hread]
  | use pieces =>
    have hread : readTo .ofUse 0 (pieces ++ .symbol ';' :: rest) = some (pieces, rest) :=
      readTo_of_balanced h
    simp [Item.pieces, readItem, hread]
  | trait name signatures =>
    have hread : readAll readDeclared (.symbol '\x7d')
        (signatures.flatMap Signature.declared ++ .symbol '\x7d' :: rest) =
          some (signatures, rest) := by
      refine readAll_flatMap (fun signature hmem => takes_declared (h signature hmem)) ?_
      exact fun signature _ => ⟨.word "fn", _, rfl, by simp⟩
    simp [Item.pieces, readItem, hread]
  | unit name => simp [Item.pieces, readItem]
  | impl name target methods =>
    have hread : readAll readMethod (.symbol '\x7d')
        (methods.flatMap Method.pieces ++ .symbol '\x7d' :: rest) = some (methods, rest) := by
      refine readAll_flatMap (fun method hmem => takes_method (h method hmem)) ?_
      exact fun method _ => ⟨.word "fn", _, rfl, by simp⟩
    simp [Item.pieces, readItem, hread]

theorem Item.pieces_ne_nil (item : Item) : item.pieces ≠ [] := by
  cases item <;> simp [pieces]

/-- **Items are read back from their pieces.** -/
theorem readItems_flatMap {items : List Item} (h : ∀ item ∈ items, item.IsClear) :
    readItems (items.flatMap Item.pieces) = some items := by
  induction items with
  | nil => simp [readItems]
  | cons item items ih =>
    have hread := takes_item (h item (List.mem_cons_self ..)) (items.flatMap Item.pieces)
    have hrest := ih fun other hmem => h other (List.mem_cons_of_mem _ hmem)
    have hlt : (items.flatMap Item.pieces).length <
        (item.pieces ++ items.flatMap Item.pieces).length := by
      have := List.length_pos_iff.2 item.pieces_ne_nil
      rw [List.length_append]
      omega
    have hne : ¬(item.pieces ++ items.flatMap Item.pieces).isEmpty = true := by
      rw [List.isEmpty_iff]
      exact List.ne_nil_of_length_pos (Nat.zero_lt_of_lt hlt)
    rw [List.flatMap_cons, readItems, if_neg hne, hread]
    simp only [if_pos hlt, hrest, Option.map_some]

end Rust

end RequestRouter
