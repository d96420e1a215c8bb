import RequestRouter.Proofs.Rust.Scanner
import RequestRouter.Text.Segments

/-!
# Statements of Rust

The statements that bodies of generated methods are made of, read from their pieces: the one that
creates a request, calls that store an extra, guards that run such a call only where a value is
present, and the name of the result at the end.

Names are read strictly: a word that Rust keeps to itself is no name
(`RequestRouter.Rust.isLegal`), so a body that uses one is not read at all. Each form also knows
the pieces that it is written as, and `RequestRouter.Rust.readBlock_pieces` says that a block is
read back from its pieces.
-/

namespace RequestRouter

namespace Rust

/-! ### Names -/

/-- The words that Rust keeps to itself, those in use first, then those that it reserves. -/
def keywords : List String :=
  [ "as", "async", "await", "break", "const", "continue", "crate", "dyn", "else", "enum",
    "extern", "false", "fn", "for", "if", "impl", "in", "let", "loop", "match", "mod", "move",
    "mut", "pub", "ref", "return", "self", "Self", "static", "struct", "super", "trait", "true",
    "type", "unsafe", "use", "where", "while",
    "abstract", "become", "box", "do", "final", "macro", "override", "priv", "try", "typeof",
    "unsized", "virtual", "yield" ]

/-- Whether a variable may have the name. The underscore alone names nothing. -/
def isLegal (name : String) : Bool :=
  isIdentifier name && name != "_" && !keywords.contains name

variable {name : String}

theorem isLegal_iff (h : isIdentifier name = true) :
    isLegal name = true ↔ name ∉ keywords ∧ name ≠ "_" := by
  simp [isLegal, h, and_comm]

theorem isIdentifier_of_isLegal (h : isLegal name = true) : isIdentifier name = true := by
  simp only [isLegal, Bool.and_eq_true] at h
  exact h.1.1

theorem notMem_keywords_of_isLegal (h : isLegal name = true) : name ∉ keywords := by
  simp only [isLegal, Bool.and_eq_true, Bool.not_eq_true', List.contains_eq_mem,
    decide_eq_false_iff_not] at h
  exact h.2

/-- A name is not a word that Rust keeps to itself. -/
theorem ne_of_isLegal (h : isLegal name = true) {word : String} (hword : word ∈ keywords) :
    name ≠ word := by
  rintro rfl
  exact notMem_keywords_of_isLegal h hword

/-! ### Forms -/

/-- A call `receiver.operation(key, argument);`, with a literal for the key. -/
structure Call where
  /-- The variable that the call is made on. -/
  receiver : String
  /-- The operation. -/
  operation : String
  /-- The key. -/
  key : String
  /-- The variable that is passed. -/
  argument : String
deriving DecidableEq

/-- A statement. -/
inductive Statement where
  /-- Binds `name` to a new request from the context variable to the destination. -/
  | create (mutable : Bool) (name context : String) (destination : ClassName)
  /-- A call. -/
  | plain (call : Call)
  /-- Binds `bound` to the value in the variable `scrutinee` for a call, if there is one. -/
  | guarded (bound scrutinee : String) (call : Call)
deriving DecidableEq

/-- A body: statements, and the variable that is its result. -/
structure Block where
  /-- The statements. -/
  statements : List Statement
  /-- The variable. -/
  result : String
deriving DecidableEq

/-! ### Pieces of the forms -/

/-- The pieces of the call. -/
def Call.pieces (call : Call) : List Piece :=
  [.word call.receiver, .symbol '.', .word call.operation, .symbol '(', .text call.key,
    .symbol ',', .word call.argument, .symbol ')', .symbol ';']

namespace Statement

/-- The pieces of a new request from a context to a destination, with the end of the statement
that binds it. -/
def creation (context : String) (destination : ClassName) : List Piece :=
  [.word "Request", .symbol ':', .symbol ':', .word "new", .symbol '(', .word context, .symbol ',',
    .word "Destination", .symbol ':', .symbol ':', .word "new", .symbol '(',
    .text destination.package, .symbol ',', .text destination.simple, .symbol ')', .symbol ')',
    .symbol ';']

/-- The pieces of the statement. -/
def pieces : Statement → List Piece
  | create mutable name context destination =>
    .word "let" :: (if mutable then [.word "mut"] else [])
      ++ .word name :: .symbol '=' :: creation context destination
  | plain call => call.pieces
  | guarded bound scrutinee call =>
    [.word "if", .word "let", .word "Some", .symbol '(', .word bound, .symbol ')', .symbol '=',
      .word scrutinee, .symbol '\x7b'] ++ call.pieces ++ [.symbol '\x7d']

end Statement

/-- The pieces of the block. -/
def Block.pieces (block : Block) : List Piece :=
  block.statements.flatMap Statement.pieces ++ [.word block.result]

/-! ### Reading -/

/-- Reads a call. -/
def readCall : List Piece → Option (Call × List Piece)
  | .word receiver :: .symbol '.' :: .word operation :: .symbol '(' :: .text key :: .symbol ',' ::
      .word argument :: .symbol ')' :: .symbol ';' :: rest =>
    if isLegal receiver && isLegal operation && isLegal argument then
      some (⟨receiver, operation, key, argument⟩, rest)
    else none
  | _ => none

/-- Reads the statement that binds a new request, behind its first words. -/
def readCreate (mutable : Bool) : List Piece → Option (Statement × List Piece)
  | .word name :: .symbol '=' :: .word "Request" :: .symbol ':' :: .symbol ':' :: .word "new" ::
      .symbol '(' :: .word context :: .symbol ',' :: .word "Destination" :: .symbol ':' ::
      .symbol ':' :: .word "new" :: .symbol '(' :: .text package :: .symbol ',' :: .text simple ::
      .symbol ')' :: .symbol ')' :: .symbol ';' :: rest =>
    if isLegal name && isLegal context then
      some (.create mutable name context ⟨package, simple⟩, rest)
    else none
  | _ => none

/-- Reads a guard, behind its first word. -/
def readGuarded : List Piece → Option (Statement × List Piece)
  | .word "let" :: .word "Some" :: .symbol '(' :: .word bound :: .symbol ')' :: .symbol '=' ::
      .word scrutinee :: .symbol '\x7b' :: rest =>
    match readCall rest with
    | some (call, .symbol '\x7d' :: behind) =>
      if isLegal bound && isLegal scrutinee then some (.guarded bound scrutinee call, behind)
      else none
    | _ => none
  | _ => none

/-- Reads a statement. -/
def readStatement : List Piece → Option (Statement × List Piece)
  | .word "let" :: .word "mut" :: rest => readCreate true rest
  | .word "let" :: rest => readCreate false rest
  | .word "if" :: rest => readGuarded rest
  | pieces => (readCall pieces).map fun (call, rest) => (.plain call, rest)

/-- Reads the name of the result, with nothing behind it. -/
def readResult : List Piece → Option String
  | [.word result] => if isLegal result then some result else none
  | _ => none

/-- Reads a block to its end. -/
def readBlock (pieces : List Piece) : Option Block :=
  match readResult pieces with
  | some result => some ⟨[], result⟩
  | none =>
    match readStatement pieces with
    | some (statement, rest) =>
      if rest.length < pieces.length then
        (readBlock rest).map fun block => ⟨statement :: block.statements, block.result⟩
      else none
    | none => none
termination_by pieces.length

/-! ### Reading back -/

/-- The names in the call may be used. -/
structure Call.IsLegal (call : Call) : Prop where
  receiver : isLegal call.receiver = true
  operation : isLegal call.operation = true
  argument : isLegal call.argument = true

/-- The names in the statement may be used. -/
def Statement.IsLegal : Statement → Prop
  | create _ name context _ => isLegal name = true ∧ isLegal context = true
  | plain call => call.IsLegal
  | guarded bound scrutinee call =>
    isLegal bound = true ∧ isLegal scrutinee = true ∧ call.IsLegal

variable {rest : List Piece}

theorem readCall_pieces {call : Call} (h : call.IsLegal) :
    readCall (call.pieces ++ rest) = some (call, rest) := by
  obtain ⟨hreceiver, hoperation, hargument⟩ := h
  simp [Call.pieces, readCall, hreceiver, hoperation, hargument]

theorem readCreate_creation {mutable : Bool} {context : String} {destination : ClassName}
    (hname : isLegal name = true) (hcontext : isLegal context = true) :
    readCreate mutable
        (.word name :: .symbol '=' :: Statement.creation context destination ++ rest) =
      some (.create mutable name context destination, rest) := by
  simp [Statement.creation, readCreate, hname, hcontext]

theorem readGuarded_pieces {bound scrutinee : String} {call : Call}
    (h : (Statement.guarded bound scrutinee call).IsLegal) :
    readStatement ((Statement.guarded bound scrutinee call).pieces ++ rest) =
      some (.guarded bound scrutinee call, rest) := by
  obtain ⟨hbound, hscrutinee, hcall⟩ := h
  have hread : readCall (call.pieces ++ .symbol '\x7d' :: rest) =
      some (call, .symbol '\x7d' :: rest) := readCall_pieces hcall
  simp [Statement.pieces, readStatement, readGuarded, hread, hbound, hscrutinee]

/-- **A statement is read back from its pieces**, whatever stands behind it. -/
theorem Statement.read_pieces (statement : Statement) (h : statement.IsLegal) :
    readStatement (statement.pieces ++ rest) = some (statement, rest) := by
  cases statement with
  | create mutable name context destination =>
    obtain ⟨hname, hcontext⟩ := h
    have hread : readCreate mutable
        (.word name :: .symbol '=' :: creation context destination ++ rest) =
          some (.create mutable name context destination, rest) :=
      readCreate_creation hname hcontext
    cases mutable with
    | true => simpa [Statement.pieces, readStatement] using hread
    | false =>
      -- Without this, the name would be read as the word that makes a variable change.
      have hmut : name ≠ "mut" := ne_of_isLegal hname (by decide)
      simpa [Statement.pieces, readStatement, hmut] using hread
  | plain call =>
    have hlet : call.receiver ≠ "let" := ne_of_isLegal h.receiver (by decide)
    have hif : call.receiver ≠ "if" := ne_of_isLegal h.receiver (by decide)
    have hread : readCall (call.pieces ++ rest) = some (call, rest) := readCall_pieces h
    rw [Call.pieces, List.cons_append] at hread
    rw [Statement.pieces, Call.pieces, List.cons_append, readStatement, hread]
    · rfl
    · simp [hlet]
    · simp [hlet]
    · simp [hif]
  | guarded bound scrutinee call => exact readGuarded_pieces h

/-! ### Blocks -/

theorem Statement.pieces_ne_nil (statement : Statement) : statement.pieces ≠ [] := by
  cases statement <;> simp [pieces, Call.pieces]

/-- The pieces of a statement are not those of a result. -/
theorem readResult_pieces (statement : Statement) :
    readResult (statement.pieces ++ rest) = none := by
  cases statement with
  | create mutable name context destination =>
    cases mutable <;> simp [Statement.pieces, readResult]
  | plain call => simp [Statement.pieces, Call.pieces, readResult]
  | guarded bound scrutinee call => simp [Statement.pieces, readResult]

/-- **A block is read back from its pieces.** -/
theorem readBlock_pieces {block : Block} (hstatements : ∀ s ∈ block.statements, s.IsLegal)
    (hresult : isLegal block.result = true) : readBlock block.pieces = some block := by
  obtain ⟨statements, result⟩ := block
  induction statements with
  | nil =>
    rw [Block.pieces, List.flatMap_nil, List.nil_append, readBlock, readResult, if_pos hresult]
  | cons statement statements ih =>
    have hread : readStatement (statement.pieces ++ Block.pieces ⟨statements, result⟩) =
        some (statement, Block.pieces ⟨statements, result⟩) :=
      statement.read_pieces (hstatements statement (List.mem_cons_self ..))
    have hblock := ih (fun s hs => hstatements s (List.mem_cons_of_mem _ hs)) hresult
    have hpieces : Block.pieces ⟨statement :: statements, result⟩ =
        statement.pieces ++ Block.pieces ⟨statements, result⟩ := by
      rw [Block.pieces, List.flatMap_cons, List.append_assoc]
      rfl
    -- The reader goes on only if the statement has used up something.
    have hlt : (Block.pieces ⟨statements, result⟩).length <
        (statement.pieces ++ Block.pieces ⟨statements, result⟩).length := by
      have := List.length_pos_iff.2 statement.pieces_ne_nil
      rw [List.length_append]
      omega
    rw [hpieces, readBlock, readResult_pieces, hread]
    simp only [if_pos hlt, hblock, Option.map_some]

end Rust

end RequestRouter
