import RequestRouter.Declaration.Lexeme
import RequestRouter.Text.Literal

/-!
# Pieces of Rust source

Generated source is text, and what it means is for Rust to say. This file cuts source into the
pieces that Rust sees – words, texts and symbols – as far as generated source uses the language:
names in ASCII, string literals, line comments, and punctuation. What it does not know it
refuses, so nothing is read that Rust would read otherwise.

`RequestRouter.Rust.step` reads one character, `RequestRouter.Rust.scan` a whole text. A name is
one word (`RequestRouter.Rust.scan_word`). The point of the file is
`RequestRouter.Rust.scan_literal`: the literal that generated source writes for a text is read back
as that text, whatever the text is, and nothing behind it is touched.
-/

namespace RequestRouter

namespace Rust

/-- A piece of source. Each symbol is a single character, so `::` is two of them. -/
inductive Piece where
  /-- A name or a keyword. -/
  | word (name : String)
  /-- A string literal, by its value. -/
  | text (value : String)
  /-- A punctuation character. -/
  | symbol (c : Char)
deriving DecidableEq

/-- The punctuation characters that stand for themselves. -/
def symbols : List Char :=
  ['(', ')', '\x7b', '\x7d', '[', ']', '<', '>', ',', ';', ':', '.', '=', '&', '#', '-', '!', '?']

/-- What the reader is in the middle of. -/
inductive Mode where
  /-- Nothing. -/
  | between
  /-- A word that starts with `front`. -/
  | word (front : List Char)
  /-- A slash was read. -/
  | slash
  /-- A comment. -/
  | comment
  /-- A string literal, of which the value starts with `front`. -/
  | text (front : List Char)
  /-- The same, and a backslash was read. -/
  | escape (front : List Char)
  /-- The same, and the `u` behind it. -/
  | point (front : List Char)
  /-- The same, and the opening brace and `count` digits that make `value`. -/
  | digits (front : List Char) (value count : Nat)
deriving DecidableEq

/-- The most digits of a code point. -/
def maxDigits : Nat := 6

/-- The value of a hexadecimal digit. -/
def hexDigit? (c : Char) : Option Nat :=
  if '0' ≤ c ∧ c ≤ '9' then some (c.toNat - '0'.toNat)
  else if 'a' ≤ c ∧ c ≤ 'f' then some (c.toNat - 'a'.toNat + 10)
  else if 'A' ≤ c ∧ c ≤ 'F' then some (c.toNat - 'A'.toNat + 10)
  else none

/-- The character that a backslash and `c` stand for. -/
def escaped? (c : Char) : Option Char :=
  if c = 'n' then some '\n'
  else if c = 'r' then some '\r'
  else if c = 't' then some '\t'
  else if c = '0' then some '\x00'
  else if c = '\\' ∨ c = '"' ∨ c = '\'' then some c
  else none

/-- Whether a word may end in front of `c`. Words in front of quotes and hashes are part of
other literals. -/
def endsWord (c : Char) : Bool := !isNamePart c && c ≠ '"' && c ≠ '\'' && c ≠ '#'

/-- Reads a character where nothing is begun. -/
def start (c : Char) : Option (List Piece × Mode) :=
  if c = ' ' ∨ c = '\n' then some ([], .between)
  else if isNameStart c then some ([], .word [c])
  else if c = '"' then some ([], .text [])
  else if c = '/' then some ([], .slash)
  else if c ∈ symbols then some ([.symbol c], .between)
  else none

/-- Reads a character: the pieces that it ends, and what is begun then. -/
def step : Mode → Char → Option (List Piece × Mode)
  | .between, c => start c
  | .word front, c =>
    if isNamePart c then some ([], .word (front ++ [c]))
    else if endsWord c then
      (start c).map fun (pieces, mode) => (.word (String.ofList front) :: pieces, mode)
    else none
  | .slash, c => if c = '/' then some ([], .comment) else none
  | .comment, c => some ([], if c = '\n' then .between else .comment)
  | .text front, c =>
    if c = '"' then some ([.text (String.ofList front)], .between)
    else if c = '\\' then some ([], .escape front)
    else if c = '\r' then none
    else some ([], .text (front ++ [c]))
  | .escape front, c =>
    if c = 'u' then some ([], .point front)
    else (escaped? c).map fun d => ([], .text (front ++ [d]))
  | .point front, c => if c = '\x7b' then some ([], .digits front 0 0) else none
  | .digits front value count, c =>
    if c = '\x7d' then
      if 0 < count ∧ value.isValidChar then some ([], .text (front ++ [Char.ofNat value]))
      else none
    else if count < maxDigits then
      (hexDigit? c).map fun digit => ([], .digits front (16 * value + digit) (count + 1))
    else none

/-- The pieces that the end of the text ends. -/
def Mode.atEnd : Mode → Option (List Piece)
  | .between | .comment => some []
  | .word front => some [.word (String.ofList front)]
  | _ => none

/-- The pieces of a text that is read in the given mode. -/
def scan : Mode → List Char → Option (List Piece)
  | mode, [] => mode.atEnd
  | mode, c :: rest =>
    match step mode c with
    | some (pieces, next) => (scan next rest).map (pieces ++ ·)
    | none => none

/-- The pieces of a source text. -/
def lex (source : String) : Option (List Piece) := scan .between source.toList

variable {c : Char} {rest : List Char} {mode next : Mode} {pieces : List Piece}

theorem scan_cons_of_step (h : step mode c = some (pieces, next)) :
    scan mode (c :: rest) = (scan next rest).map (pieces ++ ·) := by
  rw [scan, h]

theorem scan_cons_of_silent (next : Mode) (h : step mode c = some ([], next)) :
    scan mode (c :: rest) = scan next rest := by
  rw [scan_cons_of_step h]
  exact Option.map_id'

theorem scan_cons_of_piece {piece : Piece} (h : step mode c = some ([piece], next)) :
    scan mode (c :: rest) = (scan next rest).map (piece :: ·) :=
  scan_cons_of_step h

/-! ### Comments -/

/-- A comment goes to the end of its line. -/
theorem scan_comment {line : List Char} (h : '\n' ∉ line) :
    scan .between ('/' :: '/' :: (line ++ '\n' :: rest)) = scan .between rest := by
  rw [scan_cons_of_silent .slash rfl, scan_cons_of_silent .comment rfl]
  induction line with
  | nil => exact scan_cons_of_silent _ rfl
  | cons c line ih =>
    have hc : c ≠ '\n' := fun heq => h (heq ▸ List.mem_cons_self ..)
    rw [List.cons_append, scan_cons_of_silent .comment (by rw [step, if_neg hc])]
    exact ih fun hmem => h (List.mem_cons_of_mem _ hmem)

/-! ### Words -/

/-- Whether a word may end in front of `s`. -/
def Stops : List Char → Prop
  | [] => True
  | c :: _ => endsWord c = true

/-- Whether `name` is a name in ASCII. Keywords are names too. -/
def isIdentifier (name : String) : Bool :=
  match name.toList with
  | c :: rest => isNameStart c && rest.all isNamePart
  | [] => false

theorem isIdentifier_iff {name : String} : isIdentifier name = true ↔
    ∃ c rest, name.toList = c :: rest ∧ isNameStart c = true ∧ ∀ d ∈ rest, isNamePart d = true := by
  rw [isIdentifier]
  constructor
  · intro h
    split at h
    · next c rest heq =>
      obtain ⟨hc, hrest⟩ := Bool.and_eq_true_iff.1 h
      exact ⟨c, rest, heq, hc, List.all_eq_true.1 hrest⟩
    · cases h
  · rintro ⟨c, rest, heq, hc, hrest⟩
    rw [heq]
    exact Bool.and_eq_true_iff.2 ⟨hc, List.all_eq_true.2 hrest⟩

/-- A word that ends is read where it ends. -/
theorem scan_word_of_stops {front : List Char} (h : Stops rest) :
    scan (.word front) rest =
      (scan .between rest).map (.word (String.ofList front) :: ·) := by
  cases rest with
  | nil => rfl
  | cons c rest =>
    have hc : endsWord c = true := h
    have hpart : isNamePart c = false := by
      simp only [endsWord, Bool.and_eq_true, Bool.not_eq_true'] at hc
      exact hc.1.1.1
    rw [scan, scan]
    simp only [step, hpart, Bool.false_eq_true, if_false, if_pos hc]
    cases start c with
    | none => rfl
    | some read => simp [Function.comp_def]

theorem scan_word_append {front part : List Char} (h : ∀ d ∈ part, isNamePart d = true) :
    scan (.word front) (part ++ rest) = scan (.word (front ++ part)) rest := by
  induction part generalizing front with
  | nil => simp
  | cons d part ih =>
    rw [List.cons_append,
      scan_cons_of_silent (.word (front ++ [d])) (by
        rw [step, if_pos (h d (List.mem_cons_self ..))]),
      ih fun e he => h e (List.mem_cons_of_mem _ he), List.append_assoc]
    rfl

/-- **A name is one word.** -/
theorem scan_word {name : String} (h : isIdentifier name = true) (hrest : Stops rest) :
    scan .between (name.toList ++ rest) = (scan .between rest).map (.word name :: ·) := by
  obtain ⟨c, part, heq, hc, hpart⟩ := isIdentifier_iff.1 h
  have hstart : step .between c = some ([], .word [c]) := by
    have hblank : ¬(c = ' ' ∨ c = '\n') := by
      rintro (rfl | rfl)
      · cases hc
      · cases hc
    rw [step, start, if_neg hblank, if_pos hc]
  rw [heq, List.cons_append, scan_cons_of_silent _ hstart, scan_word_append hpart,
    scan_word_of_stops hrest]
  change _ = (scan .between rest).map (Piece.word name :: ·)
  rw [← String.ofList_toList (s := name), heq]
  rfl

/-! ### String literals -/

variable {front : List Char}

theorem hexDigit?_digitChar {n : Nat} (h : n < 16) : hexDigit? n.digitChar = some n := by
  have hall : ∀ m : Fin 16, hexDigit? (m : Nat).digitChar = some (m : Nat) := by decide
  exact hall ⟨n, h⟩

theorem digitChar_ne_brace {n : Nat} (h : n < 16) : n.digitChar ≠ '\x7d' := by
  have hall : ∀ m : Fin 16, (m : Nat).digitChar ≠ '\x7d' := by decide
  exact hall ⟨n, h⟩

/-- Reading one more digit. -/
theorem scan_digit {value count n : Nat} (hn : n < 16) (hcount : count < maxDigits) :
    scan (.digits front value count) (n.digitChar :: rest) =
      scan (.digits front (16 * value + n) (count + 1)) rest := by
  refine scan_cons_of_silent _ ?_
  rw [step, if_neg (digitChar_ne_brace hn), if_pos hcount, hexDigit?_digitChar hn]
  rfl

/-- The digits of a number are read as the number, where it is small enough to be that of a
code point. -/
theorem scan_hexDigits {n : Nat} (h : n < Nat.pow 16 maxDigits) :
    scan (.digits front 0 0) (Text.hexDigits n ++ rest) =
      scan (.digits front n (Text.hexDigits n).length) rest := by
  induction n using Nat.strongRecOn generalizing rest with
  | ind n ih =>
    rw [Text.hexDigits]
    rcases Nat.lt_or_ge n 16 with hn | hn
    · rw [Nat.toDigits_of_lt_base hn, List.singleton_append, scan_digit hn (by decide)]
      simp
    -- All digits but the last are those of `n / 16`, and leave room for one more.
    · have hlen : (Nat.toDigits 16 (n / 16)).length ≤ 5 := by
        refine (Nat.length_toDigits_le_iff (by decide) (by decide)).2 ?_
        have h' : n < 16777216 := h
        omega
      have hlt : n / 16 < Nat.pow 16 maxDigits := Nat.lt_of_le_of_lt (Nat.div_le_self ..) h
      have hmod : n % 16 < 16 := Nat.mod_lt _ (by decide)
      rw [Nat.toDigits_of_base_le (by decide) hn, List.append_assoc, List.singleton_append]
      refine (ih _ (by omega) hlt).trans ?_
      rw [Text.hexDigits, scan_digit hmod (Nat.lt_succ_of_le hlen), List.length_append,
        List.length_singleton, Nat.div_add_mod]

theorem length_hexDigits_pos {n : Nat} : 0 < (Text.hexDigits n).length := by
  rw [Text.hexDigits, Nat.toDigits_eq_if (by decide)]
  split <;> simp

/-- The escape of a code point stands for its character. -/
theorem scan_codePointEscape :
    scan (.text front) (Text.codePointEscape c ++ rest) = scan (.text (front ++ [c])) rest := by
  have hvalid : c.toNat.isValidChar := c.valid
  have hlt : c.toNat < Nat.pow 16 maxDigits := by
    change c.toNat < 16777216
    rcases hvalid with h | ⟨-, h⟩ <;> omega
  have hclose : step (.digits front c.toNat (Text.hexDigits c.toNat).length) '\x7d' =
      some ([], .text (front ++ [c])) := by
    rw [step, if_pos rfl, if_pos ⟨length_hexDigits_pos, hvalid⟩, Char.ofNat_toNat]
  calc scan (.text front) (Text.codePointEscape c ++ rest)
    _ = scan (.digits front 0 0) (Text.hexDigits c.toNat ++ '\x7d' :: rest) := by
      simp only [Text.codePointEscape, List.cons_append, List.nil_append, List.append_assoc]
      rw [scan_cons_of_silent (.escape front) rfl,
        scan_cons_of_silent (.point front) rfl,
        scan_cons_of_silent (.digits front 0 0) rfl]
    _ = scan (.text (front ++ [c])) rest := by
      rw [scan_hexDigits hlt, scan_cons_of_silent _ hclose]

/-- A backslash and a character that makes `d` of it stand for `d`. -/
theorem scan_escaped {d : Char} (hu : c ≠ 'u') (h : escaped? c = some d) :
    scan (.text front) (['\\', c] ++ rest) = scan (.text (front ++ [d])) rest := by
  rw [List.cons_append, List.singleton_append, scan_cons_of_silent (.escape front) rfl]
  refine scan_cons_of_silent _ ?_
  rw [step, if_neg hu, h]
  rfl

/-- **What a literal writes for a character, it stands for.** -/
theorem scan_literalChar :
    scan (.text front) (Text.literalChar '"' c ++ rest) = scan (.text (front ++ [c])) rest := by
  rw [Text.literalChar]
  -- The characters that are escaped by a letter or by themselves.
  split
  · next h =>
    subst h
    exact scan_escaped (by decide) rfl
  split
  · next h =>
    subst h
    exact scan_escaped (by decide) rfl
  split
  · next h =>
    subst h
    exact scan_escaped (by decide) rfl
  split
  · next h =>
    subst h
    exact scan_escaped (by decide) rfl
  split
  · next h =>
    subst h
    exact scan_escaped (by decide) rfl
  split
  · next h =>
    subst h
    exact scan_escaped (by decide) rfl
  split
  · exact scan_codePointEscape
  -- What is left ends no literal, escapes nothing and is no carriage return.
  · next hreturn _ hbackslash hquote _ =>
    refine scan_cons_of_silent _ ?_
    rw [step, if_neg hquote, if_neg hbackslash, if_neg hreturn]

theorem scan_literalChars {s : List Char} :
    scan (.text front) (s.flatMap (Text.literalChar '"') ++ '"' :: rest) =
      (scan .between rest).map (.text (String.ofList (front ++ s)) :: ·) := by
  induction s generalizing front with
  | nil =>
    rw [List.flatMap_nil, List.nil_append, List.append_nil]
    exact scan_cons_of_piece rfl
  | cons c s ih =>
    rw [List.flatMap_cons, List.append_assoc, scan_literalChar, ih, List.append_assoc]
    rfl

/-- **A literal is read back.** The literal for a text is one piece, and its value is the
text. -/
theorem scan_literal {s : String} :
    scan .between ((Text.stringLiteral s).toList ++ rest) =
      (scan .between rest).map (.text s :: ·) := by
  rw [Text.toList_stringLiteral, Text.stringLiteralChars, List.cons_append, List.append_assoc,
    scan_cons_of_silent (.text []) rfl, List.singleton_append, scan_literalChars,
    List.nil_append, String.ofList_toList]

end Rust

end RequestRouter
