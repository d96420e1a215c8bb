import RequestRouter.Payload.Request
import RequestRouter.Proofs.Rust.Statements

/-!
# Running statements

What the statements of a body do, on requests as `RequestRouter.Request` has them. Variables are
found from the inside out, so that a later one hides an earlier one of the same name. A variable
that is passed or taken apart is moved out of, and has no value from then on; a call that stores
an extra needs a variable that may change. Whatever Rust would not accept has no result here.

A call takes its argument and changes its receiver, and nothing else
(`RequestRouter.Rust.Call.exec_eq`). A guard does the same as the call behind it where there is a
value (`RequestRouter.Rust.Statement.exec_guarded_some`), although its own variable may hide the
one that it takes apart.
-/

namespace RequestRouter

namespace Rust

/-! ### Values and variables -/

/-- What is stored as an extra. -/
inductive Content : Type 1 where
  /-- A single value. -/
  | value (value : PayloadValue)
  /-- A list of 32-bit integers. -/
  | integers (values : List Int32)
  /-- A list of values that travel as parcels. -/
  | parcelables {α : Type} (codec : Codec α) (values : List α)
  /-- A list of texts. -/
  | texts (values : List String)

/-- What a variable holds. -/
inductive Value : Type 1 where
  /-- A context. -/
  | context (context : Context)
  /-- A request. -/
  | request (request : Request)
  /-- Something to be stored. -/
  | content (content : Content)
  /-- Something to be stored, if it is there. -/
  | optional (content? : Option Content)

/-- A variable. -/
structure Variable : Type 1 where
  /-- The name. -/
  name : String
  /-- Whether it may change. -/
  mutable : Bool
  /-- The value, unless it was moved out. -/
  value? : Option Value

/-- The innermost variable of the given name. -/
def lookup (name : String) (scope : List Variable) : Option Variable :=
  scope.find? fun v => v.name == name

/-- The value of the innermost variable of the given name. -/
def value? (name : String) (scope : List Variable) : Option Value :=
  (lookup name scope).bind Variable.value?

/-- The scope with the value of the innermost variable of the given name replaced. -/
def update (name : String) (value? : Option Value) : List Variable → List Variable
  | [] => []
  | v :: rest =>
    if v.name = name then { v with value? := value? } :: rest else v :: update name value? rest

/-! ### Steps -/

/-- The operations that store extras. Each takes one form of content. -/
def perform (operation key : String) (content : Content) (request : Request) : Option Request :=
  match content with
  | .value value =>
    if operation = "put_extra" then some (request.putValue key value) else none
  | .integers values =>
    if operation = "put_integer_array_list_extra" then some (request.putIntegers key values)
    else none
  | .parcelables codec values =>
    if operation = "put_parcelable_array_list_extra" then
      some (request.putParcelables key codec values)
    else none
  | .texts values =>
    if operation = "put_string_array_list_extra" then some (request.putStrings key values)
    else if operation = "put_char_sequence_array_list_extra" then
      some (request.putCharSequences key values)
    else none

/-- Runs a call. -/
def Call.exec (call : Call) (scope : List Variable) : Option (List Variable) :=
  match lookup call.receiver scope, value? call.argument scope with
  | some ⟨_, true, some (.request request)⟩, some (.content content) =>
    (perform call.operation call.key content request).map fun changed =>
      update call.receiver (some (.request changed)) (update call.argument none scope)
  | _, _ => none

/-- Runs a statement. -/
def Statement.exec (statement : Statement) (scope : List Variable) : Option (List Variable) :=
  match statement with
  | create mutable name context destination =>
    match value? context scope with
    | some (.context from?) =>
      some (⟨name, mutable, some (.request (Request.create from? destination))⟩ :: scope)
    | _ => none
  | plain call => call.exec scope
  | guarded bound scrutinee call =>
    match value? scrutinee scope with
    | some (.optional none) => some (update scrutinee none scope)
    | some (.optional (some content)) =>
      (call.exec (⟨bound, false, some (.content content)⟩ :: update scrutinee none scope)).map
        List.tail
    | _ => none

/-- Runs statements one after another. -/
def execAll : List Statement → List Variable → Option (List Variable)
  | [], scope => some scope
  | statement :: rest, scope => (statement.exec scope).bind (execAll rest)

/-- Runs a block: its result is a request. -/
def Block.run (block : Block) (scope : List Variable) : Option Request :=
  match (execAll block.statements scope).bind (value? block.result) with
  | some (.request request) => some request
  | _ => none

/-! ### Looking up -/

variable {m n : String} {scope : List Variable} {w? : Option Value}

theorem lookup_cons_self {mutable : Bool} :
    lookup n (⟨n, mutable, w?⟩ :: scope) = some ⟨n, mutable, w?⟩ :=
  List.find?_cons_of_pos (beq_self_eq_true n)

theorem lookup_cons_of_ne {mutable : Bool} (h : m ≠ n) :
    lookup n (⟨m, mutable, w?⟩ :: scope) = lookup n scope :=
  List.find?_cons_of_neg (by simpa using h)

/-- A change is seen under no other name. -/
theorem lookup_update_of_ne (h : m ≠ n) : lookup m (update n w? scope) = lookup m scope := by
  induction scope with
  | nil => rfl
  | cons v scope ih =>
    obtain ⟨name, mutable, value?⟩ := v
    rw [update]
    by_cases hn : name = n
    · have hm : name ≠ m := fun heq => h (heq.symm.trans hn)
      rw [if_pos hn, lookup_cons_of_ne hm, lookup_cons_of_ne hm]
    · rw [if_neg hn]
      by_cases hm : name = m
      · subst hm
        rw [lookup_cons_self, lookup_cons_self]
      · rw [lookup_cons_of_ne hm, lookup_cons_of_ne hm, ih]

/-- A change is seen under its own name. -/
theorem lookup_update_self {mutable : Bool} {held? : Option Value}
    (h : lookup n scope = some ⟨n, mutable, held?⟩) :
    lookup n (update n w? scope) = some ⟨n, mutable, w?⟩ := by
  induction scope with
  | nil => cases h
  | cons v scope ih =>
    obtain ⟨name, mutable', value?⟩ := v
    rw [update]
    by_cases hn : name = n
    · subst hn
      rw [lookup_cons_self] at h
      cases h
      rw [if_pos rfl, lookup_cons_self]
    · rw [lookup_cons_of_ne hn] at h
      rw [if_neg hn, lookup_cons_of_ne hn, ih h]

theorem value?_update_of_ne (h : m ≠ n) : value? m (update n w? scope) = value? m scope := by
  rw [value?, lookup_update_of_ne h, value?]

/-! ### What statements do -/

variable {call : Call} {request changed : Request} {content : Content}

/-- **A call takes its argument and changes its receiver.** -/
theorem Call.exec_eq
    (hreceiver : lookup call.receiver scope = some ⟨call.receiver, true, some (.request request)⟩)
    (hargument : value? call.argument scope = some (.content content))
    (hperform : perform call.operation call.key content request = some changed) :
    call.exec scope =
      some (update call.receiver (some (.request changed)) (update call.argument none scope)) := by
  rw [exec, hreceiver, hargument]
  simp only [hperform, Option.map_some]

/-- A guard whose value is absent does nothing but take it. -/
theorem Statement.exec_guarded_none {bound scrutinee : String}
    (h : value? scrutinee scope = some (.optional none)) :
    (guarded bound scrutinee call).exec scope = some (update scrutinee none scope) := by
  rw [exec, h]

/-- **A guard whose value is present takes it and changes the receiver of its call.** The variable
of the guard is gone afterwards. -/
theorem Statement.exec_guarded_some {scrutinee : String}
    (hne : call.receiver ≠ call.argument) (hne' : call.receiver ≠ scrutinee)
    (hreceiver : lookup call.receiver scope = some ⟨call.receiver, true, some (.request request)⟩)
    (hscrutinee : value? scrutinee scope = some (.optional (some content)))
    (hperform : perform call.operation call.key content request = some changed) :
    (guarded call.argument scrutinee call).exec scope =
      some (update call.receiver (some (.request changed)) (update scrutinee none scope)) := by
  -- Inside, the variable of the guard comes first; the receiver is another one.
  have hfound : lookup call.receiver
      (⟨call.argument, false, some (.content content)⟩ :: update scrutinee none scope) =
        some ⟨call.receiver, true, some (.request request)⟩ := by
    rw [lookup_cons_of_ne hne.symm, lookup_update_of_ne hne', hreceiver]
  have hbound : value? call.argument
      (⟨call.argument, false, some (.content content)⟩ :: update scrutinee none scope) =
        some (.content content) := by
    rw [value?, lookup_cons_self]
    rfl
  rw [exec, hscrutinee]
  simp only [Call.exec_eq hfound hbound hperform, Option.map_some]
  -- The call has spent the variable of the guard, and that variable is dropped.
  rw [update, if_pos rfl, update, if_neg hne.symm, List.tail_cons]

end Rust

end RequestRouter
