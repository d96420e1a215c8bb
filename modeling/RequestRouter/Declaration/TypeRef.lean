/-!
# Written types

A type as a declaration writes it: a path, arguments between angle brackets, and a
question mark on types whose values may be absent. The two printers differ in how they
show absence: in generated source as an `Option`, in messages by the question mark –
and only at the outermost type, for arguments are shown as generated source has them.
-/

namespace RequestRouter

/-- A written type. -/
structure TypeRef where
  /-- The name, its segments joined by separators. -/
  path : String
  /-- The arguments. -/
  args : List TypeRef
  /-- Whether values may be absent. -/
  nullable : Bool

namespace TypeRef

mutual

/-- What passes from the arguments to a type holds of all types. -/
@[elab_as_elim]
theorem induction {p : TypeRef → Prop}
    (written : ∀ path args nullable, (∀ arg ∈ args, p arg) → p ⟨path, args, nullable⟩) :
    ∀ type, p type
  | ⟨path, args, nullable⟩ => written path args nullable (forall_of_mem_args written args)

theorem forall_of_mem_args {p : TypeRef → Prop}
    (written : ∀ path args nullable, (∀ arg ∈ args, p arg) → p ⟨path, args, nullable⟩) :
    ∀ args : List TypeRef, ∀ arg ∈ args, p arg
  | [] => List.forall_mem_nil p
  | arg :: rest =>
    List.forall_mem_cons.2 ⟨induction written arg, forall_of_mem_args written rest⟩

end

/-- The type with the given name, without arguments and never absent. -/
def named (path : String) : TypeRef := ⟨path, [], false⟩

/-- `inner` as generated source writes it when values may be absent. -/
def optional (nullable : Bool) (inner : String) : String :=
  if nullable then "Option<" ++ inner ++ ">" else inner

/-- The name with the texts of the arguments behind it. -/
def applied (path : String) (args : List String) : String :=
  if args.isEmpty then path else path ++ "<" ++ ", ".intercalate args ++ ">"

mutual

/-- The type in generated source. -/
def emitted : TypeRef → String
  | ⟨path, args, nullable⟩ => optional nullable (applied path (emittedArgs args))

/-- The types in generated source. -/
def emittedArgs : List TypeRef → List String
  | [] => []
  | arg :: rest => emitted arg :: emittedArgs rest

end

theorem emittedArgs_eq_map (args : List TypeRef) : emittedArgs args = args.map emitted := by
  induction args with
  | nil => rfl
  | cons arg rest ih => rw [emittedArgs, ih, List.map_cons]

/-- The type in generated source as if its values were never absent. -/
def present (type : TypeRef) : String := applied type.path (emittedArgs type.args)

/-- The type in messages. -/
def display (type : TypeRef) : String :=
  type.present ++ if type.nullable then "?" else ""

end TypeRef

end RequestRouter
