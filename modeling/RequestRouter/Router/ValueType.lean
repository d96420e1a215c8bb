import RequestRouter.Declaration.TypeRef

/-!
# The types that routers know

Three families of names have a meaning for routers: the context that every routing
method is called with, the request that it returns, and the boxed spellings of value
types, which generated source writes in their value form.
-/

namespace RequestRouter

/-- The names of the context type. -/
def contextTypes : List String := ["Context", "intention::Context"]

/-- The names of the request type. -/
def requestTypes : List String := ["Request", "intention::Request"]

/-- The boxed spellings of value types, each with its value form. -/
def boxedTypes : List (String × String) :=
  [ ("String", "String"), ("Byte", "i8"), ("Character", "char"), ("Char", "char"),
    ("Int", "i32"), ("Short", "i16"), ("Integer", "i32"), ("Long", "i64"),
    ("Float", "f32"), ("Double", "f64"), ("Boolean", "bool") ]

/-- The value form of a type name; names that are not boxed stay. -/
def valueForm (path : String) : String := (boxedTypes.lookup path).getD path

/-- A name stays, or it is boxed and gets its value form. -/
theorem valueForm_cases (path : String) :
    (valueForm path = path ∧ path ∉ boxedTypes.map Prod.fst) ∨
      ∃ boxed ∈ boxedTypes, path = boxed.1 ∧ valueForm path = boxed.2 := by
  cases hlookup : boxedTypes.lookup path with
  | none =>
    refine .inl ⟨by rw [valueForm, hlookup, Option.getD_none], fun hmem => ?_⟩
    obtain ⟨boxed, hboxed, rfl⟩ := List.mem_map.1 hmem
    exact absurd (List.lookup_eq_none_iff.1 hlookup boxed hboxed) (by simp)
  | some form =>
    obtain ⟨front, back, hboxed, -⟩ := List.lookup_eq_some_iff.1 hlookup
    refine .inr ⟨(path, form), ?_, rfl, by rw [valueForm, hlookup, Option.getD_some]⟩
    rw [hboxed]
    exact List.mem_append_right _ List.mem_cons_self

namespace TypeRef

/-- Whether the type is one of `names`, without arguments and never absent. -/
def isPlainly (names : List String) (type : TypeRef) : Bool :=
  !type.nullable && type.args.isEmpty && names.contains type.path

/-- Whether the type is the context type. -/
def isContext (type : TypeRef) : Bool := type.isPlainly contextTypes

/-- Whether the type is the request type. -/
def isRequest (type : TypeRef) : Bool := type.isPlainly requestTypes

mutual

/-- The type with every boxed type in it in its value form. A boxed name that has
arguments is another type, and stays. -/
def normalize : TypeRef → TypeRef
  | ⟨path, [], nullable⟩ => ⟨valueForm path, [], nullable⟩
  | ⟨path, arg :: rest, nullable⟩ => ⟨path, normalize arg :: normalizeArgs rest, nullable⟩

/-- The types with every boxed type in them in its value form. -/
def normalizeArgs : List TypeRef → List TypeRef
  | [] => []
  | arg :: rest => normalize arg :: normalizeArgs rest

end

theorem normalizeArgs_eq_map (args : List TypeRef) : normalizeArgs args = args.map normalize := by
  induction args with
  | nil => rfl
  | cons arg rest ih => rw [normalizeArgs, ih, List.map_cons]

/-- The parts of a type with its boxed types in their value form. -/
theorem normalize_eq (type : TypeRef) :
    type.normalize = ⟨if type.args.isEmpty then valueForm type.path else type.path,
      type.args.map normalize, type.nullable⟩ := by
  obtain ⟨path, args, nullable⟩ := type
  cases args with
  | nil => rfl
  | cons arg rest =>
    rw [normalize, normalizeArgs_eq_map]
    rfl

end TypeRef

end RequestRouter
