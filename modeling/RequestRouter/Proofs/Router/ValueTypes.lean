import RequestRouter.Router.ValueType

/-!
# What value forms change in a type

A type in which every boxed type has its value form (`RequestRouter.TypeRef.normalize`) is compared
with the one that was written. The two are trees, and their nodes are told by addresses: the node at
an address is the argument of the argument, and so on, that the numbers of the address lead to
(`RequestRouter.TypeRef.node?`). The node at an address becomes its own value form there
(`RequestRouter.TypeRef.node?_normalize`), so that whatever a single node keeps or loses is kept or
lost in the whole tree:

* a node keeps its outline, which is all of it but the name of one that has no arguments
  (`RequestRouter.TypeRef.outline_normalize`);
* it does not stay boxed, for no value form is the boxed spelling of another
  (`RequestRouter.TypeRef.not_isBoxed_normalize`).

A type without boxed nodes has nothing to lose and stays what it is, and no other type does
(`RequestRouter.TypeRef.normalize_eq_self_iff`).
-/

namespace RequestRouter

/-! ### Boxed names -/

/-- The name is a boxed spelling that differs from its value form. -/
def IsBoxedName (path : String) : Prop := path ∈ boxedTypes.map Prod.fst ∧ path ≠ "String"

instance (path : String) : Decidable (IsBoxedName path) := inferInstanceAs (Decidable (_ ∧ _))

theorem valueForm_eq_self_iff {path : String} : valueForm path = path ↔ ¬IsBoxedName path := by
  have hforms : ∀ boxed ∈ boxedTypes, boxed.2 = boxed.1 ↔ ¬IsBoxedName boxed.1 := by
    decide +kernel
  rcases valueForm_cases path with ⟨hsame, hpath⟩ | ⟨boxed, hboxed, rfl, hform⟩
  · exact iff_of_true hsame fun h => hpath h.1
  · rw [hform]
    exact hforms boxed hboxed

/-- No value form is the boxed spelling of another. -/
theorem not_isBoxedName_valueForm (path : String) : ¬IsBoxedName (valueForm path) := by
  have hforms : ∀ boxed ∈ boxedTypes, ¬IsBoxedName boxed.2 := by decide +kernel
  rcases valueForm_cases path with ⟨hsame, hpath⟩ | ⟨boxed, hboxed, -, hform⟩
  · rw [hsame]
    exact fun h => hpath h.1
  · rw [hform]
    exact hforms boxed hboxed

namespace TypeRef

variable {type : TypeRef} {p : TypeRef → Prop}

/-! ### The nodes of a type -/

/-- The node of a type at an address: the type itself, or a node of the argument that the address
starts with. -/
def node? (type : TypeRef) : (address : List Nat) → Option TypeRef
  | [] => some type
  | i :: address => type.args[i]?.bind fun arg => arg.node? address

/-- All nodes of the type are `p`, at any depth. -/
def ForallNodes (p : TypeRef → Prop) (type : TypeRef) : Prop :=
  ∀ address, ∀ node ∈ type.node? address, p node

/-- The nodes of a type are itself and those of its arguments. -/
theorem forallNodes_iff : type.ForallNodes p ↔ p type ∧ ∀ arg ∈ type.args, arg.ForallNodes p := by
  constructor
  · intro h
    refine ⟨h [] type rfl, fun arg harg address node hnode => ?_⟩
    obtain ⟨i, hi⟩ := List.getElem?_of_mem harg
    exact h (i :: address) node (Option.bind_eq_some_iff.2 ⟨arg, hi, hnode⟩)
  · rintro ⟨htype, hargs⟩ address node hnode
    cases address with
    | nil => rwa [← Option.some.inj hnode]
    | cons i address =>
      obtain ⟨arg, hi, hnode⟩ := Option.bind_eq_some_iff.1 hnode
      exact hargs arg (List.mem_of_getElem? hi) address node hnode

/-- What a node shows apart from its arguments, except for the name if there are none. -/
structure Outline where
  /-- The number of arguments. -/
  arity : Nat
  /-- Whether values may be absent. -/
  nullable : Bool
  /-- The name, if there are arguments. -/
  path? : Option String

/-- The outline of a node. -/
def outline (type : TypeRef) : Outline :=
  ⟨type.args.length, type.nullable, if type.args.isEmpty then none else some type.path⟩

/-- The node has no arguments and a boxed name. -/
def IsBoxed (type : TypeRef) : Prop := type.args = [] ∧ IsBoxedName type.path

/-! ### Nodes in their value form -/

/-- **Every node gets its own value form**, wherever it stands. -/
theorem node?_normalize (type : TypeRef) (address : List Nat) :
    type.normalize.node? address = (type.node? address).map normalize := by
  induction address generalizing type with
  | nil => rfl
  | cons i address ih =>
    rw [node?, node?, normalize_eq, List.getElem?_map]
    cases type.args[i]? with
    | none => rfl
    | some arg => exact ih arg

theorem outline_normalize (type : TypeRef) : type.normalize.outline = type.outline := by
  rw [normalize_eq, outline, outline, List.length_map, List.isEmpty_map]
  cases type.args.isEmpty <;> rfl

theorem not_isBoxed_normalize (type : TypeRef) : ¬type.normalize.IsBoxed := by
  rintro ⟨hargs, hpath⟩
  rw [normalize_eq] at hargs hpath
  have hempty : type.args.isEmpty = true := List.isEmpty_iff.2 (List.map_eq_nil_iff.1 hargs)
  rw [if_pos hempty] at hpath
  exact not_isBoxedName_valueForm type.path hpath

theorem forallNodes_normalize (type : TypeRef) :
    type.normalize.ForallNodes fun node => ¬node.IsBoxed := by
  intro address node hnode
  rw [node?_normalize] at hnode
  obtain ⟨written, -, rfl⟩ := Option.map_eq_some_iff.1 hnode
  exact written.not_isBoxed_normalize

/-- **A type is left alone** exactly if none of its nodes is boxed. -/
theorem normalize_eq_self_iff :
    type.normalize = type ↔ type.ForallNodes fun node => ¬node.IsBoxed := by
  induction type using TypeRef.induction with
  | written path args nullable ih =>
    have hargs : args.map normalize = args ↔
        ∀ arg ∈ args, arg.ForallNodes fun node => ¬node.IsBoxed := by
      rw [← forall₂_congr ih, ← List.map_inj_left, List.map_id']
    have hpath : (if args.isEmpty then valueForm path else path) = path ↔
        ¬IsBoxed ⟨path, args, nullable⟩ := by
      cases args with
      | nil => exact valueForm_eq_self_iff.trans (by simp [IsBoxed])
      | cons arg rest => exact iff_of_true rfl (by simp [IsBoxed])
    rw [normalize_eq, forallNodes_iff, mk.injEq, hargs, hpath]
    simp

/-- Whether a type is one of some names does not change if these have no part in boxing. -/
theorem isPlainly_normalize {names : List String}
    (h : ∀ boxed ∈ boxedTypes, boxed.1 ∉ names ∧ boxed.2 ∉ names) (type : TypeRef) :
    type.normalize.isPlainly names = type.isPlainly names := by
  have hpath : names.contains (valueForm type.path) = names.contains type.path := by
    rcases valueForm_cases type.path with ⟨hsame, -⟩ | ⟨boxed, hboxed, hpath, hform⟩
    · rw [hsame]
    · rw [hform, hpath, Bool.eq_iff_iff, List.contains_iff_mem, List.contains_iff_mem]
      exact iff_of_false (h boxed hboxed).2 (h boxed hboxed).1
  rw [normalize_eq, isPlainly, isPlainly, List.isEmpty_map]
  cases type.args.isEmpty with
  | false => rfl
  | true => rw [if_pos rfl, hpath]

/-- **Value forms replace boxed nodes and nothing else.** Giving a type its value form twice is the
same as giving it once. At every address there is a node with the outline of the one that was there:
as many arguments, absent values where there were some, and the same name if there are arguments. No
node is boxed any more, and the type has changed unless none was before. And contexts stay contexts,
requests stay requests, and nothing else becomes one. -/
theorem normalize_boxed (type : TypeRef) :
    type.normalize.normalize = type.normalize ∧
      (∀ address, (type.normalize.node? address).map outline =
        (type.node? address).map outline) ∧
      (type.normalize.ForallNodes fun node => ¬node.IsBoxed) ∧
      (type.normalize = type ↔ type.ForallNodes fun node => ¬node.IsBoxed) ∧
      type.normalize.isContext = type.isContext ∧
      type.normalize.isRequest = type.isRequest := by
  refine ⟨normalize_eq_self_iff.2 type.forallNodes_normalize, fun address => ?_,
    type.forallNodes_normalize, normalize_eq_self_iff, isPlainly_normalize (by decide) type,
    isPlainly_normalize (by decide) type⟩
  rw [node?_normalize, Option.map_map]
  exact congrArg (Option.map · _) (funext outline_normalize)

/-- In a map of boxed names, those without arguments get their value form, at any depth; `Integer`
with an argument is another type. -/
example : normalize ⟨"Map", [named "String", ⟨"Integer", [⟨"Long", [], true⟩], false⟩], true⟩ =
    ⟨"Map", [named "String", ⟨"Integer", [⟨"i64", [], true⟩], false⟩], true⟩ := by
  rfl

end TypeRef

end RequestRouter
