/-!
# Maps in key order

A finite map from text to values, kept as the list of its entries in increasing order
of the keys. Keys are compared character by character, which is also the order of
their UTF-8 bytes; each key occurs once, so the list is determined by the map.

Main statements: an entry that was inserted is found (`RequestRouter.KeyMap.get?_insert`),
other keys are not touched, insertion keeps the order, and the entries are what is found
(`RequestRouter.KeyMap.mem_entries_iff`).
-/

namespace RequestRouter

namespace KeyMap

variable {α : Type}

/-- `entries` with `value` under `key`, in its place by order or instead of the value
that was there. -/
def insertEntry (key : String) (value : α) : List (String × α) → List (String × α)
  | [] => [(key, value)]
  | entry :: rest =>
    if key < entry.1 then (key, value) :: entry :: rest
    else if key = entry.1 then (key, value) :: rest
    else entry :: insertEntry key value rest

/-- The value under `key`. -/
def find? (key : String) : List (String × α) → Option α
  | [] => none
  | entry :: rest => if key = entry.1 then some entry.2 else find? key rest

/-- Whether the keys of `entries` increase. -/
def Sorted (entries : List (String × α)) : Prop := entries.Pairwise fun a b => a.1 < b.1

theorem find?_insertEntry_self (key : String) (value : α) (entries : List (String × α)) :
    find? key (insertEntry key value entries) = some value := by
  induction entries with
  | nil => simp [insertEntry, find?]
  | cons entry rest ih =>
    rw [insertEntry]
    split
    · simp [find?]
    · split
      · simp [find?]
      · next hne => simp [find?, hne, ih]

theorem find?_insertEntry_of_ne {key other : String} (h : other ≠ key) (value : α)
    (entries : List (String × α)) :
    find? other (insertEntry key value entries) = find? other entries := by
  induction entries with
  | nil => simp [insertEntry, find?, h]
  | cons entry rest ih =>
    rw [insertEntry]
    split
    · simp [find?, h]
    · split
      · next he => simp [find?, h, ← he]
      · simp [find?, ih]

theorem mem_insertEntry {key : String} {value : α} {entries : List (String × α)}
    {entry : String × α} (h : entry ∈ insertEntry key value entries) :
    entry = (key, value) ∨ entry ∈ entries := by
  induction entries with
  | nil => simpa [insertEntry] using h
  | cons first rest ih =>
    rw [insertEntry] at h
    split at h
    · simpa using h
    · split at h
      · rcases List.mem_cons.1 h with h | h
        · exact .inl h
        · exact .inr (List.mem_cons_of_mem _ h)
      · rcases List.mem_cons.1 h with h | h
        · exact .inr (h ▸ List.mem_cons_self)
        · exact (ih h).imp id (List.mem_cons_of_mem _)

/-- **Insertion keeps the order** of the keys. -/
theorem Sorted.insertEntry {entries : List (String × α)} (h : Sorted entries) (key : String)
    (value : α) : Sorted (insertEntry key value entries) := by
  induction entries with
  | nil => simp [Sorted, KeyMap.insertEntry]
  | cons entry rest ih =>
    have hrest : Sorted rest := (List.pairwise_cons.1 h).2
    have hentry : ∀ other ∈ rest, entry.1 < other.1 := (List.pairwise_cons.1 h).1
    rw [KeyMap.insertEntry]
    split
    · next hlt =>
      refine List.pairwise_cons.2 ⟨fun other hmem => ?_, h⟩
      rcases List.mem_cons.1 hmem with rfl | hmem
      · exact hlt
      · exact String.lt_trans hlt (hentry other hmem)
    · next hnot =>
      split
      · next heq => exact List.pairwise_cons.2 ⟨fun other hmem => heq ▸ hentry other hmem, hrest⟩
      · next hne =>
        refine List.pairwise_cons.2 ⟨fun other hmem => ?_, ih hrest⟩
        rcases mem_insertEntry hmem with rfl | hmem
        · rcases Decidable.em (entry.1 < key) with hlt | hge
          · exact hlt
          · exact absurd (String.le_antisymm hge hnot) hne
        · exact hentry other hmem

/-- If the keys increase, there is no second entry with the key of the one that is found. -/
theorem Sorted.find?_eq_some_iff {entries : List (String × α)} (h : Sorted entries) {key : String}
    {value : α} : find? key entries = some value ↔ (key, value) ∈ entries := by
  induction entries with
  | nil => simp [find?]
  | cons entry rest ih =>
    have hentry : ∀ other ∈ rest, entry.1 < other.1 := (List.pairwise_cons.1 h).1
    rw [find?, List.mem_cons, ← ih (List.pairwise_cons.1 h).2]
    split
    · next heq =>
      subst heq
      have hrest : find? entry.1 rest ≠ some value := fun hfound =>
        String.lt_irrefl _ (hentry (_, value) ((ih (List.pairwise_cons.1 h).2).1 hfound))
      simp [hrest, Prod.ext_iff, eq_comm]
    · next hne => simp [Prod.ext_iff, hne]

end KeyMap

/-- A finite map from text to `α`, as its entries in increasing order of the keys. -/
structure KeyMap (α : Type) where
  /-- The entries. -/
  entries : List (String × α)
  /-- The keys increase. -/
  sorted : KeyMap.Sorted entries

namespace KeyMap

variable {α : Type}

/-- The map without entries. -/
def empty : KeyMap α := ⟨[], List.Pairwise.nil⟩

/-- The map with `value` under `key`. -/
def insert (map : KeyMap α) (key : String) (value : α) : KeyMap α :=
  ⟨insertEntry key value map.entries, map.sorted.insertEntry key value⟩

/-- The value under `key`, if there is one. -/
def get? (map : KeyMap α) (key : String) : Option α := find? key map.entries

/-- The number of keys. -/
def size (map : KeyMap α) : Nat := map.entries.length

@[simp] theorem get?_empty (key : String) : (empty : KeyMap α).get? key = none := rfl

@[simp] theorem get?_insert_self (map : KeyMap α) (key : String) (value : α) :
    (map.insert key value).get? key = some value :=
  find?_insertEntry_self key value map.entries

theorem get?_insert_of_ne (map : KeyMap α) {key other : String} (h : other ≠ key) (value : α) :
    (map.insert key value).get? other = map.get? other :=
  find?_insertEntry_of_ne h value map.entries

/-- **What an insertion changes**: the value under its own key, and nothing else. -/
theorem get?_insert (map : KeyMap α) (key other : String) (value : α) :
    (map.insert key value).get? other = if other = key then some value else map.get? other := by
  by_cases h : other = key
  · simp [h]
  · simp [h, get?_insert_of_ne]

/-- **The entries are the keys with their values.** -/
theorem mem_entries_iff (map : KeyMap α) {key : String} {value : α} :
    (key, value) ∈ map.entries ↔ map.get? key = some value :=
  map.sorted.find?_eq_some_iff.symm

end KeyMap

end RequestRouter
