import RequestRouter.Router.Emission

/-!
# Where generated files go

A sink takes one file after the other. It may refuse a file, and what it holds
afterwards is its own affair: so one account of a round serves files kept in memory and
files written to a disk. The store in memory keeps files in the order of their creation
and refuses a second file of the same package and name.
-/

namespace RequestRouter

/-- A place for generated files whose contents are a `σ`. -/
structure Sink (σ : Type) where
  /-- Takes a file or refuses it, and the contents afterwards. -/
  create : EmittedFile → σ → Except Fault Unit × σ

/-- Files in memory, the oldest first. -/
abbrev Store := List EmittedFile

namespace Store

/-- Whether the store holds a file of the same package and name. -/
def holds (store : Store) (file : EmittedFile) : Bool :=
  store.any fun old => old.package == file.package && old.name == file.name

/-- Adds a file, unless one of its package and name is there. -/
def create (file : EmittedFile) (store : Store) : Except Fault Unit × Store :=
  if store.holds file then (.error (.recreated file.name), store) else (.ok (), store ++ [file])

theorem create_of_holds {file : EmittedFile} {store : Store} (h : store.holds file = true) :
    store.create file = (.error (.recreated file.name), store) := by
  rw [create, if_pos h]

theorem create_of_not_holds {file : EmittedFile} {store : Store} (h : store.holds file = false) :
    store.create file = (.ok (), store ++ [file]) := by
  rw [create, h]
  rfl

/-- The first file of the name. -/
def file? (store : Store) (name : String) : Option EmittedFile :=
  store.find? fun file => file.name == name

/-- The store as a sink. -/
def sink : Sink Store := ⟨create⟩

@[simp] theorem sink_create (file : EmittedFile) (store : Store) :
    sink.create file store = store.create file := rfl

/-- The store as a sink that first asks whether a file is refused. -/
def guardedSink (refusal : EmittedFile → Option Fault) : Sink Store where
  create file store :=
    match refusal file with
    | some fault => (.error fault, store)
    | none => store.create file

end Store

end RequestRouter
