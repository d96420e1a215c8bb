import RequestRouter.Command.Execution

/-!
# The command line

Carries out the command that the arguments spell on the files of the system. What the
command needs of them is copied into a tree first (`RequestRouter.Disk`), and what it
created in the tree is written to the system at the end, so everything between is the
pure `RequestRouter.Command.execute`. Where it is going to write is not known beforehand:
the command is tried on the declaration files alone, then the places that it would have
written to are copied as well, directories first, and it is carried out on both.
-/

namespace RequestRouter

/-- The tree with what the system has at a place, if the tree has the directory above it. -/
def loadPlace (disk : Disk) (place : Place) : IO Disk := do
  if isBase place || disk.find? place.dropLast ≠ some .directory then return disk
  else if isLongPath (placePath place) || place.any isLongName then return disk
  else
    match ← (IO.FS.readBinFile (placePath place)).toBaseIO with
    | .ok bytes => return disk.put place (.file bytes.toList)
    | .error (.noFileOrDirectory _ _ _) => return disk
    | .error (.inappropriateType _ _ _) => return disk.put place .directory
    | .error cause => throw cause

/-- Puts an entry of a tree into the system. -/
def saveEntry (entry : Place × DiskEntry) : IO Unit :=
  match entry.2 with
  | .directory => IO.FS.createDir (placePath entry.1)
  | .file bytes => IO.FS.writeBinFile (placePath entry.1) bytes.toByteArray

/-- Carries out a command on the files of the system. -/
def Command.perform (command : Command) : IO UInt32 := do
  let given ← (command.action.inputs.flatMap pathPlaces).foldlM loadPlace Disk.empty
  let planned := ((command.execute given).disk.since given).map Prod.fst
  let disk ← planned.foldlM loadPlace given
  let result := command.execute disk
  (result.disk.since disk).forM saveEntry
  IO.print result.stdout
  IO.eprint result.stderr
  return UInt32.ofNat result.exit

end RequestRouter

/-- Carries out the command that the arguments spell; a misuse does nothing. -/
def main (arguments : List String) : IO UInt32 :=
  match RequestRouter.Command.parse? arguments with
  | none => return UInt32.ofNat RequestRouter.misuseExit
  | some command => command.perform
