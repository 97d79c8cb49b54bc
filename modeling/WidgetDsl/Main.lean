import WidgetDsl.CommandLine.Layout
import WidgetDsl.CommandLine.Run

/-!
The program: files are read into a store, the command runs on it, and what it has written goes back
to the files.
-/

namespace WidgetDsl

def readInto (store : Store) (path : Path) : IO Store := do
  try
    let data ← IO.FS.readBinFile path.toString
    return (store.save path (.bytes data)).2
  catch _ => return store

def changes (before after : Store) : List (Location × ByteArray) :=
  after.filterMap fun
    | (location, .file content) =>
      match before.lookup location with
      | some (.file old) =>
        if old.data.data = content.data.data then none else some (location, content.data)
      | _ => some (location, content.data)
    | _ => none

def pathTo (location : Location) : String :=
  match location with
  | "/" :: names => "/" ++ String.intercalate "/" names
  | names => String.intercalate "/" names

def writeBack (location : Location) (data : ByteArray) : IO Unit := do
  let temporary := pathTo location ++ ".tmp"
  IO.FS.createDirAll (pathTo (location.dropLast ++ ["."]))
  IO.FS.writeBinFile temporary data
  IO.FS.rename temporary (pathTo location)

end WidgetDsl

open WidgetDsl in
def main (args : List String) : IO UInt32 := do
  let named ← (CommandLine.inputs args []).foldlM readInto []
  let store ← (CommandLine.inputs args named).foldlM readInto named
  let outcome := CommandLine.run [] args store
  for (location, data) in changes store outcome.store do
    writeBack location data
  for item in outcome.items do
    IO.print item.layout
  match outcome.ending with
  | .exit code => return code.toUInt32
  | .failed failure =>
    IO.eprintln failure.message
    return 1
