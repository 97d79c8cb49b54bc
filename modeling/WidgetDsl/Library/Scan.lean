import WidgetDsl.Library.Definition

/-!
Reading the archives of a run. All of them define names; only those that are scanned have entries of
their own.
-/

namespace WidgetDsl

structure Scan where
  library : Library
  entries : List String

namespace Scan

def ofArchives (scanned dependencies : List Archive) : Scan :=
  { library := ⟨scanned ++ dependencies⟩
    entries := Descriptor.sorted (scanned.flatMap Archive.classEntries).eraseDups }

def read (store : Store) (archives dependencies : List Path) : Except ReadFault Scan := do
  let scanned ← archives.mapM (Archive.read store)
  let dependencies ← dependencies.mapM (Archive.read store)
  return ofArchives scanned dependencies

end Scan

end WidgetDsl
