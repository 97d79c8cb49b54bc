import WidgetDsl.Config.Settings
import WidgetDsl.Toml.Reader

/-!
Files with settings: a file of their own, or a section in the file of a project.
-/

namespace WidgetDsl.Config

def settingsFile : String := "dslgen.toml"

def projectFile : String := "pyproject.toml"

def sectionsKey : String := "tool"

def sectionKey : String := "dslgen"

def readToml (store : Store) (path : Path) : Except ConfigFault (Entries Value) :=
  match store.read path with
  | .error .nullCharacter => .error (.text .nullInPath)
  | .error _ => .error (.unreadable path.toString)
  | .ok content =>
    match content.text? with
    | none => .error (.text .notUtf8)
    | some text =>
      match Toml.parse text with
      | .ok entries => .ok entries
      | .error .malformed => .error (.malformed path.toString)
      | .error (.longInteger digits) => .error (.text (.longInteger digits))

def sectionsOf (entries : Entries Value) : Value :=
  (entries.get? sectionsKey).getD (.table [])

def projectSection (path : Path) (entries : Entries Value) : Except ConfigFault (Entries Value) :=
  match sectionsOf entries with
  | .table sections =>
    match Entries.get? sections sectionKey with
    | none => .ok []
    | some (.table found) => .ok found
    | some _ => .error (.sectionNotTable path.toString)
  | _ => .error .noSections

def fileSettings (store : Store) (path : Path) : Except ConfigFault Settings := do
  let entries ← readToml store path
  let entries ← if path.name = projectFile then projectSection path entries else pure entries
  Settings.ofEntries path.toString path.parent entries

/-- Whether a project's file mentions the section, as far as what stands in its place can be
searched: a table by key, a list by item and a text by stretch. -/
def mentionsSection : Value → Except ConfigFault Bool
  | .table sections => .ok (Entries.contains sections sectionKey)
  | .list items => .ok (items.any fun item => item.text? = some sectionKey)
  | .text s => .ok (Text.occursIn sectionKey.toList s.toList)
  | _ => .error .notSearchable

def status (store : Store) (path : Path) : Except ConfigFault (Option Node) :=
  (store.status path).mapError .file

/-- The file with settings in a directory, or in the directory of a file. A file of their own comes
before a section in a project's file. -/
def findFile (store : Store) (start : Path) : Except ConfigFault (Option Path) := do
  let directory :=
    match ← status store start with
    | some .directory => start
    | _ => start.parent
  let settings := directory.join (.ofString settingsFile)
  if (← status store settings).isSome then return some settings
  let project := directory.join (.ofString projectFile)
  if (← status store project).isSome then
    let entries ← readToml store project
    if ← mentionsSection (sectionsOf entries) then return some project
    else return none
  else return none

end WidgetDsl.Config
