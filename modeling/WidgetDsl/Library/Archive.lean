import WidgetDsl.Files.Store
import WidgetDsl.Json.Reader
import WidgetDsl.Library.Descriptor

/-!
Archives of descriptors: one JSON bundle, or a zip container with one descriptor to a member.
-/

namespace WidgetDsl

structure Archive where
  path : String
  entries : Entries ClassDecl
  deriving DecidableEq, Repr

inductive ArchiveFault where
  | unreadable
  | invalidJson
  | notBundle
  | entriesNotObject
  | invalidMember (member : String)
  | descriptor (entry : String) (fault : DescriptorFault)
  deriving Repr

inductive TextFault where
  | notUtf8
  | nullInPath
  | longInteger (digits : Nat)
  deriving DecidableEq, Repr

def TextFault.message : TextFault → String
  | .notUtf8 => "text is not UTF-8"
  | .nullInPath => FileFault.message .nullCharacter
  | .longInteger digits => Value.longIntegerMessage (some digits)

inductive ReadFault where
  | archive (path : String) (fault : ArchiveFault)
  | text (fault : TextFault)
  | container (fault : ContainerFault)
  /-- A container with a member that has no name, of which nobody can tell whether it is a class. -/
  | namelessMember
  | halfPair
  deriving Repr

def bundleFormat : String := "dslgen-descriptors/1"

def ArchiveFault.message : ArchiveFault → String
  | .unreadable => "cannot read archive"
  | .invalidJson => "invalid JSON"
  | .notBundle => "not a " ++ bundleFormat ++ " bundle"
  | .entriesNotObject => "'entries' must be an object"
  | .invalidMember member => "invalid descriptor " ++ member
  | .descriptor entry fault => entry ++ ": " ++ fault.message

namespace Archive

def classEntries (archive : Archive) : List String :=
  Descriptor.sorted (archive.entries.keys.filter fun entry => (binaryName? entry).isSome)

def zipSuffixes : List String := [".zip", ".jar", ".aar"]

def readText (malformed : ReadFault) (text : String) : Except ReadFault Value :=
  (Json.parse text).mapError fun
    | .format .malformed => malformed
    | .format (.longInteger digits) => .text (.longInteger digits)
    | .halfPair => .halfPair

def bundleEntries (path : String) : Value → Except ReadFault (Entries Value)
  | .table data =>
    match data.lookup "format", data.lookup "entries" with
    | some (.text format), found =>
      if format ≠ bundleFormat then .error (.archive path .notBundle)
      else
        match found with
        | some (.table entries) => .ok entries
        | _ => .error (.archive path .entriesNotObject)
    | _, _ => .error (.archive path .notBundle)
  | _ => .error (.archive path .notBundle)

def readBundle (store : Store) (path : Path) : Except ReadFault (Entries Value) :=
  match store.read path with
  | .error .nullCharacter => .error (.text .nullInPath)
  | .error _ => .error (.archive path.toString .unreadable)
  | .ok content =>
    match content.text? with
    | none => .error (.text .notUtf8)
    | some text =>
      readText (.archive path.toString .invalidJson) text >>= bundleEntries path.toString

/-- What becomes of a fault in opening a container: of those only damage is looked out for. -/
def openingFault (path : String) : ContainerFault → ReadFault
  | .unreadable => .archive path .unreadable
  | fault => .container fault

def memberFault (path member : String) : ContainerFault → ReadFault
  | .unreadable => .archive path .unreadable
  | .undecodableName => .archive path (.invalidMember member)
  | fault => .container fault

def readMember (path member : String) (unpacked : Except ContainerFault ByteArray) :
    Except ReadFault Value := do
  let data ← unpacked.mapError (memberFault path member)
  match String.fromUTF8? data with
  | none => .error (.archive path (.invalidMember member))
  | some text => readText (.archive path (.invalidMember member)) text

/-- The name of a member, which ends before the first null character in it. -/
def memberName (name : String) : String :=
  String.ofList (name.toList.takeWhile (· ≠ '\x00'))

/-- The descriptors of a container's class members, in order; a repeated name keeps its first place
and its last descriptor. -/
def memberEntries (path : String) :
    Entries Value → List PackedMember → Except ReadFault (Entries Value)
  | done, [] => .ok done
  | done, packed :: rest =>
    let member := memberName packed.name
    if member = "" then .error .namelessMember
    else if (binaryName? member).isNone then memberEntries path done rest
    else
      match readMember path member packed.unpacked with
      | .error fault => .error fault
      | .ok value => memberEntries path (done.insert member value) rest

def readContainer (store : Store) (path : Path) : Except ReadFault (Entries Value) :=
  match store.read path with
  | .error .nullCharacter => .error (.text .nullInPath)
  | .error _ => .error (.archive path.toString .unreadable)
  | .ok content => do
    let members ← content.members.mapError (openingFault path.toString)
    memberEntries path.toString [] members

def readEntry (path : String) (entry : String × Value) : Except ReadFault (String × ClassDecl) :=
  match Descriptor.read entry.1 entry.2 with
  | .ok decl => .ok (entry.1, decl)
  | .error fault => .error (.archive path (.descriptor entry.1 fault))

def read (store : Store) (path : Path) : Except ReadFault Archive := do
  let given ←
    if zipSuffixes.contains path.lowerSuffix then readContainer store path
    else readBundle store path
  let entries ← given.mapM (readEntry path.toString)
  return { path := path.toString, entries }

end Archive

end WidgetDsl
