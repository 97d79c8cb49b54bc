import WidgetDsl.Files.Path
import WidgetDsl.Text.Quoted

/-!
A store of files and directories below a working directory, and what can go wrong with it. A file is
replaced by way of a temporary one beside it, so that it is at no time half written.
-/

namespace WidgetDsl

/-- Where something lies: names from the working directory down, after double dots from a directory
above it, or after a slash from the root of the file system. -/
abbrev Location := List String

/-- Why a container of members, or one of its members, cannot be unpacked. -/
inductive ContainerFault where
  | unreadable
  | undecodableName
  | encrypted
  | unsupported
  | corruptData
  deriving DecidableEq, Repr

/-- A member of a container: its name, and its bytes as far as these can be unpacked. -/
structure PackedMember where
  name : String
  unpacked : Except ContainerFault ByteArray

/-- What a file holds: its bytes, and what these are if they are taken for a zip container, with the
members in order. -/
structure Content where
  data : ByteArray
  members : Except ContainerFault (List PackedMember)

namespace Content

def bytes (data : ByteArray) : Content := ⟨data, .error .unreadable⟩

def text? (content : Content) : Option String :=
  String.fromUTF8? content.data

end Content

inductive Node where
  | directory
  | file (content : Content)

abbrev Store := List (Location × Node)

inductive FileFault where
  | missing
  | notDirectory
  | isDirectory
  | nameTooLong
  | nullCharacter
  | noTemporaryName
  | fileTooLarge
  deriving DecidableEq, Repr

def FileFault.message : FileFault → String
  | .missing => "no such file"
  | .notDirectory => "not a directory"
  | .isDirectory => "is a directory"
  | .nameTooLong => "name too long"
  | .nullCharacter => "embedded null byte"
  | .noTemporaryName => "no name for a temporary file"
  | .fileTooLarge => "file too large"

namespace Store

def nameLimit : Nat := 255

def pathLimit : Nat := 4095

def workingDirectoryBytes : Nat := 16

def fileLimit : Nat := 0x7fffffffffffffff

def namesBytes : List String → Nat
  | [] => 0
  | name :: rest => name.utf8ByteSize + 1 + namesBytes rest

def fullBytes : Location → Nat
  | "/" :: names => namesBytes names
  | names => workingDirectoryBytes + namesBytes names

def isAbove (location : Location) : Bool :=
  location.all (· = "..")

/-- The working directory, those above it and the root always exist. -/
def node? (store : Store) (location : Location) : Option Node :=
  if isAbove location || location = ["/"] then some .directory else store.lookup location

def parentOf (location : Location) : Location :=
  if isAbove location then location ++ [".."]
  else if location = ["/"] then location
  else location.dropLast

/-- Follows the parts of a path from a directory. Only the last part may lead to a file. -/
def walk (store : Store) : Location → List String → Except FileFault Location
  | location, [] => .ok location
  | location, part :: rest =>
    match store.node? location with
    | none => .error .missing
    | some (.file _) => .error .notDirectory
    | some .directory =>
      if part = ".." then walk store (parentOf location) rest
      else if nameLimit < part.utf8ByteSize then .error .nameTooLong
      else walk store (location ++ [part]) rest

def locate (store : Store) (path : Path) : Except FileFault Location :=
  if '\x00' ∈ path.toString.toList then .error .nullCharacter
  else if pathLimit < path.toString.utf8ByteSize then .error .nameTooLong
  else store.walk (if path.root = "" then [] else ["/"]) path.parts

def find (store : Store) (path : Path) : Except FileFault Node := do
  let location ← store.locate path
  match store.node? location with
  | some node => .ok node
  | none => .error .missing

/-- What a path leads to, if anything: a path that leads nowhere or holds a null character has no
node, but one that is too long is a fault also here. -/
def status (store : Store) (path : Path) : Except FileFault (Option Node) :=
  match store.find path with
  | .ok node => .ok (some node)
  | .error .nameTooLong => .error .nameTooLong
  | .error _ => .ok none

def read (store : Store) (path : Path) : Except FileFault Content := do
  match ← store.find path with
  | .file content => .ok content
  | .directory => .error .isDirectory

def put (store : Store) (location : Location) (node : Node) : Store :=
  match store with
  | [] => [(location, node)]
  | (key, old) :: rest =>
    if key = location then (key, node) :: rest else (key, old) :: put rest location node

def remove (store : Store) (location : Location) : Store :=
  match store with
  | [] => []
  | (key, node) :: rest =>
    if key = location then remove rest location else (key, node) :: remove rest location

theorem lookup_put (store : Store) (location other : Location) (node : Node) :
    (store.put location node).lookup other =
      if other = location then some node else store.lookup other := by
  induction store with
  | nil =>
    by_cases same : other = location
    · simp [put, same]
    · simp [put, List.lookup_cons, same, beq_false_of_ne same]
  | cons entry rest ih =>
    obtain ⟨key, old⟩ := entry
    by_cases found : key = location
    · subst found
      by_cases same : other = key
      · simp [put, same]
      · simp [put, List.lookup_cons, same, beq_false_of_ne same]
    · rw [put, if_neg found]
      by_cases same : other = key
      · subst same
        simp [found]
      · simp [List.lookup_cons, beq_false_of_ne same, ih]

theorem lookup_remove (store : Store) (location other : Location) :
    (store.remove location).lookup other =
      if other = location then none else store.lookup other := by
  induction store with
  | nil => simp [remove]
  | cons entry rest ih =>
    obtain ⟨key, old⟩ := entry
    by_cases found : key = location
    · subst found
      rw [remove, if_pos rfl, ih]
      by_cases same : other = key
      · simp [same]
      · simp [List.lookup_cons, beq_false_of_ne same]
    · rw [remove, if_neg found]
      by_cases same : other = key
      · subst same
        simp [found]
      · simp [List.lookup_cons, beq_false_of_ne same, ih]

def makeDirectories (store : Store) :
    Location → List String → Except FileFault Location × Store
  | location, [] => (.ok location, store)
  | location, part :: rest =>
    match store.walk location [part] with
    | .error fault => (.error fault, store)
    | .ok next =>
      match store.node? next with
      | some .directory => makeDirectories store next rest
      | some (.file _) => (.error .notDirectory, store)
      | none => makeDirectories (store.put next .directory) next rest

def temporaryNames (store : Store) (name : String) : List String :=
  (List.range (store.length + 1)).map fun n =>
    "." ++ name ++ "." ++ String.ofList (Text.hex 8 n) ++ ".tmp"

/-- Replaces the file that a path leads to in a directory, or makes it. All is written to a
temporary file with a fresh name first; if that cannot hold it all, or cannot take the file's place, it
is removed. -/
def replaceFile (store : Store) (directory : Location) (path : Path) (data : ByteArray) :
    Except FileFault Unit × Store :=
  if '\x00' ∈ path.name.toList then (.error .nullCharacter, store)
  else
    match (store.temporaryNames path.name).find? fun t =>
      (store.node? (directory ++ [t])).isNone with
    | none => (.error .noTemporaryName, store)
    | some name =>
      let temporary := directory ++ [name]
      if nameLimit < name.utf8ByteSize ∨ pathLimit < fullBytes temporary then
        (.error .nameTooLong, store)
      else
        let written := store.put temporary (.file (.bytes (data.extract 0 fileLimit)))
        if fileLimit < data.size then (.error .fileTooLarge, written.remove temporary)
        else if pathLimit < path.toString.utf8ByteSize then
          (.error .nameTooLong, written.remove temporary)
        else
          match path.name, written.node? (directory ++ [path.name]) with
          | "", _ => (.error .isDirectory, written.remove temporary)
          | "..", _ => (.error .isDirectory, written.remove temporary)
          | _, some .directory => (.error .isDirectory, written.remove temporary)
          | _, _ =>
            (.ok (), (written.remove temporary).put (directory ++ [path.name])
              (.file (.bytes data)))

def makeDirectory (store : Store) (path : Path) : Except FileFault Location × Store :=
  if '\x00' ∈ path.toString.toList then (.error .nullCharacter, store)
  else if pathLimit < path.toString.utf8ByteSize then (.error .nameTooLong, store)
  else store.makeDirectories (if path.root = "" then [] else ["/"]) path.parts

def writeText (store : Store) (path : Path) (text : String) : Except FileFault Unit × Store :=
  match store.makeDirectory path.parent with
  | (.error fault, store) => (.error fault, store)
  | (.ok directory, store) => store.replaceFile directory path text.toUTF8

def save (store : Store) (path : Path) (content : Content) : Except FileFault Unit × Store :=
  match store.makeDirectory path.parent with
  | (.error fault, store) => (.error fault, store)
  | (.ok _, store) =>
    match store.locate path with
    | .error fault => (.error fault, store)
    | .ok location =>
      match store.node? location with
      | some .directory => (.error .isDirectory, store)
      | _ => (.ok (), store.put location (.file content))

def deleteAt (store : Store) (location : Location) : Except FileFault Unit × Store :=
  match store.node? location with
  | none => (.error .missing, store)
  | some .directory => (.error .isDirectory, store)
  | some (.file _) => (.ok (), store.remove location)

/-- Deletes the file that a path leads to, as it is written. A path that ends in a slash or in a dot
asks for a directory, whatever there is. -/
def delete (store : Store) (path : String) : Except FileFault Unit × Store :=
  if '\x00' ∈ path.toList then (.error .nullCharacter, store)
  else if pathLimit < path.utf8ByteSize then (.error .nameTooLong, store)
  else if ["", "."].contains (Text.afterLast '/' path) then (.error .isDirectory, store)
  else
    match store.locate (.ofString path) with
    | .error fault => (.error fault, store)
    | .ok location => store.deleteAt location

def pathsWhere (store : Store) (wanted : Location → Node → Bool) : List String :=
  let found := store.filter fun (location, node) =>
    location.head? != some "/" && location.head? != some ".." && wanted location node
  (found.map fun entry => String.intercalate "/" entry.1).mergeSort fun a b => decide (a ≤ b)

def files (store : Store) : List String :=
  store.pathsWhere fun _ node => node matches .file _

def ending (store : Store) (suffix : String) : List String :=
  store.pathsWhere fun location _ => (location.getLast?.getD "").endsWith suffix

end Store

end WidgetDsl
