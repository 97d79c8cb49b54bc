import WidgetDsl.Catalog
import WidgetDsl.Config.Fault
import WidgetDsl.Dispatch.Table
import WidgetDsl.Override.Module

/-!
Everything that can end a run, by its cause.
-/

namespace WidgetDsl

inductive Failure where
  | config (fault : ConfigFault)
  | overrides (fault : ModuleFault)
  | read (fault : ReadFault)
  | catalog (fault : CatalogFault)
  | resolve (fault : ResolveError)
  | dispatch (fault : Dispatch.Fault)
  | unbalanced (fault : Java.Unbalanced)
  | file (fault : FileFault)

/-- What a failure is about: what the user has given, or something that the program takes as given
itself, or, at the end, a text that cannot be held. -/
inductive FailureKind where
  | archive
  | config
  | unresolvedClass
  | generation
  | value
  | encoding
  | parts
  | type
  | position
  | file
  | encryption
  | packing
  | packedData
  | halfText
  deriving DecidableEq, Repr

def FailureKind.isReported : FailureKind → Bool
  | .archive | .config | .unresolvedClass | .generation => true
  | _ => false

def TextFault.kind : TextFault → FailureKind
  | .notUtf8 => .encoding
  | .nullInPath => .value
  | .longInteger _ => .value

def FileFault.kind : FileFault → FailureKind
  | .nullCharacter => .value
  | _ => .file

def ConfigFault.kind : ConfigFault → FailureKind
  | .text fault => fault.kind
  | .file fault => fault.kind
  | .noSections => .parts
  | .notSearchable | .wrongType _ => .type
  | _ => .config

def OverrideFault.kind : OverrideFault → FailureKind
  | .notShown => .value
  | _ => .config

def ModuleFault.kind : ModuleFault → FailureKind
  | .relative _ | .notFunction => .type
  | .noEntries | .notText => .parts
  | .fixedEntry entry => if entry = Modules.tableEntry then .parts else .type
  | .table fault => fault.kind
  | _ => .config

def ContainerFault.kind : ContainerFault → FailureKind
  | .unreadable => .archive
  | .undecodableName => .encoding
  | .encrypted => .encryption
  | .unsupported => .packing
  | .corruptData => .packedData

def ReadFault.kind : ReadFault → FailureKind
  | .archive _ _ => .archive
  | .text fault => fault.kind
  | .container fault => fault.kind
  | .namelessMember => .position
  | .halfPair => .halfText

def ContainerFault.message : ContainerFault → String
  | .unreadable => "damaged container"
  | .undecodableName => "a member's name cannot be decoded"
  | .encrypted => "a member is encrypted"
  | .unsupported => "a member is packed in an unknown way"
  | .corruptData => "a member's data cannot be unpacked"

def ReadFault.message : ReadFault → String
  | .archive path fault => path ++ ": " ++ fault.message
  | .text fault => fault.message
  | .container fault => fault.message
  | .namelessMember => "a member has no name"
  | .halfPair => "half of a surrogate pair"

def CatalogFault.kind : CatalogFault → FailureKind
  | .cyclic _ => .archive
  | .rootUnresolved _ _ | .rootNotClass _ => .generation

def ResolveError.kind : ResolveError → FailureKind
  | .unresolved _ _ => .unresolvedClass
  | .cyclic _ => .archive

def Dispatch.Fault.kind : Dispatch.Fault → FailureKind
  | .unbalanced _ | .misplaced _ => .value
  | .override fault => fault.kind

namespace Failure

def kind : Failure → FailureKind
  | .config fault => fault.kind
  | .overrides fault => fault.kind
  | .read fault => fault.kind
  | .catalog fault => fault.kind
  | .resolve fault => fault.kind
  | .dispatch fault => fault.kind
  | .unbalanced _ => .value
  | .file fault => fault.kind

def message : Failure → String
  | .config fault => fault.message
  | .overrides fault => fault.message
  | .read fault => fault.message
  | .catalog fault => fault.message
  | .resolve fault => fault.message
  | .dispatch fault => fault.message
  | .unbalanced fault => fault.message
  | .file fault => fault.message

def ofTable : Dispatch.TableFault → Failure
  | .branch fault => .dispatch fault
  | .resolve fault => .resolve fault

end Failure

end WidgetDsl
