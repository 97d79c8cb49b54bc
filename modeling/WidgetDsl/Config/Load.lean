import WidgetDsl.Config.File

/-!
Configurations that can be run: made from a file and from what is given beside it, and checked.
-/

namespace WidgetDsl.Config

def load (store : Store) (path : Option Path) (given : Entries GivenSetting) :
    Except ConfigFault Config := do
  let settings ←
    match path with
    | some path => fileSettings store path
    | none => pure Settings.empty
  let settings ← settings.give given
  settings.toConfig

end WidgetDsl.Config
