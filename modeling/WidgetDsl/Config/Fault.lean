import WidgetDsl.Library.Archive

/-!
What can be wrong with settings and the files that they are in.
-/

namespace WidgetDsl

inductive ConfigFault where
  | unreadable (path : String)
  | malformed (path : String)
  | text (fault : TextFault)
  | file (fault : FileFault)
  | noSections
  /-- What should hold the section of this tool cannot even be searched for it. -/
  | notSearchable
  | sectionNotTable (path : String)
  | unknownKeys (path : String) (keys : List String)
  | notPaths (path key : String)
  | notPath (path key : String)
  | notTable (path key : String)
  | notText (path key : String)
  | unknownSetting (name : String)
  | wrongType (name : String)
  | missing (names : List String)
  | noArchives
  | invalid (label : String) (value : Value)
  | overridesNotTable
  deriving Repr

def mustBe (path key what : String) : String :=
  path ++ ": " ++ key ++ " must be " ++ what

def ConfigFault.message : ConfigFault → String
  | .unreadable path => "Cannot read " ++ path
  | .malformed path => "Failed to parse " ++ path
  | .text fault => fault.message
  | .file fault => fault.message
  | .noSections => "tool is not a table"
  | .notSearchable => "tool is not a table"
  | .sectionNotTable path => mustBe path "[tool.dslgen]" "a table"
  | .unknownKeys path keys => path ++ ": unknown settings " ++ quotedList keys
  | .notPaths path key => mustBe path key "a list of paths"
  | .notPath path key => mustBe path key "a path"
  | .notTable path key => mustBe path key "a table"
  | .notText path key => mustBe path key "a string"
  | .unknownSetting name => "Unknown setting: " ++ name
  | .wrongType name => "wrong type of " ++ name
  | .missing names => "Missing required settings: " ++ String.intercalate ", " names
  | .noArchives => "At least one archive is required"
  | .invalid label value => "Invalid " ++ label ++ ": " ++ value.display
  | .overridesNotTable => "quirks must be a table"

end WidgetDsl
