import WidgetDsl.CommandLine.Output
import WidgetDsl.Generator
import WidgetDsl.Json.Writer

/-!
What commands tell about runs and analyses.
-/

namespace WidgetDsl.CommandLine

def version : String := "0.1.0"

def versionItems : List Item :=
  [.text [toolName ++ " version " ++ version]]

def errorItems (message : String) : List Item :=
  [.text [styled "red" "Error:", " " ++ message]]

def warningItem (warning : Warning) : Item :=
  let place := (warning.className.filter (· ≠ "")).getD "-"
  .text ["  [" ++ warning.code ++ "] " ++ place ++ ": " ++ warning.message]

def warningItems (warnings : List Warning) : List Item :=
  if warnings.isEmpty then []
  else [.text [""], .text [styled "yellow" "Warnings:"]] ++ warnings.map warningItem

def countItem (label : String) (count : Nat) : Item :=
  .text ["  " ++ label ++ ": " ++ toString count]

def draftItems (draft : Draft) (path : Path) : List Item :=
  warningItems draft.analysis.warnings ++
    [.text ["\n", styled "green" "Generated successfully!"],
      .text ["  Output: " ++ path.toString],
      countItem "Classes" draft.unit.factories.length,
      countItem "Attributes" draft.unit.cases.length,
      countItem "Wrappers" draft.unit.wrappers.length]

def candidateTree (candidate : Candidate) : Tree :=
  .node
    ([styled (if candidate.isListener then "magenta" else "green") candidate.name,
        "(" ++ candidate.valueType.simpleName ++ ")"] ++
      (if candidate.isNullable then [(" " : Span), styled "dim" "nullable"] else []))
    []

def classTree (analysis : Analysis) (type : ResolvedType) : Tree :=
  .node
    ([styled "cyan" type.canonicalName] ++
      (if type.isAbstract then [(" " : Span), styled "dim" "(abstract)"] else []) ++
      (if analysis.excludedClasses.contains type.canonicalName then
        [(" " : Span), styled "yellow" "excluded by quirks"] else []))
    ((analysis.candidatesOf type).map candidateTree)

def summary (analysis : Analysis) : Grid :=
  let branches := analysis.groups.flatMap (·.candidates)
  let eliminated := analysis.groups.flatMap (·.eliminated)
  let row := fun (label : String) (count : Nat) => [label, toString count]
  { title := "Summary"
    columns := ["Metric", "Count"]
    rows := [row "Classes" analysis.classes.length, row "Attributes" analysis.groups.length,
      row "Branches" branches.length,
      row "  listeners" (branches.filter (·.isListener)).length,
      row "Eliminated overrides" eliminated.length] }

def analysisItems (analysis : Analysis) : List Item :=
  let catalog : Item := .panel toolName
    [styled "bold" "Catalog", "\nRoot: " ++ analysis.root.canonicalName,
      "\nClasses: " ++ toString analysis.classes.length]
  let classes : List Item :=
    if analysis.classes.isEmpty then
      [.text ["\n", styled "yellow" "No eligible widget classes found."]]
    else
      [.tree (.node [styled "bold" "Widget Classes"] (analysis.classes.map (classTree analysis))),
        .text [""], .grid (summary analysis)]
  catalog :: classes ++ warningItems analysis.warnings

def analysisText (analysis : Analysis) : String :=
  Json.write .indented analysis.toValue ++ "\n"

end WidgetDsl.CommandLine
