import WidgetDsl.Analysis
import WidgetDsl.CompilationUnit.Render
import WidgetDsl.Failure

/-!
The generator: from a configuration to the text of a compilation unit, and into the store. Nothing
is written before the whole text is there.
-/

namespace WidgetDsl

/-- A configuration with its overrides loaded, and what is to tell about null if it is not the
annotations that the configuration names. -/
structure Generator where
  config : Config
  overrides : OverrideTable
  oracle : Option NullabilityOracle

structure Draft where
  analysis : Analysis
  unit : CompilationUnit
  source : String

namespace Config

def loadOverrides (config : Config) (modules : Modules) : Except ModuleFault OverrideTable := do
  let own ← config.overrides.check
  if config.overridesModule.isVacuous then return own
  match config.overridesModule with
  | .text target => return own.merge (← modules.load target)
  | _ => throw .notText

def annotationOracle (config : Config) : NullabilityOracle :=
  .annotations (config.nullableAnnotation :: NullabilityOracle.nullableAnnotations)
    (config.nonNullAnnotation :: NullabilityOracle.nonNullAnnotations)

end Config

namespace Generator

def ofConfig (modules : Modules) (config : Config) : Except ModuleFault Generator := do
  return ⟨config, ← config.loadOverrides modules, none⟩

def effectiveOracle (generator : Generator) : NullabilityOracle :=
  generator.oracle.getD generator.config.annotationOracle

def scan (generator : Generator) (store : Store) : Except Failure Scan :=
  (Scan.read store generator.config.archives generator.config.dependencies).mapError .read

def catalog (generator : Generator) (scan : Scan) : Except Failure Catalog :=
  (Catalog.ofScan scan generator.config.root).mapError .catalog

def analyzeScan (generator : Generator) (scan : Scan) : Except Failure Analysis := do
  let catalog ← generator.catalog scan
  (Analysis.ofCatalog scan.library catalog generator.overrides generator.effectiveOracle).mapError
    .resolve

def analyze (generator : Generator) (store : Store) : Except Failure Analysis := do
  generator.analyzeScan (← generator.scan store)

def builder (generator : Generator) (lib : Library) (root : ResolvedType) : Dispatch.Builder :=
  { library := lib
    root
    names := .ofConfig generator.config
    overrides := generator.overrides
    oracle := generator.effectiveOracle }

def table (generator : Generator) (lib : Library) (analysis : Analysis) :
    Except Failure Dispatch.Table :=
  ((generator.builder lib analysis.root).build analysis.groups).mapError .ofTable

/-- The unit of an analysis. Its warnings join those of the analysis. -/
def draftScan (generator : Generator) (scan : Scan) : Except Failure Draft := do
  let analysis ← generator.analyzeScan scan
  let table ← generator.table scan.library analysis
  let (factories, warnings) := Factory.ofClasses analysis.classes generator.overrides
  let unit := CompilationUnit.ofTable generator.config table factories
  let source ← unit.render.mapError .unbalanced
  let analysis := { analysis with warnings := analysis.warnings ++ warnings ++ table.warnings }
  return { analysis, unit, source }

def draft (generator : Generator) (store : Store) : Except Failure Draft := do
  generator.draftScan (← generator.scan store)

def outputPath (generator : Generator) : Path :=
  generator.config.outputPath

/-- A run that writes its unit. A failure before that leaves the store as it is. -/
def generate (generator : Generator) (store : Store) : Except Failure Draft × Store :=
  match generator.draft store with
  | .error failure => (.error failure, store)
  | .ok draft =>
    match store.writeText generator.outputPath draft.source with
    | (.error fault, store) => (.error (.file fault), store)
    | (.ok _, store) => (.ok draft, store)

def run (generator : Generator) (write : Bool) (store : Store) : Except Failure Draft × Store :=
  if write then generator.generate store else (generator.draft store, store)

end Generator

end WidgetDsl
