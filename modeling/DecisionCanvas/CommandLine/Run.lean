import DecisionCanvas.CommandLine.Arguments
import DecisionCanvas.Canvas.ConfigText
import DecisionCanvas.Canvas.Json
import DecisionCanvas.Compiled.Check
import DecisionCanvas.Store.Load
import DecisionCanvas.Tree.Equivalence
import DecisionCanvas.Tree.Json
import DecisionCanvas.Tree.Selectors

/-!
# Running commands

A command reads its files, prints or writes a result and ends, or fails with a
chain of texts, the outermost first.  What it does to the world goes through a
host, so the same commands run on real files and on a table of texts.
-/

namespace DecisionCanvas.CommandLine

/-- The world as commands see it. -/
structure Host (m : Type → Type) where
  /-- The text of a file, if it can be read. -/
  textOf : String → m (Option String)
  /-- Writes a file and says whether that has worked. -/
  put : String → String → m Bool
  /-- Prints a line. -/
  print : String → m Unit
  /-- The snap threshold in the environment. -/
  threshold : Option String

/-- A command at work: it may fail and may hand out fresh UUIDs. -/
abbrev Work (m : Type → Type) := StateT IdSource (ExceptT (List String) m)

variable {m : Type → Type} [Monad m]

def fail {Result : Type} (chain : List String) : Work m Result :=
  throw chain

def ask {Result : Type} (deed : m Result) : Work m Result :=
  StateT.lift (ExceptT.lift deed)

/-- Reads a file that must be a document of some kind. -/
def readDocument {Result : Type} (host : Host m) (path : String)
    (read : Json → Reading Result) : Work m Result := do
  match ← ask (host.textOf path) with
  | none => fail ["Failed to read input file: " ++ path]
  | some text =>
    let source ← get
    match (Json.read? text).bind fun json => (read json).run source with
    | none => fail ["Failed to parse JSON in " ++ path]
    | some (result, source) =>
      set source
      return result

/-- Writes a result to a file, or prints it if there is none. -/
def deliver (host : Host m) (output : Option String) (text : String) : Work m Unit := do
  match output with
  | none => ask (host.print text)
  | some path =>
    if ← ask (host.put path text) then ask (host.print ("Saved to: " ++ path))
    else fail ["Failed to write output file: " ++ path]

def readCatalog (host : Host m) : Option String → Work m Catalog
  | some path => readDocument host path fun json => (Catalog.ofJson? json : Option Catalog)
  | none => return .empty

/-- The result, or a failure in a context. -/
def succeed {Error Result : Type} (context : String) (chain : Error → List String)
    (result : Except Error Result) : Work m Result :=
  match result with
  | .ok result => return result
  | .error error => fail (context :: chain error)

def SaveError.chain (error : SaveError) : List String :=
  error.message ::
    match error with
    | .compile inner => [inner.message]
    | .store inner => [inner.message]
    | .unmapped _ => []

def LoadError.chain (error : LoadError) : List String :=
  error.message ::
    match error with
    | .store inner => [inner.message]
    | .rebuild _ inner => [inner.message]
    | .wrongType _ _ _ => []

def nameValues (tree : IfTree) : Work m IfTree :=
  modifyGet fun source => tree.withSelectors source

def compile (host : Host m) (input : String) (adjustment : Bool) (output : Option String) :
    Work m Unit := do
  let compiled ←
    if adjustment then
      let tree ← readDocument host input AdjustmentTree.ofJson
      pure tree.compile
    else
      let tree ← readDocument host input IfTree.ofJson
      pure tree.compile
  let compiled ← succeed ("Failed to compile " ++ input) (fun error => [error.message]) compiled
  deliver host output compiled.toJson.text

def kindOf (conditional : Bool) : TreeKind :=
  if conditional then .conditional else .numeric

def rebuild (host : Host m) (input : String) (facts : Option String)
    (conditional adjustment : Bool) (output : Option String) : Work m Unit := do
  let compiled ← readDocument host input fun json => (CompiledTree.ofJson? json : Option _)
  let catalog ← readCatalog host facts
  let context := "Failed to rebuild " ++ input
  let chain := fun (error : RebuildError) => [error.message]
  let json ←
    if adjustment then do
      let tree ← succeed context chain (compiled.rebuildAdjustment catalog)
      let tree ← modifyGet fun source => AdjustmentTree.withSelectors source tree
      pure tree.toJson
    else do
      let tree ← succeed context chain (compiled.rebuildIf catalog (kindOf conditional))
      let tree ← nameValues tree
      pure tree.toJson
  deliver host output json.text

def roundtripKey : String := "roundtrip"

def roundtrip (host : Host m) (input : String) (facts : Option String) (conditional : Bool) :
    Work m Unit := do
  let tree ← readDocument host input IfTree.ofJson
  let catalog ← readCatalog host facts
  let (saved, store) := (TreeStore.empty none).saveIf roundtripKey tree (kindOf conditional)
  let saved ← succeed "Failed to save tree" SaveError.chain saved
  ask (host.print ("Saved tree " ++ toString saved.tree ++ " (" ++ toString saved.ids.length ++
    " expressions)"))
  let rebuilt ← succeed "Failed to load tree" LoadError.chain (store.loadIf roundtripKey catalog)
  let named ← nameValues rebuilt
  ask (host.print named.toJson.text)
  if rebuilt.equivalent tree then ask (host.print "\n✓ Round trip preserved the tree")
  else fail ["Rebuilt tree differs from " ++ input]

def readGraph (host : Host m) (path : String) : Work m (Graph Float) := do
  let persisted ← readDocument host path fun json => (PersistedGraph.ofJson? json : Option _)
  return persisted.restore

def placedNode (node : Node Float) : Json :=
  .object [("id", .string node.id), ("operand", .string node.operand.symbol),
    ("variable", .string node.label), ("x", Json.ofFloat node.x), ("y", Json.ofFloat node.y)]

def placedLayers (graph : Graph Float) : Json :=
  .object [("layers", .array (graph.layers.map fun layer =>
    .object [("id", .string layer.id),
      ("nodes", .array ((graph.layerNodes layer.id).map placedNode)),
      ("width", Json.ofFloat layer.width), ("y", Json.ofFloat layer.y)]))]

def layout (host : Host m) (input : String) (output : Option String) : Work m Unit := do
  let graph ← readGraph host input
  deliver host output (placedLayers graph).text

/-- The viewport that drops assume. -/
def dropViewport : Size Float := ⟨1280, 800⟩

/-- The settings of a drop: those of a file or the standard ones, then what the
environment overrides. -/
def readConfig (host : Host m) (path : Option String) : Work m (CanvasConfig Float) := do
  let config ←
    match path with
    | none => pure .standard
    | some path => do
      let context := "Failed to load canvas config: " ++ path
      match ← ask (host.textOf path) with
      | none => fail [context, (ConfigError.unreadable path).message]
      | some text =>
        succeed context (fun error => [error.message]) (CanvasConfig.ofText text)
  succeed "Invalid canvas config override" (fun fault => [fault.message])
    (config.withOverride host.threshold)

def drop (host : Host m) (graph fact : String) (x y : Float) (config output : Option String) :
    Work m Unit := do
  let config ← readConfig host config
  let graph ← readGraph host graph
  let fact ← readDocument host fact fun json => (PaletteFact.ofJson? json : Option _)
  let session ← succeed "Invalid canvas config" (fun fault => [fault.message])
    (Session.start config dropViewport)
  let payload := DragPayload.fact fact
  let pointer : Point Float := ⟨x, y⟩
  let newId ← modifyGet IdSource.draw
  let (session, _) := session.startDrag graph payload pointer
  let (_, graph, effect) := session.endDrag graph newId.text payload pointer
  match effect with
  | .dispatched action => ask (host.print ("Dispatched " ++ action))
  | .rejected error => fail ["Drop rejected: " ++ error.message]
  | .noop reason => ask (host.print ("Nothing dropped: " ++ reason.name))
  | _ => pure ()
  deliver host output graph.toText

def run (host : Host m) : Command → Work m Unit
  | .compile input adjustment output => compile host input adjustment output
  | .rebuild input facts conditional adjustment output =>
    rebuild host input facts conditional adjustment output
  | .roundtrip input facts conditional => roundtrip host input facts conditional
  | .layout input output => layout host input output
  | .drop graph fact x y config output => drop host graph fact x y config output

/-- How a program ends: its exit code and the texts of its failure. -/
structure Ending where
  exitCode : Nat
  errors : List String
  deriving DecidableEq

def usage : String :=
  "Usage: branchwork <COMMAND>\n\n" ++
  "  compile <INPUT> [--adjustment] [-o <OUTPUT>]\n" ++
  "  rebuild <INPUT> [-f <FACTS>] [--conditional | --adjustment] [-o <OUTPUT>]\n" ++
  "  roundtrip <INPUT> [-f <FACTS>] [--conditional]\n" ++
  "  layout <INPUT> [-o <OUTPUT>]\n" ++
  "  drop <GRAPH> <FACT> --x <X> --y <Y> [-c <CONFIG>] [-o <OUTPUT>]"

/-- Runs a whole command line.  The outermost text of a failure is marked as an
error. -/
def runLine (host : Host m) (source : IdSource) (arguments : List String) : m Ending := do
  match read arguments with
  | .misuse => return ⟨2, []⟩
  | .help =>
    host.print usage
    return ⟨0, []⟩
  | .version =>
    host.print "branchwork 0.1.0"
    return ⟨0, []⟩
  | .run command =>
    match ← ((run host command).run source).run with
    | .ok _ => return ⟨0, []⟩
    | .error [] => return ⟨1, ["Error: "]⟩
    | .error (outermost :: causes) => return ⟨1, ("Error: " ++ outermost) :: causes⟩

end DecisionCanvas.CommandLine
