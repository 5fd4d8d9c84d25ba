import DecisionCanvas.Canvas.Config
import DecisionCanvas.Toml.Reader

/-!
# Settings files

The settings of a canvas are read from a settings document.  Keys that are not
settings are ignored, and settings that are not given keep their standard value.
-/

namespace DecisionCanvas

inductive ConfigError where
  | unreadable (path : String)
  | malformed
  | invalid (fault : ConfigFault Float)
  deriving DecidableEq

def ConfigError.message : ConfigError → String
  | .unreadable path => "Failed to read config " ++ path
  | .malformed => "Invalid config syntax"
  | .invalid fault => fault.message

namespace Toml

def number (entries : Entries) (key : String) (standard : Float) : Option Float :=
  match entries.lookup key with
  | none => some standard
  | some (.value (.integer value)) => some (Float.ofInt value)
  | some (.value (.float value)) => some value
  | some _ => none

def text (entries : Entries) (key : String) (standard : String) : Option String :=
  match entries.lookup key with
  | none => some standard
  | some (.value (.text value)) => some value
  | some _ => none

end Toml

namespace CanvasConfig

/-- The settings that the entries of a document give. -/
def ofEntries? (entries : Toml.Entries) : Option (CanvasConfig Float) := do
  let standard : CanvasConfig Float := .standard
  let snapThreshold ← Toml.number entries "snap_threshold" standard.snapThreshold
  let rowSpacing ← Toml.number entries "row_spacing" standard.rowSpacing
  let firstRowY ← Toml.number entries "first_row_y" standard.firstRowY
  let rootLayer ← Toml.text entries "root_layer_id" standard.rootLayer
  let panPadding ← Toml.number entries "pan_padding" standard.panPadding
  return { snapThreshold, rowSpacing, firstRowY, rootLayer, panPadding }

def ofText (text : String) : Except ConfigError (CanvasConfig Float) :=
  match (Toml.read? text).bind ofEntries? with
  | none => .error .malformed
  | some config => config.validate.mapError .invalid

end CanvasConfig

end DecisionCanvas
