import DecisionCanvas.Canvas.Scalar
import DecisionCanvas.Decimal.Style
import DecisionCanvas.Decimal.Numeral
import DecisionCanvas.Text.Quoted

/-!
# Canvas settings

The settings say how rows are spaced, how near a ghost must come to a row to
snap to it, and how far a canvas can be panned beyond its content.
-/

namespace DecisionCanvas

structure CanvasConfig (R : Type) where
  snapThreshold : R
  rowSpacing : R
  firstRowY : R
  rootLayer : String
  panPadding : R
  deriving DecidableEq

inductive ConfigFault (R : Type) where
  | notPositive (name : String) (value : R)
  | firstRowNotFinite
  | paddingNegative
  | rootLayerEmpty
  | thresholdNotANumber (text : String)
  deriving DecidableEq

def thresholdVariable : String := "BRANCHWORK_SNAP_THRESHOLD"

def ConfigFault.message (fault : ConfigFault Float) : String :=
  "Invalid config value: " ++
    match fault with
    | .notPositive name value => name ++ " must be positive, got " ++ Decimal.plainText value
    | .firstRowNotFinite => "first_row_y must be finite"
    | .paddingNegative => "pan_padding must not be negative"
    | .rootLayerEmpty => "root_layer_id must not be empty"
    | .thresholdNotANumber text =>
      thresholdVariable ++ "=" ++ Text.quoted text ++ " is not a number"

namespace CanvasConfig

variable {R : Type} [Scalar R]

/-- The settings where nothing else is given. -/
def standard : CanvasConfig R :=
  ⟨Scalar.ofNat 48, Scalar.ofNat 140, Scalar.ofNat 80, "root", Scalar.ofNat 120⟩

instance : Inhabited (CanvasConfig R) := ⟨standard⟩

/-- Whether a number is finite and above zero. -/
def isPositive (value : R) : Bool :=
  Scalar.isFinite value && !Scalar.atMost value (Scalar.ofNat 0)

/-- The first fault of settings. -/
def fault? (config : CanvasConfig R) : Option (ConfigFault R) :=
  if !isPositive config.snapThreshold then
    some (.notPositive "snap_threshold" config.snapThreshold)
  else if !isPositive config.rowSpacing then some (.notPositive "row_spacing" config.rowSpacing)
  else if !Scalar.isFinite config.firstRowY then some .firstRowNotFinite
  else if !Scalar.isFinite config.panPadding ||
      Scalar.below config.panPadding (Scalar.ofNat 0) then
    some .paddingNegative
  else if config.rootLayer.isEmpty then some .rootLayerEmpty
  else none

/-- The settings if they have no fault. -/
def validate (config : CanvasConfig R) : Except (ConfigFault R) (CanvasConfig R) :=
  match config.fault? with
  | some fault => .error fault
  | none => .ok config

/-- The height of a row that has no layer yet; the root row is row zero. -/
def rowY (config : CanvasConfig R) (row : Nat) : R :=
  config.firstRowY + Scalar.ofNat row * config.rowSpacing

/-- The settings with the snap threshold that the environment gives, if any. -/
def withOverride (config : CanvasConfig Float) (environment : Option String) :
    Except (ConfigFault Float) (CanvasConfig Float) :=
  match environment with
  | none => .ok config
  | some text =>
    match Decimal.readNumber text with
    | none => .error (.thresholdNotANumber text)
    | some threshold => { config with snapThreshold := threshold }.validate

end CanvasConfig

end DecisionCanvas
