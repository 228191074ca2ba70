import Flowplan.Layout.Amount
import Flowplan.Settings.Basic

namespace Flowplan.Layout

structure Options where
  nodeWidth : Amount
  nodeHeight : Amount
  horizontalSpacing : Amount
  verticalSpacing : Amount
  startX : Amount
  startY : Amount
deriving DecidableEq, Repr

namespace Options

def ofSettings (s : Settings) : Options :=
  ⟨.int s.layoutNodeWidth, .int s.layoutNodeHeight, .int s.layoutHorizontalSpacing,
    .int s.layoutVerticalSpacing, .int s.layoutStartX, .int s.layoutStartY⟩

/-- Options that are whole numbers. -/
def whole (width height across down left top : Int) : Options :=
  ⟨.int width, .int height, .int across, .int down, .int left, .int top⟩

/-- The options that nothing is configured for. -/
def default : Options := ofSettings Settings.default

/-- The options with one of them changed, by its name. -/
def set? (o : Options) (name : String) (value : Amount) : Option Options :=
  match name with
  | "node_width" => some { o with nodeWidth := value }
  | "node_height" => some { o with nodeHeight := value }
  | "horizontal_spacing" => some { o with horizontalSpacing := value }
  | "vertical_spacing" => some { o with verticalSpacing := value }
  | "start_x" => some { o with startX := value }
  | "start_y" => some { o with startY := value }
  | _ => none

/-- The options with several changed, unless one of the names is unknown. -/
def setAll? (o : Options) : List (String × Amount) → Option Options
  | [] => some o
  | (name, value) :: rest => (o.set? name value).bind (setAll? · rest)

def toJson (o : Options) : Json :=
  .obj [("node_width", o.nodeWidth.toJson), ("node_height", o.nodeHeight.toJson),
    ("horizontal_spacing", o.horizontalSpacing.toJson),
    ("vertical_spacing", o.verticalSpacing.toJson), ("start_x", o.startX.toJson),
    ("start_y", o.startY.toJson)]

end Options
end Flowplan.Layout
