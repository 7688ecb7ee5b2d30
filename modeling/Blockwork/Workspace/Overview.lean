import Blockwork.Workspace.Basic

/-!
# The overview of a workspace

The overview is one object with the viewport, the drag that is under way, the
settings with the names of the languages, and the numbers of blocks, of blocks at
the top level, and of definitions.
-/

namespace Blockwork.Workspace

variable {σ : Type}

/-- A number of things. -/
def count (n : Nat) : Json := .int n

/-- The part of the overview about the viewport. -/
def viewportOverview (v : Viewport) : Json :=
  .obj [
    ("zoom", .float v.zoom),
    ("pan_x", .float v.panX),
    ("pan_y", .float v.panY),
    ("width", .float v.width),
    ("height", .float v.height)]

/-- The part of the overview about the drag. -/
def dragOverview (w : Workspace σ) : Json :=
  let s := w.drag.getD {}
  .obj [
    ("active", .bool w.isDragging),
    ("block_id", .ofText? s.block),
    ("state", .str s.state.name)]

/-- The part of the overview about the settings. -/
def settingsOverview (w : Workspace σ) : Json :=
  .obj [
    ("storage_key", w.settings.storageKey),
    ("default_language", w.settings.defaultLanguage),
    ("languages", .arr (w.languages.map Code.Language.name))]

/-- The part of the overview about the numbers of things. -/
def modelOverview (w : Workspace σ) : Json :=
  .obj [
    ("block_count", count w.board.registry.size),
    ("root_count", count w.board.registry.roots.length),
    ("definition_count", count w.palette.length)]

def overview (w : Workspace σ) : Json :=
  .obj [
    ("viewport", viewportOverview w.board.viewport),
    ("drag", dragOverview w),
    ("settings", settingsOverview w),
    ("model", modelOverview w)]

end Blockwork.Workspace
