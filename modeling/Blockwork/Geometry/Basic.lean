import Blockwork.Geometry.Viewport
import Blockwork.Registry

/-!
# Geometry

Composing and dropping blocks needs to know where things are.  A provider answers
a few questions about the blocks and the viewport.  It may keep what it has worked
out, so a question may change its own state, and only that.  It is told when the
children of a block have changed and when a block is gone.

Whoever draws the blocks can be a provider, so nothing is taken for granted of one:
it may fail to answer, and it may fail when it is told something.  A `Geometry` is
a provider of which the second is not true.  Both geometries of this library are.

Rectangles of blocks, inputs and bodies are in the workspace.  Pointers, the
workspace rectangle and the deletion rectangle are on the screen.
-/

namespace Blockwork

/-- What a geometry looks at. -/
structure Scene where
  /-- The blocks. -/
  registry : Registry
  viewport : Viewport

/-- A question about a scene.  It may fail, and it may change the state of the
geometry. -/
abbrev Query (σ α : Type) := ReaderT Scene (ExceptT Fault (StateM σ)) α

namespace Query

/-- The answer of a function that may fail. -/
def ofExcept {σ α : Type} (r : Except Fault α) : Query σ α := fun _ s => (r, s)

/-- The answer of a function that may break down. -/
def ofBreakdown {σ α : Type} (r : Except Breakdown α) : Query σ α :=
  ofExcept (r.mapError .breakdown)

end Query

/-- The questions about a scene. -/
class Survey (σ : Type) where
  /-- The rectangle of a block. -/
  boundingBox : BlockId → Query σ Rect
  /-- The screen point of a workspace point. -/
  screenPoint : Point → Query σ Point
  /-- The workspace point of a screen point. -/
  workspacePoint : Point → Query σ Point
  /-- The rectangle of an input, if the block has it. -/
  slotRect : BlockId → String → Query σ (Option Rect)
  /-- The rectangle of a body, if the block has one. -/
  bodyRect : BlockId → Query σ (Option Rect)
  /-- The rectangle of the workspace on the screen. -/
  workspaceRect : Query σ Rect
  /-- The rectangle where dropped blocks are deleted, if there is one. -/
  deletionRect : Query σ (Option Rect)

/-- The screen rectangle of a workspace rectangle. -/
def Survey.screenRect {σ : Type} [Survey σ] (r : Rect) : Query σ Rect := do
  let p ← screenPoint r.corner
  let q ← screenPoint r.farCorner
  return .ofCorners p q

/-- What answers the questions and is told of changes.  It may look at the scene when
it is told something, and may fail to take it. -/
class Provider (σ : Type) extends Survey σ where
  /-- The children of a block have changed. -/
  childrenChanged : BlockId → Query σ Unit
  /-- A block is gone. -/
  forget : BlockId → Query σ Unit
  /-- All blocks are gone. -/
  reset : Query σ Unit

/-- A provider that takes whatever it is told, wherever it is told. -/
class Geometry (σ : Type) extends Survey σ where
  /-- The children of a block have changed. -/
  childrenChanged : BlockId → σ → σ
  /-- A block is gone. -/
  forget : BlockId → σ → σ
  /-- All blocks are gone. -/
  reset : σ → σ

instance Geometry.toProvider {σ : Type} [Geometry σ] : Provider σ where
  childrenChanged id := modify (childrenChanged id)
  forget id := modify (forget id)
  reset := modify reset

end Blockwork
