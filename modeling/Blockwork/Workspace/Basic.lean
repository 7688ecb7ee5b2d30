import Blockwork.Bundle.Reader
import Blockwork.Code.Generate
import Blockwork.Drop.Session
import Blockwork.Geometry.Estimated
import Blockwork.Palette.Search
import Blockwork.Registry.Validate
import Blockwork.Workspace.Settings

/-!
# The workspace

A workspace is a board with a palette, target languages, a store, and at most one
drag under way.  It counts how often it has told its user that the model has
changed, and it hands out the ids of new blocks, `blk-1`, `blk-2` and so on, one
for every block that is made without an id.

A step on a workspace may fail.  What it did before it failed stays done.
-/

namespace Blockwork

/-- Everything that a user works with. -/
structure Workspace (σ : Type) where
  settings : Settings := {}
  store : Option Store := none
  palette : Palette := .standard
  /-- The target languages. -/
  languages : List Code.Language := Code.standardLanguages
  board : Board σ
  /-- The drag that was started last, unless it has ended. -/
  drag : Option Session := none
  /-- The drag that ended last. -/
  lastDrag : Option Session := none
  /-- How many ids have been handed out. -/
  issued : Nat := 0
  /-- How often the model has changed. -/
  changes : Nat := 0

/-- A step on a workspace.  It may fail, and keeps what it did before. -/
abbrev WorkspaceM (σ : Type) := ExceptT Fault (StateM (Workspace σ))

namespace Workspace

variable {σ : Type}

/-- A workspace without blocks.  An empty palette or table of languages stands for
the standard one, and the screen has the size of the settings. -/
def start (settings : Settings) (store : Option Store) (palette : Palette)
    (languages : List Code.Language) (layout : σ) : Workspace σ where
  settings := settings
  store := store
  palette := if palette.isEmpty then .standard else palette
  languages := if languages.isEmpty then Code.standardLanguages else Code.Language.table languages
  board := {
    layout
    viewport := { width := settings.width, height := settings.height } }

/-! ## Steps -/

/-- The result of a function that may fail. -/
def ofExcept {α : Type} (r : Except Fault α) : WorkspaceM σ α := fun w => (r, w)

/-- A step on the board. -/
def onBoard {α : Type} (m : BoardM σ α) : WorkspaceM σ α := fun w =>
  let (r, board) := m w.board
  (r, { w with board })

/-- Ask the geometry. -/
def ask {α : Type} (q : Query σ α) : WorkspaceM σ α := onBoard (Board.ask q)

def blocks : WorkspaceM σ Registry := do return (← get).board.registry

/-- The block of an id. -/
def require (id : BlockId) : WorkspaceM σ Block := onBoard (Board.require id)

/-- Tell that the model has changed. -/
def changed : WorkspaceM σ Unit := modify fun w => { w with changes := w.changes + 1 }

/-- Whether a block is being dragged. -/
def isDragging (w : Workspace σ) : Bool := w.drag.any Session.isActive

/-- No block is being dragged. -/
def demandNoDrag : WorkspaceM σ Unit := do
  match (← get).drag with
  | some s => if s.isActive then throw (.drag (.busy (s.block.getD "")))
  | none => pure ()

/-! ## Making blocks -/

/-- The id that is handed out as the `n`-th. -/
def nthId (n : Nat) : BlockId := s!"blk-{n}"

/-- Make a block.  A given id must be free.  Without one the block gets the next
id that is handed out. -/
def create (d : Definition) (position : Point) (id : Option BlockId) : WorkspaceM σ BlockId := do
  let r ← blocks
  match id with
  | some id =>
      if r.contains id then throw (.payload (.duplicateId id))
      let b ← ofExcept (Definition.lift (Block.ofDefinition d position))
      onBoard (Board.setBlocks (r.insert id b))
      return id
  | none =>
      let b ← ofExcept (Definition.lift (Block.ofDefinition d position))
      let n := (← get).issued + 1
      modify fun w => { w with issued := n }
      onBoard (Board.setBlocks (r.insert (nthId n) b))
      return nthId n

/-- Make a block at the top level, and tell of it. -/
def add (d : Definition) (position : Point) : WorkspaceM σ BlockId := do
  let id ← create d position none
  changed
  return id

/-- The definition of the palette at an index. -/
def entry (index : Int) : WorkspaceM σ Definition := do ofExcept ((← get).palette.get index)

/-- Make a block from the palette. -/
def addEntry (index : Int) (position : Point) : WorkspaceM σ BlockId := do
  add (← entry index) position

/-! ## The palette -/

/-- Add the definition of a draft to the palette.  The answer is its index. -/
def addDraft (d : Palette.Draft) : WorkspaceM σ Nat := do
  let (index, palette) ← ofExcept ((← get).palette.addDraft d)
  modify fun w => { w with palette }
  return index

/-- Remove a definition from the palette. -/
def removeEntry (index : Int) : WorkspaceM σ Definition := do
  let (d, palette) ← ofExcept ((← get).palette.remove index)
  modify fun w => { w with palette }
  return d

/-! ## Editing -/

/-- Set the literal text of an input to the text of a value.  Null stands for the
empty text. -/
def setInput (id : BlockId) (name : String) (v : Json) : WorkspaceM σ Unit := do
  let b ← require id
  if (b.slot? name).isNone then throw (.noSlot id (.str name))
  ofExcept (demandTexts [v])
  let literal := match v with
    | .null => ""
    | v => v.display
  onBoard (Board.mapBlocks fun r =>
    r.modify id fun b => b.modifySlot name fun s => { s with literal })
  changed

/-- Refuse an input that is not named by a text.  No block has one, and a list or an
object cannot be looked up. -/
def refuseSlot {α : Type} (slot : Json) (fault : Fault) : WorkspaceM σ α :=
  throw (if slot.isScalar then .naming slot fault else .breakdown .wrongType)

/-- Refuse to set an input that is not named by a text. -/
def refuseSetting (id : BlockId) (slot : Json) : WorkspaceM σ Unit := do
  let _ ← require id
  refuseSlot slot (.noSlot id slot)

/-- Refuse a parent whose input is not named by a text. -/
def refuseInput (child parent : BlockId) (slot : Json) : WorkspaceM σ Unit := do
  let b ← require child
  let _ ← require parent
  ofExcept (Registry.demand b.kind.fitsInput (.misfit child b.kind))
  refuseSlot slot (.attach (.noInput parent slot))

variable [Provider σ]

/-- Remove a block with everything below it. -/
def remove (id : BlockId) : WorkspaceM σ (List BlockId) := do
  let removed ← onBoard (Board.remove id)
  changed
  return removed

/-- Attach a block to the end of a body. -/
def attachToBody (child container : BlockId) : WorkspaceM σ Unit := do
  onBoard (Board.attachToBody child container)
  changed

/-- Attach a block to an input. -/
def attachToInput (child parent : BlockId) (slot : String) : WorkspaceM σ Unit := do
  onBoard (Board.attachToInput child parent slot)
  changed

/-- Give a block another parent. -/
def move (child parent : BlockId) (slot : Option String) : WorkspaceM σ Unit := do
  onBoard (Board.move child parent slot)
  changed

/-- Bring a block to the top level.  The answer is whether it had a parent. -/
def detach (id : BlockId) : WorkspaceM σ Bool := do
  let detached ← onBoard (Board.detach id)
  if detached then changed
  return detached

/-- Bring the blocks of all inputs of a block to the top level. -/
def releaseInputs (id : BlockId) : WorkspaceM σ (List BlockId) := do
  let released ← onBoard (Board.releaseInputs id)
  unless released.isEmpty do changed
  return released

/-! ## Dragging -/

/-- A step of a session on the board of the workspace, with the session after it. -/
def runSession {α : Type} (s : Session) (m : SessionM σ α) :
    WorkspaceM σ (Except Fault α × Session) :=
  fun w =>
    let (r, d) := m ⟨w.board, s⟩
    (.ok (r, d.session), { w with board := d.board })

/-- Pick up a block. -/
def startDrag (id : BlockId) (pointer : Point) : WorkspaceM σ Session := do
  demandNoDrag
  let (r, s) ← runSession {} (Session.start id pointer)
  ofExcept r
  modify fun w => { w with drag := some s }
  return s

/-- Make a block from the palette under the pointer, and pick it up. -/
def startPaletteDrag (index : Int) (pointer : Point) : WorkspaceM σ BlockId := do
  demandNoDrag
  let d ← entry index
  let position ← ask (Survey.workspacePoint pointer)
  let id ← create d position none
  let _ ← startDrag id pointer
  return id

/-- The drag that is under way. -/
def activeDrag : WorkspaceM σ Session := do
  match (← get).drag with
  | some s => if s.isActive then return s else throw (.drag .noDrag)
  | none => throw (.drag .noDrag)

/-- Move the dragged block with the pointer. -/
def moveDrag (pointer : Point) : WorkspaceM σ Unit := do
  let (r, s) ← runSession (← activeDrag) (Session.move pointer)
  modify fun w => { w with drag := some s }
  ofExcept r

/-- Drop the dragged block.  The drag is over, whatever comes of it. -/
def endDrag (pointer : Point) : WorkspaceM σ DragState := do
  let (r, s) ← runSession (← activeDrag) (Session.finish pointer)
  modify fun w => { w with drag := none, lastDrag := some s }
  let state ← ofExcept r
  changed
  return state

end Workspace

end Blockwork
