import Blockwork.Board
import Blockwork.Drop.Target

/-!
# Drag sessions

A session is one drag of one block, from picking it up to dropping it.

    idle → dragging → attached | floating | deleted

A nested block is detached when it is picked up, so it has no parent while it
moves, and it keeps its distance from the pointer.  Where it is dropped is a
`Target`.  When the rules of attaching refuse the target after all, the block
floats.

A step of a session may fail.  What it did to the board and to the session before
it failed stays done.
-/

namespace Blockwork

/-- One drag of one block. -/
structure Session where
  state : DragState := .idle
  block : Option BlockId := none
  /-- The pointer relative to the block. -/
  offset : Point := .origin
  /-- The last position of the pointer, on the screen. -/
  pointer : Option Point := none
  /-- Where the block landed. -/
  target : Option Target := none
  /-- What was removed, if it was deleted. -/
  removed : List BlockId := []

namespace Session

/-- Whether the drag is under way. -/
def isActive (s : Session) : Bool := s.state = .dragging

end Session

/-- A board with a session. -/
structure Dragging (σ : Type) where
  board : Board σ
  session : Session

/-- A step of a session.  It may fail, and keeps what it did before. -/
abbrev SessionM (σ : Type) := ExceptT Fault (StateM (Dragging σ))

namespace Session

variable {σ : Type}

/-- A step on the board. -/
def onBoard {α : Type} (m : BoardM σ α) : SessionM σ α := fun d =>
  let (r, board) := m d.board
  (r, { d with board })

/-- Change the session. -/
def update (f : Session → Session) : SessionM σ Unit :=
  modify fun d => { d with session := f d.session }

/-- A step of attaching: whether the rules allowed it. -/
def allowed (m : BoardM σ Unit) : BoardM σ Bool := fun b =>
  match m b with
  | (.ok _, b) => (.ok true, b)
  | (.error (.attach _), b) => (.ok false, b)
  | (.error f, b) => (.error f, b)

/-- Put a block at a position. -/
def place (id : BlockId) (position : Point) : BoardM σ Unit :=
  Board.mapBlocks fun r => r.modify id fun b => { b with position }

/-- The drag is under way, and this is its block. -/
def demandActive : SessionM σ BlockId := do
  let s := (← get).session
  match s.isActive, s.block with
  | true, some id => return id
  | _, _ => throw (.drag (.notUnderWay s.state))

variable [Provider σ]

/-- Pick up a block. -/
def start (id : BlockId) (pointer : Point) : SessionM σ Unit := do
  let s := (← get).session
  unless s.state = .idle do throw (.drag (.alreadyStarted s.state))
  let b ← onBoard (Board.require id)
  unless b.parent.isNone do
    let _ ← onBoard (Board.detach id)
  let p ← onBoard (Board.ask (Survey.workspacePoint pointer))
  let b ← onBoard (Board.require id)
  update fun s => { s with
    offset := p.sub b.position
    block := some id
    pointer := some pointer
    state := .dragging }

/-- Where the block belongs when the pointer is here. -/
def releasePosition (pointer : Point) : SessionM σ Point := do
  let p ← onBoard (Board.ask (Survey.workspacePoint pointer))
  return p.sub (← get).session.offset

/-- Move the block with the pointer. -/
def move (pointer : Point) : SessionM σ Unit := do
  let id ← demandActive
  update fun s => { s with pointer := some pointer }
  let _ ← onBoard (Board.require id)
  let position ← releasePosition pointer
  onBoard (place id position)

/-- Land on a target.  The answer is whether the block was attached, and whether
the target was refused. -/
def land (id : BlockId) : Target → BoardM σ (Bool × Bool)
  | .nowhere => return (false, false)
  | .input parent slot => do
      let ok ← allowed (Board.attachToInput id parent slot)
      return (ok, !ok)
  | .body container => do
      let ok ← allowed (Board.attachToBody id container)
      return (ok, !ok)
  | .below _ position => do
      place id position
      return (false, false)

/-- Drop the block. -/
def finish (pointer : Point) : SessionM σ DragState := do
  let id ← demandActive
  update fun s => { s with pointer := some pointer }
  let _ ← onBoard (Board.require id)
  if ← onBoard (Board.ask (Target.deletes pointer)) then
    let removed ← onBoard (Board.remove id)
    update fun s => { s with removed, target := some .nowhere, state := .deleted }
    onBoard Board.refresh
    return .deleted
  let position ← releasePosition pointer
  onBoard (place id position)
  let release ← onBoard (Board.ask (Survey.workspacePoint pointer))
  let target ← onBoard (Board.ask (Target.resolve id pointer (some release)))
  update fun s => { s with target := some target, state := .floating }
  let (attached, refused) ← onBoard (land id target)
  if attached then update fun s => { s with state := .attached }
  if refused then update fun s => { s with target := some .nowhere }
  onBoard Board.refresh
  return (← get).session.state

end Session

end Blockwork
