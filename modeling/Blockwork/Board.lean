import Blockwork.Geometry.Basic
import Blockwork.Registry.Attach

/-!
# The board

A board is a registry with a viewport and a provider of its geometry beside it.
Changing the children of a block changes its size and that of everything around it,
so every change is followed by notices: to the block whose children changed, and to
its ancestors, nearest first.  A notice goes to the provider, and when that has taken
it into the journal of the board, where the journal keeps the order.

A block that is detached stays where it is on the screen.  Its position is read
before its edge is cut.

A step on a board may fail.  What it did before it failed stays done.
-/

namespace Blockwork

/-- Blocks with a viewport and a provider of their geometry. -/
structure Board (σ : Type) where
  /-- The blocks. -/
  registry : Registry := .empty
  viewport : Viewport := {}
  /-- The state of the provider. -/
  layout : σ
  /-- Whether composing asks and tells the provider.  If not, a block lies where
  its own position says. -/
  measured : Bool := true
  /-- The notices given so far. -/
  journal : List BlockId := []

/-- A step on a board.  It may fail, and keeps what it did before. -/
abbrev BoardM (σ : Type) := ExceptT Fault (StateM (Board σ))

namespace Board

variable {σ : Type}

/-- The result of a function that may fail. -/
def ofExcept {α : Type} (r : Except Fault α) : BoardM σ α := fun b => (r, b)

/-- Ask the provider, or tell it something. -/
def ask {α : Type} (q : Query σ α) : BoardM σ α := fun b =>
  let (r, layout) := q ⟨b.registry, b.viewport⟩ b.layout
  (r, { b with layout })

def blocks : BoardM σ Registry := do return (← get).registry

/-- Change the blocks. -/
def setBlocks (r : Registry) : BoardM σ Unit := modify fun b => { b with registry := r }

/-- Change the blocks by a function. -/
def mapBlocks (f : Registry → Registry) : BoardM σ Unit :=
  modify fun b => { b with registry := f b.registry }

/-- The block of an id. -/
def require (id : BlockId) : BoardM σ Block := do ofExcept ((← blocks).require id)

variable [Provider σ]

/-! ## Notices -/

/-- Tell the provider something, if composing does. -/
def tell (news : Query σ Unit) : BoardM σ Unit := do
  if (← get).measured then ask news

/-- Give notice that the children of a block have changed. -/
def notify (id : BlockId) : BoardM σ Unit := do
  tell (Provider.childrenChanged id)
  modify fun b => { b with journal := b.journal ++ [id] }

/-- Give notice of several blocks, one after the other. -/
def notifyAll : List BlockId → BoardM σ Unit
  | [] => return ()
  | id :: ids => do
      notify id
      notifyAll ids

/-- The blocks that hear of a change: the block, and its ancestors. -/
def chain (r : Registry) (id : BlockId) : List BlockId := id :: r.ancestors id

/-- Give notice to a block and its ancestors. -/
def notifyChain (id : BlockId) : BoardM σ Unit := do notifyAll (chain (← blocks) id)

/-- Give notice to every block with a body. -/
def refresh : BoardM σ Unit := do
  notifyAll (((← blocks).entries.filter fun e => e.2.kind.hasBody).map Prod.fst)

/-! ## Composing -/

/-- Attach a block to the end of a body. -/
def attachToBody (child container : BlockId) : BoardM σ Unit := do
  setBlocks (← ofExcept ((← blocks).attachToBody child container))
  notifyChain container

/-- Attach a block to an input. -/
def attachToInput (child parent : BlockId) (slot : String) : BoardM σ Unit := do
  setBlocks (← ofExcept ((← blocks).attachToInput child parent slot))
  notifyChain parent

/-- The position of a block in the workspace. -/
def worldPosition (id : BlockId) : BoardM σ Point := do
  let b ← require id
  if (← get).measured then return (← ask (Survey.boundingBox id)).corner
  else return b.position

/-- Bring a block to the top level, where it stays in place.  The answer is
whether it had a parent. -/
def detach (id : BlockId) : BoardM σ Bool := do
  let b ← require id
  match b.parent.id? with
  | none => return false
  | some p =>
      let position ← worldPosition id
      mapBlocks (·.unlink id b.parent position)
      if (← blocks).contains p then notifyChain p
      return true

/-- Give a block another parent.  All rules are asked before it leaves the one it
has. -/
def move (child parent : BlockId) (slot : Option String) : BoardM σ Unit := do
  ofExcept ((← blocks).checkMove child parent slot)
  let _ ← detach child
  match slot with
  | none => attachToBody child parent
  | some name => attachToInput child parent name

/-- Bring the blocks of some inputs to the top level, input by input.  A dead id
is taken out of its input. -/
def releaseSlots (id : BlockId) : List String → BoardM σ (List BlockId)
  | [] => return []
  | name :: names => do
      let r ← blocks
      match (r.get? id).bind fun b => (b.slot? name).bind Slot.child with
      | none => releaseSlots id names
      | some child =>
          if r.contains child then
            let _ ← detach child
            return child :: (← releaseSlots id names)
          else
            setBlocks (r.modify id fun b => b.modifySlot name fun s => { s with child := none })
            releaseSlots id names

/-- Bring the blocks of all inputs of a block to the top level. -/
def releaseInputs (id : BlockId) : BoardM σ (List BlockId) := do
  let b ← require id
  releaseSlots id (b.slots.map Prod.fst)

/-- Drop blocks one after the other.  The provider forgets a block before the next
one is dropped. -/
def discardAll : List BlockId → BoardM σ Unit
  | [] => return ()
  | id :: ids => do
      mapBlocks (·.erase id)
      tell (Provider.forget id)
      discardAll ids

/-- Remove a block with everything below it, and every reference to what is
removed.  The answer lists what is removed, every block behind what is below
it. -/
def remove (id : BlockId) : BoardM σ (List BlockId) := do
  let b ← require id
  let r ← blocks
  let removed := r.subtree id
  let touched := r.touched removed
  setBlocks (r.scrubAround removed)
  discardAll removed
  for x in touched do notifyChain x
  match b.parent.id? with
  | some p => if (← blocks).contains p && !touched.contains p then notifyChain p
  | none => pure ()
  return removed

end Board

end Blockwork
