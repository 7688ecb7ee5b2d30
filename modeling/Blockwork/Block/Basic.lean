import Blockwork.Block.Definition
import Blockwork.Geometry.Rect

/-!
# Blocks

A block is a copy of a definition that has been placed.  It has an input for
every name of its label, a stack of nested blocks if its kind has a body, and a
position that counts while it has no parent.  An input holds literal text, and a
block over it if one was put there.

Blocks refer to each other by id.  An edge is written down twice, with the parent
and with the child, and the child keeps a single reference to its parent.
-/

namespace Blockwork

/-- Where a block lives. -/
inductive Parent
  /-- At the top level. -/
  | none
  /-- In the body of a block. -/
  | container (id : BlockId)
  /-- In an input of a block. -/
  | input (id : BlockId) (slot : String)
deriving DecidableEq, Repr

namespace Parent

/-- The id of the parent. -/
def id? : Parent → Option BlockId
  | .none => Option.none
  | .container id => some id
  | .input id _ => some id

/-- Whether there is no parent. -/
def isNone : Parent → Bool
  | .none => true
  | _ => false

end Parent

/-- An input of a block. -/
structure Slot where
  /-- The text typed into it. -/
  literal : String := ""
  /-- The block over the text. -/
  child : Option BlockId := none
deriving DecidableEq, Repr

/-- A placed block. -/
structure Block where
  label : String
  kind : Kind
  /-- The colour. -/
  color : Json
  /-- The templates by language. -/
  templates : Templates
  /-- The name of the body placeholder. -/
  containerVar : Option Json
  /-- The position, which counts at the top level. -/
  position : Point
  /-- The inputs by name, in the order of the label. -/
  slots : List (String × Slot)
  /-- The blocks of the body, from top to bottom. -/
  nested : List BlockId
  /-- Where the block lives. -/
  parent : Parent

namespace Block

/-- The block that a definition makes at a position. -/
def ofDefinition (d : Definition) (position : Point) : Except Breakdown Block := do
  let containerVar ← d.bodyVar
  .ok {
    label := d.label
    kind := d.kind
    color := d.color
    templates := d.templates
    containerVar
    position
    slots := d.inputNames.map fun name => (name, {})
    nested := []
    parent := .none }

/-- The definition that the block is a copy of. -/
def toDefinition (b : Block) : Definition where
  label := b.label
  kind := b.kind
  color := b.color
  templates := b.templates
  containerVar := b.containerVar

/-- The input of a name. -/
def slot? (b : Block) (name : String) : Option Slot := b.slots.lookup name

/-- The ids over the inputs. -/
def inputChildren (b : Block) : List BlockId :=
  (b.slots.filterMap fun s => s.2.child).filter (· ≠ "")

/-- All ids that the block holds, those of the body first. -/
def children (b : Block) : List BlockId := b.nested ++ b.inputChildren

/-- The names of the inputs with no block over them. -/
def freeInputs (b : Block) : List String :=
  (b.slots.filter fun s => s.2.child.isNone).map Prod.fst

/-- The block with the input of a name changed. -/
def modifySlot (b : Block) (name : String) (f : Slot → Slot) : Block :=
  { b with slots := Table.modify b.slots name f }

@[simp] theorem slot?_modifySlot (b : Block) (name x : String) (f : Slot → Slot) :
    (b.modifySlot name f).slot? x = if x = name then (b.slot? x).map f else b.slot? x :=
  Table.lookup_modify b.slots name x f

end Block

end Blockwork
