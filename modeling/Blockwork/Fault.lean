import Blockwork.Block.Kind
import Blockwork.Breakdown

/-!
# Faults

Everything that can go wrong in the editor is a `Fault`.  Faults of composing
blocks, of definitions, of payloads, of drags, of the store and of requests are
types of their own, since some steps pass over one of these groups and over no
other.  A fault has a message, and details that name the blocks and values in
question.  A breakdown has neither.
-/

namespace Blockwork

abbrev BlockId := String

inductive DragState
  /-- Not yet started. -/
  | idle
  /-- Under way. -/
  | dragging
  /-- Ended in a body or an input. -/
  | attached
  /-- Ended without a parent. -/
  | floating
  /-- Ended with the block removed. -/
  | deleted
deriving DecidableEq, Repr

namespace DragState

/-- The name of a state. -/
def name : DragState → String
  | .idle => "idle"
  | .dragging => "dragging"
  | .attached => "attached"
  | .floating => "floating"
  | .deleted => "deleted"

/-- Whether the drag is over. -/
def isTerminal : DragState → Bool
  | .attached | .floating | .deleted => true
  | .idle | .dragging => false

end DragState

/-- Why a block cannot be attached. -/
inductive AttachFault
  /-- It still has a parent. -/
  | notFree (block parent : BlockId)
  /-- The parent has no such input. -/
  | noInput (parent : BlockId) (slot : Json)
  /-- The input holds another block. -/
  | occupied (parent : BlockId) (slot : String) (occupant : BlockId)
  /-- It would become part of itself. -/
  | cycle (child target : BlockId)
  /-- The parent has no body. -/
  | noBody (container : BlockId) (kind : Kind)
  /-- A block of its kind fits no input. -/
  | misfit (child : BlockId) (kind : Kind)

/-- What is wrong with a definition. -/
inductive DefinitionFault
  | notObject
  | noLabel
  | unknownKind (value : Json)
  | blankLabel
  | templateNotText
  /-- The palette has no definition at the index.  The index is as it was given. -/
  | noEntry (index : Json)

/-- What is wrong with the record of a block. -/
inductive RecordFault
  | notObject
  /-- It lacks an id, a label or a kind. -/
  | incomplete
  | unknownKind (value : Json)
  /-- Its templates are not an object. -/
  | templates
  /-- Its position is not made of numbers. -/
  | position
  /-- Its inputs are not an object. -/
  | inputs
  /-- Its nested blocks are not a list. -/
  | nested

/-- What is wrong with a payload or an export. -/
inductive PayloadFault
  /-- The text is not JSON. -/
  | malformed
  | notObject
  /-- It has none of the parts. -/
  | empty
  /-- The definitions are not a list. -/
  | definitionsNotList
  /-- The blocks are not a list. -/
  | instancesNotList
  /-- A definition is faulty. -/
  | definition (index : Nat) (cause : DefinitionFault)
  /-- The record of a block is faulty. -/
  | record (index : Nat) (cause : RecordFault)
  /-- Two blocks have one id. -/
  | duplicateId (id : BlockId)
  /-- No such variant of an export. -/
  | unknownVariant (variant : Json)

/-- What is wrong with a drag. -/
inductive DragFault
  /-- The session was started before. -/
  | alreadyStarted (state : DragState)
  /-- The session is not under way. -/
  | notUnderWay (state : DragState)
  /-- No block is being dragged. -/
  | noDrag
  /-- A block is being dragged. -/
  | busy (block : BlockId)

/-- What is wrong with the store. -/
inductive StoreFault
  /-- There is no store. -/
  | absent
  /-- The store cannot be opened. -/
  | closed
  /-- The store refused the operation. -/
  | refused

/-- What is wrong with a request. -/
inductive RequestFault
  /-- It has no pointer with two coordinates. -/
  | pointer
  /-- A field is not a number. -/
  | notNumeric (field : String)
  /-- It has no palette index. -/
  | noIndex
  | noParent
  | nothingToDrag

/-- Everything that can go wrong. -/
inductive Fault
  /-- No such block.  The id is as it was given. -/
  | blockNotFound (id : Json)
  /-- The block has no input to set.  The name is as it was given. -/
  | noSlot (block : BlockId) (slot : Json)
  /-- A block cannot be attached. -/
  | attach (cause : AttachFault)
  /-- A definition is faulty. -/
  | definition (cause : DefinitionFault)
  /-- A payload is faulty. -/
  | payload (cause : PayloadFault)
  /-- A drag is faulty. -/
  | drag (cause : DragFault)
  /-- The store failed. -/
  | store (cause : StoreFault)
  /-- A request is faulty. -/
  | request (cause : RequestFault)
  /-- A failure without a message. -/
  | breakdown (cause : Breakdown)

/-! ## Texts of values -/

/-- Some values have texts. -/
def demandTexts (vs : List Json) : Except Fault Unit :=
  if vs.all Json.isWritable then .ok () else .error (.breakdown .badValue)

theorem demandTexts_ok_iff {vs : List Json} :
    demandTexts vs = .ok () ↔ ∀ v ∈ vs, v.isWritable = true := by
  rw [demandTexts, ← List.all_eq_true]
  cases vs.all Json.isWritable <;> simp

/-- A fault whose message names a value.  If the value has no text, there is no message. -/
def Fault.naming (v : Json) (f : Fault) : Fault :=
  if v.isWritable then f else .breakdown .badValue

/-! ## Messages -/

/-- The message of a fault of attaching. -/
def AttachFault.message : AttachFault → String
  | .notFree block _ => s!"Block {block} must be detached before it is attached elsewhere"
  | .noInput parent slot => "Block " ++ parent ++ " has no input '" ++ slot.display ++ "'"
  | .occupied parent slot occupant =>
      s!"Input '{slot}' of block {parent} is occupied by {occupant}"
  | .cycle child target => s!"Attaching {child} to {target} would create a cycle"
  | .noBody container kind =>
      "Block " ++ container ++ " (" ++ kind.name ++ ") has no body to nest into"
  | .misfit _ kind => "Only reporter and boolean blocks fit an input, not " ++ kind.name

/-- The message of a faulty definition. -/
def DefinitionFault.message : DefinitionFault → String
  | .notObject => "Block definition must be a mapping"
  | .noLabel => "Block definition is missing 'label'"
  | .unknownKind value => "Unknown block kind: " ++ value.inspect
  | .blankLabel => "Label required"
  | .templateNotText => "Templates must map language names to strings"
  | .noEntry index => "No palette entry at index " ++ index.display

/-- The message of a faulty payload. -/
def PayloadFault.message : PayloadFault → String
  | .malformed => "Invalid JSON"
  | .notObject => "Import payload must be a JSON object"
  | .empty => "Payload contains no definitions, instances or code"
  | .definitionsNotList => "'definitions' must be a list"
  | .instancesNotList => "'instances' must be a list"
  | .definition index cause => s!"Invalid definition at index {index}: " ++ cause.message
  | .record index cause =>
      match cause with
      | .notObject => s!"Instance record {index} is not an object"
      | .incomplete => s!"Instance record {index} is missing id, label or kind"
      | .unknownKind value =>
          s!"Instance record {index}: " ++ (DefinitionFault.unknownKind value).message
      | .templates => s!"Instance record {index} has invalid templates"
      | .position => s!"Instance record {index} has an invalid position"
      | .inputs => s!"Instance record {index} has invalid inputs"
      | .nested => s!"Instance record {index} has invalid nestedChildIds"
  | .duplicateId id => s!"Duplicate block id: {id}"
  | .unknownVariant variant => "Unknown export variant: " ++ variant.display

/-- The message of a faulty drag. -/
def DragFault.message : DragFault → String
  | .alreadyStarted state => "Drag session already " ++ state.name
  | .notUnderWay state => "No drag in progress (state: " ++ state.name ++ ")"
  | .noDrag => "No drag in progress"
  | .busy block => s!"Block {block} is being dragged"

/-- The message of a failure of the store. -/
def StoreFault.message : StoreFault → String
  | .absent => "No workspace store configured"
  | .closed => "Cannot open workspace store"
  | .refused => "Workspace store operation failed"

/-- The message of a faulty request. -/
def RequestFault.message : RequestFault → String
  | .pointer => "Pointer requires numeric 'x' and 'y'"
  | .notNumeric field => s!"Field '{field}' must be numeric"
  | .noIndex => "Field 'index' is required"
  | .noParent => "Field 'parentId' is required"
  | .nothingToDrag => "Either 'blockId' or 'paletteIndex' is required"

/-- The message of a fault.  A breakdown has none. -/
def Fault.message? : Fault → Option String
  | .blockNotFound id => some ("Block not found: " ++ id.display)
  | .noSlot block slot => some ("Block " ++ block ++ " has no input '" ++ slot.display ++ "'")
  | .attach cause => some cause.message
  | .definition cause => some cause.message
  | .payload cause => some cause.message
  | .drag cause => some cause.message
  | .store cause => some cause.message
  | .request cause => some cause.message
  | .breakdown _ => none

/-! ## Details -/

/-- The details of a fault of attaching. -/
def AttachFault.details : AttachFault → List (String × Json)
  | .notFree block parent => [("block_id", .str block), ("parent_id", .str parent)]
  | .noInput parent slot => [("parent_id", .str parent), ("varname", slot)]
  | .occupied parent slot occupant =>
      [("parent_id", .str parent), ("varname", .str slot), ("occupant_id", .str occupant)]
  | .cycle child target => [("child_id", .str child), ("target_id", .str target)]
  | .noBody container kind => [("container_id", .str container), ("kind", .str kind.name)]
  | .misfit child kind => [("child_id", .str child), ("kind", .str kind.name)]

/-- The details of a faulty definition. -/
def DefinitionFault.details : DefinitionFault → List (String × Json)
  | .unknownKind value => [("kind", value)]
  | .noEntry index => [("index", index)]
  | .notObject | .noLabel | .blankLabel | .templateNotText => []

/-- The details of a faulty payload. -/
def PayloadFault.details : PayloadFault → List (String × Json)
  | .definition index _ | .record index _ => [("index", .int index)]
  | .duplicateId id => [("block_id", .str id)]
  | .unknownVariant variant => [("variant", .str variant.display)]
  | .malformed | .notObject | .empty | .definitionsNotList | .instancesNotList => []

def Fault.details : Fault → List (String × Json)
  | .blockNotFound id => [("block_id", id)]
  | .noSlot block slot => [("block_id", .str block), ("varname", slot)]
  | .attach cause => cause.details
  | .definition cause => cause.details
  | .payload cause => cause.details
  | .request (.notNumeric field) => [("field", .str field)]
  | .drag _ | .store _ | .request _ | .breakdown _ => []

end Blockwork
