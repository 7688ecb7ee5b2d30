import Blockwork.Bundle.Record
import Blockwork.Json.Number
import Blockwork.Json.Reader
import Blockwork.Registry.Attach

/-!
# Reading bundles

A bundle is any choice of definitions, blocks, and code with its language.  It is
read from an object, or from a text that holds one, and nothing is changed until
all of it has been read.

Blocks are read in two rounds.  The first makes a block without parent and
children for every record, with the literal texts of its inputs.  The second goes
through the records again and attaches what they list, the body first and then the
inputs.  A reference to a block that is not there, or one that the rules of
attaching refuse, is passed over.  So relinking never fails, and whether all children
have texts is asked before it.

Whether all literal texts of a block are there is asked at once, since nobody sees a
block that is not finished.

A record needs an id, a label and a kind that count as given.  The first fault of
the first faulty record is the fault of the bundle.
-/

namespace Blockwork.Bundle

/-- A bundle that has been read.  A part that was not there is none. -/
structure Contents where
  /-- The definitions. -/
  definitions : Option Palette := none
  /-- The blocks. -/
  registry : Option Registry := none
  /-- The code with its language. -/
  code : Option (String × String) := none

/-- The names of the parts that are there. -/
def Contents.parts (c : Contents) : List String :=
  (if c.definitions.isSome then ["definitions"] else []) ++
    (if c.registry.isSome then ["instances"] else []) ++
    (if c.code.isSome then ["code"] else [])

/-! ## Definitions -/

/-- A fault of a definition, with its index. -/
def atIndex {α : Type} (index : Nat) : Except Fault α → Except Fault α
  | .error (.definition cause) => .error (.payload (.definition index cause))
  | r => r

/-- Read definitions, the first of which has the given index. -/
def readDefinitions (index : Nat) : List Json → Except Fault Palette
  | [] => .ok []
  | v :: vs => do
      let d ← atIndex index (Definition.ofJson v)
      return d :: (← readDefinitions (index + 1) vs)

/-- Read the definitions of a bundle. -/
def definitionsOf : Json → Except Fault Palette
  | .arr items => readDefinitions 0 items
  | _ => .error (.payload .definitionsNotList)

/-! ## Blocks -/

/-- A fault of the record at an index. -/
def recordFault {α : Type} (index : Nat) (cause : RecordFault) : Except Fault α :=
  .error (.payload (.record index cause))

/-- The kind of a record, which may also be given as a type. -/
def recordKind (index : Nat) (members : List (String × Json)) : Except Fault Kind :=
  let v := (Json.member members "kind").orElse (Json.member members "type")
  if !v.isTruthy then recordFault index .incomplete
  else
    match Kind.ofJson? v with
    | some k => .ok k
    | none => .error (.naming v (.payload (.record index (.unknownKind v))))

/-- The members of an object.  What does not count as given has none, and
anything else is the fault. -/
def membersOr (fault : Except Fault (List (String × Json))) (v : Json) :
    Except Fault (List (String × Json)) :=
  if !v.isTruthy then .ok []
  else
    match v with
    | .obj members => .ok members
    | _ => fault

/-- A coordinate.  What does not count as given is zero. -/
def coordinate (index : Nat) (v : Json) : Except Fault Float :=
  match (v.orElse (.float 0.0)).toFloat with
  | .ok x => .ok x
  | .error .wrongType | .error .badValue => recordFault index .position
  | .error cause => .error (.breakdown cause)

/-- The items of a list.  What does not count as given has none. -/
def nestedOf (v : Json) : Option (List Json) :=
  if !v.isTruthy then some []
  else
    match v with
    | .arr items => some items
    | _ => none

/-- The value whose text the entry of an input sets as its literal, if the entry sets it. -/
def literalValue? : Json → Option Json
  | .obj state =>
      let v := (Json.member? state "literal").getD ((Json.member? state "value").getD (.str ""))
      some (v.orElse (.str ""))
  | .null => none
  | v => some v

/-- The literal text in the entry of an input, if the entry sets it. -/
def literalOf? (v : Json) : Option String := (literalValue? v).map Json.display

/-- The values whose texts a record sets for the inputs that its block has. -/
def literalValues (b : Block) (inputs : List (String × Json)) : List Json :=
  inputs.filterMap fun (name, v) => if (b.slot? name).isSome then literalValue? v else none

/-- Set the literal texts that a record has for the inputs of its block. -/
def setLiterals (b : Block) (inputs : List (String × Json)) : Block :=
  inputs.foldl (fun b (name, v) =>
    match literalOf? v with
    | some text => b.modifySlot name fun s => { s with literal := text }
    | none => b) b

/-- The id, the label and the rest of a record that has them. -/
def recordMembers (index : Nat) : Json → Except Fault (List (String × Json))
  | .obj members =>
      if (Json.member members "id").isTruthy && (Json.member members "label").isTruthy then
        .ok members
      else recordFault index .incomplete
  | _ => recordFault index .notObject

def recordId (members : List (String × Json)) : BlockId := (Json.member members "id").display

/-- The colour of a record. -/
def recordColor (members : List (String × Json)) : Json :=
  (Json.member members "color").orElse (.str "#4C97FF")

/-- Make the block of a record, without parent and children. -/
def makeBlock (r : Registry) (index : Nat) (v : Json) : Except Fault Registry := do
  let members ← recordMembers index v
  let kind ← recordKind index members
  let templates ← membersOr (recordFault index .templates) (Json.member members "templates")
  demandTexts [Json.member members "label", recordColor members]
  let x ← coordinate index (Json.member members "x")
  let y ← coordinate index (Json.member members "y")
  let inputs ← membersOr (recordFault index .inputs) (Json.member members "inputs")
  if (nestedOf (Json.member members "nestedChildIds")).isNone then recordFault index .nested
  demandTexts [Json.member members "id"]
  let id := recordId members
  if r.contains id then .error (.payload (.duplicateId id))
  let b ← Definition.lift (Block.ofDefinition {
    label := (Json.member members "label").display
    kind
    color := .str (recordColor members).display
    templates := .ofMembers templates
    containerVar := (Json.member members "containerVar").given? } ⟨x, y⟩)
  demandTexts (literalValues b inputs)
  return r.insert id (setLiterals b inputs)

/-- Make the blocks of records, the first of which has the given index. -/
def makeBlocks (r : Registry) (index : Nat) : List Json → Except Fault Registry
  | [] => .ok r
  | v :: vs => do makeBlocks (← makeBlock r index v) (index + 1) vs

/-- A recorded edge: the child, the parent, and the input if it is one. -/
structure Reference where
  child : BlockId
  parent : BlockId
  /-- The input, or none for the body. -/
  slot : Option String
deriving DecidableEq, Repr

/-- The edges of a record, those of the body first. -/
def references (members : List (String × Json)) : List Reference :=
  let id := recordId members
  ((nestedOf (Json.member members "nestedChildIds")).getD []).map (⟨·.display, id, none⟩) ++
    match Json.member members "inputs" with
    | .obj inputs => inputs.filterMap fun (name, v) =>
        match v with
        | .obj state =>
            match Json.member state "childId" with
            | .null => none
            | child => some ⟨child.display, id, some name⟩
        | _ => none
    | _ => []

/-- The values whose texts name the children in a record. -/
def childValues (members : List (String × Json)) : List Json :=
  (nestedOf (Json.member members "nestedChildIds")).getD [] ++
    match Json.member members "inputs" with
    | .obj inputs => inputs.filterMap fun (_, v) =>
        match v with
        | .obj state =>
            match Json.member state "childId" with
            | .null => none
            | child => some child
        | _ => none
    | _ => []

/-- The children in all records. -/
def allChildValues (items : List Json) : List Json :=
  items.flatMap fun
    | .obj members => childValues members
    | _ => []

/-- The edges of all records. -/
def allReferences (items : List Json) : List Reference :=
  items.flatMap fun
    | .obj members => references members
    | _ => []

/-- Attach along an edge. -/
def attach (r : Registry) (e : Reference) : Except Fault Registry :=
  match e.slot with
  | none => r.attachToBody e.child e.parent
  | some slot => r.attachToInput e.child e.parent slot

/-- Attach along a recorded edge, unless its child is not there or the rules
refuse it. -/
def relink (r : Registry) (e : Reference) : Except Fault Registry :=
  if r.contains e.child then
    match attach r e with
    | .error (.attach _) => .ok r
    | result => result
  else .ok r

/-- Read the blocks of a bundle. -/
def registryOf : Json → Except Fault Registry
  | .arr items => do
      let r ← makeBlocks .empty 0 items
      demandTexts (allChildValues items)
      (allReferences items).foldlM relink r
  | _ => .error (.payload .instancesNotList)

/-! ## Bundles -/

/-- A part of a bundle, unless it is null. -/
def part {α : Type} (members : List (String × Json)) (name : String)
    (read : Json → Except Fault α) : Except Fault (Option α) :=
  match Json.member members name with
  | .null => .ok none
  | v => (read v).map some

/-- The code of a bundle, if its language counts as given. -/
def codeOf (members : List (String × Json)) : Except Fault (Option (String × String)) :=
  match Json.member members "code", (Json.member members "language").given? with
  | .null, _ | _, none => .ok none
  | code, some language => do
      demandTexts [code, language]
      return some (code.display, language.display)

/-- Read a bundle from a value. -/
def readValue : Json → Except Fault Contents
  | .obj members => do
      let definitions ← part members "definitions" definitionsOf
      let registry ← part members "instances" registryOf
      let contents : Contents := { definitions, registry, code := ← codeOf members }
      if contents.parts.isEmpty then .error (.payload .empty) else .ok contents
  | _ => .error (.payload .notObject)

/-- Read a bundle.  A text holds the value. -/
def read : Json → Except Fault Contents
  | .str text =>
      match Json.parse? text with
      | some v => readValue v
      | none => .error (.payload .malformed)
  | v => readValue v

end Blockwork.Bundle
