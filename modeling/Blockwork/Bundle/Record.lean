import Blockwork.Palette.Basic
import Blockwork.Registry

/-!
# Records of blocks

A block is recorded as an object with its fields, its position, and its edges as
ids.  The edge to the parent is recorded under one of two names, by whether the
block is in a body or in an input.  A snapshot is the definitions of the palette
and the records of all blocks, in order of creation.
-/

namespace Blockwork.Bundle

/-- The record of an input. -/
def slotRecord (s : Slot) : Json :=
  .obj [("literal", .str s.literal), ("childId", .ofText? s.child)]

def bodyParentRecord : Parent → Json
  | .container id => .str id
  | _ => .null

def inputParentRecord : Parent → Json
  | .input id slot => .obj [("parentId", .str id), ("varname", .str slot)]
  | _ => .null

/-- The record of a block. -/
def record (naming : Templates.Naming) (id : BlockId) (b : Block) : Json :=
  .obj [
    ("id", .str id),
    ("label", .str b.label),
    ("kind", .str b.kind.name),
    ("color", b.color),
    ("templates", b.templates.toJson naming),
    ("containerVar", b.containerVar.getD .null),
    ("x", .float b.position.x),
    ("y", .float b.position.y),
    ("parentContainerId", bodyParentRecord b.parent),
    ("parentInput", inputParentRecord b.parent),
    ("inputs", .obj (b.slots.map fun s => (s.1, slotRecord s.2))),
    ("nestedChildIds", .arr (b.nested.map .str))]

/-- The records of all blocks. -/
def records (naming : Templates.Naming) (r : Registry) : List Json :=
  r.entries.map fun e => record naming e.1 e.2

/-- The snapshot of a palette and its blocks. -/
def snapshot (naming : Templates.Naming) (p : Palette) (r : Registry) : Json :=
  .obj [("definitions", p.toJson naming), ("instances", .arr (records naming r))]

/-- The JSON text of a snapshot.  A whole number that is too long to be written, in a
value or as a language, leaves it without one. -/
def snapshotText (p : Palette) (r : Registry) : Except Breakdown String :=
  let v := snapshot Templates.writtenName p r
  let named :=
    p.all (fun d => d.templates.areNamed) && r.entries.all fun e => e.2.templates.areNamed
  if named && v.isWritable then .ok v.write else .error .badValue

/-! ## Exports -/

/-- What an export has in it. -/
inductive Variant
  /-- The definitions. -/
  | definitions
  /-- The blocks. -/
  | instances
  /-- Both, with the generated code. -/
  | project
deriving DecidableEq, Repr

def Variant.name : Variant → String
  | .definitions => "definitions"
  | .instances => "instances"
  | .project => "project"

/-- The variant that a value names. -/
def Variant.ofJson? : Json → Option Variant
  | .str s => [Variant.definitions, .instances, .project].find? (·.name == s)
  | _ => none

/-- An export.  The code and its language are those of a project. -/
def exported (naming : Templates.Naming) (v : Variant) (p : Palette) (r : Registry) (code : String)
    (language : Json) : Json :=
  match v with
  | .definitions => .obj [("definitions", p.toJson naming)]
  | .instances => .obj [("instances", .arr (records naming r))]
  | .project =>
      .obj [
        ("definitions", p.toJson naming),
        ("instances", .arr (records naming r)),
        ("code", .str code),
        ("language", language)]

end Blockwork.Bundle
