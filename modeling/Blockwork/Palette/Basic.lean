import Blockwork.Palette.Standard

/-!
# The palette

The palette is the list of definitions that blocks are made from.  A definition
that a designer adds is trimmed and checked first.  A list that is imported
replaces the palette as it is.  Placed blocks are copies, so removing a definition
touches none of them.
-/

namespace Blockwork

/-- The definitions that blocks are made from, in order. -/
abbrev Palette := List Definition

namespace Palette

/-- The palette to start with. -/
def standard : Palette := standardDefinitions

/-- The definition at an index. -/
def get (p : Palette) (index : Int) : Except Fault Definition :=
  match index with
  | .ofNat n =>
      match p[n]? with
      | some d => .ok d
      | none => .error (.naming (.int index) (.definition (.noEntry (.int index))))
  | .negSucc _ => .error (.naming (.int index) (.definition (.noEntry (.int index))))

/-- The index that a value gives.  A truth value counts as one or zero.  A float is
compared with the bounds before it turns out to be no index. -/
def readIndex (p : Palette) : Json → Except Fault Int
  | .int n => .ok n
  | .bool b =>
      let n : Nat := if b then 1 else 0
      if n < p.length then .ok n else .error (.definition (.noEntry (.bool b)))
  | .float x =>
      if 0.0 ≤ x && x < Float.ofNat p.length then .error (.breakdown .wrongType)
      else .error (.definition (.noEntry (.float x)))
  | _ => .error (.breakdown .wrongType)

/-- Add a definition without faults at the end.  The answer is its index. -/
def add (p : Palette) (d : Definition) : Except Fault (Nat × Palette) :=
  match d.faults with
  | [] => .ok (p.length, p ++ [d])
  | f :: _ => .error (.definition f)

/-- Remove the definition at an index.  The answer is the definition. -/
def remove (p : Palette) (index : Int) : Except Fault (Definition × Palette) := do
  let d ← p.get index
  .ok (d, p.eraseIdx index.toNat)

/-- The definitions of a kind. -/
def ofKind (p : Palette) (k : Kind) : Palette := p.filter fun d => d.kind = k

/-- The palette as a list of objects. -/
def toJson (naming : Templates.Naming) (p : Palette) : Json :=
  .arr (p.map (Definition.toJson naming))

/-! ## Designing a definition -/

/-- What a designer fills in.  A field is any value. -/
structure Draft where
  label : Json
  kind : Json := .str "command"
  /-- The colour. -/
  color : Json := .str "#4C97FF"
  templates : Json := .null
  /-- The name of the body placeholder. -/
  containerVar : Json := .null

/-- A text without the blanks at its ends.  What does not count as given is the
empty text. -/
def trimmed (v : Json) : Except Breakdown String :=
  if !v.isTruthy then .ok ""
  else
    match v with
    | .str s => .ok (Unicode.strip s)
    | _ => .error .missingOperation

/-- Templates without the blanks at their ends. -/
def trimmedTemplates (v : Json) : Except Breakdown Templates :=
  if !v.isTruthy then .ok {}
  else
    match v with
    | .obj members => do
        let entries ← members.mapM fun (name, text) => do
          .ok (Json.str name, Json.str (← trimmed text))
        .ok ⟨entries⟩
    | _ => .error .missingOperation

def Draft.toDefinition (d : Draft) : Except Fault Definition := do
  let label ← Definition.lift (trimmed d.label)
  let kind ← Definition.kindOf d.kind
  let templates ← Definition.lift (trimmedTemplates d.templates)
  .ok { label, kind, color := d.color, templates, containerVar := d.containerVar.given? }

/-- Add the definition of a draft. -/
def addDraft (p : Palette) (d : Draft) : Except Fault (Nat × Palette) := do
  p.add (← d.toDefinition)

end Palette

end Blockwork
