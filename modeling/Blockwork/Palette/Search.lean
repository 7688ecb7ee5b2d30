import Blockwork.Palette.Basic

/-!
# Searching the palette

A query is compared with a definition in any case.  A display name equal to the
query scores 100, and otherwise a label that contains it 50.  A kind whose name is
the query scores 30, and a template that contains it 10.  The scores are added.
What scores nothing is left out, and the rest is listed by falling score, equal
scores in the order of the palette.  A blank query lists everything.

The answer is cut to a limit.  A negative limit counts from the end.
-/

namespace Blockwork.Palette

open Blockwork.Unicode (lower strip)

/-- Whether a text contains another. -/
def containsText (text piece : String) : Bool := Text.occurs piece.toList text.toList

/-- Whether a template contains the query, asked one by one.  A template that is
not a text cannot be asked. -/
def anyTemplate (query : String) : List Json → Except Breakdown Bool
  | [] => .ok false
  | .str t :: rest => if containsText (lower t) query then .ok true else anyTemplate query rest
  | _ :: _ => .error .missingOperation

/-- The score of a definition for a query in lower case. -/
def score (query : String) (d : Definition) : Except Breakdown Nat := do
  let name :=
    if lower d.displayName = query then 100
    else if containsText (lower d.label) query then 50
    else 0
  let kind := if d.kind.name = query then 30 else 0
  let template := if ← anyTemplate query d.templates.values then 10 else 0
  .ok (name + kind + template)

/-- The first items of a list, or all but the last ones for a negative limit. -/
def limited {α : Type} (limit : Int) (items : List α) : List α :=
  match limit with
  | .ofNat n => items.take n
  | .negSucc n => items.take (items.length - (n + 1))

/-- The definitions that match a query, the best first. -/
def search (p : Palette) (query : String) (limit : Int) : Except Fault Palette := do
  if strip query = "" then return limited limit p
  let scored ← p.mapM fun d => do
    return (← Definition.lift (score (lower query) d), d)
  let matching := scored.filter fun s => 0 < s.1
  let sorted := matching.mergeSort fun s t => t.1 ≤ s.1
  return limited limit (sorted.map Prod.snd)

/-- The limit of a search that names none. -/
def defaultLimit : Int := 50

end Blockwork.Palette
