import Blockwork.Decimal.Extended
import Blockwork.Fault

/-!
# The store

The store keeps texts under keys: saved workspaces in one table, settings in
another.  A store that cannot be opened fails at every operation.  An operation
that fails changes nothing.

The store keeps text and nothing else.  A number is kept as its text, and saving
one is a breakdown all the same, since a saved value has to have a length.  Null
and what is not a number are kept as nothing.  A key may be nothing, a saved value
may not.  What is kept without a key is found by no key, but the setting that was
set last without one is listed before the others.  Any other value is refused.
-/

namespace Blockwork

/-- Texts by key, in the order in which the keys came. -/
abbrev TextTable := List (String × String)

inductive Store
  /-- A store that cannot be opened. -/
  | closed
  /-- A store with saved workspaces and settings, and with the setting that was set
  last without a key. -/
  | opened (blobs settings : TextTable) (keyless : Option String)

namespace Store

/-- A store with nothing in it. -/
def empty : Store := .opened [] [] none

/-- The saved workspaces. -/
def blobs : Store → Except Fault TextTable
  | .closed => .error (.store .closed)
  | .opened blobs _ _ => .ok blobs

def settings : Store → Except Fault TextTable
  | .closed => .error (.store .closed)
  | .opened _ settings _ => .ok settings

/-- Change the saved workspaces. -/
def mapBlobs (s : Store) (f : TextTable → TextTable) : Except Fault Store :=
  match s with
  | .closed => .error (.store .closed)
  | .opened blobs settings keyless => .ok (.opened (f blobs) settings keyless)

/-- Change the settings. -/
def mapSettings (s : Store) (f : TextTable → TextTable) : Except Fault Store :=
  match s with
  | .closed => .error (.store .closed)
  | .opened blobs settings keyless => .ok (.opened blobs (f settings) keyless)

/-- Save a text. -/
def save (s : Store) (key text : String) : Except Fault Store := s.mapBlobs (Table.set · key text)

/-- The saved text of a key. -/
def load? (s : Store) (key : String) : Except Fault (Option String) := do
  return (← s.blobs).lookup key

/-- Delete a saved text.  The answer is whether there was one. -/
def delete (s : Store) (key : String) : Except Fault (Bool × Store) := do
  return (((← s.blobs).lookup key).isSome, ← s.mapBlobs (Table.keep · (· ≠ key)))

/-- The setting of a key. -/
def setting? (s : Store) (key : String) : Except Fault (Option String) := do
  return (← s.settings).lookup key

/-- Delete a setting.  The answer is whether there was one. -/
def deleteSetting (s : Store) (key : String) : Except Fault (Bool × Store) := do
  return (((← s.settings).lookup key).isSome, ← s.mapSettings (Table.keep · (· ≠ key)))

/-- All settings: the one without a key, then the others by key in the order of
code points. -/
def allSettings : Store → Except Fault (List (Option String × String))
  | .closed => .error (.store .closed)
  | .opened _ settings keyless =>
      let keyed := settings.mergeSort fun a b => a.1 ≤ b.1
      .ok ((keyless.map (Prod.mk none)).toList ++ keyed.map fun e => (some e.1, e.2))

/-! ## Values of other types -/

/-- Whole numbers up to eight bytes are kept. -/
def isStorable (n : Int) : Bool := -9223372036854775808 ≤ n && n ≤ 9223372036854775807

/-- Floats as text that is kept: fifteen digits, positional from `10 ^ -4` up to
`10 ^ 15`. -/
def floatLayout : Decimal.Layout where
  least := -4
  most := 15
  exponentWidth := 2
  nan := ""
  infinity := "Inf"
  choose := Decimal.fifteen
  pointed := true

/-- The text that is kept for a value, if anything is. -/
def keptText : Json → Except Fault (Option String)
  | .null => .ok none
  | .str text => .ok (some text)
  | .bool b => .ok (some (if b then "1" else "0"))
  | .int n => if isStorable n then .ok (some (toString n)) else .error (.breakdown .overflow)
  | .float x =>
      -- adding a zero drops the sign of a zero
      match Decimal.decode (x + 0.0) with
      | .nan => .ok none
      | d => .ok (some (floatLayout.text d))
  | .arr _ | .obj _ => .error (.store .refused)

/-- What an operation does under the key that a value gives, or without a key. -/
def underKey {α : Type} (s : Store) (key : Json) (keyed : String → Except Fault α)
    (keyless : Except Fault α) : Except Fault α := do
  let _ ← s.blobs
  match ← keptText key with
  | some key => keyed key
  | none => keyless

/-- Set the setting without a key. -/
def setKeyless (s : Store) (text : String) : Except Fault Store :=
  match s with
  | .closed => .error (.store .closed)
  | .opened blobs settings _ => .ok (.opened blobs settings (some text))

/-- Set a setting to the text of a value. -/
def setSetting (s : Store) (key v : Json) : Except Fault Store := do
  demandTexts [v]
  s.underKey key (fun key => s.mapSettings (Table.set · key v.display)) (s.setKeyless v.display)

/-- Keep a value under a key.  A value has to be kept as something. -/
def keep (s : Store) (key v : Json) : Except Fault Store := do
  let _ ← s.blobs
  match ← keptText key, ← keptText v with
  | _, none => .error (.store .refused)
  | some key, some text => s.save key text
  | none, some _ => .ok s

/-- Only a text has a length. -/
def demandLength : Json → Except Fault Unit
  | .str _ => .ok ()
  | _ => .error (.breakdown .wrongType)

/-- What saving a value does: the store after it, and the fault if there is
one. -/
def saveValue (s : Store) (key v : Json) : Except Fault Unit × Store :=
  match s.keep key v with
  | .ok s => (demandLength v, s)
  | .error f => (.error f, s)

end Store

end Blockwork
