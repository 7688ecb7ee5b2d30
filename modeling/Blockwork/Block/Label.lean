import Blockwork.Unicode.Word

/-!
# Labels

The label of a block is text with placeholders.  A placeholder is a percent sign
and the longest run of word characters behind it, at least one.  `Label.parts`
cuts a label into its placeholders and the plain text between them, and leaves
no empty part.  Every part that starts with a percent sign names an input, its
name being the rest of the part, and an input is listed once, where it comes
first.  In the palette every placeholder is shown as a low line.

Plain text that starts with a percent sign, with no word character behind it,
names an input as well: the label `%` has one input, with the empty name.
-/

namespace Blockwork.Label

open Blockwork.Unicode (isWord startsWithWord)

/-- Whether a placeholder starts at a character that `cs` follows. -/
def opensPlaceholder (c : Char) (cs : List Char) : Bool := c = '%' && startsWithWord cs

/-- A part, unless it is empty, in front of the others. -/
def consPart (part : List Char) (parts : List (List Char)) : List (List Char) :=
  if part.isEmpty then parts else part :: parts

/-- Cut a text into parts.  `part` is what has been read of the current part,
and `inside` says whether that part is a placeholder. -/
def partsFrom (inside : Bool) (part : List Char) : List Char → List (List Char)
  | [] => consPart part []
  | c :: cs =>
      if opensPlaceholder c cs then consPart part (partsFrom true [c] cs)
      else if inside && !isWord c then consPart part (partsFrom false [c] cs)
      else partsFrom inside (part ++ [c]) cs

/-- The parts of a label. -/
def parts (label : String) : List (List Char) := partsFrom false [] label.toList

/-- The name a part gives to an input, if it starts with a percent sign. -/
def partName? : List Char → Option (List Char)
  | '%' :: name => some name
  | _ => none

/-- Keep the first of equal items. -/
def keepFirst {α : Type} [DecidableEq α] : List α → List α
  | [] => []
  | x :: xs => x :: (keepFirst xs).filter (· ≠ x)

@[simp] theorem mem_keepFirst {α : Type} [DecidableEq α] {y : α} {xs : List α} :
    y ∈ keepFirst xs ↔ y ∈ xs := by
  induction xs with
  | nil => simp [keepFirst]
  | cons x xs ih => by_cases h : y = x <;> simp [keepFirst, h, ih]

theorem nodup_keepFirst {α : Type} [DecidableEq α] (xs : List α) : (keepFirst xs).Nodup := by
  induction xs with
  | nil => simp [keepFirst]
  | cons x xs ih =>
    simp only [keepFirst, List.nodup_cons, List.mem_filter]
    exact ⟨fun h => by simp at h, List.Pairwise.filter _ ih⟩

/-- The names of the inputs of a label, each once, in order of appearance. -/
def inputNames (label : String) : List String :=
  keepFirst (((parts label).filterMap partName?).map String.ofList)

/-- A part that is a placeholder. -/
def isPlaceholder : List Char → Bool
  | c :: cs => opensPlaceholder c cs
  | [] => false

/-- The label as the palette shows it, every placeholder as a low line. -/
def displayName (label : String) : String :=
  String.ofList ((parts label).flatMap fun p => if isPlaceholder p then ['_'] else p)

example : partsFrom false [] ['a', '%', 'b', '.'] = [['a'], ['%', 'b'], ['.']] := by
  decide +kernel
example : partsFrom false [] ['%', '%', 'a'] = [['%'], ['%', 'a']] := by decide +kernel

end Blockwork.Label
