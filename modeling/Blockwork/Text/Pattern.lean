/-!
# Replacing every match

Placeholders are filled in, quotes are dropped and line breaks are indented by
one process: read the text from left to right, and wherever a pattern fits, write
its replacement and go on behind the match.  A replacement is never read again.
`replaceMatches` is that process for any pattern, and `replaceAll` and `occurs` are
the cases of a fixed piece of text.

The recursion is structural.  A match is remembered as the number of characters
still to be skipped.
-/

namespace Blockwork.Text

/-- A pattern looks at the character before a place, if there is one, and at the
text from that place on.  If it fits, it gives the replacement and how many
characters it takes.  A pattern that takes none is read as taking one. -/
abbrev Pattern := Option Char → List Char → Option (List Char × Nat)

/-- Replace every match.  The number is how many characters to skip first. -/
def replaceFrom (p : Pattern) : Nat → Option Char → List Char → List Char
  | _, _, [] => []
  | k + 1, _, c :: cs => replaceFrom p k (some c) cs
  | 0, before, c :: cs =>
      match p before (c :: cs) with
      | some (out, n) => out ++ replaceFrom p (n - 1) (some c) cs
      | none => c :: replaceFrom p 0 (some c) cs

/-- The text with every match of a pattern replaced. -/
def replaceMatches (p : Pattern) (cs : List Char) : List Char := replaceFrom p 0 none cs

/-- What follows a given piece at the start of a text. -/
def dropLiteral? : List Char → List Char → Option (List Char)
  | [], cs => some cs
  | _ :: _, [] => none
  | l :: ls, c :: cs => if l = c then dropLiteral? ls cs else none

theorem dropLiteral?_eq_some_iff {lit cs rest : List Char} :
    dropLiteral? lit cs = some rest ↔ cs = lit ++ rest := by
  induction lit generalizing cs with
  | nil => simp [dropLiteral?]
  | cons l ls ih =>
    cases cs with
    | nil => simp [dropLiteral?]
    | cons c cs =>
      by_cases h : l = c
      · simp [dropLiteral?, h, ih]
      · simp [dropLiteral?, h, Ne.symm h]

/-- The pattern that fits a given piece and writes another. -/
def literal (old new : List Char) : Pattern := fun _ cs =>
  (dropLiteral? old cs).map fun _ => (new, old.length)

/-- The text with every occurrence of `old` replaced by `new`.  An `old` with
no characters is found nowhere. -/
def replaceAll (old new : List Char) (cs : List Char) : List Char :=
  if old = [] then cs else replaceMatches (literal old new) cs

/-- Whether a piece occurs in a text. -/
def occurs (piece : List Char) : List Char → Bool
  | [] => piece.isEmpty
  | c :: cs => (dropLiteral? piece (c :: cs)).isSome || occurs piece cs

example : replaceAll ['\n'] ['\n', ' '] ['a', '\n', 'b'] = ['a', '\n', ' ', 'b'] := by decide
example : replaceAll ['a', 'a'] ['b'] ['a', 'a', 'a'] = ['b', 'a'] := by decide

end Blockwork.Text
