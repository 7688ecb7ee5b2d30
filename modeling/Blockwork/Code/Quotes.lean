import Blockwork.Text.Pattern
import Blockwork.Text.Quoted
import Blockwork.Unicode.Blank
import Blockwork.Unicode.Word

/-!
# Dropping quotes around names and values

What a user types into a slot often comes with quotes that the program must not
have.  Two passes drop them.  The first drops the quotes around the name in a
declaration: a declaring word on its own, blanks, a quoted text, and an equals
sign behind it.  The second drops the quotes around a value: an equals sign and a
quoted text behind it.  A quoted text has at least one character and no quote
inside, and it may run over several lines.
-/

namespace Blockwork.Code

open Blockwork.Text (Pattern dropLiteral? replaceMatches doubleQuote)
open Blockwork.Unicode (isBlank isWord)

/-- The words that declare a name. -/
def declaringWords : List (List Char) :=
  ["local", "var", "let", "const", "int", "float", "string", "auto", "char", "double", "bool",
    "def", "function"].map String.toList

/-- A quoted text at the start of a text: what is between the quotes, and what
follows. -/
def quotedAt? : List Char → Option (List Char × List Char)
  | [] => none
  | q :: cs =>
      if q = doubleQuote then
        match cs.takeWhile (· ≠ doubleQuote), cs.dropWhile (· ≠ doubleQuote) with
        | [], _ => none
        | _, [] => none
        | inner, _ :: rest => some (inner, rest)
      else none

/-- A declaring word with the blanks behind it, and what follows. -/
def declaringAt? (cs : List Char) : Option (List Char × List Char) :=
  declaringWords.findSome? fun w =>
    match dropLiteral? w cs with
    | some rest =>
        match rest.takeWhile isBlank with
        | [] => none
        | blanks => some (w ++ blanks, rest.dropWhile isBlank)
    | none => none

/-- The blanks and the equals sign at the start of a text. -/
def equalsAt? (cs : List Char) : Option (List Char) :=
  match cs.dropWhile isBlank with
  | '=' :: _ => some (cs.takeWhile isBlank ++ ['='])
  | _ => none

/-- The pattern of a declaration with a quoted name. -/
def declaration : Pattern := fun before cs =>
  if before.any isWord then none
  else
    match declaringAt? cs with
    | none => none
    | some (word, rest) =>
        match quotedAt? rest with
        | none => none
        | some (name, rest) =>
            (equalsAt? rest).map fun equals =>
              (word ++ name ++ equals, word.length + name.length + 2 + equals.length)

/-- The pattern of a quoted value behind an equals sign. -/
def assignment : Pattern := fun _ cs =>
  match cs with
  | '=' :: rest =>
      let blanks := rest.takeWhile isBlank
      (quotedAt? (rest.dropWhile isBlank)).map fun (value, _) =>
        ('=' :: blanks ++ value, 1 + blanks.length + value.length + 2)
  | _ => none

/-- Drop the quotes around declared names, then those around values. -/
def dropQuotesChars (cs : List Char) : List Char :=
  replaceMatches assignment (replaceMatches declaration cs)

/-- Drop the quotes around declared names, then those around values. -/
def dropQuotes (code : String) : String := String.ofList (dropQuotesChars code.toList)

end Blockwork.Code
