import Blockwork.Proofs.Code.HangingText
import Blockwork.Proofs.Lists

/-!
# Placeholders, quotes and definitions in hanging texts

What the generator looks for in a text is found in the hanging text at the same places.
A placeholder is one line.  A declaration and an assignment may run over several lines,
but only through blanks and between quotes, and there the indentation is taken along.
-/

namespace Blockwork.Code

open Blockwork.Text (Pattern dropLiteral? replaceMatches doubleQuote)
open Blockwork.Unicode (isBlank isWord startsWithWord stripChars)

variable {indent cs rest name value : List Char}

/-! ## Placeholders -/

theorem length_of_placeholderAt? {n : Nat} (h : placeholderAt? name cs = some n) :
    n = name.length + 1 ∧ ∃ rest, cs = ('%' :: name) ++ rest := by
  rw [placeholderAt?] at h
  cases hd : dropLiteral? ('%' :: name) cs with
  | none => simp [hd] at h
  | some rest =>
    rw [hd] at h
    dsimp only at h
    split at h
    · cases h
    · cases h
      exact ⟨rfl, rest, Text.dropLiteral?_eq_some_iff.1 hd⟩

theorem placeholderAt?_hang (hname : '\n' ∉ name) (cs : List Char) :
    placeholderAt? name (hang indent cs) = placeholderAt? name cs := by
  have hlit : '\n' ∉ '%' :: name := by simpa using hname
  rw [placeholderAt?, dropLiteral?_hang hlit, placeholderAt?]
  cases dropLiteral? ('%' :: name) cs with
  | none => rfl
  | some rest => simp [startsWithWord_hang]

/-- A placeholder takes as much of a hanging text as of the text. -/
theorem length_take_placeholder (hname : '\n' ∉ name) {n : Nat}
    (h : placeholderAt? name cs = some n) : (hang indent (cs.take n)).length = n := by
  obtain ⟨rfl, rest, rfl⟩ := length_of_placeholderAt? h
  have htake : (('%' :: name) ++ rest).take (name.length + 1) = '%' :: name := by simp
  rw [htake, hang_of_line (by simpa using hname)]
  rfl

theorem placeholderAt?_indent {c : Char} (cs : List Char) (hc : c = ' ' ∨ c = '\t') :
    placeholderAt? name (c :: cs) = none := by
  rcases hc with rfl | rfl <;> simp [placeholderAt?, dropLiteral?]

theorem suspends_placeholder (hname : '\n' ∉ name) :
    Suspends indent (placeholder name value) (placeholder name (hang indent value)) where
  fits cs _ := by
    rw [placeholder, placeholder, placeholderAt?_hang hname]
    cases hn : placeholderAt? name cs with
    | none => rfl
    | some n => simp [length_take_placeholder hname hn]
  takes h := by
    obtain ⟨n, hn, h⟩ := Option.map_eq_some_iff.1 h
    cases h
    rw [(length_of_placeholderAt? hn).1]
    omega
  skips cs hc := by
    rw [placeholder, placeholderAt?_indent cs hc]
    rfl

theorem suspends_fallback :
    Suspends indent (fallback value) (fallback (hang indent value)) where
  fits cs _ := by
    have hnames : ∀ name ∈ fallbackNames, '\n' ∉ name := by decide
    have hfound : fallbackNames.findSome? (placeholderAt? · (hang indent cs)) =
        (fallbackNames.findSome? (placeholderAt? · cs)).map id :=
      findSome?_map_of_mem fun name hname => by
        rw [placeholderAt?_hang (hnames name hname), Option.map_id_fun, id]
    rw [fallback, fallback, hfound]
    cases hn : fallbackNames.findSome? (placeholderAt? · cs) with
    | none => rfl
    | some n =>
      obtain ⟨name, hname, hn⟩ := List.exists_of_findSome?_eq_some hn
      simp [length_take_placeholder (hnames name hname) hn]
  takes h := by
    obtain ⟨n, hn, h⟩ := Option.map_eq_some_iff.1 h
    obtain ⟨name, -, hn⟩ := List.exists_of_findSome?_eq_some hn
    cases h
    rw [(length_of_placeholderAt? hn).1]
    omega
  skips {_ c} cs hc := by
    have hnone : fallbackNames.findSome? (placeholderAt? · (c :: cs)) = none :=
      List.findSome?_eq_none_iff.2 fun name _ => placeholderAt?_indent cs hc
    rw [fallback, hnone]
    rfl

/-! ## Quotes -/

theorem quotedAt?_hang (h : Indents indent) (cs : List Char) :
    quotedAt? (hang indent cs) =
      (quotedAt? cs).map fun r => (hang indent r.1, hang indent r.2) := by
  have hline : doubleQuote ≠ '\n' := by decide
  cases cs with
  | nil => rfl
  | cons q cs =>
    by_cases hq : q = doubleQuote
    · subst hq
      rw [hang_cons_of_ne hline, quotedAt?, if_pos rfl, quotedAt?, if_pos rfl,
        takeWhile_hang h.not_quote, dropWhile_hang h.not_quote]
      cases cs.takeWhile (· ≠ doubleQuote) with
      | nil => rfl
      | cons c inner =>
        cases hrest : cs.dropWhile (· ≠ doubleQuote) with
        | nil => rfl
        | cons q rest =>
          have hq : q = doubleQuote := by
            have hhead := List.head?_dropWhile_not (· ≠ doubleQuote) cs
            rw [hrest] at hhead
            simpa using hhead
          rw [hq, hang_cons_of_ne hline]
          rfl
    · rw [hang_cons, quotedAt?, if_neg hq, quotedAt?, if_neg hq]
      rfl

/-- A quoted text takes what is between the quotes and the quotes. -/
theorem eq_of_quotedAt? (h : quotedAt? cs = some (value, rest)) :
    cs = doubleQuote :: (value ++ doubleQuote :: rest) := by
  cases cs with
  | nil => cases h
  | cons q cs =>
    rw [quotedAt?] at h
    split at h
    · next hq =>
      have hsplit := List.takeWhile_append_dropWhile (p := (· ≠ doubleQuote)) (l := cs)
      have hhead := List.head?_dropWhile_not (· ≠ doubleQuote) cs
      cases hinner : cs.takeWhile (· ≠ doubleQuote) with
      | nil =>
        rw [hinner] at h
        cases h
      | cons c inner =>
        cases hrest : cs.dropWhile (· ≠ doubleQuote) with
        | nil =>
          rw [hinner, hrest] at h
          cases h
        | cons q' tail =>
          rw [hinner, hrest] at h hsplit
          rw [hrest] at hhead
          cases h
          have hq' : q' = doubleQuote := by simpa using hhead
          rw [← hsplit, hq, hq']
    · cases h

theorem declaringAt?_hang (h : Indents indent) (cs : List Char) :
    declaringAt? (hang indent cs) =
      (declaringAt? cs).map fun r => (hang indent r.1, hang indent r.2) := by
  refine findSome?_map_of_mem fun word hword => ?_
  have hline : '\n' ∉ word := by
    revert word
    decide
  rw [dropLiteral?_hang hline]
  cases dropLiteral? word cs with
  | none => rfl
  | some rest =>
    rw [Option.map_some]
    dsimp only
    rw [takeWhile_hang h.blank, dropWhile_hang h.blank]
    cases rest.takeWhile isBlank with
    | nil => rfl
    | cons c blanks =>
      simp only [Option.map_some, hang_append, hang_of_line hline]
      rfl

theorem eq_of_declaringAt? (h : declaringAt? cs = some (value, rest)) :
    value ≠ [] ∧ cs = value ++ rest := by
  obtain ⟨word, -, hword⟩ := List.exists_of_findSome?_eq_some h
  cases hd : dropLiteral? word cs with
  | none => simp [hd] at hword
  | some tail =>
    rw [hd] at hword
    dsimp only at hword
    have hsplit := List.takeWhile_append_dropWhile (p := isBlank) (l := tail)
    split at hword
    · cases hword
    · next blanks hne =>
      cases hword
      refine ⟨fun he => hne (List.append_eq_nil_iff.1 he).2, ?_⟩
      rw [Text.dropLiteral?_eq_some_iff.1 hd, List.append_assoc, hsplit]

theorem equalsAt?_hang (h : Indents indent) (cs : List Char) :
    equalsAt? (hang indent cs) = (equalsAt? cs).map (hang indent) := by
  rw [equalsAt?, dropWhile_hang h.blank, takeWhile_hang h.blank, equalsAt?]
  cases cs.dropWhile isBlank with
  | nil => rfl
  | cons c rest =>
    by_cases hc : c = '='
    · subst hc
      simp [hang, overhang]
    · simp [hang_cons, hc]

theorem eq_of_equalsAt? (h : equalsAt? cs = some value) : ∃ rest, cs = value ++ rest := by
  have hsplit := List.takeWhile_append_dropWhile (p := isBlank) (l := cs)
  rw [equalsAt?] at h
  split at h
  · next rest hrest =>
    cases h
    refine ⟨rest, ?_⟩
    rw [hrest] at hsplit
    rw [List.append_assoc]
    exact hsplit.symm
  · cases h

theorem not_declaring_indent {c : Char} (cs : List Char) (hc : c = ' ' ∨ c = '\t') :
    declaringAt? (c :: cs) = none := by
  refine List.findSome?_eq_none_iff.2 fun word hword => ?_
  have hhead : ∀ w ∈ declaringWords, w.head? ≠ none ∧ w.head? ≠ some ' ' ∧ w.head? ≠ some '\t' := by
    decide
  obtain ⟨hne, hspace, htab⟩ := hhead word hword
  cases word with
  | nil => exact absurd rfl hne
  | cons l ls =>
    have hl : l ≠ c := by
      rintro rfl
      rcases hc with rfl | rfl
      · exact hspace rfl
      · exact htab rfl
    simp [dropLiteral?, hl]

theorem hang_take_of_eq (indent : List Char) {piece : List Char} {n : Nat}
    (hcs : cs = piece ++ rest) (hn : n = piece.length) :
    hang indent (cs.take n) = hang indent piece := by
  rw [hcs, hn, List.take_left]

theorem length_hang_quote : (hang indent [doubleQuote]).length = 1 := by
  rw [hang_of_line (by decide)]
  rfl

theorem suspends_declaration (h : Indents indent) :
    Suspends indent declaration declaration where
  fits {b b'} cs hb := by
    rw [declaration, declaration, hb]
    split
    · rfl
    · rw [declaringAt?_hang h]
      cases hword : declaringAt? cs with
      | none => rfl
      | some r =>
        obtain ⟨word, rest⟩ := r
        dsimp only [Option.map_some]
        rw [quotedAt?_hang h]
        cases hname : quotedAt? rest with
        | none => rfl
        | some r =>
          obtain ⟨name, rest'⟩ := r
          dsimp only [Option.map_some]
          rw [equalsAt?_hang h]
          cases hequals : equalsAt? rest' with
          | none => rfl
          | some equals =>
            obtain ⟨tail, htail⟩ := eq_of_equalsAt? hequals
            have hcs :
                cs = (word ++ ([doubleQuote] ++ (name ++ ([doubleQuote] ++ equals)))) ++ tail := by
              rw [(eq_of_declaringAt? hword).2, eq_of_quotedAt? hname, htail]
              simp
            have htake := hang_take_of_eq indent hcs
              (n := word.length + name.length + 2 + equals.length) (by simp; omega)
            simp only [Option.map_some, htake, hang_append, List.length_append, length_hang_quote]
            congr 2
            omega
  takes {b cs out n} hp := by
    rw [declaration] at hp
    split at hp
    · cases hp
    · cases hword : declaringAt? cs with
      | none => simp [hword] at hp
      | some r =>
        have hne := (eq_of_declaringAt? hword).1
        rw [hword] at hp
        dsimp only at hp
        cases hname : quotedAt? r.2 with
        | none => simp [hname] at hp
        | some r' =>
          rw [hname] at hp
          obtain ⟨equals, -, he⟩ := Option.map_eq_some_iff.1 hp
          cases he
          have := List.length_pos_iff.2 hne
          omega
  skips cs hc := by
    rw [declaration, not_declaring_indent cs hc]
    split <;> rfl

theorem suspends_assignment (h : Indents indent) : Suspends indent assignment assignment where
  fits cs _ := by
    cases cs with
    | nil => rfl
    | cons c cs =>
      by_cases hc : c = '='
      · subst hc
        rw [hang_cons_of_ne (by decide), assignment, assignment]
        dsimp only
        rw [takeWhile_hang h.blank, dropWhile_hang h.blank, quotedAt?_hang h]
        cases hvalue : quotedAt? (cs.dropWhile isBlank) with
        | none => rfl
        | some r =>
          obtain ⟨value, tail⟩ := r
          have hcs : '=' :: cs = (['='] ++ (cs.takeWhile isBlank ++ ([doubleQuote] ++ (value ++
              [doubleQuote])))) ++ tail := by
            have hsplit := List.takeWhile_append_dropWhile (p := isBlank) (l := cs)
            rw [eq_of_quotedAt? hvalue] at hsplit
            conv_lhs => rw [← hsplit]
            simp
          have htake := hang_take_of_eq indent hcs
            (n := 1 + (cs.takeWhile isBlank).length + value.length + 2) (by simp; omega)
          simp only [Option.map_some, htake, hang_append, List.length_append, length_hang_quote,
            hang_cons_of_ne (by decide : '=' ≠ '\n'), hang_nil, List.length_singleton]
          congr 2
          omega
      · simp [hang_cons, assignment, hc]
  takes {b cs out n} hp := by
    cases cs with
    | nil => cases hp
    | cons c cs =>
      by_cases hc : c = '='
      · subst hc
        obtain ⟨r, -, he⟩ := Option.map_eq_some_iff.1 hp
        cases he
        omega
      · simp [assignment, hc] at hp
  skips cs hc := by
    rcases hc with rfl | rfl <;> rfl

theorem dropQuotesChars_hang (h : Indents indent) (cs : List Char) :
    dropQuotesChars (hang indent cs) = hang indent (dropQuotesChars cs) := by
  rw [dropQuotesChars, replaceMatches_hang h (suspends_declaration h),
    replaceMatches_hang h (suspends_assignment h), dropQuotesChars]

/-! ## Definitions -/

theorem not_newline_of_takeWhile_isWord (cs : List Char) : '\n' ∉ cs.takeWhile isWord := by
  intro hm
  exact absurd (List.mem_takeWhile_imp hm) (by decide +kernel)

theorem definedName?_hang (h : Indents indent) {bodyVar : List Char} (hvar : '\n' ∉ bodyVar)
    (cs : List Char) : definedName? (hang indent cs) bodyVar = definedName? cs bodyVar := by
  have hlit : '\n' ∉ '%' :: bodyVar := by simpa using hvar
  rw [definedName?, definedName?, dropWhile_hang h.blank]
  generalize cs.dropWhile isBlank = text
  rw [takeWhile_hang not_isWord_newline, dropWhile_hang not_isWord_newline, dropWhile_hang h.blank,
    hang_of_line (not_newline_of_takeWhile_isWord text)]
  cases text.takeWhile isWord with
  | nil => rfl
  | cons n name =>
    cases (text.dropWhile isWord).dropWhile isBlank with
    | nil => rfl
    | cons c rest =>
      by_cases hc : c = '='
      · subst hc
        have hrest : dropLiteral? ('%' :: bodyVar) ((hang indent rest).dropWhile isBlank) =
            (dropLiteral? ('%' :: bodyVar) (rest.dropWhile isBlank)).map (hang indent) := by
          rw [dropWhile_hang h.blank, dropLiteral?_hang hlit]
        rw [hang_cons_of_ne (by decide)]
        simp only [hrest]
        cases dropLiteral? ('%' :: bodyVar) (rest.dropWhile isBlank) with
        | none => rfl
        | some rest => simp [all_hang h.blank]
      · simp [hang_cons, hc]

theorem not_newline_of_definedName? {bodyVar : List Char}
    (hn : definedName? cs bodyVar = some name) :
    '\n' ∉ name := by
  have hline := not_newline_of_takeWhile_isWord (cs.dropWhile isBlank)
  rw [definedName?] at hn
  split at hn
  · cases hn
  · split at hn
    · split at hn
      · cases hn
        exact hline
      · cases hn
    · cases hn
  · cases hn

/-! ## Texts -/

/-- A text with an indentation behind every line break. -/
def hangText (indent text : String) : String := String.ofList (hang indent.toList text.toList)

/-- A text without line breaks. -/
def OneLine (text : String) : Prop := '\n' ∉ text.toList

variable {old new : String} {line text : String}

theorem hangText_ofList (indent : String) (cs : List Char) :
    hangText indent (String.ofList cs) = String.ofList (hang indent.toList cs) := by
  rw [hangText, String.toList_ofList]

theorem toList_hangText (indent text : String) :
    (hangText indent text).toList = hang indent.toList text.toList := String.toList_ofList

theorem OneLine.hangText (h : OneLine line) (indent : String) : hangText indent line = line := by
  rw [Code.hangText, hang_of_line h, String.ofList_toList]

@[simp] theorem hangText_empty (text : String) : hangText "" text = text := by
  rw [hangText, show ("" : String).toList = [] from rfl, hang_by_nil, String.ofList_toList]

@[simp] theorem hangText_append (indent s t : String) :
    hangText indent (s ++ t) = hangText indent s ++ hangText indent t := by
  rw [hangText, String.toList_append, hang_append, String.ofList_append, hangText, hangText]

theorem hangText_hangText (h : Indents new.toList) (text : String) :
    hangText old (hangText new text) = hangText (old ++ new) text := by
  rw [hangText, toList_hangText, hang_hang h.not_newline, hangText, String.toList_append]

theorem hangText_eq_empty (indent text : String) : hangText indent text = "" ↔ text = "" := by
  rw [← String.toList_eq_nil_iff, toList_hangText, hang_eq_nil, String.toList_eq_nil_iff]

theorem reindent_hangText (old new text : String) :
    reindent (hangText old text) old new = hangText new text := by
  rw [reindent, toList_hangText, replaceAll_hang, hangText]

theorem strip_hangText (h : Indents old.toList) (text : String) :
    Unicode.strip (hangText old text) = hangText old (Unicode.strip text) := by
  rw [Unicode.strip, toList_hangText, stripChars_hang h, Unicode.strip, hangText_ofList]

theorem dropQuotes_hangText (h : Indents old.toList) (text : String) :
    dropQuotes (hangText old text) = hangText old (dropQuotes text) := by
  rw [dropQuotes, toList_hangText, dropQuotesChars_hang h, dropQuotes, hangText_ofList]

theorem substitute_hangText (h : Indents old.toList) (hname : OneLine line) (text value : String) :
    substitute (hangText old text) line (hangText old value) =
      hangText old (substitute text line value) := by
  rw [substitute, toList_hangText, toList_hangText, substituteChars,
    replaceMatches_hang h (suspends_placeholder hname), substitute, hangText_ofList, substituteChars]

theorem substituteFallback_hangText (h : Indents old.toList) (text value : String) :
    substituteFallback (hangText old text) (hangText old value) =
      hangText old (substituteFallback text value) := by
  rw [substituteFallback, toList_hangText, toList_hangText,
    replaceMatches_hang h suspends_fallback, substituteFallback, hangText_ofList]

end Blockwork.Code
