import Mathlib.Data.List.DropRight
import Blockwork.Code.Generate

/-!
# Hanging text at an indentation

A text hangs at an indentation when every line break in it is followed by the
indentation.  An indentation is made of spaces and tabs, and none of what the generator
does to texts cares about these: they begin no placeholder, no declaration and no
assignment, they are no part of a name, and wherever a line break is a blank they are
blanks too.  So whatever is done to a text that hangs comes to the same as doing it
first and hanging the result.

Replacing the line breaks with one indentation by line breaks with another turns a text
that hangs at the one into the text that hangs at the other.
-/

namespace Blockwork.Code

open Blockwork.Text (Pattern dropLiteral? replaceFrom replaceMatches replaceAll literal doubleQuote)
open Blockwork.Unicode (isBlank isWord startsWithWord stripChars)

variable {indent old new cs rest name value : List Char} {c : Char} {f : Char → Bool}

/-! ## Lines -/

/-- What follows a character in a hanging text: the indentation, behind a line break. -/
def overhang (indent : List Char) (c : Char) : List Char := if c = '\n' then indent else []

/-- A text with an indentation behind every line break. -/
def hang (indent : List Char) : List Char → List Char
  | [] => []
  | c :: cs => c :: (overhang indent c ++ hang indent cs)

/-- A text made of spaces and tabs. -/
def Indents (indent : List Char) : Prop := ∀ c ∈ indent, c = ' ' ∨ c = '\t'

theorem Indents.not_newline (h : Indents indent) : '\n' ∉ indent := by
  intro hm
  rcases h _ hm with he | he <;> cases he

theorem Indents.append (h : Indents old) (h' : Indents new) : Indents (old ++ new) := by
  intro c hc
  exact (List.mem_append.1 hc).elim (h c) (h' c)

theorem overhang_of_ne (h : c ≠ '\n') : overhang indent c = [] := if_neg h

@[simp]
theorem hang_nil : hang indent [] = [] := rfl

theorem hang_cons (c : Char) (cs : List Char) :
    hang indent (c :: cs) = c :: (overhang indent c ++ hang indent cs) := rfl

theorem hang_cons_of_ne (h : c ≠ '\n') : hang indent (c :: cs) = c :: hang indent cs := by
  rw [hang, overhang_of_ne h, List.nil_append]

@[simp] theorem hang_append (as bs : List Char) :
    hang indent (as ++ bs) = hang indent as ++ hang indent bs := by
  induction as with
  | nil => rfl
  | cons a as ih => simp [hang, ih]

/-- A single line hangs anywhere. -/
theorem hang_of_line (h : '\n' ∉ cs) : hang indent cs = cs := by
  induction cs with
  | nil => rfl
  | cons c cs ih =>
    obtain ⟨hc, hcs⟩ := not_or.1 (List.mem_cons.not.1 h)
    rw [hang_cons_of_ne (Ne.symm hc), ih hcs]

theorem hang_by_nil (cs : List Char) : hang [] cs = cs := by
  induction cs with
  | nil => rfl
  | cons c cs ih => simp [hang, overhang, ih]

theorem hang_eq_nil : hang indent cs = [] ↔ cs = [] := by
  cases cs <;> simp [hang]

theorem newline_mem_hang : '\n' ∈ hang indent cs ↔ '\n' ∈ cs := by
  induction cs with
  | nil => simp [hang]
  | cons c cs ih =>
    by_cases hc : c = '\n'
    · simp [hang, hc]
    · simp [hang_cons_of_ne hc, ih]

/-- A text that hangs at one indentation, hung at another, hangs at both together. -/
theorem hang_hang (h : '\n' ∉ new) (cs : List Char) :
    hang old (hang new cs) = hang (old ++ new) cs := by
  induction cs with
  | nil => rfl
  | cons c cs ih =>
    by_cases hc : c = '\n'
    · subst hc
      simp [hang, overhang, hang_of_line h, ih]
    · rw [hang_cons_of_ne hc, hang_cons_of_ne hc, hang_cons_of_ne hc, ih]

/-! ## Reading -/

theorem takeWhile_hang (h : f '\n' = true → ∀ c ∈ indent, f c = true) (cs : List Char) :
    (hang indent cs).takeWhile f = hang indent (cs.takeWhile f) := by
  induction cs with
  | nil => rfl
  | cons c cs ih =>
    by_cases hf : f c = true
    · have hover : ∀ x ∈ overhang indent c, f x = true := by
        intro x hx
        by_cases hc : c = '\n'
        · subst hc
          exact h hf x (by simpa [overhang] using hx)
        · simp [overhang_of_ne hc] at hx
      rw [hang, List.takeWhile_cons_of_pos hf, List.takeWhile_cons_of_pos hf,
        List.takeWhile_append_of_pos hover, ih, hang]
    · rw [hang, List.takeWhile_cons_of_neg hf, List.takeWhile_cons_of_neg hf, hang]

theorem dropWhile_hang (h : f '\n' = true → ∀ c ∈ indent, f c = true) (cs : List Char) :
    (hang indent cs).dropWhile f = hang indent (cs.dropWhile f) := by
  have hsplit : hang indent (cs.takeWhile f) ++ (hang indent cs).dropWhile f = hang indent cs := by
    rw [← takeWhile_hang h, List.takeWhile_append_dropWhile]
  have hsplit' : hang indent (cs.takeWhile f) ++ hang indent (cs.dropWhile f) = hang indent cs := by
    rw [← hang_append, List.takeWhile_append_dropWhile]
  exact List.append_cancel_left (hsplit.trans hsplit'.symm)

theorem Indents.blank (h : Indents indent) (_ : isBlank '\n' = true) :
    ∀ c ∈ indent, isBlank c = true := by
  intro c hc
  rcases h c hc with rfl | rfl <;> decide

theorem not_isWord_newline : isWord '\n' = true → ∀ c ∈ indent, isWord c = true := by
  intro hf
  exact absurd hf (by decide +kernel)

theorem Indents.not_quote (h : Indents indent) (_ : decide ('\n' ≠ doubleQuote) = true) :
    ∀ c ∈ indent, decide (c ≠ doubleQuote) = true := by
  intro c hc
  rcases h c hc with rfl | rfl <;> decide

theorem all_hang (h : f '\n' = true → ∀ c ∈ indent, f c = true) (cs : List Char) :
    (hang indent cs).all f = cs.all f := by
  induction cs with
  | nil => rfl
  | cons c cs ih =>
    by_cases hf : f c = true
    · have hover : (overhang indent c).all f = true := by
        by_cases hc : c = '\n'
        · subst hc
          simpa [overhang] using h hf
        · simp [overhang_of_ne hc]
      rw [hang, List.all_cons, List.all_append, hover, ih, Bool.true_and, List.all_cons]
    · simp [hang, hf]

/-- A piece of one line is found in a hanging text where it is found in the text. -/
theorem dropLiteral?_hang {lit : List Char} (h : '\n' ∉ lit) (cs : List Char) :
    dropLiteral? lit (hang indent cs) = (dropLiteral? lit cs).map (hang indent) := by
  induction lit generalizing cs with
  | nil => rfl
  | cons l ls ih =>
    obtain ⟨hl, hls⟩ := not_or.1 (List.mem_cons.not.1 h)
    cases cs with
    | nil => rfl
    | cons c cs =>
      by_cases hc : l = c
      · subst hc
        rw [hang_cons_of_ne (Ne.symm hl)]
        simp [dropLiteral?, ih hls]
      · simp [hang, dropLiteral?, hc]

theorem startsWithWord_hang (cs : List Char) :
    startsWithWord (hang indent cs) = startsWithWord cs := by
  cases cs <;> rfl

/-- A text that hangs, without the blanks at its ends, hangs. -/
theorem stripChars_hang (h : Indents indent) (cs : List Char) :
    stripChars (hang indent cs) = hang indent (stripChars cs) := by
  have hright (cs : List Char) :
      (hang indent cs).rdropWhile isBlank = hang indent (cs.rdropWhile isBlank) := by
    induction cs using List.reverseRecOn with
    | nil => rfl
    | append_singleton cs c ih =>
      have hlast : hang indent [c] = c :: overhang indent c := by simp [hang]
      rw [hang_append, hlast, List.rdropWhile_concat]
      by_cases hb : isBlank c = true
      · have hblank : ∀ x ∈ c :: overhang indent c, isBlank x = true := by
          intro x hx
          rcases List.mem_cons.1 hx with rfl | hx
          · exact hb
          · by_cases hc : c = '\n'
            · subst hc
              exact h.blank hb x (by simpa [overhang] using hx)
            · simp [overhang_of_ne hc] at hx
        rw [if_pos hb, ← ih, List.rdropWhile, List.reverse_append,
          List.dropWhile_append_of_pos fun x hx => hblank x (List.mem_reverse.1 hx)]
        rfl
      · have hc : c ≠ '\n' := by
          rintro rfl
          exact hb (by decide)
        rw [if_neg hb, overhang_of_ne hc, List.rdropWhile_concat, if_neg hb, hang_append, hlast,
          overhang_of_ne hc]
  change ((hang indent cs).dropWhile isBlank).rdropWhile isBlank =
    hang indent ((cs.dropWhile isBlank).rdropWhile isBlank)
  rw [dropWhile_hang h.blank, hright]

/-! ## Replacing -/

/-- A pattern for hanging texts does what another does for texts, and fits nowhere in an
indentation. -/
structure Suspends (indent : List Char) (p q : Pattern) : Prop where
  /-- Where the one fits, the other does, and takes and writes the same, hung. -/
  fits : ∀ {b b' : Option Char} (cs : List Char), b'.any isWord = b.any isWord →
    q b' (hang indent cs) =
      (p b cs).map fun r => (hang indent r.1, (hang indent (cs.take r.2)).length)
  takes : ∀ {b : Option Char} {cs out : List Char} {n : Nat}, p b cs = some (out, n) → 0 < n
  /-- It fits at no space and at no tab. -/
  skips : ∀ {b : Option Char} {c : Char} (cs : List Char), c = ' ' ∨ c = '\t' → q b (c :: cs) = none

/-- What stands before a place behind a piece of text. -/
def lastOr (b : Option Char) (piece : List Char) : Option Char :=
  piece.foldl (fun _ c => some c) b

theorem replaceFrom_skip (p : Pattern) (k : Nat) (b : Option Char) (piece cs : List Char) :
    replaceFrom p (piece.length + k) b (piece ++ cs) = replaceFrom p k (lastOr b piece) cs := by
  induction piece generalizing b with
  | nil => simp [lastOr]
  | cons c piece ih =>
    rw [List.length_cons, Nat.add_right_comm, List.cons_append, replaceFrom, ih]
    rfl

theorem replaceFrom_copy {p : Pattern} {piece : List Char}
    (h : ∀ b, ∀ c ∈ piece, ∀ cs, p b (c :: cs) = none) (b : Option Char) (cs : List Char) :
    replaceFrom p 0 b (piece ++ cs) = piece ++ replaceFrom p 0 (lastOr b piece) cs := by
  induction piece generalizing b with
  | nil => rfl
  | cons c piece ih =>
    have hc := h b c (List.mem_cons_self ..) (piece ++ cs)
    have hrest := ih (fun b x hx => h b x (List.mem_cons_of_mem c hx)) (some c)
    simp only [List.cons_append, replaceFrom, hc, hrest]
    rfl

/-- No word stands before a place behind an indentation. -/
theorem any_isWord_lastOr_overhang (h : Indents indent) (c : Char) :
    (lastOr (some c) (overhang indent c)).any isWord = (some c).any isWord := by
  by_cases hc : c = '\n'
  · subst hc
    have hlast (piece : List Char) (hp : Indents piece) :
        ∀ b : Option Char, b.any isWord = false → (lastOr b piece).any isWord = false := by
      induction piece with
      | nil => exact fun b hb => hb
      | cons c piece ih =>
        intro b _
        refine ih (fun x hx => hp x (List.mem_cons_of_mem c hx)) (some c) ?_
        rcases hp c (List.mem_cons_self ..) with rfl | rfl <;> decide +kernel
    have hline : (some '\n').any isWord = false := by decide +kernel
    rw [overhang, if_pos rfl, hline]
    exact hlast indent h _ hline
  · rw [overhang_of_ne hc]
    rfl

theorem replaceFrom_hang (h : Indents indent) {p q : Pattern} (hpq : Suspends indent p q)
    (cs : List Char) : ∀ (k : Nat) (b b' : Option Char), b'.any isWord = b.any isWord →
      replaceFrom q (hang indent (cs.take k)).length b' (hang indent cs) =
        hang indent (replaceFrom p k b cs) := by
  induction cs with
  | nil =>
    intro k b b' _
    simp [hang, replaceFrom]
  | cons c cs ih =>
    -- behind the character comes its overhang, which is skipped or copied
    have hover (b : Option Char) : ∀ x ∈ overhang indent c, ∀ cs, q b (x :: cs) = none := by
      intro x hx cs
      by_cases hc : c = '\n'
      · subst hc
        exact hpq.skips cs (h x (by simpa [overhang] using hx))
      · simp [overhang_of_ne hc] at hx
    have hskip (k : Nat) :
        replaceFrom q ((overhang indent c).length + (hang indent (cs.take k)).length) (some c)
          (overhang indent c ++ hang indent cs) = hang indent (replaceFrom p k (some c) cs) := by
      rw [replaceFrom_skip]
      exact ih k _ _ (any_isWord_lastOr_overhang h c)
    intro k b b' hb
    cases k with
    | succ k =>
      rw [List.take_succ_cons, hang_cons, hang_cons, List.length_cons, List.length_append,
        replaceFrom, hskip]
      rfl
    | zero =>
      have hfits := hpq.fits (c :: cs) hb
      rw [List.take_zero, hang, List.length_nil, hang_cons]
      rw [hang_cons] at hfits
      cases hp : p b (c :: cs) with
      | none =>
        rw [hp] at hfits
        have hcopy := replaceFrom_copy hover (some c) (hang indent cs)
        have hrest := ih 0 _ _ (any_isWord_lastOr_overhang h c)
        rw [List.take_zero, hang, List.length_nil] at hrest
        simp only [replaceFrom, hfits, hp, hcopy, hrest]
        rfl
      | some r =>
        obtain ⟨out, n⟩ := r
        obtain ⟨m, rfl⟩ := Nat.exists_eq_succ_of_ne_zero (hpq.takes hp).ne'
        rw [hp] at hfits
        have hlength : (hang indent ((c :: cs).take m.succ)).length - 1 =
            (overhang indent c).length + (hang indent (cs.take m)).length := by
          simp [hang]
        simp only [replaceFrom, hfits, hp, Option.map_some, hlength, hskip, hang_append]
        rfl

/-- Replacing in a hanging text comes to replacing in the text. -/
theorem replaceMatches_hang (h : Indents indent) {p q : Pattern} (hpq : Suspends indent p q)
    (cs : List Char) : replaceMatches q (hang indent cs) = hang indent (replaceMatches p cs) :=
  replaceFrom_hang h hpq cs 0 none none rfl

/-- A text that hangs at one indentation is brought to another. -/
theorem replaceAll_hang (cs : List Char) :
    replaceAll ('\n' :: old) ('\n' :: new) (hang old cs) = hang new cs := by
  have hfrom (b : Option Char) :
      replaceFrom (literal ('\n' :: old) ('\n' :: new)) 0 b (hang old cs) = hang new cs := by
    induction cs generalizing b with
    | nil => rfl
    | cons c cs ih =>
      by_cases hc : c = '\n'
      · subst hc
        have hfound : literal ('\n' :: old) ('\n' :: new) b ('\n' :: (old ++ hang old cs)) =
            some ('\n' :: new, old.length + 1) := by
          have hdrop : dropLiteral? ('\n' :: old) ('\n' :: (old ++ hang old cs)) =
              some (hang old cs) := Text.dropLiteral?_eq_some_iff.2 rfl
          rw [literal, hdrop]
          rfl
        have hskip := replaceFrom_skip (literal ('\n' :: old) ('\n' :: new)) 0 (some '\n') old
          (hang old cs)
        rw [hang, overhang, if_pos rfl]
        simp only [replaceFrom, hfound, Nat.add_sub_cancel]
        rw [Nat.add_zero] at hskip
        rw [hskip, ih]
        simp [hang, overhang]
      · have hnot : literal ('\n' :: old) ('\n' :: new) b (c :: hang old cs) = none := by
          simp [literal, dropLiteral?, Ne.symm hc]
        rw [hang_cons_of_ne hc, hang_cons_of_ne hc]
        simp only [replaceFrom, hnot, ih]
  rw [replaceAll, if_neg (List.cons_ne_nil _ _)]
  exact hfrom none

end Blockwork.Code
