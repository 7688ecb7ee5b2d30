import Mathlib.Data.List.Chain
import Blockwork.Proofs.Block.LabelInputs

/-!
# A label and its parts

Cutting a label loses nothing and leaves no part empty.  What is cut out are the placeholders,
from left to right, each with the longest name that it can have.  The other parts are plain
text: no percent sign in them has a word character behind it, and plain text is cut nowhere, so
two such parts are never side by side.

A list of parts with these properties is the parts of the label, so they leave nothing open.
-/

namespace Blockwork.Label

open Text (IsName namesIn)
open Unicode (isWord startsWithWord)

variable {part p cs rest w before after : List Char} {ps : List (List Char)}

/-! ## Placeholders and plain text -/

/-- A part that is a placeholder as a whole: a percent sign and word characters, at least one. -/
def isWhole (part : List Char) : Bool := (partName? part).any isMatch

/-- The placeholders of a text from left to right: every percent sign with the longest run of
word characters behind it, where there is one. -/
def placeholdersIn (cs : List Char) : List (List Char) :=
  ((namesIn cs).filter (· ≠ [])).map ('%' :: ·)

/-- No percent sign of a text has a word character behind it, when `cs` follows the text. -/
def Unopened (part cs : List Char) : Prop :=
  ∀ before after, part = before ++ '%' :: after → startsWithWord (after ++ cs) = false

/-- A text is cut into its placeholders and the plain text between them. -/
structure Cuts (cs : List Char) (ps : List (List Char)) : Prop where
  flatten : ps.flatten = cs
  nonempty : [] ∉ ps
  /-- Of two parts side by side one is a placeholder. -/
  apart : ps.IsChain fun p q => isWhole p = true ∨ isWhole q = true
  placeholders : ps.filter isWhole = placeholdersIn cs
  plain : ∀ p ∈ ps, isWhole p = false →
    ∀ before c after, p = before ++ '%' :: c :: after → isWord c = false

theorem isWhole_iff : isWhole part = true ↔ ∃ w, part = '%' :: w ∧ w ≠ [] ∧ IsName w := by
  rw [isWhole, Option.any_eq_true]
  simp only [partName?_eq_some_iff, isMatch_iff]

theorem unopened_nil (cs : List Char) : Unopened [] cs := by
  intro before after h
  simp at h

theorem Unopened.tail {c : Char} (h : Unopened (c :: part) cs) : Unopened part cs :=
  fun before after hp => h (c :: before) after (congrArg (c :: ·) hp)

theorem Unopened.concat {c : Char} (h : Unopened part (c :: cs))
    (hc : c = '%' → startsWithWord cs = false) : Unopened (part ++ [c]) cs := by
  intro before after hp
  rcases List.eq_nil_or_concat after with rfl | ⟨after, d, rfl⟩
  · exact hc (List.cons.inj (List.append_inj' hp rfl).2).1
  · rw [List.concat_eq_append, ← List.cons_append, ← List.append_assoc] at hp
    obtain ⟨rfl, hd⟩ := List.append_inj' hp rfl
    cases hd
    have hnext := h before after rfl
    rwa [List.concat_eq_append, List.append_assoc]

theorem Unopened.plain (h : Unopened part cs) : Plain part cs := h []

theorem Unopened.not_isWhole (h : Unopened part cs) : isWhole part = false := by
  rw [isWhole]
  cases hname : partName? part with
  | none => rfl
  | some w => exact h.plain.not_isMatch hname

/-- Plain text has no placeholders. -/
theorem placeholdersIn_append (h : Unopened part cs) :
    placeholdersIn (part ++ cs) = placeholdersIn cs := by
  induction part with
  | nil => rfl
  | cons c part ih =>
    rw [← ih h.tail, List.cons_append, placeholdersIn, namesIn]
    split
    · next hc =>
      subst hc
      rw [Text.takeWhile_eq_nil_iff.2 (h [] part rfl)]
      rfl
    · rfl

theorem placeholdersIn_name (hw : IsName w) (hne : w ≠ []) (hrest : startsWithWord rest = false) :
    placeholdersIn ('%' :: (w ++ rest)) = ('%' :: w) :: placeholdersIn rest := by
  rw [placeholdersIn, Text.namesIn_name hw hrest, List.filter_cons_of_pos (by simpa using hne)]
  rfl

/-! ## The parts are cut -/

theorem Cuts.text (h : Unopened part []) : Cuts part (consPart part []) := by
  have hnone : placeholdersIn part = [] := by
    have hpart := placeholdersIn_append h
    rwa [List.append_nil] at hpart
  cases part with
  | nil => exact ⟨rfl, List.not_mem_nil, .nil, rfl, nofun⟩
  | cons c part =>
    refine ⟨List.append_nil _, ?_, .singleton _, ?_, ?_⟩
    · simp [consPart]
    · rw [hnone]
      simp [consPart, h.not_isWhole]
    · intro p hp _ before d after he
      cases List.mem_singleton.1 hp
      exact h before (d :: after) he

theorem Cuts.name (hw : IsName w) (hne : w ≠ []) (hrest : startsWithWord rest = false)
    (h : Cuts rest ps) : Cuts ('%' :: (w ++ rest)) (('%' :: w) :: ps) := by
  have hwhole : isWhole ('%' :: w) = true := isWhole_iff.2 ⟨w, rfl, hne, hw⟩
  refine ⟨?_, ?_, ?_, ?_, ?_⟩
  · rw [List.flatten_cons, h.flatten]
    rfl
  · simp [h.nonempty]
  · exact List.isChain_cons.2 ⟨fun _ _ => .inl hwhole, h.apart⟩
  · rw [List.filter_cons_of_pos hwhole, h.placeholders, placeholdersIn_name hw hne hrest]
  · refine List.forall_mem_cons.2 ⟨fun hplain => ?_, h.plain⟩
    cases hplain.symm.trans hwhole

theorem Cuts.consPart (h : Unopened part cs) (hcut : Cuts cs (p :: ps))
    (hp : isWhole p = true) : Cuts (part ++ cs) (consPart part (p :: ps)) := by
  cases part with
  | nil => exact hcut
  | cons c part =>
    refine ⟨?_, ?_, ?_, ?_, ?_⟩
    · exact congrArg (c :: part ++ ·) hcut.flatten
    · simpa [Label.consPart] using hcut.nonempty
    · exact .cons_cons (.inr hp) hcut.apart
    · have hplaceholders := hcut.placeholders
      rw [placeholdersIn_append h, ← hplaceholders]
      exact List.filter_cons_of_neg (by simp [h.not_isWhole])
    · refine List.forall_mem_cons.2 ⟨fun _ before d after he => ?_, hcut.plain⟩
      exact h before (d :: after) he

/-- Plain text with what is read behind it is cut, by induction on how the rest is read. -/
theorem cuts_partsFrom (h : Unopened part cs) : Cuts (part ++ cs) (partsFrom false part cs) := by
  induction cs using Text.scan_induction generalizing part with
  | nil =>
    rw [List.append_nil]
    exact .text h
  | char c cs hc ih =>
    have hread := ih (h.concat fun he => absurd he hc)
    rw [partsFrom_char hc]
    rwa [List.append_assoc] at hread
  | name w rest hw hrest ih =>
    cases w with
    | nil =>
      rw [List.nil_append] at h ⊢
      have hread := ih (h.concat fun _ => hrest)
      rw [partsFrom_stray hrest]
      rwa [List.append_assoc] at hread
    | cons c w =>
      have hne : c :: w ≠ [] := List.cons_ne_nil c w
      rw [partsFrom_name hw hne hrest]
      exact (Cuts.name hw hne hrest (ih (unopened_nil rest))).consPart h
        (isWhole_iff.2 ⟨c :: w, rfl, hne, hw⟩)

/-! ## There is one way to cut -/

/-- Plain text is read as one part, up to a percent sign or the end. -/
theorem partsFrom_unopened (h : Unopened p cs) (part : List Char) :
    partsFrom false part (p ++ cs) = partsFrom false (part ++ p) cs := by
  induction p generalizing part with
  | nil => simp
  | cons c p ih =>
    have hrest := ih h.tail (part ++ [c])
    rw [List.append_assoc] at hrest
    by_cases hc : c = '%'
    · subst hc
      rw [List.cons_append, partsFrom_stray (h [] p rfl)]
      exact hrest
    · rw [List.cons_append, partsFrom_char hc]
      exact hrest

/-- A placeholder ends the plain text in front of it. -/
theorem partsFrom_opened (hcs : startsWithWord cs = true) (part : List Char) :
    partsFrom false part ('%' :: cs) = consPart part (partsFrom false [] ('%' :: cs)) := by
  have hopens : opensPlaceholder '%' cs = true := by simp [opensPlaceholder, hcs]
  rw [partsFrom, if_pos hopens, partsFrom, if_pos hopens]
  rfl

namespace Cuts

theorem tail (h : Cuts cs (p :: ps)) (hps : ps.filter isWhole = placeholdersIn ps.flatten) :
    Cuts ps.flatten ps where
  flatten := rfl
  nonempty hm := h.nonempty (List.mem_cons_of_mem p hm)
  apart := (List.isChain_cons.1 h.apart).2
  placeholders := hps
  plain q hq := h.plain q (List.mem_cons_of_mem p hq)

/-- A placeholder at the start has the longest name that it can have. -/
theorem of_name (hw : IsName w) (hne : w ≠ []) (h : Cuts cs (('%' :: w) :: ps)) :
    startsWithWord ps.flatten = false ∧ Cuts ps.flatten ps := by
  have hall := h.placeholders
  have hrun : (w ++ ps.flatten).takeWhile isWord = w ++ ps.flatten.takeWhile isWord :=
    List.takeWhile_append_of_pos hw
  rw [← h.flatten, List.flatten_cons, List.cons_append, placeholdersIn, namesIn, if_pos rfl,
    List.filter_cons_of_pos (isWhole_iff.2 ⟨w, rfl, hne, hw⟩),
    List.filter_cons_of_pos (by simp [hrun, hne]), List.map_cons, List.cons.injEq,
    Text.namesIn_append hw.not_percent] at hall
  obtain ⟨hname, hps⟩ := hall
  rw [hrun, List.cons.injEq, List.self_eq_append_right, Text.takeWhile_eq_nil_iff] at hname
  exact ⟨hname.2, h.tail hps⟩

/-- Behind plain text the text ends, or a placeholder stands. -/
theorem next (h : Cuts cs (p :: ps)) (hp : isWhole p = false) :
    ps = [] ∨ ∃ rest, ps.flatten = '%' :: rest ∧ startsWithWord rest = true := by
  cases ps with
  | nil => exact .inl rfl
  | cons q qs =>
    have hq := (List.isChain_cons_cons.1 h.apart).1.resolve_left (ne_true_of_eq_false hp)
    obtain ⟨w, rfl, hne, hw⟩ := isWhole_iff.1 hq
    exact .inr ⟨w ++ qs.flatten, rfl, startsWithWord_name hw hne _⟩

theorem of_plain (h : Cuts cs (p :: ps)) (hp : isWhole p = false) :
    Unopened p ps.flatten ∧ Cuts ps.flatten ps := by
  have hstop : startsWithWord ps.flatten = false := by
    rcases h.next hp with rfl | ⟨rest, hrest, -⟩
    · rfl
    · rw [hrest]
      exact Text.startsWithWord_percent rest
  have hopen : Unopened p ps.flatten := by
    intro before after he
    refine Text.startsWithWord_append ?_ hstop
    cases after with
    | nil => rfl
    | cons c after => exact h.plain p (List.mem_cons_self ..) hp before c after he
  have hall := h.placeholders
  rw [← h.flatten, List.flatten_cons, placeholdersIn_append hopen,
    List.filter_cons_of_neg (by simp [hp])] at hall
  exact ⟨hopen, h.tail hall⟩

/-- A text is cut into nothing but the parts that are read. -/
theorem eq_partsFrom (h : Cuts cs ps) : ps = partsFrom false [] cs := by
  induction ps generalizing cs with
  | nil =>
    rw [← h.flatten]
    rfl
  | cons p ps ih =>
    rw [← h.flatten, List.flatten_cons]
    cases hp : isWhole p with
    | true =>
      obtain ⟨w, rfl, hne, hw⟩ := isWhole_iff.1 hp
      obtain ⟨hstop, hps⟩ := h.of_name hw hne
      rw [List.cons_append, partsFrom_name hw hne hstop, ← ih hps]
      rfl
    | false =>
      obtain ⟨hopen, hps⟩ := h.of_plain hp
      have hne : p.isEmpty = false :=
        List.isEmpty_eq_false_iff.2 fun he => h.nonempty (he ▸ List.mem_cons_self ..)
      have hread : partsFrom false p ps.flatten = Label.consPart p ps := by
        rcases h.next hp with rfl | ⟨rest, hrest, hword⟩
        · rfl
        · rw [hrest, partsFrom_opened hword, ← hrest, ← ih hps]
      rw [partsFrom_unopened hopen, List.nil_append, hread, Label.consPart, hne]
      rfl

end Cuts

/-- A label is cut into its parts and into nothing else.  So together they are the label, none
is empty, no two side by side are plain text, those that are placeholders are the placeholders
of the label from left to right, and no percent sign in the others has a word character behind
it. -/
theorem cuts_iff_eq_parts (label : String) (ps : List (List Char)) :
    Cuts label.toList ps ↔ ps = parts label := by
  constructor
  · exact Cuts.eq_partsFrom
  · rintro rfl
    exact cuts_partsFrom (unopened_nil label.toList)

end Blockwork.Label
