import Blockwork.Proofs.Code.HangingText

/-!
# Texts with names behind percent signs

A percent sign and the longest run of word characters behind it name something.
`fillNames` goes through a text once, and wherever a name has a value it writes the value
for the percent sign and the name.  All else is copied, and a value is not read again.

Filling in some names and then others is the same as filling in all of them at once, with
two provisos.  The values that go in first have no percent signs, since these would be read
by the second pass.  And the names of the text are separated: a name that is left alone must
not run into a value behind it, so between two percent signs that follow each other there is
a character that is no word character.
-/

namespace Blockwork.Text

open Unicode (isWord startsWithWord)

variable {f g : List Char → Option (List Char)} {cs rest w : List Char} {c : Char}

/-! ## Runs of word characters -/

/-- A text of word characters. -/
def IsName (w : List Char) : Prop := ∀ c ∈ w, isWord c = true

instance (w : List Char) : Decidable (IsName w) :=
  List.decidableBAll (fun c => isWord c = true) w

theorem not_isWord_percent : isWord '%' = false := by decide +kernel

theorem startsWithWord_percent (cs : List Char) : startsWithWord ('%' :: cs) = false :=
  not_isWord_percent

theorem IsName.not_percent (h : IsName w) : '%' ∉ w := by
  intro hm
  cases not_isWord_percent.symm.trans (h _ hm)

theorem isName_takeWhile (cs : List Char) : IsName (cs.takeWhile isWord) :=
  fun _ => List.mem_takeWhile_imp

theorem startsWithWord_dropWhile (cs : List Char) :
    startsWithWord (cs.dropWhile isWord) = false := by
  have hhead := List.head?_dropWhile_not isWord cs
  cases h : cs.dropWhile isWord with
  | nil => rfl
  | cons c rest =>
    rw [h] at hhead
    exact hhead

theorem takeWhile_name (hw : IsName w) (ht : startsWithWord rest = false) :
    (w ++ rest).takeWhile isWord = w := by
  rw [List.takeWhile_append_of_pos hw]
  cases rest with
  | nil => simp
  | cons c rest =>
    have hc : ¬ isWord c = true := ne_true_of_eq_false ht
    rw [List.takeWhile_cons_of_neg hc, List.append_nil]

theorem takeWhile_eq_nil_iff : cs.takeWhile isWord = [] ↔ startsWithWord cs = false := by
  cases cs with
  | nil => simp [startsWithWord]
  | cons c cs => simp [startsWithWord, List.takeWhile_cons]

theorem startsWithWord_append (hcs : startsWithWord cs = false)
    (hrest : startsWithWord rest = false) : startsWithWord (cs ++ rest) = false := by
  cases cs with
  | nil => exact hrest
  | cons c cs => exact hcs

/-- A run of word characters does not reach into a text that begins with none. -/
theorem takeWhile_append_stop (ht : startsWithWord rest = false) (cs : List Char) :
    (cs ++ rest).takeWhile isWord = cs.takeWhile isWord := by
  induction cs with
  | nil => exact takeWhile_eq_nil_iff.2 ht
  | cons c cs ih => rw [List.cons_append, List.takeWhile_cons, List.takeWhile_cons, ih]

/-- A text is read from left to right, and behind a percent sign a whole name at once. -/
theorem scan_induction {P : List Char → Prop} (nil : P [])
    (char : ∀ c cs, c ≠ '%' → P cs → P (c :: cs))
    (name : ∀ w rest, IsName w → startsWithWord rest = false → P rest → P ('%' :: (w ++ rest))) :
    ∀ cs, P cs
  | [] => nil
  | c :: cs => by
    by_cases hc : c = '%'
    · have hshort := (List.dropWhile_suffix isWord (l := cs)).length_le
      have hname := name (cs.takeWhile isWord) (cs.dropWhile isWord) (isName_takeWhile cs)
        (startsWithWord_dropWhile cs) (scan_induction nil char name _)
      rwa [List.takeWhile_append_dropWhile, ← hc] at hname
    · exact char c cs hc (scan_induction nil char name cs)
termination_by cs => cs.length

/-! ## Patterns that fit nowhere -/

/-- A text that a pattern fits nowhere in stays as it is. -/
theorem replaceFrom_unfit {p : Pattern} (b : Option Char) (cs : List Char)
    (h : ∀ before c rest, cs = before ++ c :: rest → p (Code.lastOr b before) (c :: rest) = none) :
    replaceFrom p 0 b cs = cs := by
  induction cs generalizing b with
  | nil => rfl
  | cons c cs ih =>
    have hhere : p b (c :: cs) = none := h [] c cs rfl
    have hrest := ih (some c) fun before d rest hcs =>
      h (c :: before) d rest (congrArg (c :: ·) hcs)
    rw [replaceFrom, hhere]
    dsimp only
    rw [hrest]

/-! ## Filling in names -/

/-- The pattern of a percent sign with a name that has a value. -/
def named (value? : List Char → Option (List Char)) : Pattern
  | _, '%' :: cs =>
      let name := cs.takeWhile isWord
      (value? name).map fun value => (value, name.length + 1)
  | _, _ => none

/-- A text with the values of all names that have one, filled in in one pass. -/
def fillNames (value? : List Char → Option (List Char)) (cs : List Char) : List Char :=
  replaceMatches (named value?) cs

theorem named_of_ne (hc : c ≠ '%') (b : Option Char) (cs : List Char) :
    named f b (c :: cs) = none := by
  rw [named]
  rintro rest ⟨⟩
  exact hc rfl

/-- Names do not depend on what stands in front of them. -/
theorem replaceFrom_named (b b' : Option Char) (cs : List Char) :
    replaceFrom (named f) 0 b cs = replaceFrom (named f) 0 b' cs := by
  cases cs with
  | nil => rfl
  | cons c cs =>
    have hsame : named f b (c :: cs) = named f b' (c :: cs) := by
      by_cases hc : c = '%'
      · rw [hc]
        rfl
      · rw [named_of_ne hc, named_of_ne hc]
    rw [replaceFrom, hsame, replaceFrom]

theorem fillNames_cons (hc : c ≠ '%') (cs : List Char) :
    fillNames f (c :: cs) = c :: fillNames f cs := by
  rw [fillNames, replaceMatches, replaceFrom, named_of_ne hc]
  exact congrArg (c :: ·) (replaceFrom_named (some c) none cs)

theorem fillNames_append (hw : '%' ∉ w) (cs : List Char) :
    fillNames f (w ++ cs) = w ++ fillNames f cs := by
  induction w with
  | nil => rfl
  | cons c w ih =>
    obtain ⟨hc, hw⟩ := not_or.1 (List.mem_cons.not.1 hw)
    rw [List.cons_append, fillNames_cons (Ne.symm hc), ih hw, List.cons_append]

theorem fillNames_name (hw : IsName w) (ht : startsWithWord rest = false) :
    fillNames f ('%' :: (w ++ rest)) = (f w).getD ('%' :: w) ++ fillNames f rest := by
  have hfound : named f none ('%' :: (w ++ rest)) =
      (f w).map fun value => (value, w.length + 1) := by
    rw [named, takeWhile_name hw ht]
  rw [fillNames, replaceMatches, replaceFrom, hfound]
  cases f w with
  | none =>
    have hcopy : replaceFrom (named f) 0 (some '%') (w ++ rest) = fillNames f (w ++ rest) :=
      replaceFrom_named (some '%') none (w ++ rest)
    rw [Option.map_none, Option.getD_none, List.cons_append]
    exact congrArg ('%' :: ·) (hcopy.trans (fillNames_append hw.not_percent rest))
  | some value =>
    have hskip := Code.replaceFrom_skip (named f) 0 (some '%') w rest
    rw [Nat.add_zero] at hskip
    rw [Option.map_some, Option.getD_some]
    dsimp only
    rw [Nat.add_sub_cancel, hskip]
    exact congrArg (value ++ ·) (replaceFrom_named _ none rest)

/-- A text in front of another is filled in by itself, where no name runs on. -/
theorem fillNames_append_stop (ht : startsWithWord rest = false) (cs : List Char) :
    fillNames f (cs ++ rest) = fillNames f cs ++ fillNames f rest := by
  induction cs using scan_induction with
  | nil => rfl
  | char c cs hc ih =>
    rw [List.cons_append, fillNames_cons hc, fillNames_cons hc, ih, List.cons_append]
  | name w tail hw htail ih =>
    have hstop := startsWithWord_append htail ht
    rw [List.cons_append, List.append_assoc, fillNames_name hw hstop, fillNames_name hw htail, ih,
      List.append_assoc]

@[simp] theorem fillNames_none (cs : List Char) : fillNames (fun _ => none) cs = cs := by
  induction cs using scan_induction with
  | nil => rfl
  | char c cs hc ih => rw [fillNames_cons hc, ih]
  | name w rest hw ht ih =>
    rw [fillNames_name hw ht, Option.getD_none, ih]
    rfl

/-! ## Separated names -/

/-- Between two percent signs that follow each other stands a character that is no word
character. -/
def Separated (cs : List Char) : Prop :=
  ∀ before between after, cs = before ++ '%' :: (between ++ '%' :: after) → '%' ∉ between →
    ∃ c ∈ between, isWord c = false

theorem Separated.tail (h : Separated (w ++ cs)) : Separated cs := by
  rintro before between after rfl
  exact h (w ++ before) between after (by simp)

theorem Separated.head?_ne (h : Separated ('%' :: (w ++ rest))) (hw : IsName w) :
    rest.head? ≠ some '%' := by
  intro hhead
  obtain ⟨after, rfl⟩ : ∃ after, rest = '%' :: after := by
    cases rest with
    | nil => cases hhead
    | cons c after =>
      cases hhead
      exact ⟨after, rfl⟩
  obtain ⟨c, hc, hword⟩ := h [] w after rfl hw.not_percent
  cases hword.symm.trans (hw c hc)

theorem separated_cons_iff : Separated (c :: cs) ↔
    (c = '%' → (cs.dropWhile isWord).head? ≠ some '%') ∧ Separated cs := by
  constructor
  · intro h
    refine ⟨?_, Separated.tail (w := [c]) h⟩
    rintro rfl
    rw [← List.takeWhile_append_dropWhile (p := isWord) (l := cs)] at h
    exact h.head?_ne (isName_takeWhile cs)
  · rintro ⟨hhead, hcs⟩ before between after h hbetween
    cases before with
    | cons d before =>
      cases h
      exact hcs before between after rfl hbetween
    | nil =>
      obtain ⟨rfl, rfl⟩ := List.cons.inj h
      by_contra hall
      have hname : IsName between := fun d hd => by
        by_contra hd'
        exact hall ⟨d, hd, eq_false_of_ne_true hd'⟩
      refine hhead rfl ?_
      rw [List.dropWhile_append_of_pos hname,
        List.dropWhile_cons_of_neg (ne_true_of_eq_false not_isWord_percent)]
      rfl

theorem separated_nil : Separated [] := by
  intro before between after h
  simp at h

instance decidableSeparated : (cs : List Char) → Decidable (Separated cs)
  | [] => isTrue separated_nil
  | _ :: cs => haveI := decidableSeparated cs; decidable_of_iff _ separated_cons_iff.symm

theorem Separated.append (hw : '%' ∉ w) (h : Separated cs) : Separated (w ++ cs) := by
  induction w with
  | nil => exact h
  | cons d w ih =>
    obtain ⟨hd, hw⟩ := not_or.1 (List.mem_cons.not.1 hw)
    exact separated_cons_iff.2 ⟨fun he => absurd he.symm hd, ih hw⟩

/-- The text that is read first cannot run into a name: it goes on as the text did. -/
theorem startsWithWord_fillNames (ht : startsWithWord rest = false) (hp : rest.head? ≠ some '%') :
    startsWithWord (fillNames f rest) = false := by
  cases rest with
  | nil => rfl
  | cons c rest =>
    rw [fillNames_cons fun hc => hp (congrArg some hc)]
    exact ht

/-- Names stay separated when some are filled in with values without percent signs. -/
theorem separated_fillNames (hcs : Separated cs) (hf : ∀ w v, f w = some v → '%' ∉ v) :
    Separated (fillNames f cs) := by
  induction cs using scan_induction with
  | nil => exact hcs
  | char c cs hc ih =>
    rw [fillNames_cons hc]
    exact separated_cons_iff.2 ⟨fun he => absurd he hc, ih (Separated.tail (w := [c]) hcs)⟩
  | name w rest hw ht ih =>
    have hrest := ih (Separated.tail (w := '%' :: w) hcs)
    rw [fillNames_name hw ht]
    cases hfw : f w with
    | some v => exact hrest.append (hf w v hfw)
    | none =>
      have hhead := hcs.head?_ne hw
      rw [Option.getD_none, List.cons_append]
      refine separated_cons_iff.2 ⟨fun _ => ?_, hrest.append hw.not_percent⟩
      rw [List.dropWhile_append_of_pos hw]
      cases rest with
      | nil => exact nofun
      | cons c rest =>
        have hc : c ≠ '%' := fun hc => hhead (congrArg some hc)
        have hstop : ¬ isWord c = true := ne_true_of_eq_false ht
        rw [fillNames_cons hc, List.dropWhile_cons_of_neg hstop]
        exact hhead

/-- Filling in names whose values have no percent signs, and then others, fills in all of
them at once. -/
theorem fillNames_fillNames (hcs : Separated cs) (hg : ∀ w v, g w = some v → '%' ∉ v) :
    fillNames f (fillNames g cs) = fillNames (fun w => g w <|> f w) cs := by
  induction cs using scan_induction with
  | nil => rfl
  | char c cs hc ih =>
    have hrest := ih (Separated.tail (w := [c]) hcs)
    rw [fillNames_cons hc, fillNames_cons hc, fillNames_cons hc, hrest]
  | name w rest hw ht ih =>
    have hrest := ih (Separated.tail (w := '%' :: w) hcs)
    have hstop := startsWithWord_fillNames (f := g) ht (hcs.head?_ne hw)
    rw [fillNames_name hw ht, fillNames_name hw ht]
    cases hgw : g w with
    | some v =>
      rw [Option.getD_some, fillNames_append (hg w v hgw), hrest]
      rfl
    | none =>
      rw [Option.getD_none, List.cons_append, fillNames_name hw hstop, hrest]
      rfl

/-! ## The names of a text -/

/-- The names behind the percent signs of a text, in the order of the text. -/
def namesIn : List Char → List (List Char)
  | [] => []
  | c :: cs => if c = '%' then cs.takeWhile isWord :: namesIn cs else namesIn cs

theorem namesIn_cons (hc : c ≠ '%') (cs : List Char) : namesIn (c :: cs) = namesIn cs := by
  rw [namesIn, if_neg hc]

theorem namesIn_append (hw : '%' ∉ w) (cs : List Char) : namesIn (w ++ cs) = namesIn cs := by
  induction w with
  | nil => rfl
  | cons c w ih =>
    obtain ⟨hc, hw⟩ := not_or.1 (List.mem_cons.not.1 hw)
    rw [List.cons_append, namesIn_cons (Ne.symm hc), ih hw]

theorem namesIn_name (hw : IsName w) (ht : startsWithWord rest = false) :
    namesIn ('%' :: (w ++ rest)) = w :: namesIn rest := by
  rw [namesIn, if_pos rfl, takeWhile_name hw ht, namesIn_append hw.not_percent]

theorem isName_of_mem_namesIn (h : w ∈ namesIn cs) : IsName w := by
  induction cs with
  | nil => cases h
  | cons c cs ih =>
    rw [namesIn] at h
    split at h
    · rcases List.mem_cons.1 h with rfl | h
      · exact isName_takeWhile cs
      · exact ih h
    · exact ih h

theorem namesIn_append_stop (ht : startsWithWord rest = false) (cs : List Char) :
    namesIn (cs ++ rest) = namesIn cs ++ namesIn rest := by
  induction cs with
  | nil => rfl
  | cons c cs ih =>
    rw [List.cons_append, namesIn, namesIn, takeWhile_append_stop ht, ih]
    split <;> rfl

/-- Where a name comes in a text, the names before it are those of the text in front. -/
theorem exists_of_namesIn_eq {front back : List (List Char)}
    (h : namesIn cs = front ++ w :: back) : ∃ before after,
      cs = before ++ '%' :: (w ++ after) ∧ startsWithWord after = false ∧
        namesIn before = front := by
  induction cs generalizing front with
  | nil =>
    rw [namesIn] at h
    simp at h
  | cons c cs ih =>
    rw [namesIn] at h
    split at h
    · next hc =>
      cases front with
      | nil =>
        obtain ⟨rfl, -⟩ := List.cons.inj h
        refine ⟨[], cs.dropWhile isWord, ?_, startsWithWord_dropWhile cs, rfl⟩
        rw [List.nil_append, List.takeWhile_append_dropWhile, hc]
      | cons v front =>
        obtain ⟨rfl, hrest⟩ := List.cons.inj h
        obtain ⟨before, after, rfl, hafter, hfront⟩ := ih hrest
        refine ⟨c :: before, after, rfl, hafter, ?_⟩
        rw [namesIn, if_pos hc, hfront, takeWhile_append_stop (startsWithWord_percent _)]
    · next hc =>
      obtain ⟨before, after, rfl, hafter, hfront⟩ := ih h
      refine ⟨c :: before, after, rfl, hafter, ?_⟩
      rw [namesIn_cons hc, hfront]

/-- A name stands in a text where it stands behind a percent sign and ends there. -/
theorem mem_namesIn_iff (hw : IsName w) : w ∈ namesIn cs ↔
    ∃ before after, cs = before ++ '%' :: (w ++ after) ∧ startsWithWord after = false := by
  constructor
  · intro h
    obtain ⟨front, back, hsplit⟩ := List.append_of_mem h
    obtain ⟨before, after, hcs, hafter, -⟩ := exists_of_namesIn_eq hsplit
    exact ⟨before, after, hcs, hafter⟩
  · rintro ⟨before, after, rfl, hafter⟩
    rw [namesIn_append_stop (startsWithWord_percent _), namesIn_name hw hafter]
    exact List.mem_append_right _ (List.mem_cons_self ..)

/-- The names that are left when some have been filled in with values without percent
signs. -/
theorem namesIn_fillNames (hcs : Separated cs) (hf : ∀ w v, f w = some v → '%' ∉ v) :
    namesIn (fillNames f cs) = (namesIn cs).filter fun w => (f w).isNone := by
  induction cs using scan_induction with
  | nil => rfl
  | char c cs hc ih =>
    have hrest := ih (Separated.tail (w := [c]) hcs)
    rw [fillNames_cons hc, namesIn_cons hc, namesIn_cons hc, hrest]
  | name w rest hw ht ih =>
    have hrest := ih (Separated.tail (w := '%' :: w) hcs)
    have hstop := startsWithWord_fillNames (f := f) ht (hcs.head?_ne hw)
    rw [fillNames_name hw ht, namesIn_name hw ht, List.filter_cons]
    cases hfw : f w with
    | some v => simp [namesIn_append (hf w v hfw), hrest]
    | none => simp [namesIn_name hw hstop, hrest]

end Blockwork.Text
