import Blockwork.Proofs.Code.PercentNames
import Blockwork.Proofs.Registry.Edit

/-!
# The inputs that a label names

A label is cut into its placeholders and the plain text between them, and what starts with a
percent sign gives a name to an input.  So all placeholders of a label name inputs, in their
order.

Plain text can start with a percent sign as well: at the start of the label, or right behind
a placeholder.  Such a stray percent sign names an input that is no placeholder, and the
palette shows no low line for it.  Without stray percent signs the inputs are exactly the
placeholders.
-/

namespace Blockwork.Label

open Text (IsName namesIn fillNames)
open Unicode (isWord startsWithWord)

variable {part cs rest w : List Char} {c : Char}

/-! ## Cutting a label -/

theorem startsWithWord_name (hw : IsName w) (hne : w ≠ []) (rest : List Char) :
    startsWithWord (w ++ rest) = true := by
  cases w with
  | nil => exact absurd rfl hne
  | cons c w => exact hw c (List.mem_cons_self ..)

/-- Plain text goes on with a character that is no percent sign. -/
theorem partsFrom_char (hc : c ≠ '%') (part cs : List Char) :
    partsFrom false part (c :: cs) = partsFrom false (part ++ [c]) cs := by
  simp [partsFrom, opensPlaceholder, hc]

/-- Plain text goes on with a percent sign without a name. -/
theorem partsFrom_stray (hrest : startsWithWord rest = false) (part : List Char) :
    partsFrom false part ('%' :: rest) = partsFrom false (part ++ ['%']) rest := by
  simp [partsFrom, opensPlaceholder, hrest]

/-- Inside a placeholder the name is read to its end. -/
theorem partsFrom_inside (hw : IsName w) (hrest : startsWithWord rest = false)
    (part : List Char) (hpart : part ≠ []) :
    partsFrom true part (w ++ rest) = (part ++ w) :: partsFrom false [] rest := by
  induction w generalizing part with
  | nil =>
    cases rest with
    | nil => simp [partsFrom, consPart, hpart]
    | cons c rest =>
      have hc : isWord c = false := hrest
      rw [List.nil_append, List.append_nil, partsFrom, partsFrom]
      split
      · simp [consPart, hpart]
      · simp [consPart, hpart, hc]
  | cons c w ih =>
    have hc : isWord c = true := hw c (List.mem_cons_self ..)
    have hpercent : c ≠ '%' := by
      rintro rfl
      cases Text.not_isWord_percent.symm.trans hc
    have hrest := ih (fun d hd => hw d (List.mem_cons_of_mem c hd)) (part ++ [c]) (by simp)
    rw [List.cons_append, partsFrom]
    simp only [opensPlaceholder, hpercent, decide_false, Bool.false_and, hc, Bool.not_true,
      Bool.and_false, Bool.false_eq_true, if_false]
    rw [hrest, List.append_assoc, List.singleton_append]

/-- A placeholder ends the plain text in front of it, and is a part of its own. -/
theorem partsFrom_name (hw : IsName w) (hne : w ≠ []) (hrest : startsWithWord rest = false)
    (part : List Char) : partsFrom false part ('%' :: (w ++ rest)) =
      consPart part (('%' :: w) :: partsFrom false [] rest) := by
  have hopens : opensPlaceholder '%' (w ++ rest) = true := by
    simp [opensPlaceholder, startsWithWord_name hw hne]
  rw [partsFrom, if_pos hopens, partsFrom_inside hw hrest ['%'] (by simp)]
  rfl

/-! ## The names of the parts -/

/-- A name of word characters, at least one. -/
def isMatch (w : List Char) : Bool := !w.isEmpty && w.all isWord

theorem isMatch_iff : isMatch w = true ↔ w ≠ [] ∧ IsName w := by
  simp [isMatch, IsName, List.isEmpty_eq_false_iff]

/-- What has been read is plain text: with what follows it is no placeholder. -/
def Plain (part cs : List Char) : Prop := ∀ p, part = '%' :: p → startsWithWord (p ++ cs) = false

theorem plain_nil (cs : List Char) : Plain [] cs := nofun

theorem Plain.concat (h : Plain part (c :: cs)) (hc : c = '%' → startsWithWord cs = false) :
    Plain (part ++ [c]) cs := by
  intro p hp
  cases part with
  | nil =>
    obtain ⟨rfl, rfl⟩ := List.cons.inj hp
    exact hc rfl
  | cons d part =>
    obtain ⟨rfl, rfl⟩ := List.cons.inj hp
    have hsame : part ++ [c] ++ cs = part ++ c :: cs := by simp
    exact hsame ▸ h part rfl

/-- The names of some parts. -/
def partNames (parts : List (List Char)) : List (List Char) := parts.filterMap partName?

theorem partName?_of_head?_ne (h : part.head? ≠ some '%') : partName? part = none := by
  rw [partName?]
  rintro name rfl
  exact h rfl

theorem partNames_consPart (part : List Char) (parts : List (List Char)) :
    partNames (consPart part parts) = (partName? part).toList ++ partNames parts := by
  cases part with
  | nil => rfl
  | cons c part =>
    rw [consPart, partNames, List.isEmpty_cons, if_neg Bool.false_ne_true, List.filterMap_cons]
    cases partName? (c :: part) <;> rfl

theorem partNames_name (w : List Char) (parts : List (List Char)) :
    partNames (('%' :: w) :: parts) = w :: partNames parts := rfl

theorem partName?_eq_some_iff : partName? part = some w ↔ part = '%' :: w := by
  constructor
  · intro h
    rw [partName?.eq_def] at h
    split at h
    · cases h
      rfl
    · cases h
  · rintro rfl
    rfl

/-- Plain text gives no name that is a match. -/
theorem Plain.not_isMatch (h : Plain part cs) (hname : partName? part = some w) :
    isMatch w = false := by
  have hplain := h w (partName?_eq_some_iff.1 hname)
  by_contra hw
  obtain ⟨hne, hname⟩ := isMatch_iff.1 (eq_true_of_ne_false hw)
  cases hplain.symm.trans (startsWithWord_name hname hne cs)

/-- The matches among the names of the parts are the placeholders of the text. -/
theorem filter_partNames (h : Plain part cs) :
    (partNames (partsFrom false part cs)).filter isMatch = (namesIn cs).filter isMatch := by
  have hplain {part cs : List Char} (h : Plain part cs) :
      (partName? part).toList.filter isMatch = [] := by
    cases hname : partName? part with
    | none => rfl
    | some w => simp [h.not_isMatch hname]
  induction cs using Text.scan_induction generalizing part with
  | nil =>
    rw [partsFrom, partNames_consPart, List.filter_append, hplain h]
    rfl
  | char c cs hc ih =>
    rw [partsFrom_char hc, ih (h.concat fun he => absurd he hc), Text.namesIn_cons hc]
  | name w rest hw hrest ih =>
    cases w with
    | nil =>
      rw [List.nil_append] at h ⊢
      have hname := Text.namesIn_name hw hrest
      rw [List.nil_append] at hname
      rw [partsFrom_stray hrest, ih (h.concat fun _ => hrest), hname]
      rfl
    | cons c w =>
      have hmatch : isMatch (c :: w) = true := isMatch_iff.2 ⟨List.cons_ne_nil c w, hw⟩
      have hrest' := ih (plain_nil rest)
      rw [partsFrom_name hw (List.cons_ne_nil c w) hrest, partNames_consPart, List.filter_append,
        hplain h, List.nil_append, partNames_name, Text.namesIn_name hw hrest,
        List.filter_cons_of_pos hmatch, List.filter_cons_of_pos hmatch, hrest']

/-! ## Stray percent signs -/

/-- A percent sign that is no placeholder stands right behind one, or at the start where that
counts. -/
def StrayFrom (atStart : Prop) (cs : List Char) : Prop :=
  ∃ before after, cs = before ++ '%' :: after ∧ startsWithWord after = false ∧
    (before = [] ∧ atStart ∨ ∃ front w, before = front ++ '%' :: w ∧ w ≠ [] ∧ IsName w)

/-- A percent sign that is no placeholder stands at the start of a text, or right behind a
placeholder. -/
def Stray (cs : List Char) : Prop := StrayFrom True cs

theorem strayFrom_cons_iff (hc : c ≠ '%') {atStart : Prop} :
    StrayFrom atStart (c :: cs) ↔ StrayFrom False cs := by
  constructor
  · rintro ⟨before, after, hcs, hafter, hbefore⟩
    cases before with
    | nil => exact absurd (List.cons.inj hcs).1 hc
    | cons d before =>
      obtain ⟨rfl, rfl⟩ := List.cons.inj hcs
      refine ⟨before, after, rfl, hafter, .inr ?_⟩
      rcases hbefore with ⟨he, -⟩ | ⟨front, w, he, hw⟩
      · cases he
      · cases front with
        | nil => exact absurd (List.cons.inj he).1 hc
        | cons x front => exact ⟨front, w, (List.cons.inj he).2, hw⟩
  · rintro ⟨before, after, rfl, hafter, hbefore⟩
    rcases hbefore with ⟨-, hfalse⟩ | ⟨front, w, rfl, hw⟩
    · exact hfalse.elim
    · exact ⟨c :: (front ++ '%' :: w), after, rfl, hafter, .inr ⟨c :: front, w, rfl, hw⟩⟩

theorem strayFrom_stray (hrest : startsWithWord rest = false) :
    StrayFrom False ('%' :: rest) ↔ StrayFrom False rest := by
  constructor
  · rintro ⟨before, after, hcs, hafter, hbefore⟩
    rcases hbefore with ⟨-, hfalse⟩ | ⟨front, w, rfl, hne, hw⟩
    · exact hfalse.elim
    · cases front with
      | nil =>
        rw [(List.cons.inj hcs).2] at hrest
        cases hrest.symm.trans (startsWithWord_name hw hne _)
      | cons x front =>
        exact ⟨front ++ '%' :: w, after, (List.cons.inj hcs).2, hafter, .inr ⟨front, w, rfl, hne, hw⟩⟩
  · rintro ⟨before, after, rfl, hafter, hbefore⟩
    rcases hbefore with ⟨-, hfalse⟩ | ⟨front, w, rfl, hw⟩
    · exact hfalse.elim
    · exact ⟨'%' :: (front ++ '%' :: w), after, rfl, hafter, .inr ⟨'%' :: front, w, rfl, hw⟩⟩

/-- A name has no percent sign, so one behind it is in the rest. -/
theorem exists_of_name_append {before after : List Char} (hw : IsName w)
    (h : w ++ rest = before ++ '%' :: after) :
    ∃ back, before = w ++ back ∧ rest = back ++ '%' :: after := by
  rcases List.append_eq_append_iff.1 h with ⟨back, hbefore, hrest⟩ | ⟨back, hw', hrest⟩
  · exact ⟨back, hbefore, hrest⟩
  · cases back with
    | nil => exact ⟨[], by simpa using hw'.symm, by simpa using hrest.symm⟩
    | cons c back =>
      obtain ⟨rfl, -⟩ := List.cons.inj hrest
      exact absurd (by simp [hw']) hw.not_percent

theorem strayFrom_name (hw : IsName w) (hne : w ≠ []) (hrest : startsWithWord rest = false)
    {atStart : Prop} : StrayFrom atStart ('%' :: (w ++ rest)) ↔ StrayFrom True rest := by
  constructor
  · rintro ⟨before, after, hcs, hafter, hbefore⟩
    cases before with
    | nil =>
      rw [← (List.cons.inj hcs).2] at hafter
      cases hafter.symm.trans (startsWithWord_name hw hne rest)
    | cons x before =>
      obtain ⟨rfl, hsplit⟩ := List.cons.inj hcs
      obtain ⟨back, rfl, rfl⟩ := exists_of_name_append hw hsplit
      refine ⟨back, after, rfl, hafter, ?_⟩
      rcases hbefore with ⟨he, -⟩ | ⟨front, u, he, hu, hname⟩
      · cases he
      · cases front with
        | nil =>
          -- the name goes on up to the stray percent sign, so nothing is between them
          left
          cases back with
          | nil => exact ⟨rfl, trivial⟩
          | cons d back =>
            have hword : isWord d = true := hname d (by simp [← (List.cons.inj he).2])
            cases hrest.symm.trans hword
        | cons x front =>
          obtain ⟨back', -, rfl⟩ := exists_of_name_append hw (List.cons.inj he).2
          exact .inr ⟨back', u, rfl, hu, hname⟩
  · rintro ⟨before, after, rfl, hafter, hbefore⟩
    rcases hbefore with ⟨rfl, -⟩ | ⟨front, u, rfl, hu⟩
    · exact ⟨'%' :: w, after, rfl, hafter, .inr ⟨[], w, rfl, hne, hw⟩⟩
    · refine ⟨'%' :: (w ++ (front ++ '%' :: u)), after, by simp, hafter, .inr ?_⟩
      exact ⟨'%' :: (w ++ front), u, by simp, hu⟩

theorem not_strayFrom_nil {atStart : Prop} : ¬ StrayFrom atStart [] := by
  rintro ⟨before, after, hcs, -⟩
  simp at hcs

/-- Plain text names an input exactly when it starts with a percent sign, and then the name is
no match. -/
theorem Plain.forall_partName?_iff (h : Plain part cs) :
    (∀ w ∈ (partName? part).toList, isMatch w = true) ↔ part.head? ≠ some '%' := by
  constructor
  · intro hall hhead
    obtain ⟨w, rfl⟩ : ∃ w, part = '%' :: w := List.head?_eq_some_iff.1 hhead
    have hname : partName? ('%' :: w) = some w := rfl
    have hmatch := hall w (by simp [hname])
    cases (h.not_isMatch hname).symm.trans hmatch
  · intro hhead w hw
    rw [partName?_of_head?_ne hhead] at hw
    cases hw

/-- All names of the parts are matches exactly where no percent sign is stray. -/
theorem forall_partNames_iff (h : Plain part cs) :
    (∀ w ∈ partNames (partsFrom false part cs), isMatch w = true) ↔
      part.head? ≠ some '%' ∧ ¬ StrayFrom (part = []) cs := by
  induction cs using Text.scan_induction generalizing part with
  | nil =>
    rw [partsFrom, partNames_consPart]
    have hnames : (partName? part).toList ++ partNames [] = (partName? part).toList :=
      List.append_nil _
    rw [hnames, h.forall_partName?_iff, and_iff_left not_strayFrom_nil]
  | char c cs hc ih =>
    have hhead : (part ++ [c]).head? ≠ some '%' ↔ part.head? ≠ some '%' := by
      cases part with
      | nil => simp [hc]
      | cons d part => rfl
    rw [partsFrom_char hc, ih (h.concat fun he => absurd he hc), hhead, strayFrom_cons_iff hc]
    simp
  | name w rest hw hrest ih =>
    cases w with
    | nil =>
      rw [List.nil_append] at h ⊢
      rw [partsFrom_stray hrest, ih (h.concat fun _ => hrest)]
      cases part with
      | nil =>
        have hstray : StrayFrom True ('%' :: rest) := ⟨[], rest, rfl, hrest, .inl ⟨rfl, trivial⟩⟩
        simp [hstray]
      | cons d part => simp [strayFrom_stray hrest]
    | cons c w =>
      have hne : c :: w ≠ [] := List.cons_ne_nil c w
      have hmatch : isMatch (c :: w) = true := isMatch_iff.2 ⟨hne, hw⟩
      have hrest' := ih (plain_nil rest)
      rw [partsFrom_name hw hne hrest, partNames_consPart, partNames_name, List.forall_mem_append,
        List.forall_mem_cons, h.forall_partName?_iff, hrest', strayFrom_name hw hne hrest]
      simp [hmatch]

/-! ## The palette -/

/-- Every placeholder becomes a low line. -/
def blank? (w : List Char) : Option (List Char) := if w = [] then none else some ['_']

/-- A part as the palette shows it. -/
def shown (part : List Char) : List Char := if isPlaceholder part then ['_'] else part

theorem shown_of_plain (h : Plain part cs) : shown part = part := by
  rw [shown]
  cases part with
  | nil => rfl
  | cons c part =>
    have hopens : opensPlaceholder c part = false := by
      by_cases hc : c = '%'
      · subst hc
        have hplain := h part rfl
        cases part with
        | nil => rfl
        | cons d part =>
          have hd : isWord d = false := hplain
          simp [opensPlaceholder, startsWithWord, hd]
      · simp [opensPlaceholder, hc]
    rw [isPlaceholder, hopens]
    rfl

theorem flatMap_shown_consPart (part : List Char) (parts : List (List Char)) :
    (consPart part parts).flatMap shown = shown part ++ parts.flatMap shown := by
  cases part <;> rfl

/-- The palette shows the label with its placeholders replaced in one pass. -/
theorem flatMap_shown_partsFrom (h : Plain part cs) :
    (partsFrom false part cs).flatMap shown = part ++ fillNames blank? cs := by
  induction cs using Text.scan_induction generalizing part with
  | nil =>
    rw [partsFrom, flatMap_shown_consPart, shown_of_plain h]
    rfl
  | char c cs hc ih =>
    rw [partsFrom_char hc, ih (h.concat fun he => absurd he hc), Text.fillNames_cons hc,
      List.append_assoc, List.singleton_append]
  | name w rest hw hrest ih =>
    cases w with
    | nil =>
      have hfill := Text.fillNames_name (f := blank?) hw hrest
      rw [List.nil_append] at h hfill ⊢
      rw [partsFrom_stray hrest, ih (h.concat fun _ => hrest), hfill, List.append_assoc]
      rfl
    | cons c w =>
      have hshown : shown ('%' :: c :: w) = ['_'] := by
        have hc : isWord c = true := hw c (List.mem_cons_self ..)
        simp [shown, isPlaceholder, opensPlaceholder, startsWithWord, hc]
      rw [partsFrom_name hw (List.cons_ne_nil c w) hrest, flatMap_shown_consPart,
        shown_of_plain h, List.flatMap_cons, hshown, ih (plain_nil rest),
        Text.fillNames_name hw hrest]
      rfl

/-! ## Labels -/

theorem keepFirst_filter {α : Type} [DecidableEq α] (p : α → Bool) (xs : List α) :
    keepFirst (xs.filter p) = (keepFirst xs).filter p := by
  induction xs with
  | nil => rfl
  | cons x xs ih =>
    by_cases hx : p x = true
    · rw [List.filter_cons_of_pos hx, keepFirst, keepFirst, ih, List.filter_cons_of_pos hx,
        List.filter_filter, List.filter_filter]
      simp only [Bool.and_comm]
    · have hkeep : ∀ y ∈ keepFirst xs, (p y && decide (y ≠ x)) = p y := by
        intro y _
        by_cases hy : y = x
        · subst hy
          simp [hx]
        · simp [hy]
      rw [List.filter_cons_of_neg hx, keepFirst, ih, List.filter_cons_of_neg hx,
        List.filter_filter, List.filter_congr hkeep]

/-- The names of the placeholders of a label, in order: behind every percent sign the longest
run of word characters, where there is one. -/
def placeholderNames (label : String) : List String :=
  ((namesIn label.toList).filter (· ≠ [])).map String.ofList

/-- The input names that are names of word characters are the names of the placeholders. -/
theorem filter_inputNames (label : String) :
    (inputNames label).filter (isMatch ·.toList) = keepFirst (placeholderNames label) := by
  have hnames : (namesIn label.toList).filter isMatch = (namesIn label.toList).filter (· ≠ []) := by
    refine List.filter_congr fun w hw => Bool.eq_iff_iff.2 ?_
    rw [isMatch_iff, and_iff_left (Text.isName_of_mem_namesIn hw), decide_eq_true_iff]
  have hparts := filter_partNames (plain_nil label.toList)
  rw [inputNames, ← keepFirst_filter, placeholderNames, ← hnames, ← hparts, List.filter_map]
  simp only [Function.comp_def, String.toList_ofList]
  rfl

theorem forall_inputNames_iff (label : String) :
    (∀ name ∈ inputNames label, isMatch name.toList = true) ↔ ¬ Stray label.toList := by
  have hparts := forall_partNames_iff (plain_nil label.toList)
  have hempty : ([] : List Char).head? ≠ some '%' := nofun
  have hstray : StrayFrom (([] : List Char) = []) label.toList ↔ Stray label.toList := by
    rw [Stray, eq_self]
  rw [and_iff_right hempty, hstray] at hparts
  rw [← hparts]
  simp only [inputNames, mem_keepFirst, List.forall_mem_map, String.toList_ofList]
  rfl

/-- The inputs of a label that are named by word characters are its placeholders, each once,
in order.  These are all of its inputs, and all of them have such names, exactly where no
percent sign is stray.  The palette shows a low line for every placeholder and nothing else,
and the block of a definition has the inputs of the label. -/
theorem inputNames_placeholders (label : String) :
    (inputNames label).filter (isMatch ·.toList) = keepFirst (placeholderNames label) ∧
    (inputNames label = keepFirst (placeholderNames label) ↔ ¬ Stray label.toList) ∧
    ((∀ name ∈ inputNames label, name.toList ≠ [] ∧ IsName name.toList) ↔ ¬ Stray label.toList) ∧
    displayName label = String.ofList (fillNames blank? label.toList) ∧
    ∀ (d : Definition) (position : Point) (b : Block), d.label = label →
      Block.ofDefinition d position = .ok b → Table.names b.slots = inputNames label := by
  refine ⟨filter_inputNames label, ?_, ?_, ?_, ?_⟩
  · rw [← filter_inputNames, ← forall_inputNames_iff, eq_comm, List.filter_eq_self]
  · rw [← forall_inputNames_iff]
    simp only [isMatch_iff]
  · have hshown := flatMap_shown_partsFrom (plain_nil label.toList)
    rw [displayName, parts]
    exact congrArg String.ofList hshown
  · rintro d position b rfl hb
    exact Block.names_ofDefinition hb

def sampleMoving : Definition := { label := "move %x by %y" }

theorem inputNames_placeholders_sampleMoving : ∃ b,
    Block.ofDefinition sampleMoving ⟨0.0, 0.0⟩ = .ok b ∧
    Table.names b.slots = inputNames "move %x by %y" :=
  ⟨_, rfl, (inputNames_placeholders "move %x by %y").2.2.2.2 sampleMoving ⟨0.0, 0.0⟩ _ rfl rfl⟩

/-- A percent sign at the start names an input that is no placeholder. -/
theorem not_inputNames_placeholders :
    inputNames "% of %x" = [" of ", "x"] ∧ placeholderNames "% of %x" = ["x"] ∧
    displayName "% of %x" = "% of _" := by
  decide +kernel

end Blockwork.Label
