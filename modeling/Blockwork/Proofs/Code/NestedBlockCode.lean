import Blockwork.Proofs.Code.Dependence
import Blockwork.Proofs.Code.HangingText
import Blockwork.Proofs.Registry.Ancestors

/-!
# Generating code along the nesting

In a well-formed registry a block is as deep as its parent and one level more, and no
block is as deep as there are blocks.  So the bound on the levels that generation
follows is never met, and the code of a block comes from that of its children as if
there were no bound.  What holds of a block when it holds of its children holds of every
live block.
-/

namespace Blockwork

namespace Registry

variable {r : Registry}

theorem WellFormed.child_induction (wf : r.WellFormed) {P : BlockId → Prop}
    (h : ∀ id b, r.get? id = some b → (∀ c, r.Under c id → P c) → P id) :
    ∀ id, r.contains id = true → P id := by
  have hlevels : ∀ n id, r.contains id = true → r.size ≤ n + r.depth id → P id := by
    intro n
    induction n with
    | zero =>
      intro id hid hn
      have := wf.depth_lt_size hid
      omega
    | succ n ih =>
      intro id hid hn
      obtain ⟨b, hb⟩ := contains_iff.1 hid
      refine h id b hb fun c hc => ih c hc.contains ?_
      have := wf.depth_of_under hc
      omega
  intro id hid
  exact hlevels r.size id hid (by omega)

theorem WellFormed.under_of_mem_slots (wf : r.WellFormed) {id c : BlockId} {b : Block}
    (hb : r.get? id = some b) {e : String × Slot} (he : e ∈ b.slots) (hc : e.2.child = some c) :
    r.Under c id := by
  have hslot := Table.lookup_of_mem (wf.slots_nodup hb) he
  have hheld : r.Holds (.input id e.1) c :=
    ⟨b, hb, Block.childAt?_eq_some_iff.2 ⟨e.2, hslot, hc⟩⟩
  exact wf.under_of_holds hheld rfl

/-- What holds of the live blocks over the inputs of a block and of those in its body holds of
all its children. -/
theorem WellFormed.forall_under_iff (wf : r.WellFormed) {id : BlockId} {b : Block}
    (hb : r.get? id = some b) {G : BlockId → Prop} :
    ((∀ e ∈ b.slots, ∀ c, e.2.child = some c → r.contains c = true → G c) ∧
      ∀ c ∈ b.nested.filter r.contains, G c) ↔ ∀ c, r.Under c id → G c := by
  constructor
  · rintro ⟨hslots, hnested⟩ c hc
    obtain ⟨place, hparent, hid⟩ := under_iff.1 hc
    have hheld := wf.held hparent (ne_none_of_id? hid)
    cases place with
    | none => cases hid
    | container p =>
      cases hid
      obtain ⟨d, hd, hmem⟩ := hheld
      cases hb.symm.trans hd
      exact hnested c (List.mem_filter.2 ⟨hmem, hc.contains⟩)
    | input p slot =>
      cases hid
      obtain ⟨d, hd, hchild⟩ := hheld
      cases hb.symm.trans hd
      obtain ⟨s, hs, hc'⟩ := Block.childAt?_eq_some_iff.1 hchild
      exact hslots (slot, s) (Table.mem_of_lookup hs) c hc' hc.contains
  · intro h
    refine ⟨fun e he c hc _ => h c (wf.under_of_mem_slots hb he hc), fun c hc => ?_⟩
    exact h c (wf.under_of_mem_nested hb (List.mem_of_mem_filter hc))

end Registry

namespace Code

variable {g : Generator} {r : Registry} {name : Json} {id : BlockId} {b : Block}

theorem liftM_ok {α : Type} (a : α) :
    (liftM (Except.ok a : Except Breakdown α) : GenM α) = pure a := rfl

/-! ## Children only -/

/-- The code of a block in a well-formed registry is made with the codes of its children. -/
theorem blockCodeBy_congr_code (wf : r.WellFormed) (hb : r.get? id = some b)
    {code code' : String → BlockId → GenM String}
    (h : ∀ indent c, r.Under c id → code indent c = code' indent c) (indent : String) :
    blockCodeBy g r name code indent b = blockCodeBy g r name code' indent b :=
  blockCodeBy_congr (.refl b)
    (fun _ he c hc => ⟨rfl, fun indent => h indent c (wf.under_of_mem_slots hb he hc)⟩)
    (fun c hc => ⟨rfl, fun indent => h indent c (wf.under_of_mem_nested hb hc)⟩) indent

theorem blockCodeWithin_live (hb : r.get? id = some b) (n : Nat) (indent : String) :
    blockCodeWithin g r name (n + 1) indent id =
      blockCodeBy g r name (blockCodeWithin g r name n) indent b := by
  rw [blockCodeWithin, hb]

/-- One more level does not change the code of a block, once there are enough for it. -/
theorem blockCodeWithin_succ (wf : r.WellFormed) : ∀ (n : Nat) (indent : String) (id : BlockId),
    r.contains id = true → r.size ≤ n + r.depth id →
    blockCodeWithin g r name (n + 1) indent id = blockCodeWithin g r name n indent id
  | 0, indent, id, hid, hn => by
    have := wf.depth_lt_size hid
    omega
  | n + 1, indent, id, hid, hn => by
    obtain ⟨b, hb⟩ := Registry.contains_iff.1 hid
    rw [blockCodeWithin_live hb, blockCodeWithin_live hb]
    refine blockCodeBy_congr_code wf hb (fun indent c hc => ?_) indent
    refine blockCodeWithin_succ wf n indent c hc.contains ?_
    have := wf.depth_of_under hc
    omega

/-- The code of a live block comes from the codes of its children. -/
theorem blockCode_live (wf : r.WellFormed) (hb : r.get? id = some b) (indent : String) :
    blockCode g r name indent id = blockCodeBy g r name (blockCode g r name) indent b := by
  rw [blockCode, blockCodeWithin_live hb]
  refine blockCodeBy_congr_code wf hb (fun indent c hc => ?_) indent
  exact (blockCodeWithin_succ wf r.size indent c hc.contains (by omega)).symm

theorem blockCode_dead (hid : r.get? id = none) (indent : String) :
    blockCode g r name indent id = pure "" := by
  rw [blockCode, blockCodeWithin, hid]

/-! ## Indented languages -/

/-- What a name stands for, where that is an indented language with a unit of spaces and
tabs. -/
structure Indented (g : Generator) (name : Json) (language : Language) (unit : String) : Prop where
  found : Language.find g.languages name = .ok language
  indented : language.indented = true
  unit_eq : language.unit = .str unit
  blank : Indents unit.toList

theorem Indented.deeper {language : Language} {unit indent : String}
    (hl : Indented g name language unit) (h : Indents indent.toList) :
    Indents (indent ++ unit).toList := by
  rw [String.toList_append]
  exact h.append hl.blank

/-- The template of a block, with its inputs filled in. -/
def inputText (g : Generator) (r : Registry) (name : Json) (language : Language)
    (code : BlockId → GenM String) (indent : String) (b : Block) : GenM Json := do
  let template ← (selectTemplate g b name : Except Breakdown Json)
  let template ← indentTemplate language indent template
  fillInputs r code template b.slots

/-- The code of a body at an indentation. -/
def bodyCode (r : Registry) (code : BlockId → GenM String) (b : Block) : GenM (List String) :=
  codes code (b.nested.filter r.contains)

/-- The template of a block with everything filled in, unless it defines a function.  The
children are at the second indentation. -/
def filledText (g : Generator) (r : Registry) (name : Json) (language : Language)
    (indent childIndent : String) (b : Block) : GenM (Option String) := do
  let text ← inputText g r name language (blockCode g r name childIndent) indent b
  let nested ← bodyCode r (blockCode g r name childIndent) b
  fillBody b text (joinCode ("\n" ++ childIndent) nested) childIndent

/-- The code for what has become of the template. -/
def finished (language : Language) (indent : String) : Option String → GenM String
  | some text => finishText language indent text
  | none => return ""

/-- The code of a block is its text, finished, and nothing if it defines a function. -/
theorem Indented.blockCode_live {language : Language} {unit : String}
    (hl : Indented g name language unit) (wf : r.WellFormed) (hb : r.get? id = some b)
    (indent : String) :
    blockCode g r name indent id = (do
      finished language indent (← filledText g r name language indent (indent ++ unit) b)) := by
  have hdeeper : language.deeper indent = .ok (indent ++ unit) := by
    rw [Language.deeper, hl.indented, hl.unit_eq]
    rfl
  rw [Code.blockCode_live wf hb, blockCodeBy]
  simp only [hl.found, hdeeper, liftM_ok, pure_bind, hl.indented, if_true, filledText, inputText,
    bodyCode, bind_assoc]
  rfl

end Code

end Blockwork
