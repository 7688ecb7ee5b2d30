import Mathlib.Data.List.Chain
import Mathlib.Data.Rat.Defs
import Mathlib.Tactic.Linarith
import Mathlib.Tactic.NormNum.OfScientific
import Mathlib.Tactic.Ring
import Blockwork.Proofs.Bundle.SnapshotRoundTrip
import Blockwork.Proofs.Geometry.EstimatedAnswers

/-!
# Stacked blocks fit into their body

The upper edge of a block in a body is reckoned from that of its container: a header, a
margin, and all that is stacked above the block.  The edges of the body are reckoned from the
container as well, by other numbers.  Coordinates are floating-point numbers, but what is
added is whole.  So the reckoning is written for any kind of numbers.  The layout does it in
floating-point numbers, and here it is also done in exact ones.

There the blocks of a body lie one below the other with gaps of eight between them.  All of them
lie between the upper and the lower edge of the body, and the lower edge of the body is that of
the container.
-/

namespace Blockwork

/-- What a rectangle takes up from top to bottom. -/
structure Span (α : Type) where
  top : α
  height : α

/-- The lower edge. -/
def Span.bottom {α : Type} [Add α] (s : Span α) : α := s.top + s.height

def Rect.span (r : Rect) : Span Float := ⟨r.y, r.height⟩

namespace EstimatedLayout

open Blockwork.Bundle (branchingRegistry wellFormed_branchingRegistry)

/-! ## The reckoning -/

/-- A block in a stack. -/
structure Layer where
  /-- The height of what is above it. -/
  above : Nat
  /-- Its own height. -/
  height : Nat

section

variable {α : Type} [Add α] [Sub α] [OfScientific α]

/-- What a block takes up, from its upper edge on. -/
def boxSpan (units : Nat → α) (top : α) (height : Nat) : Span α := ⟨top, units height⟩

/-- What the body of a block takes up, reckoned from the upper edge of the block. -/
def bodySpan (units : Nat → α) (top : α) (height : Nat) : Span α :=
  ⟨top + units headerHeight - 8.0, units height⟩

/-- What a block in a body takes up, reckoned from the upper edge of the container. -/
def Layer.span (units : Nat → α) (top : α) (s : Layer) : Span α :=
  ⟨top + units headerHeight + 4.0 + units s.above, units s.height⟩

end

/-- A stack fits into the body of a block. -/
structure Fits (box body : Span ℚ) (stack : List (Span ℚ)) : Prop where
  /-- The lower edge of the body is that of the block. -/
  bottom : body.bottom = box.bottom
  /-- Neighbours have a gap of eight between them. -/
  gaps : stack.IsChain fun s t => t.top = s.bottom + 8
  /-- No two overlap. -/
  apart : stack.Pairwise fun s t => s.bottom < t.top
  /-- All of them lie within the body. -/
  within : ∀ s ∈ stack, body.top ≤ s.top ∧ s.bottom ≤ body.bottom

variable {r : Registry} {scene : Scene} {id : BlockId} {nested : List BlockId}
variable {es : List Extent} {hs : List Nat} {s : Layer}

/-! ## Stacks of heights -/

/-- The block with more above it. -/
def Layer.lowered (n : Nat) (s : Layer) : Layer := ⟨n + s.above, s.height⟩

/-- Blocks of these heights, one below the other. -/
def layers : List Nat → List Layer
  | [] => []
  | h :: hs => ⟨0, h⟩ :: (layers hs).map (Layer.lowered (h + stackGap))

theorem isChain_layers (hs : List Nat) :
    (layers hs).IsChain fun s t => t.above = s.above + s.height + stackGap := by
  induction hs with
  | nil => exact .nil
  | cons h hs ih =>
    have hlowered : ((layers hs).map (Layer.lowered (h + stackGap))).IsChain
        fun s t => t.above = s.above + s.height + stackGap := by
      refine (List.isChain_map _).2 (ih.imp fun s t hst => ?_)
      simp only [Layer.lowered, hst]
      omega
    cases hs with
    | nil => exact .singleton _
    | cons h' hs => exact .cons_cons (by simp [Layer.lowered]) hlowered

theorem pairwise_layers (hs : List Nat) :
    (layers hs).Pairwise fun s t => s.above + s.height + stackGap ≤ t.above := by
  induction hs with
  | nil => exact .nil
  | cons h hs ih =>
    refine List.pairwise_cons.2 ⟨fun t ht => ?_, List.pairwise_map.2 (ih.imp fun hst => ?_)⟩
    · obtain ⟨s, -, rfl⟩ := List.mem_map.1 ht
      simp only [Layer.lowered]
      omega
    · simp only [Layer.lowered]
      omega

theorem bottom_le_total (h : s ∈ layers hs) :
    s.above + s.height + stackGap ≤ total (hs.map (· + stackGap)) := by
  induction hs generalizing s with
  | nil => cases h
  | cons n hs ih =>
    rw [List.map_cons, total]
    rcases List.mem_cons.1 h with rfl | h
    · simp
    · obtain ⟨t, ht, rfl⟩ := List.mem_map.1 h
      have := ih ht
      simp only [Layer.lowered]
      omega

theorem total_le_stackHeight (hs : List Nat) :
    total (hs.map (· + stackGap)) + bodyPadding ≤ stackHeight hs := by
  rw [stackHeight, atLeast]
  split <;> omega

theorem scientific_four : (4.0 : ℚ) = 4 := by norm_num

theorem scientific_eight : (8.0 : ℚ) = 8 := by norm_num

/-- In exact numbers, blocks that are one below the other fit into the body that is made for
their heights. -/
theorem fits_layers (hs : List Nat) (y : ℚ) :
    Fits (boxSpan Nat.cast y (bodyOffset + stackHeight hs)) (bodySpan Nat.cast y (stackHeight hs))
      ((layers hs).map (Layer.span Nat.cast y)) where
  bottom := by
    simp only [Span.bottom, boxSpan, bodySpan, headerHeight, bodyOffset, scientific_eight]
    push_cast
    ring
  gaps := by
    refine (List.isChain_map _).2 ((isChain_layers hs).imp fun s t hst => ?_)
    simp only [Span.bottom, Layer.span, hst, stackGap, scientific_four]
    push_cast
    ring
  apart := by
    refine List.pairwise_map.2 ((pairwise_layers hs).imp fun {s t} hst => ?_)
    have hst : ((s.above + s.height + stackGap : ℕ) : ℚ) ≤ t.above := Nat.cast_le.2 hst
    simp only [Span.bottom, Layer.span, stackGap, scientific_four] at hst ⊢
    push_cast at hst
    linarith
  within := by
    intro span hspan
    obtain ⟨s, hs', rfl⟩ := List.mem_map.1 hspan
    have hle : s.above + s.height + stackGap + bodyPadding ≤ stackHeight hs :=
      (Nat.add_le_add_right (bottom_le_total hs') _).trans (total_le_stackHeight hs)
    have hle : ((s.above + s.height + stackGap + bodyPadding : ℕ) : ℚ) ≤ stackHeight hs :=
      Nat.cast_le.2 hle
    have habove : (0 : ℚ) ≤ s.above := Nat.cast_nonneg _
    simp only [Span.bottom, Layer.span, bodySpan, headerHeight, stackGap, bodyPadding,
      scientific_four, scientific_eight] at hle ⊢
    push_cast at hle ⊢
    constructor <;> linarith

/-! ## What the layout answers -/

/-- The blocks of a body are the layers of their heights. -/
theorem above_layers (hs : List.Forall₂ (Sized r) nested es) (hn : nested.Nodup) :
    List.Forall₂ (fun c s => c ∈ nested ∧ Above r c nested s.above ∧
      ∃ e, Sized r c e ∧ e.height = s.height) nested (layers (es.map Extent.height)) := by
  induction hs with
  | nil => exact .nil
  | @cons c e nested es hc _ ih =>
    obtain ⟨hfresh, hn⟩ := List.nodup_cons.1 hn
    refine .cons ⟨List.mem_cons_self .., .here, e, hc, rfl⟩ ?_
    refine List.forall₂_map_right_iff.2 ((ih hn).imp fun d s hd => ?_)
    obtain ⟨hmem, habove, hsize⟩ := hd
    refine ⟨List.mem_cons_of_mem c hmem, .sibling ?_ hc habove, hsize⟩
    rintro rfl
    exact hfresh hmem

theorem forall₂_sized (wf : r.WellFormed) (hlive : ∀ c ∈ nested, r.contains c = true) :
    ∃ es, List.Forall₂ (Sized r) nested es := by
  induction nested with
  | nil => exact ⟨[], .nil⟩
  | cons c nested ih =>
    obtain ⟨hc, hnested⟩ := List.forall_mem_cons.1 hlive
    obtain ⟨e, he⟩ := exists_sized wf hc
    obtain ⟨es, hes⟩ := ih hnested
    exact ⟨e :: es, .cons he hes⟩

/-- The layout reckons with what a block, its body and the blocks in the body take up as above,
and in exact numbers the blocks fit into the body. -/
theorem nested_fit {l : EstimatedLayout} {b : Block} (wf : scene.registry.WellFormed)
    (hl : Coherent scene.registry l) (hb : scene.registry.get? id = some b)
    (hk : b.kind.hasBody = true) :
    ∃ (box body : Rect) (hs : List Nat),
      (boundingBox id scene l).1 = .ok box ∧ (bodyRect id scene l).1 = .ok (some body) ∧
      box.span = boxSpan units box.y (bodyOffset + stackHeight hs) ∧
      body.span = bodySpan units box.y (stackHeight hs) ∧
      List.Forall₂ (fun c s => ∃ rect : Rect, (boundingBox c scene l).1 = .ok rect ∧
        rect.span = s.span units box.y) b.nested (layers hs) ∧
      ∀ y : ℚ, Fits (boxSpan Nat.cast y (bodyOffset + stackHeight hs))
        (bodySpan Nat.cast y (stackHeight hs)) ((layers hs).map (Layer.span Nat.cast y)) := by
  have hid := Registry.contains_of_get? hb
  have hlive : ∀ c ∈ b.nested, scene.registry.contains c = true :=
    fun c hc => (wf.under_of_mem_nested hb hc).contains
  obtain ⟨es, hes⟩ := forall₂_sized wf hlive
  have hstacked : Stacked scene.registry id (stackHeight (es.map Extent.height)) :=
    stacked_of_sized hb (by rwa [List.filter_eq_self.2 hlive])
  have hboxed {c : BlockId} (hc : scene.registry.contains c = true) :
      ∃ rect, (boundingBox c scene l).1 = .ok rect ∧ Boxed scene.registry c rect := by
    obtain ⟨rect, l', hrun, -, hrect⟩ := answers_boundingBox wf hc l hl
    exact ⟨rect, congrArg Prod.fst hrun, hrect⟩
  obtain ⟨box, hbox, o, e, ho, he, rfl⟩ := hboxed hid
  cases he.unique (hstacked.sized hb hk)
  obtain ⟨body, l', hrun, -, hbody⟩ := answers_bodyRect wf hid l hl
  cases hbody.unique (.body hb hk ho he hstacked)
  refine ⟨_, _, es.map Extent.height, hbox, congrArg Prod.fst hrun, rfl, rfl, ?_,
    fits_layers _⟩
  refine (above_layers hes (wf.nested_nodup hb)).imp fun c s hc => ?_
  obtain ⟨hmem, habove, ec, hec, hheight⟩ := hc
  have hheld : scene.registry.Holds (.container id) c := ⟨b, hb, hmem⟩
  obtain ⟨d, hd, hparent⟩ := Registry.parent?_eq_some_iff.1 (wf.confirmed hheld)
  obtain ⟨rect, hrect, hc⟩ := hboxed (hlive c hmem)
  have hlocated := ho.nested hd hparent hb habove
  cases hc.unique ⟨_, _, hlocated, hec, rfl⟩
  refine ⟨_, hrect, ?_⟩
  rw [Rect.span, hheight]
  rfl

theorem nested_fit_branching : branchingRegistry.WellFormed ∧ Coherent branchingRegistry {} ∧
    ∃ (box body : Rect) (hs : List Nat),
      (boundingBox "a" ⟨branchingRegistry, {}⟩ {}).1 = .ok box ∧
      (bodyRect "a" ⟨branchingRegistry, {}⟩ {}).1 = .ok (some body) ∧
      box.span = boxSpan units box.y (bodyOffset + stackHeight hs) ∧
      body.span = bodySpan units box.y (stackHeight hs) ∧
      List.Forall₂ (fun c s => ∃ rect : Rect,
        (boundingBox c ⟨branchingRegistry, {}⟩ {}).1 = .ok rect ∧ rect.span = s.span units box.y)
        ["b", "d"] (layers hs) ∧
      ∀ y : ℚ, Fits (boxSpan Nat.cast y (bodyOffset + stackHeight hs))
        (bodySpan Nat.cast y (stackHeight hs)) ((layers hs).map (Layer.span Nat.cast y)) := by
  have hcoherent : Coherent branchingRegistry {} := coherent_clear _ {}
  have ha : branchingRegistry.get? "a" =
      some (Bundle.sampleBlock .container none ["b", "d"] .none) := rfl
  have hfit :=
    @nested_fit ⟨branchingRegistry, {}⟩ "a" {} _ wellFormed_branchingRegistry hcoherent ha rfl
  exact ⟨wellFormed_branchingRegistry, hcoherent, hfit⟩

end EstimatedLayout

end Blockwork
