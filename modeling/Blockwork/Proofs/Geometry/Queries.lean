import Blockwork.Drop.Target

/-!
# Questions put together

Where a block is dropped is asked of a provider in many small questions.
`Query.Consults` says of a question that nothing but questions to the provider goes
into it, so whatever these leave alone it leaves alone as well.
-/

namespace Blockwork

variable {σ : Type}

/-- A question that is put together from questions to the provider. -/
inductive Query.Consults [Survey σ] : {α : Type} → Query σ α → Prop
  | boundingBox (id : BlockId) : Consults (Survey.boundingBox id)
  | screenPoint (p : Point) : Consults (Survey.screenPoint p)
  | workspacePoint (p : Point) : Consults (Survey.workspacePoint p)
  | slotRect (id : BlockId) (name : String) : Consults (Survey.slotRect id name)
  | bodyRect (id : BlockId) : Consults (Survey.bodyRect id)
  | workspaceRect : Consults Survey.workspaceRect
  | deletionRect : Consults Survey.deletionRect
  | scene : Consults read
  /-- An answer that is known. -/
  | known {α : Type} (a : α) : Consults (pure a)
  /-- The answer of a function that may fail. -/
  | computed {α : Type} (r : Except Fault α) : Consults (Query.ofExcept r)
  /-- One question after another. -/
  | bind {α β : Type} {q : Query σ α} {f : α → Query σ β} :
      Consults q → (∀ a, Consults (f a)) → Consults (q >>= f)

namespace Target

open Query (Consults)

variable [Survey σ]

theorem consults_screenRect (r : Rect) : Consults (Survey.screenRect r : Query σ Rect) :=
  .bind (.screenPoint _) fun _ => .bind (.screenPoint _) fun _ => .known _

theorem consults_underPointer (pointer : Point) (margin : Float) (r : Option Rect) :
    Consults (underPointer pointer margin r : Query σ Bool) := by
  cases r with
  | none => exact .known _
  | some r => exact .bind (consults_screenRect r) fun _ => .known _

theorem consults_firstHit {α : Type} {hit : α → Query σ Bool} (h : ∀ a, Consults (hit a)) :
    ∀ items : List α, Consults (firstHit hit items)
  | [] => .known _
  | a :: items => .bind (h a) fun here => by
    cases here with
    | true => exact .known _
    | false => exact consults_firstHit h items

theorem consults_hits {α : Type} {hit : α → Query σ Bool} (h : ∀ a, Consults (hit a)) :
    ∀ items : List α, Consults (hits hit items)
  | [] => .known _
  | a :: items => .bind (h a) fun _ => .bind (consults_hits h items) fun _ => .known _

theorem consults_inputAt? (pointer : Point) (excluded : List BlockId) :
    Consults (inputAt? pointer excluded : Query σ _) := by
  refine .bind .scene fun _ => consults_firstHit (fun s => ?_) _
  refine .bind (.slotRect _ _) fun r => ?_
  cases r with
  | none => exact .known _
  | some r => exact .bind (consults_screenRect r) fun _ => .known _

theorem consults_bodyAt? (pointer : Point) (excluded : List BlockId) :
    Consults (bodyAt? pointer excluded : Query σ _) := by
  refine .bind .scene fun _ => .bind (consults_hits (fun id => ?_) _) fun _ => .known _
  exact .bind (.bodyRect id) fun r => consults_underPointer pointer bodyMargin r

theorem consults_upperAt? (release : Point) :
    ∀ ids : List BlockId, Consults (upperAt? release ids : Query σ _)
  | [] => .known _
  | id :: ids => .bind (.boundingBox id) fun box => by
    split
    · exact .known _
    · exact consults_upperAt? release ids

theorem consults_ite_bind {α β : Type} {c : Prop} [Decidable c] {q q' : Query σ α}
    {next : α → Query σ β} (h : Consults q) (h' : Consults q') (hn : ∀ a, Consults (next a)) :
    Consults (if c then q >>= next else q' >>= next) := by
  split
  · exact .bind h hn
  · exact .bind h' hn

theorem consults_resolve (dragged : BlockId) (pointer : Point) (release : Option Point) :
    Consults (resolve dragged pointer release : Query σ Target) := by
  refine .bind .scene fun scene => .bind (.computed _) fun b => ?_
  dsimp only
  have hinput := consults_inputAt? (σ := σ) pointer
  cases release
  case' some p => refine .bind (.known p) fun p => consults_ite_bind (hinput _) (.known none) ?_
  case' none =>
    refine .bind (.workspacePoint pointer) fun p => consults_ite_bind (hinput _) (.known none) ?_
  -- it goes on in the same way whether or not the release point is given
  all_goals
    intro slot
    cases slot with
    | some s => exact .known _
    | none =>
      refine .bind (consults_bodyAt? pointer _) fun body => ?_
      cases body with
      | some c => exact .known _
      | none =>
        refine .bind (consults_upperAt? p _) fun upper => ?_
        cases upper with
        | some u => exact .known _
        | none => exact .known _

theorem consults_deletes (pointer : Point) : Consults (deletes pointer : Query σ Bool) := by
  refine .bind .workspaceRect fun r => ?_
  split
  · exact .known _
  · refine .bind .deletionRect fun trash => ?_
    cases trash with
    | some t => exact .known _
    | none => exact .known _

end Target

end Blockwork
