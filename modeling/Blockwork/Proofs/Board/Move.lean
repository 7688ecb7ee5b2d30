import Blockwork.Proofs.Board.AttachIff
import Blockwork.Proofs.Board.FreeBlocks
import Blockwork.Proofs.Geometry.Positions

/-!
# Moves

A move asks the rules first, takes the block out of its place, and attaches it.  The rules
are asked about the registry with the old edge, and attaching asks them once more about the
registry without it.  Cutting the edge does not make anything stand against the new one:
kinds and inputs stay, an input loses at most the block itself, and what is above the new
parent was above it before.  So what the rules let through is attached.

Between the rules and the cut the layout is asked where the block lies.  If it does not
say, the move fails, and it has changed no block by then and has given no notice.
-/

namespace Blockwork

namespace Registry

variable {r : Registry} {child p x : BlockId} {place holder : Parent} {position : Point}

/-! ## The rules without the old edge -/

/-- Nothing stands against an edge because another edge of the block was cut. -/
theorem Barred.of_unlink (wf : r.WellFormed) (hparent : r.parent? child = some holder)
    (h : (r.unlink child holder position).Barred child place) : r.Barred child place := by
  have hlive := contains_of_parent? hparent
  have hunder {x y : BlockId} (hu : (r.unlink child holder position).Under x y) : r.Under x y :=
    ((under_unlink hlive).1 hu).1
  cases h with
  | childMissing hdead => exact .childMissing (contains_unlink ▸ hdead)
  | parentMissing hid hdead => exact .parentMissing hid (contains_unlink ▸ hdead)
  | noBody hd hk =>
    obtain ⟨c, hc, rfl⟩ := exists_of_get?_unlink hd
    exact .noBody hc hk
  | misfit hd hk =>
    obtain ⟨b, hb, rfl⟩ := exists_of_get?_unlink hd
    exact .misfit hb hk
  | @noInput p slot _ hd hs =>
    obtain ⟨c, hc, rfl⟩ := exists_of_get?_unlink hd
    have hnames : Table.names (slotsUnlinked child p c.slots holder) = Table.names c.slots :=
      names_slotsUnlinked c.slots
    exact .noInput hc (Table.lookup_eq_none_iff.2 (hnames ▸ Table.lookup_eq_none_iff.1 hs))
  | occupied hholds hother hne =>
    exact .occupied ((holds_unlink wf hparent).1 hholds).1 (contains_unlink ▸ hother) hne
  | itself hid => exact .itself hid
  | beneath hid hbelow => exact .beneath hid (hbelow.mono hunder)

/-- A block that has been taken out of its place is admitted wherever nothing stood against
it before. -/
theorem WellFormed.admits_unlink (wf : r.WellFormed) (hparent : r.parent? child = some holder)
    (hid : place.id? = some p) (hopen : ¬ r.Barred child place) :
    (r.unlink child holder position).Admits child place := by
  refine ((wf.unlink hparent).admits_iff child hid).2 ⟨fun q hq => ?_, fun h => ?_⟩
  · exact ((holds_unlink wf hparent).1 hq).2 rfl
  · exact hopen (h.of_unlink wf hparent)

end Registry

namespace Board

variable {σ : Type} [Geometry σ] {b b' : Board σ} {child id p : BlockId} {slot : Option String}

/-! ## Where a block lies -/

/-- If the block is live, it can be told where it lies. -/
def Locates (b : Board σ) (id : BlockId) : Prop :=
  b.registry.contains id = true → ∃ position b', worldPosition id b = (.ok position, b')

theorem locates_of_isOk {id : BlockId} (h : (worldPosition id b).1.isOk = true) : b.Locates id := by
  intro _
  rcases hlies : worldPosition id b with ⟨f | position, b'⟩
  · rw [hlies] at h
    cases h
  · exact ⟨position, b', rfl⟩

/-- Without a layout a block lies where it says. -/
theorem locates_of_not_measured (h : b.measured = false) (id : BlockId) : b.Locates id := by
  intro hid
  obtain ⟨c, hc⟩ := Registry.contains_iff.1 hid
  refine ⟨c.position, b, ?_⟩
  rw [worldPosition, run_bind_ok (require_ok_iff.2 ⟨hc, rfl⟩),
    run_bind_ok (show (get : BoardM σ (Board σ)) b = (.ok b, b) from rfl), if_neg (by simp [h])]
  rfl

/-- A layout that answers tells where a block lies. -/
theorem locates_of_answers {I : σ → Prop} {Q : Rect → Prop} (hl : I b.layout)
    (h : b.registry.contains id = true →
      Query.Answers ⟨b.registry, b.viewport⟩ I (Survey.boundingBox id) Q) : b.Locates id := by
  intro hid
  cases hm : b.measured with
  | false => exact locates_of_not_measured hm id hid
  | true =>
    obtain ⟨c, hc⟩ := Registry.contains_iff.1 hid
    obtain ⟨rect, l, hbox, -⟩ := h hid b.layout hl
    have hask : ask (Survey.boundingBox id) b = (.ok rect, { b with layout := l }) := by
      rw [ask, hbox]
    refine ⟨rect.corner, { b with layout := l }, ?_⟩
    rw [worldPosition, run_bind_ok (require_ok_iff.2 ⟨hc, rfl⟩),
      run_bind_ok (show (get : BoardM σ (Board σ)) b = (.ok b, b) from rfl), if_pos hm,
      run_bind_ok hask]
    rfl

/-- The estimated layout tells where a block lies, as long as what it remembers is right. -/
theorem locates_of_coherent {b : Board EstimatedLayout} (wf : b.registry.WellFormed)
    (hl : EstimatedLayout.Coherent b.registry b.layout) (id : BlockId) : b.Locates id :=
  locates_of_answers hl fun hid => EstimatedLayout.answers_boundingBox wf hid

theorem journal_worldPosition (id : BlockId) (b : Board σ) :
    (worldPosition id b).2.journal = b.journal := by
  let Same (b' : Board σ) : Prop := b'.journal = b.journal
  refine run_bind (P := Same) rfl fun c b₁ _ h₁ => ?_
  refine run_bind (P := Same) h₁ fun b₂ b₃ _ h₃ => ?_
  split
  · exact run_bind (P := Same) h₃ fun _ _ _ h => h
  · exact h₃

/-! ## Moving -/

/-- A block with a parent leaves it if it can be told where the block lies. -/
theorem detach_of_located {position : Point} (h : worldPosition id b = (.ok position, b')) :
    ∃ detached b'', detach id b = (.ok detached, b'') := by
  obtain ⟨c, b₁, hrequire, -⟩ := run_bind_eq_ok.1 h
  obtain ⟨hc, rfl⟩ := require_ok_iff.1 hrequire
  cases hp : c.parent.id? with
  | none => exact ⟨false, b, detach_of_root hc hp⟩
  | some p => exact ⟨true, _, detach_run hc hp h⟩

/-- A block that does not leave its parent has not been changed, and no notice was given. -/
theorem detach_error {f : Fault} (h : (detach id b).1 = .error f) :
    (detach id b).2.registry = b.registry ∧ (detach id b).2.journal = b.journal := by
  cases hc : b.registry.get? id with
  | none =>
    rw [detach_of_dead hc]
    exact ⟨rfl, rfl⟩
  | some c =>
    cases hp : c.parent.id? with
    | none =>
      rw [detach_of_root hc hp]
      exact ⟨rfl, rfl⟩
    | some p =>
      have hregistry := registry_worldPosition id b
      have hjournal := journal_worldPosition id b
      rcases hw : worldPosition id b with ⟨g | position, b₁⟩
      · rw [hw] at hregistry hjournal
        rw [detach_of_lost hc hp hw]
        exact ⟨hregistry, hjournal⟩
      · rw [detach_run hc hp hw] at h
        cases h

/-- A block that has left its parent is admitted wherever nothing stood against it before. -/
theorem admits_of_detach {detached : Bool} (wf : b.registry.WellFormed)
    (hopen : ¬ b.registry.Barred child (.at p slot)) (h : detach child b = (.ok detached, b')) :
    b'.registry.Admits child (.at p slot) := by
  rcases detach_cases child b with ⟨f, hf, -⟩ | ⟨hrun, hfree⟩ | ⟨holder, position, hp, -, hr⟩
  · rw [h] at hf
    cases hf
  · cases hrun.symm.trans h
    exact (wf.admits_iff child (Parent.at_id? p slot)).2 ⟨wf.not_holds hfree, hopen⟩
  · rw [h] at hr
    rw [hr]
    exact wf.admits_unlink hp (Parent.at_id? p slot) hopen

theorem move_eq (child p : BlockId) (slot : Option String) (b : Board σ) :
    move child p slot b = (do
      ofExcept (b.registry.checkMove child p slot)
      let _ ← detach child
      attachAt child p slot : BoardM σ Unit) b := by
  cases slot <;> exact run_bind_ok (blocks_ok_iff.2 ⟨rfl, rfl⟩)

theorem move_of_open (wf : b.registry.WellFormed)
    (hopen : ¬ b.registry.Barred child (.at p slot)) :
    move child p slot b = (do let _ ← detach child; attachAt child p slot) b := by
  rw [move_eq, (wf.checkMove_ok_iff child p slot).2 hopen]
  rfl

theorem move_of_barred (wf : b.registry.WellFormed)
    (hbarred : b.registry.Barred child (.at p slot)) :
    ∃ f, move child p slot b = (.error f, b) := by
  cases hcheck : b.registry.checkMove child p slot with
  | ok u => exact absurd hbarred ((wf.checkMove_ok_iff child p slot).1 hcheck)
  | error f =>
    refine ⟨f, ?_⟩
    rw [move_eq, hcheck]
    rfl

/-- A move fails and leaves every block as it is, without notice, or it is the detaching of
the block followed by its attaching.  If it can be told where the block lies, the move
fails if and only if something stands against it, and then nothing has happened.  Once
the block is detached, the attaching succeeds. -/
theorem move_outcome (wf : b.registry.WellFormed) (child p : BlockId) (slot : Option String) :
    (∀ f, (move child p slot b).1 = .error f →
      (move child p slot b).2.registry = b.registry ∧
        (move child p slot b).2.journal = b.journal) ∧
    ((move child p slot b).1 = .ok () →
      move child p slot b = (do let _ ← detach child; attachAt child p slot) b) ∧
    (b.registry.Barred child (.at p slot) → ∃ f, move child p slot b = (.error f, b)) ∧
    (b.Locates child →
      ((∃ f, (move child p slot b).1 = .error f) ↔ b.registry.Barred child (.at p slot))) ∧
    (¬ b.registry.Barred child (.at p slot) →
      ∀ detached b', detach child b = (.ok detached, b') →
        (attachAt child p slot b').1 = .ok ()) := by
  by_cases hbarred : b.registry.Barred child (.at p slot)
  · obtain ⟨f, hf⟩ := move_of_barred wf hbarred
    refine ⟨fun _ _ => ?_, ?_, fun _ => ⟨f, hf⟩, fun _ => ?_, (absurd hbarred ·)⟩
    · rw [hf]
      exact ⟨rfl, rfl⟩
    · rw [hf]
      exact nofun
    · exact iff_of_true ⟨f, by rw [hf]⟩ hbarred
  · have hmove := move_of_open wf hbarred
    have hattach {detached : Bool} {b' : Board σ} (h : detach child b = (.ok detached, b')) :
        (attachAt child p slot b').1 = .ok () :=
      attachAt_ok_iff.2 (admits_of_detach wf hbarred h)
    refine ⟨fun f hf => ?_, fun _ => hmove, (absurd · hbarred), fun hlocates => ?_,
      fun _ _ _ h => hattach h⟩
    · -- the attaching does not fail, so it is the detaching that did
      rw [hmove] at hf ⊢
      rcases hd : detach child b with ⟨g | detached, b'⟩
      · have hfails : (detach child b).1 = .error g := by rw [hd]
        have hkept := detach_error hfails
        rw [hd] at hkept
        rw [run_bind_error hd]
        exact hkept
      · rw [run_bind_ok hd, hattach hd] at hf
        cases hf
    · refine iff_of_false ?_ hbarred
      rintro ⟨f, hf⟩
      have hlive := ((wf.not_barred_iff (Parent.at_id? p slot)).1 hbarred).1
      obtain ⟨position, b₁, hposition⟩ := hlocates hlive
      obtain ⟨detached, b', hd⟩ := detach_of_located hposition
      rw [hmove, run_bind_ok hd, hattach hd] at hf
      cases hf

/-- A value is moved to the input that it is over.  It can be told where it lies, so nothing
stood against the move, and once the value is detached it can be attached there.  A container
is not moved into its own body. -/
theorem move_outcome_built :
    let b := Workspace.builtWorkspace.board
    b.registry.WellFormed ∧ b.Locates "blk-3" ∧
      move "blk-3" "blk-1" (some "times") b =
        (do let _ ← detach "blk-3"; attachAt "blk-3" "blk-1" (some "times")) b ∧
      ¬ b.registry.Barred "blk-3" (.at "blk-1" (some "times")) ∧
      (∃ detached b', detach "blk-3" b = (.ok detached, b') ∧
        (attachAt "blk-3" "blk-1" (some "times") b').1 = .ok ()) ∧
      (∃ f, move "blk-1" "blk-1" none b = (.error f, b)) := by
  have wf := (Workspace.sound_of_reachable Workspace.reachable_builtWorkspace).1
  let b := Workspace.builtWorkspace.board
  have hlocates : b.Locates "blk-3" := locates_of_isOk (by decide +kernel)
  have hmoved : (move "blk-3" "blk-1" (some "times") b).1 = .ok () := rfl
  have hfree : (detach "blk-3" b).1 = .ok true := rfl
  obtain ⟨-, hmove, -, hfails, hattach⟩ := move_outcome wf "blk-3" "blk-1" (some "times")
  obtain ⟨-, -, hbarred, -⟩ := move_outcome wf "blk-1" "blk-1" none
  have hopen : ¬ b.registry.Barred "blk-3" (.at "blk-1" (some "times")) := by
    rw [← hfails hlocates, hmoved]
    rintro ⟨f, hf⟩
    cases hf
  have hdetach : detach "blk-3" b = (.ok true, (detach "blk-3" b).2) := Prod.ext hfree rfl
  exact ⟨wf, hlocates, hmove hmoved, hopen, ⟨true, _, hdetach, hattach hopen _ _ hdetach⟩,
    hbarred (.itself rfl)⟩

end Board

end Blockwork
