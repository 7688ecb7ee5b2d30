import Blockwork.Proofs.Workspace.ActiveDrag

/-!
# Clearing a workspace

Clearing drops the blocks, forgets their layout and brings the standard palette back, and
only then asks the store to delete what was saved.  A store that cannot be opened refuses,
and an open one refuses a key that no text is kept under.  Then the blocks and the palette
are gone although clearing has failed, the saved text is still there, and nobody is told.

This is the only way in which clearing stops halfway.  It waits for a drag to end before it
touches anything, and without a store nothing can fail.
-/

namespace Blockwork

/-! ## Deleting from the store -/

namespace Store

variable {s s' : Store} {key : Json} {found : Bool}

/-- What is kept under a key is deleted. -/
def deleteUnder (s : Store) (key : Json) : Except Fault (Bool × Store) :=
  s.underKey key s.delete (.ok (false, s))

/-- A store that cannot be opened refuses every key.  An open one refuses a key that has
no text. -/
def Refuses (s : Store) (key : Json) : Prop :=
  s.blobs.isOk = false ∨ (keptText key).isOk = false

/-- A store has lost what it kept under a key, and nothing else. -/
structure Forgets (key : Json) (s s' : Store) : Prop where
  gone : s'.underKey key s'.load? (.ok none) = .ok none
  others : ∀ k, keptText key ≠ .ok (some k) → s'.load? k = s.load? k
  settings : s'.allSettings = s.allSettings

theorem deleteUnder_refused (h : s.Refuses key) : ∃ f, s.deleteUnder key = .error f := by
  cases s with
  | closed => exact ⟨.store .closed, rfl⟩
  | opened blobs settings keyless =>
    rcases h with hclosed | hkey
    · cases hclosed
    · cases hk : keptText key with
      | error f =>
        refine ⟨f, ?_⟩
        rw [deleteUnder, underKey, hk]
        rfl
      | ok kept =>
        rw [hk] at hkey
        cases hkey

/-- A store that does not refuse a key forgets what it kept under it. -/
theorem deleteUnder_of_not_refused (h : ¬ s.Refuses key) :
    ∃ found s', s.deleteUnder key = .ok (found, s') ∧ Forgets key s s' := by
  cases s with
  | closed => exact absurd (.inl rfl) h
  | opened blobs settings keyless =>
    cases hk : keptText key with
    | error f =>
      refine absurd (.inr ?_) h
      rw [hk]
      rfl
    | ok kept =>
      cases kept with
      | none =>
        refine ⟨false, .opened blobs settings keyless, ?_, ?_, fun _ _ => rfl, rfl⟩
        · rw [deleteUnder, underKey, hk]
          rfl
        · rw [underKey, hk]
          rfl
      | some k =>
        let kept := Table.keep blobs (· ≠ k)
        refine ⟨(blobs.lookup k).isSome, .opened kept settings keyless, ?_, ?_, ?_, rfl⟩
        · rw [deleteUnder, underKey, hk]
          rfl
        · have hgone : kept.lookup k = none := by simp [kept]
          rw [underKey, hk]
          exact congrArg Except.ok hgone
        · intro x hx
          have hne : x ≠ k := fun he => hx (he ▸ hk)
          have hsame : kept.lookup x = blobs.lookup x := by simp [kept, hne]
          exact congrArg Except.ok hsame

end Store

namespace Workspace

variable {σ : Type} {w w' : Workspace σ} {s s' : Store}

/-! ## What clearing does -/

/-- The store of the workspace refuses to delete what was saved. -/
def StoreRefuses (w : Workspace σ) : Prop :=
  ∃ s, w.store = some s ∧ s.Refuses w.settings.storageKey

/-- Delete the saved snapshot, if there is a store. -/
def deleteSaved : WorkspaceM σ Unit := do
  match (← get).store with
  | some store =>
      let (_, store) ← ofExcept (store.deleteUnder (← get).settings.storageKey)
      modify fun w => { w with store := some store }
  | none => pure ()

theorem deleteSaved_of_store (h : w.store = some s) : deleteSaved w =
    match s.deleteUnder w.settings.storageKey with
    | .ok (_, s') => (.ok (), { w with store := some s' })
    | .error f => (.error f, w) := by
  have hget : (get : WorkspaceM σ (Workspace σ)) w = (.ok w, w) := rfl
  rw [deleteSaved, run_bind_ok hget, h]
  dsimp only
  rw [run_bind_ok hget]
  cases hd : s.deleteUnder w.settings.storageKey <;> rfl

/-- The saved snapshot stays where it is if the store refuses.  Otherwise it is deleted. -/
theorem deleteSaved_run (w : Workspace σ) :
    w.StoreRefuses ∧ (∃ f, deleteSaved w = (.error f, w)) ∨
    ¬ w.StoreRefuses ∧ ∃ store, Option.Rel (Store.Forgets w.settings.storageKey) w.store store ∧
      deleteSaved w = (.ok (), { w with store }) := by
  cases hs : w.store with
  | none =>
    have hget : (get : WorkspaceM σ (Workspace σ)) w = (.ok w, w) := rfl
    refine .inr ⟨?_, none, .none, ?_⟩
    · rintro ⟨s, hsome, -⟩
      cases hs.symm.trans hsome
    · have hsame : w = { w with store := none } := by rw [← hs]
      rw [deleteSaved, run_bind_ok hget, hs]
      exact congrArg (Prod.mk _) hsame
  | some s =>
    rw [deleteSaved_of_store hs]
    by_cases hr : s.Refuses w.settings.storageKey
    · obtain ⟨f, hf⟩ := Store.deleteUnder_refused hr
      refine .inl ⟨⟨s, hs, hr⟩, f, ?_⟩
      rw [hf]
    · obtain ⟨found, s', hok, hforgets⟩ := Store.deleteUnder_of_not_refused hr
      refine .inr ⟨?_, some s', .some hforgets, ?_⟩
      · rintro ⟨t, ht, hrefuses⟩
        cases hs.symm.trans ht
        exact hr hrefuses
      · rw [hok]

variable [Geometry σ]

/-- The workspace without blocks and with the standard palette.  Its store is as it was. -/
def emptied (w : Workspace σ) : Workspace σ :=
  { w with
    board := { w.board with registry := .empty, layout := Geometry.reset w.board.layout }
    palette := .standard }

theorem clear_eq : (clear : WorkspaceM σ Unit) = demandNoDrag >>= fun _ =>
    modify emptied >>= fun _ => deleteSaved >>= fun _ => changed := by
  have hemptied : (modify emptied : WorkspaceM σ Unit) =
      onBoard (Board.setBlocks .empty) >>= fun _ => ask Provider.reset >>= fun _ =>
        modify fun w => { w with palette := .standard } := rfl
  rw [clear, deleteSaved, hemptied]
  simp only [bind_assoc]
  refine congrArg _ (funext fun _ => congrArg _ (funext fun _ => congrArg _ (funext fun _ =>
    congrArg _ (funext fun _ => congrArg _ (funext fun w => ?_)))))
  cases w.store <;> simp [Store.deleteUnder]

/-- Clearing changes nothing while a block is dragged.  Otherwise it first drops the blocks
and the palette, and whether it comes to its end is up to the store. -/
theorem clear_run (w : Workspace σ) :
    w.isDragging = true ∧ (∃ f, clear w = (.error f, w)) ∨
    w.isDragging = false ∧ w.StoreRefuses ∧ (∃ f, clear w = (.error f, w.emptied)) ∨
    w.isDragging = false ∧ ¬ w.StoreRefuses ∧ ∃ store,
      Option.Rel (Store.Forgets w.settings.storageKey) w.store store ∧
      clear w = (.ok (), { w.emptied with store, changes := w.changes + 1 }) := by
  cases hdrag : w.isDragging with
  | true =>
    obtain ⟨f, hbusy⟩ := demandNoDrag_of_dragging hdrag
    rw [clear_eq, run_bind_error hbusy]
    exact .inl ⟨rfl, f, rfl⟩
  | false =>
    rw [clear_eq, run_bind_ok (demandNoDrag_of_not_dragging hdrag)]
    have hemptied : (modify emptied : WorkspaceM σ Unit) w = (.ok (), w.emptied) := rfl
    rw [run_bind_ok hemptied]
    rcases deleteSaved_run w.emptied with ⟨hr, f, hf⟩ | ⟨hr, store, hforgets, hok⟩
    · exact .inr (.inl ⟨rfl, hr, f, run_bind_error hf⟩)
    · refine .inr (.inr ⟨rfl, hr, store, hforgets, ?_⟩)
      rw [run_bind_ok hok]
      rfl

/-! ## All or nothing -/

/-- Nothing that a user would miss is gone. -/
structure Untouched (w w' : Workspace σ) : Prop where
  registry : w'.board.registry = w.board.registry
  palette : w'.palette = w.palette
  store : w'.store = w.store

/-- All blocks, the palette and what was saved are gone, and the user was told so once. -/
structure Cleared (w w' : Workspace σ) : Prop where
  registry : w'.board.registry = .empty
  palette : w'.palette = .standard
  /-- The store has lost what was saved and nothing else. -/
  store : Option.Rel (Store.Forgets w.settings.storageKey) w.store w'.store
  changes : w'.changes = w.changes + 1

/-- A step has cleared the workspace, or it has failed and the workspace is untouched. -/
def AllOrNothing (w : Workspace σ) : Except Fault Unit × Workspace σ → Prop
  | (.ok (), w') => Cleared w w'
  | (.error _, w') => Untouched w w'

/-- There is something to lose, no drag to wait for, and the store refuses. -/
structure Strands (w : Workspace σ) : Prop where
  idle : w.isDragging = false
  refuses : w.StoreRefuses
  filled : w.board.registry ≠ .empty ∨ w.palette ≠ .standard

/-- Clearing succeeds when nothing is dragged and the store does not refuse, and it is all
or nothing unless there are blocks or another palette to lose and the store refuses.  Then
it fails and they are lost, while the saved text stays and nobody is told. -/
theorem clear_all_or_nothing (w : Workspace σ) :
    ((clear w).1 = .ok () ↔ w.isDragging = false ∧ ¬ w.StoreRefuses) ∧
      (AllOrNothing w (clear w) ↔ ¬ w.Strands) ∧
      (¬ w.Strands ∨ ∃ f, clear w = (.error f, w.emptied)) := by
  rcases clear_run w with ⟨hdrag, f, hrun⟩ | ⟨hidle, hr, f, hrun⟩ | ⟨hidle, hr, store, hrel, hrun⟩
  · have hsafe : ¬ w.Strands := fun h => Bool.false_ne_true (h.idle.symm.trans hdrag)
    rw [hrun]
    refine ⟨iff_of_false nofun ?_, iff_of_true ⟨rfl, rfl, rfl⟩ hsafe, .inl hsafe⟩
    exact fun h => Bool.false_ne_true (h.1.symm.trans hdrag)
  · rw [hrun]
    refine ⟨iff_of_false nofun fun h => h.2 hr, ⟨?_, fun hsafe => ?_⟩, .inr ⟨f, rfl⟩⟩
    · rintro ⟨hregistry, hpalette, -⟩ ⟨-, -, hblocks | hpal⟩
      · exact hblocks hregistry.symm
      · exact hpal hpalette.symm
    · by_contra hlost
      refine hsafe ⟨hidle, hr, ?_⟩
      by_contra hnone
      obtain ⟨hblocks, hpal⟩ := not_or.1 hnone
      exact hlost ⟨(not_not.1 hblocks).symm, (not_not.1 hpal).symm, rfl⟩
  · have hsafe : ¬ w.Strands := fun h => hr h.refuses
    rw [hrun]
    exact ⟨iff_of_true rfl ⟨hidle, hr⟩, iff_of_true ⟨rfl, rfl, hrel, rfl⟩ hsafe, .inl hsafe⟩

/-- A block is made and the store cannot be opened.  Clearing fails, and the block is
gone. -/
theorem not_clear_all_or_nothing : ∃ w : Workspace FixedGeometry,
    Reachable (fun _ _ _ => True) (start {} (some .closed) .standard [] {}) w ∧
      w.board.registry.ids = ["blk-1"] ∧ (∃ f, (clear w).1 = .error f) ∧
      (clear w).2.board.registry.ids = [] ∧ (clear w).2.changes = w.changes ∧
      ¬ AllOrNothing w (clear w) := by
  let w₀ : Workspace FixedGeometry := start {} (some .closed) .standard [] {}
  have h₀ : Reachable (fun _ _ _ => True) w₀ w₀ := .start
  have h₁ := h₀.perform (.addEntry 0 .origin) fun _ => by decide +kernel
  refine ⟨_, h₁, by decide +kernel, ⟨.store .closed, rfl⟩, by decide +kernel,
    by decide +kernel, fun h => ?_⟩
  have hsame : (Registry.ids .empty) = _ := congrArg Registry.ids h.registry
  revert hsame
  decide +kernel

end Workspace

end Blockwork
