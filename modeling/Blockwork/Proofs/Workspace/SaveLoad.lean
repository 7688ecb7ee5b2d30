import Blockwork.Geometry.Fixed
import Blockwork.Proofs.Bundle.SnapshotText
import Blockwork.Proofs.Workspace.ImportBundle
import Blockwork.Proofs.Workspace.Reachable

/-!
# What was saved is loaded

Saving keeps the text of the snapshot under the key of the settings, and loading finds the
same text under that key.  Whatever a user has done before, all that a record needs is
there, except that a block may have an empty label: an imported definition can have one,
and the blocks that are made of it have it too.  So loading right after saving succeeds
exactly when no block has an empty label, or when the key is one that nothing is found
under.
-/

namespace Blockwork

namespace Store

variable {s s' : Store} {key : Json} {text : String}

/-- An open store keeps a text under any key that it does not refuse. -/
theorem keep_of_open (hs : s.blobs.isOk = true) (hkey : (keptText key).isOk = true)
    (text : String) : ∃ s', s.keep key (.str text) = .ok s' := by
  cases s with
  | closed => cases hs
  | opened blobs settings keyless =>
    cases hk : keptText key with
    | error f =>
      rw [hk] at hkey
      cases hkey
    | ok kept =>
      rw [keep, hk]
      cases kept <;> exact ⟨_, rfl⟩

/-- The text that was kept under a key is found under it, unless the key is none. -/
theorem underKey_of_keep (h : s.keep key (.str text) = .ok s') :
    keptText key = .ok none ∧ s'.underKey key s'.load? (.ok none) = .ok none ∨
      (∃ k, keptText key = .ok (some k)) ∧
        s'.underKey key s'.load? (.ok none) = .ok (some text) := by
  cases s with
  | closed => cases h
  | opened blobs settings keyless =>
    cases hkey : keptText key with
    | error f =>
      rw [keep, hkey] at h
      cases h
    | ok kept =>
      rw [keep, hkey] at h
      cases kept with
      | none =>
        cases h
        refine .inl ⟨rfl, ?_⟩
        rw [underKey, hkey]
        rfl
      | some k =>
        cases h
        refine .inr ⟨⟨k, rfl⟩, ?_⟩
        have hfound : (Table.set blobs k text).lookup k = some text := by simp
        rw [underKey, hkey]
        exact congrArg Except.ok hfound

end Store

namespace Workspace

variable {σ : Type} {w w' : Workspace σ} {saved : Saved} {store store' : Store} {text : String}

theorem demandStore_of_store (h : w.store = some store) : demandStore w = (.ok store, w) := by
  have hget : (get : WorkspaceM σ (Workspace σ)) w = (.ok w, w) := rfl
  rw [demandStore, run_bind_ok hget, h]
  rfl

theorem store_of_demandStore (h : demandStore w = (.ok store, w')) :
    w.store = some store ∧ w' = w := by
  cases hs : w.store with
  | none =>
    have hget : (get : WorkspaceM σ (Workspace σ)) w = (.ok w, w) := rfl
    have hfault : demandStore w = (.error (.store .absent), w) := by
      rw [demandStore, run_bind_ok hget, hs]
      rfl
    cases hfault.symm.trans h
  | some t =>
    cases (demandStore_of_store hs).symm.trans h
    exact ⟨rfl, rfl⟩

/-- What saving has done when it succeeds. -/
theorem save_ok (h : save w = (.ok saved, w')) : ∃ store store' text,
    w.store = some store ∧ w.isDragging = false ∧
      Bundle.snapshotText w.palette w.board.registry = .ok text ∧
      store.keep w.settings.storageKey (.str text) = .ok store' ∧
      w' = { w with store := some store' } := by
  obtain ⟨store, w₁, h₁, hchecked⟩ := run_bind_eq_ok.1 h
  obtain ⟨hstore, hw₁⟩ := store_of_demandStore h₁
  obtain ⟨_, w₂, h₂, hread⟩ := run_bind_eq_ok.1 hchecked
  obtain ⟨hdrag, hw₂⟩ := not_dragging_of_demandNoDrag h₂
  subst hw₂ hw₁
  obtain ⟨_, _, hget, hread⟩ := run_bind_eq_ok.1 hread
  cases hget
  obtain ⟨text, w₃, h₃, hwritten⟩ := run_bind_eq_ok.1 hread
  obtain ⟨store', w₄, h₄, hdone⟩ := run_bind_eq_ok.1 hwritten
  have htext : Definition.lift (Bundle.snapshotText w₂.palette w₂.board.registry) = .ok text :=
    congrArg Prod.fst h₃
  have hkept : store.keep w₂.settings.storageKey (.str text) = .ok store' := congrArg Prod.fst h₄
  obtain rfl : w₂ = w₃ := congrArg Prod.snd h₃
  obtain rfl : w₂ = w₄ := congrArg Prod.snd h₄
  cases hdone
  exact ⟨store, store', text, hstore, hdrag, Bundle.lift_ok_iff.1 htext, hkept, rfl⟩

/-- Saving succeeds when the store is open and does not refuse the key, no block is being
dragged and the snapshot can be written. -/
theorem exists_save (hs : (w.store.any fun s => s.blobs.isOk) = true)
    (hkey : (Store.keptText w.settings.storageKey).isOk = true) (hdrag : w.isDragging = false)
    (hn : (w.palette.all (fun d => d.templates.areNamed) &&
      w.board.registry.entries.all fun e => e.2.templates.areNamed) = true)
    (hw : (Bundle.snapshot Templates.writtenName w.palette w.board.registry).isWritable = true) :
    ∃ saved w', save w = (.ok saved, w') := by
  let text := (Bundle.snapshot Templates.writtenName w.palette w.board.registry).write
  have htext : Bundle.snapshotText w.palette w.board.registry = .ok text :=
    if_pos ((Bool.and_eq_true _ _).mpr ⟨hn, hw⟩)
  obtain ⟨store, hstore, hopen⟩ := (Option.any_eq_true _ _).1 hs
  obtain ⟨store', hkept⟩ := Store.keep_of_open hopen hkey text
  have hget : (get : WorkspaceM σ (Workspace σ)) w = (.ok w, w) := rfl
  have hwritten : ofExcept (Definition.lift (Bundle.snapshotText w.palette w.board.registry)) w =
      (.ok text, w) := by
    rw [htext]
    rfl
  have hstored : ofExcept (store.keep w.settings.storageKey (.str text)) w = (.ok store', w) := by
    rw [hkept]
    rfl
  rw [save, run_bind_ok (demandStore_of_store hstore),
    run_bind_ok (demandNoDrag_of_not_dragging hdrag), run_bind_ok hget, run_bind_ok hwritten,
    run_bind_ok hstored]
  exact ⟨_, _, rfl⟩

variable [Geometry σ]

/-- Loading does what importing the text that is found does. -/
theorem load_of_found (hs : w.store = some store)
    (h : store.underKey w.settings.storageKey store.load? (.ok none) = .ok (some text)) :
    load w = (do
      let _ ← importBundle (.str text)
      return true) w := by
  have hfound : ofExcept (store.underKey w.settings.storageKey store.load? (.ok none)) w =
      (.ok (some text), w) := by
    rw [h]
    rfl
  rw [load, run_bind_ok (demandStore_of_store hs)]
  exact run_bind_ok hfound

theorem load_of_nothing (hs : w.store = some store)
    (h : store.underKey w.settings.storageKey store.load? (.ok none) = .ok none) :
    load w = (.ok false, w) := by
  have hnone : ofExcept (store.underKey w.settings.storageKey store.load? (.ok none)) w =
      (.ok none, w) := by
    rw [h]
    rfl
  rw [load, run_bind_ok (demandStore_of_store hs)]
  exact run_bind_ok hnone

variable {asked : Scene → σ → σ → Prop} {w₀ : Workspace σ}
variable {settings : Settings} {first : Option Store} {palette : Palette}
variable {languages : List Code.Language} {layout : σ}

/-- What loading answers right after saving: that nothing was found when the key is none,
that a snapshot was found when all blocks have labels, and otherwise that a record is not
complete. -/
theorem load_of_saved (wf : w.board.registry.WellFormed) (hn : w.board.registry.BodiesNamed)
    (h : save w = (.ok saved, w')) :
    Store.keptText w.settings.storageKey = .ok none ∧ (load w').1 = .ok false ∨
    (∃ key, Store.keptText w.settings.storageKey = .ok (some key)) ∧
      ((load w').1 = .ok true ∧ (∀ id b, w.board.registry.get? id = some b → b.label ≠ "") ∨
       (∃ i, (load w').1 = .error (.payload (.record i .incomplete))) ∧
        ∃ id b, w.board.registry.get? id = some b ∧ b.label = "") := by
  obtain ⟨store, store', text, -, hdrag, htext, hkept, rfl⟩ := save_ok h
  let w₁ : Workspace σ := { w with store := some store' }
  have hs : w₁.store = some store' := rfl
  have hdrag₁ : w₁.isDragging = false := hdrag
  rcases Store.underKey_of_keep hkept with ⟨hkey, hnone⟩ | ⟨hkey, hfound⟩
  · exact .inl ⟨hkey, congrArg Prod.fst (load_of_nothing hs hnone)⟩
  · refine .inr ⟨hkey, ?_⟩
    have hload := load_of_found hs hfound
    rcases Bundle.read_snapshotText wf hn htext with ⟨⟨contents, hread⟩, hall⟩ | ⟨⟨i, hread⟩, hex⟩
    · obtain ⟨imported, himport⟩ := importBundle_of_read hdrag₁ hread
      refine .inl ⟨?_, hall⟩
      rw [hload, run_bind_ok himport]
      rfl
    · refine .inr ⟨⟨i, ?_⟩, hex⟩
      rw [hload, run_bind_error (importBundle_of_error hdrag₁ hread)]

/-- Loading right after saving succeeds exactly when no block has an empty label, unless
the key is one that nothing is found under.  The only fault that it can have is that the
record of a block is not complete. -/
theorem load_after_save (h : Reachable asked (start settings first palette languages layout) w)
    (hs : save w = (.ok saved, w')) :
    ((∃ found, (load w').1 = .ok found) ↔ Store.keptText w.settings.storageKey = .ok none ∨
      ∀ id b, w.board.registry.get? id = some b → b.label ≠ "") ∧
    ∀ f, (load w').1 = .error f → ∃ i, f = .payload (.record i .incomplete) := by
  obtain ⟨wf, hn⟩ := sound_of_reachable h
  rcases load_of_saved wf hn hs with
    ⟨hkey, hload⟩ | ⟨⟨key, hkey⟩, ⟨hload, hall⟩ | ⟨⟨i, hload⟩, id, b, hb, hempty⟩⟩
  · rw [hload]
    exact ⟨⟨fun _ => .inl hkey, fun _ => ⟨false, rfl⟩⟩, nofun⟩
  · rw [hload]
    exact ⟨⟨fun _ => .inr hall, fun _ => ⟨true, rfl⟩⟩, nofun⟩
  · rw [hload]
    refine ⟨⟨nofun, ?_⟩, fun f hf => ⟨i, (Except.error.inj hf).symm⟩⟩
    rintro (hnone | hall)
    · cases hkey.symm.trans hnone
    · exact absurd hempty (hall id b hb)

/-- A container with a command in it and a value over its input is saved and loaded. -/
theorem load_after_save_built : ∃ (w w' : Workspace FixedGeometry) (saved : Saved),
    Reachable (fun _ _ _ => True) (start {} (some .empty) .standard [] {}) w ∧
      save w = (.ok saved, w') ∧ ∃ found, (load w').1 = .ok found := by
  have h := reachable_builtWorkspace
  have hlabels : ∀ e ∈ builtWorkspace.board.registry.entries, e.2.label ≠ "" := by decide +kernel
  obtain ⟨saved, w', hs⟩ := @exists_save _ builtWorkspace (by decide +kernel) (by decide +kernel)
    (by decide +kernel) (by decide +kernel) (by decide +kernel)
  have hload := (load_after_save h hs).1.2 (.inr fun id b hb =>
    hlabels (id, b) (Registry.get?_eq_some_iff.1 hb))
  exact ⟨builtWorkspace, w', saved, h, hs, hload⟩

/-- A definition with an empty label is imported and a block is made of it.  It is saved,
and what was saved cannot be loaded. -/
theorem not_load_after_save_unlabelled : ∃ (w w' : Workspace FixedGeometry) (saved : Saved),
    Reachable (fun _ _ _ => True) (start {} (some .empty) .standard [] {}) w ∧
      save w = (.ok saved, w') ∧ ∃ i, (load w').1 = .error (.payload (.record i .incomplete)) := by
  let w₀ : Workspace FixedGeometry := start {} (some .empty) .standard [] {}
  let payload : Json := .obj [("definitions", .arr [.obj [("label", .str "")]])]
  let w₁ := (Operation.importBundle payload).perform w₀
  let w₂ := (Operation.addEntry 0 .origin).perform w₁
  have h₀ : Reachable (fun _ _ _ => True) w₀ w₀ := .start
  have h₁ : Reachable _ w₀ w₁ := h₀.perform _ nofun
  have h₂ : Reachable _ w₀ w₂ := h₁.perform _ fun _ => by decide +kernel
  obtain ⟨saved, w', hs⟩ := @exists_save _ w₂ (by decide +kernel) (by decide +kernel)
    (by decide +kernel) (by decide +kernel) (by decide +kernel)
  have hkey : (Store.keptText w₂.settings.storageKey).toOption.join.isSome = true := by
    decide +kernel
  have hlabel : (w₂.board.registry.get? "blk-1").map Block.label = some "" := by decide +kernel
  obtain ⟨b, hb, hempty⟩ := Option.map_eq_some_iff.1 hlabel
  obtain ⟨wf, hn⟩ := sound_of_reachable h₂
  refine ⟨w₂, w', saved, h₂, hs, ?_⟩
  rcases load_of_saved wf hn hs with ⟨hnone, -⟩ | ⟨-, ⟨-, hall⟩ | ⟨hfault, -⟩⟩
  · rw [hnone] at hkey
    cases hkey
  · exact absurd hempty (hall "blk-1" b hb)
  · exact hfault

end Workspace

end Blockwork
