import Blockwork.Proofs.Code.Generable
import Blockwork.Proofs.Lists
import Blockwork.Proofs.Workspace.ActiveDrag
import Blockwork.Proofs.Workspace.Frames
import Blockwork.Proofs.Workspace.SaveLoad

/-!
# When the palette is valid

A definition without faults has a label that is not blank, and templates that are texts.
The designer's way into the palette asks for this.  The way of an import does not: a record
of a definition needs a label and a kind that can be read, and its definition goes into the
palette as it is.  So does a palette that is put in place by hand.

A record is vetted if what is read from it has no faults, and that can be told from the
record.  As long as all records of definitions that are imported or loaded are vetted, the
palette is valid.  The first import with another record that succeeds makes it invalid.
-/

namespace Blockwork

/-! ## Definitions without faults -/

theorem Templates.allTexts_iff {t : Templates} :
    t.allTexts = true ↔ ∀ v ∈ t.values, v.IsText := by
  rw [allTexts, texts?, mapM_isSome_iff]
  refine forall₂_congr fun v _ => ?_
  cases v <;> simp [Json.IsText]

/-- What a designer's definition has to be. -/
theorem Definition.faults_eq_nil_iff {d : Definition} :
    d.faults = [] ↔ Unicode.strip d.label ≠ "" ∧ ∀ v ∈ d.templates.values, v.IsText := by
  rw [faults, List.append_eq_nil_iff, ← Templates.allTexts_iff]
  refine and_congr ?_ ?_
  · split <;> simp [*]
  · split <;> simp [*]

/-- No definition of the palette has a fault. -/
def Palette.Valid (p : Palette) : Prop := ∀ d ∈ p, d.faults = []

instance (p : Palette) : Decidable p.Valid :=
  decidable_of_iff (p.all fun d => d.faults.isEmpty) (by simp [Palette.Valid])

theorem Palette.valid_standard : Palette.standard.Valid := by decide +kernel

/-! ## Records -/

/-- The label in a record of a definition is not blank, and its templates are texts. -/
structure VettedRecord (members : List (String × Json)) : Prop where
  label : ∀ v, Json.member? members "label" = some v → Unicode.strip v.display ≠ ""
  templates : ∀ t, Templates.ofJson (Json.member members "templates") = .ok t →
    ∀ v ∈ t.values, v.IsText

/-- A definition that is read has no faults if its record is vetted, and only then. -/
theorem Definition.faults_of_record {v : Json} {d : Definition} (h : ofJson v = .ok d) :
    ∃ members, v = .obj members ∧ (d.faults = [] ↔ VettedRecord members) := by
  obtain ⟨members, label, kind, templates, rfl, hlabel, -, -, -, htemplates, rfl⟩ :=
    Bundle.ofJson_ok_iff.1 h
  refine ⟨members, rfl, ?_⟩
  rw [faults_eq_nil_iff]
  constructor
  · rintro ⟨hblank, htexts⟩
    constructor
    · intro v hv
      cases hlabel.symm.trans hv
      exact hblank
    · intro t ht
      cases htemplates.symm.trans ht
      exact htexts
  · intro hv
    exact ⟨hv.label label hlabel, hv.templates templates htemplates⟩

namespace Bundle

variable {payload : Json} {contents : Contents} {members : Members}

/-- All records of definitions are vetted. -/
def VettedItems (items : List Json) : Prop := ∀ members, Json.obj members ∈ items →
  VettedRecord members

theorem valid_readDefinitions_iff : ∀ {items : List Json} {index : Nat} {p : Palette},
    readDefinitions index items = .ok p → (p.Valid ↔ VettedItems items)
  | [], _, _, h => by
    cases h
    exact iff_of_true nofun nofun
  | v :: vs, index, p, h => by
    obtain ⟨d, hd, h⟩ := except_bind_eq_ok.1 h
    obtain ⟨p', hp', h⟩ := except_bind_eq_ok.1 h
    cases h
    obtain ⟨members, rfl, hiff⟩ := Definition.faults_of_record (atIndex_ok_iff.1 hd)
    have ih := valid_readDefinitions_iff hp'
    rw [Palette.Valid, List.forall_mem_cons, hiff]
    refine (and_congr_right fun _ => ih).trans ?_
    constructor
    · rintro ⟨hfirst, hrest⟩ record hrecord
      rcases List.mem_cons.1 hrecord with he | hrecord
      · cases he
        exact hfirst
      · exact hrest record hrecord
    · intro h
      exact ⟨h members (List.mem_cons_self ..), fun record hrecord =>
        h record (List.mem_cons_of_mem _ hrecord)⟩

/-- The records of the definitions in a payload are vetted, if there are any. -/
def Vetted (payload : Json) : Prop := ∀ members items, payloadMembers? payload = some members →
  Json.member members "definitions" = .arr items → VettedItems items

/-- What an import makes of a valid palette is valid if the payload is vetted, and only
then. -/
theorem valid_of_read_iff {p : Palette} (hp : p.Valid) (h : read payload = .ok contents) :
    (contents.definitions.getD p).Valid ↔ Vetted payload := by
  obtain ⟨members, hmembers, hpart, -⟩ := parts_of_read h
  have hreplaces := replaces_of_part hpart p
  have hvetted : Vetted payload ↔
      ∀ items, Json.member members "definitions" = .arr items → VettedItems items := by
    refine ⟨fun hv items => hv members items hmembers, fun hv members' items hm => ?_⟩
    cases hmembers.symm.trans hm
    exact hv items
  rw [hvetted]
  by_cases hnull : Json.member members "definitions" = .null
  · rw [hreplaces.1 hnull, hnull]
    exact iff_of_true hp nofun
  · have hread := hreplaces.2 hnull
    cases hd : Json.member members "definitions" with
    | arr items =>
      rw [hd] at hread
      rw [valid_readDefinitions_iff hread]
      refine ⟨fun hv items' he => ?_, fun hv => hv items rfl⟩
      cases he
      exact hv
    | _ =>
      rw [hd] at hread
      cases hread

end Bundle

/-! ## Operations -/

namespace Workspace

variable {σ : Type} {w : Workspace σ}

/-- The text that loading finds. -/
def saved? (w : Workspace σ) : Option String :=
  w.store.bind fun s => ((s.underKey w.settings.storageKey s.load? (.ok none)).toOption).join

theorem valid_of_keeps {α : Type} {m : WorkspaceM σ α} (hm : Keeps Workspace.palette m)
    (h : w.palette.Valid) : (m w).2.palette.Valid := by
  rw [hm w]
  exact h

/-- The palette is valid after a draft was added to a valid one, or was refused. -/
theorem valid_addDraft (h : w.palette.Valid) (d : Palette.Draft) :
    (addDraft d w).2.palette.Valid := by
  have hget : (get : WorkspaceM σ (Workspace σ)) w = (.ok w, w) := rfl
  rw [addDraft, run_bind_ok hget]
  cases hadd : w.palette.addDraft d with
  | error f => exact h
  | ok added =>
    obtain ⟨definition, -, hadd⟩ := except_bind_eq_ok.1 hadd
    have hvalid : added.2.Valid := by
      rw [Palette.add] at hadd
      cases hfaults : definition.faults with
      | nil =>
        rw [hfaults] at hadd
        cases hadd
        intro d hd
        rcases List.mem_append.1 hd with hd | hd
        · exact h d hd
        · rw [List.mem_singleton.1 hd, hfaults]
      | cons f fs =>
        rw [hfaults] at hadd
        cases hadd
    exact hvalid

theorem valid_removeEntry (h : w.palette.Valid) (index : Int) :
    (removeEntry index w).2.palette.Valid := by
  have hget : (get : WorkspaceM σ (Workspace σ)) w = (.ok w, w) := rfl
  rw [removeEntry, run_bind_ok hget]
  cases hremove : w.palette.remove index with
  | error f => exact h
  | ok removed =>
    obtain ⟨definition, -, hremove⟩ := except_bind_eq_ok.1 hremove
    have hvalid : removed.2.Valid := by
      cases hremove
      exact fun d hd => h d (List.mem_of_mem_eraseIdx hd)
    exact hvalid

theorem keepsPalette_save : Keeps Workspace.palette (save (σ := σ)) := by
  refine .bind keeps_demandStore fun store => .bind keeps_demandNoDrag fun _ => ?_
  refine .bind (fun _ => rfl) fun w => .bind (fun _ => rfl) fun text => ?_
  exact .bind (fun _ => rfl) fun _ => fun _ => rfl

variable [Geometry σ]

/-- Clearing waits for a drag to end, and then the palette is the standard one, even if the
store fails. -/
theorem valid_clear (h : w.palette.Valid) : (clear w).2.palette.Valid := by
  cases hdrag : w.isDragging with
  | true =>
    obtain ⟨f, hbusy⟩ := demandNoDrag_of_dragging hdrag
    rw [clear, run_bind_error hbusy]
    exact h
  | false =>
    rw [clear, run_bind_ok (demandNoDrag_of_not_dragging hdrag)]
    let P (w : Workspace σ) : Prop := w.palette.Valid
    refine run_bind (P := P) h fun _ w₁ _ h => run_bind (P := P) h fun _ w₂ _ _ => ?_
    refine run_bind (P := P) Palette.valid_standard fun _ w' _ h => ?_
    refine valid_of_keeps (.bind (fun _ => rfl) fun w => ?_) h
    cases w.store with
    | none => exact fun _ => rfl
    | some store =>
      exact .bind (fun _ => rfl) fun _ => .bind (fun _ => rfl) fun _ => .bind (fun _ => rfl)
        fun _ => fun _ => rfl

/-- After an import the palette is valid if nothing was imported, or what was is vetted. -/
theorem valid_importBundle_iff (h : w.palette.Valid) (payload : Json) :
    (importBundle payload w).2.palette.Valid ↔
      (w.isDragging = false → (Bundle.read payload).isOk = true → Bundle.Vetted payload) := by
  cases hdrag : w.isDragging with
  | true =>
    obtain ⟨f, hbusy⟩ := demandNoDrag_of_dragging hdrag
    rw [importBundle, run_bind_error hbusy]
    exact iff_of_true h fun hidle => absurd hidle.symm Bool.false_ne_true
  | false =>
    cases hread : Bundle.read payload with
    | error f =>
      rw [importBundle_of_error hdrag hread]
      exact iff_of_true h fun _ hok => absurd hok Bool.false_ne_true
    | ok contents =>
      obtain ⟨imported, hrun⟩ := importBundle_of_read hdrag hread
      rw [hrun, withContents, Bundle.valid_of_read_iff h hread]
      simp [Except.isOk, Except.toBool]

theorem load_of_saved? {text : String} (h : w.saved? = some text) :
    (load w).2 = (importBundle (.str text) w).2 := by
  obtain ⟨store, hstore, hjoin⟩ := Option.bind_eq_some_iff.1 h
  cases hfound : store.underKey w.settings.storageKey store.load? (.ok none) with
  | error f =>
    rw [hfound] at hjoin
    cases hjoin
  | ok text? =>
    rw [hfound] at hjoin
    have hsome : text? = some text := hjoin
    subst hsome
    rw [load_of_found hstore hfound]
    exact (run_bind (P := fun w' => w' = (importBundle (.str text) w).2) rfl
      fun _ _ _ h => h)

theorem load_of_not_saved (h : w.saved? = none) : (load w).2 = w := by
  cases hs : w.store with
  | none =>
    rw [load]
    have hnone : demandStore w = (.error (.store .absent), w) := by
      have hget : (get : WorkspaceM σ (Workspace σ)) w = (.ok w, w) := rfl
      rw [demandStore, run_bind_ok hget, hs]
      rfl
    rw [run_bind_error hnone]
  | some store =>
    rw [saved?, hs, Option.bind_some] at h
    cases hfound : store.underKey w.settings.storageKey store.load? (.ok none) with
    | error f =>
      have hfails : ofExcept (store.underKey w.settings.storageKey store.load? (.ok none)) w =
          (.error f, w) := by
        rw [hfound]
        rfl
      rw [load, run_bind_ok (demandStore_of_store hs)]
      have hget : (get : WorkspaceM σ (Workspace σ)) w = (.ok w, w) := rfl
      rw [run_bind_ok hget, run_bind_error hfails]
    | ok text? =>
      rw [hfound] at h
      have hnothing : text? = none := h
      subst hnothing
      rw [load_of_nothing hs hfound]

end Workspace

namespace Operation

/-- The payload that an operation imports. -/
def payload? {σ : Type} (w : Workspace σ) : Operation → Option Json
  | importBundle payload => some payload
  | load => w.saved?.map .str
  | _ => none

/-- No definition comes into the palette that a designer could not have added. -/
def Vets {σ : Type} (w : Workspace σ) : Operation → Prop
  | setPalette palette => palette.Valid
  | o => ∀ payload ∈ o.payload? w, w.isDragging = false → (Bundle.read payload).isOk = true →
      Bundle.Vetted payload

/-- An operation leaves a valid palette valid if it lets nothing else in, and only then. -/
theorem valid_perform_iff {σ : Type} [Geometry σ] {w : Workspace σ} (h : w.palette.Valid)
    (o : Operation) : (o.perform w).palette.Valid ↔ o.Vets w := by
  by_cases hstocks : o.stocks = false
  · have hkept : (o.perform w).palette = w.palette :=
      Workspace.view_perform Workspace.aside_palette o hstocks w
    rw [hkept]
    refine iff_of_true h ?_
    cases o <;> first | (simp [Vets, payload?]; done) | cases hstocks
  · cases o with
    | importBundle payload =>
      refine (Workspace.valid_importBundle_iff h payload).trans ?_
      simp [Vets, payload?]
    | load =>
      cases hsaved : w.saved? with
      | none =>
        refine iff_of_true ?_ (by simp [Vets, payload?, hsaved])
        have hsame : load.perform w = w := Workspace.load_of_not_saved hsaved
        rw [hsame]
        exact h
      | some text =>
        have hrun : load.perform w = (Workspace.importBundle (.str text) w).2 :=
          Workspace.load_of_saved? hsaved
        rw [hrun, Workspace.valid_importBundle_iff h (.str text)]
        simp [Vets, payload?, hsaved]
    | setPalette palette => exact Iff.rfl
    | save =>
      exact iff_of_true (Workspace.valid_of_keeps Workspace.keepsPalette_save h)
        (by simp [Vets, payload?])
    | clear => exact iff_of_true (Workspace.valid_clear h) (by simp [Vets, payload?])
    | addDraft d => exact iff_of_true (Workspace.valid_addDraft h d) (by simp [Vets, payload?])
    | removeEntry index =>
      exact iff_of_true (Workspace.valid_removeEntry h index) (by simp [Vets, payload?])
    | setStore store => exact iff_of_true h (by simp [Vets, payload?])
    | _ => exact absurd rfl hstocks

end Operation

/-! ## Runs -/

namespace Workspace

variable {σ : Type} [Geometry σ] {asked : Scene → σ → σ → Prop} {w₀ w : Workspace σ}

/-- What a user can come to who lets only such definitions into the palette as a designer
could add. -/
inductive Vetted (asked : Scene → σ → σ → Prop) (w₀ : Workspace σ) : Workspace σ → Prop
  /-- The workspace itself. -/
  | start : Vetted asked w₀ w₀
  /-- One more operation.  An id that is handed out is not in use. -/
  | perform {w : Workspace σ} (o : Operation) :
      Vetted asked w₀ w → (o.creates = true → w.Fresh) → o.Vets w → Vetted asked w₀ (o.perform w)
  /-- One more question. -/
  | ask {w : Workspace σ} {layout : σ} :
      Vetted asked w₀ w → asked ⟨w.board.registry, w.board.viewport⟩ w.board.layout layout →
      Vetted asked w₀ { w with board := { w.board with layout } }

theorem Vetted.reachable (h : Vetted asked w₀ w) : Reachable asked w₀ w := by
  induction h with
  | start => exact .start
  | perform o _ hfresh _ ih => exact ih.perform o hfresh
  | ask _ hasked ih => exact ih.ask hasked

variable {settings : Settings} {store : Option Store} {palette : Palette}
variable {languages : List Code.Language} {layout : σ}

/-- Whatever a user does who imports, loads and puts in place vetted definitions only, the
palette is valid.  From there an operation makes it invalid if and only if it lets in a
definition that is not vetted. -/
theorem valid_of_vetted (hp : palette.Valid)
    (h : Vetted asked (Workspace.start settings store palette languages layout) w) :
    w.palette.Valid ∧ ∀ o : Operation, (o.perform w).palette.Valid ↔ o.Vets w := by
  have hvalid : w.palette.Valid := by
    induction h with
    | start =>
      show (if palette.isEmpty then Palette.standard else palette).Valid
      split
      · exact Palette.valid_standard
      · exact hp
    | perform o _ _ hvets ih => exact (o.valid_perform_iff ih).2 hvets
    | ask _ _ ih => exact ih
  exact ⟨hvalid, fun o => o.valid_perform_iff hvalid⟩

/-- A designer adds a definition and takes another away, and a bundle is imported. -/
theorem valid_of_vetted_sample :
    ∃ w : Workspace FixedGeometry,
      Vetted (fun _ _ _ => True) (Workspace.start {} none .standard [] {}) w ∧
        w.palette.length = 1 ∧ w.palette.Valid := by
  let w₀ : Workspace FixedGeometry := Workspace.start {} none .standard [] {}
  let payload : Json := .obj [("definitions", .arr [.obj [("label", .str "wait %s")]])]
  have h₀ : Vetted (fun _ _ _ => True) w₀ w₀ := .start
  have h₁ := h₀.perform (.addDraft { label := .str "jump" }) nofun
    (by simp [Operation.Vets, Operation.payload?])
  have h₂ := h₁.perform (.removeEntry 0) nofun (by simp [Operation.Vets, Operation.payload?])
  have hrecord : VettedRecord [("label", .str "wait %s")] := by
    constructor
    · intro v hv
      cases hv
      decide +kernel
    · intro t ht
      cases ht
      exact nofun
  have hvets : Bundle.Vetted payload := by
    intro members items hmembers hitems record hr
    cases hmembers
    cases hitems
    cases List.mem_singleton.1 hr
    exact hrecord
  have h₃ := h₂.perform (.importBundle payload) nofun fun _ hp _ _ =>
    Option.some.inj hp ▸ hvets
  exact ⟨_, h₃, by decide +kernel, (valid_of_vetted Palette.valid_standard h₃).1⟩

/-- A definition with an empty label is imported. -/
theorem not_valid_of_reachable : ∃ w : Workspace FixedGeometry,
    Reachable (fun _ _ _ => True) (Workspace.start {} none .standard [] {}) w ∧
      ¬ w.palette.Valid := by
  let w₀ : Workspace FixedGeometry := Workspace.start {} none .standard [] {}
  let payload : Json := .obj [("definitions", .arr [.obj [("label", .str "")]])]
  have h₀ : Reachable (fun _ _ _ => True) w₀ w₀ := .start
  exact ⟨_, h₀.perform (.importBundle payload) nofun, by decide +kernel⟩

end Workspace

end Blockwork
