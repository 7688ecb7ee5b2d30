import Blockwork.Geometry.Fixed
import Blockwork.Proofs.Code.Generable
import Blockwork.Proofs.Workspace.Frames
import Blockwork.Proofs.Workspace.ImportBundle

/-!
# When code can be generated and exported

Nothing that a user does changes the settings and the table of languages, so the language
that code is generated in by default is the one to start with.  Whether generating and
exporting return is then a matter of the templates alone.  The designer of blocks takes no
template but texts, but an import takes any value.
-/

namespace Blockwork

namespace Workspace

variable {σ α β : Type}

/-! ## Settings and languages -/

/-- The settings and the table of languages. -/
def setup (w : Workspace σ) : Settings × List Code.Language := (w.settings, w.languages)

/-- The step leaves the settings and the table of languages as they are. -/
def KeepsSetup (m : WorkspaceM σ α) : Prop := ∀ w, (m w).2.setup = w.setup

theorem KeepsSetup.bind {m : WorkspaceM σ α} {f : α → WorkspaceM σ β} (hm : KeepsSetup m)
    (hf : ∀ a, KeepsSetup (f a)) : KeepsSetup (m >>= f) := Keeps.bind hm hf

theorem aside_setup : Aside (setup : Workspace σ → _) := fun _ _ _ _ _ _ => rfl

theorem keepsSetup_addDraft (d : Palette.Draft) : KeepsSetup (addDraft d : WorkspaceM σ Nat) :=
  .bind (fun _ => rfl) fun _ => .bind (fun _ => rfl) fun _ => fun _ => rfl

theorem keepsSetup_removeEntry (index : Int) :
    KeepsSetup (removeEntry index : WorkspaceM σ Definition) :=
  .bind (fun _ => rfl) fun _ => .bind (fun _ => rfl) fun _ => fun _ => rfl

theorem keepsSetup_save : KeepsSetup (save (σ := σ)) := by
  refine .bind keeps_demandStore fun store => .bind keeps_demandNoDrag fun _ => ?_
  refine .bind (fun _ => rfl) fun w => .bind (fun _ => rfl) fun text => ?_
  exact .bind (fun _ => rfl) fun _ => fun _ => rfl

variable [Geometry σ]

theorem keepsSetup_importBundle (payload : Json) :
    KeepsSetup (importBundle payload : WorkspaceM σ Imported) := by
  refine .bind keeps_demandNoDrag fun _ => .bind (fun _ => rfl) fun contents => ?_
  cases contents.definitions <;> cases contents.registry
  case none.none | some.none => exact fun _ => rfl
  case none.some => exact .bind (keeps_onBoard aside_setup _) fun _ => fun _ => rfl
  case some.some =>
    exact .bind (fun _ => rfl) fun _ => .bind (keeps_onBoard aside_setup _) fun _ => fun _ => rfl

theorem keepsSetup_load : KeepsSetup (load (σ := σ)) := by
  refine .bind keeps_demandStore fun store => .bind (fun _ => rfl) fun w => ?_
  refine .bind (fun _ => rfl) fun text => ?_
  cases text with
  | none => exact fun _ => rfl
  | some text => exact .bind (keepsSetup_importBundle (.str text)) fun _ => fun _ => rfl

theorem keepsSetup_clear : KeepsSetup (clear (σ := σ)) := by
  refine .bind keeps_demandNoDrag fun _ => .bind (keeps_onBoard aside_setup _) fun _ => ?_
  refine .bind (keeps_onBoard aside_setup _) fun _ => .bind (fun _ => rfl) fun _ => ?_
  refine .bind (fun _ => rfl) fun w => ?_
  cases w.store with
  | none => exact fun _ => rfl
  | some store =>
    exact .bind (fun _ => rfl) fun _ => .bind (fun _ => rfl) fun _ => fun _ => rfl

end Workspace

/-- No operation changes the settings or the table of languages. -/
theorem Operation.setup_perform {σ : Type} [Geometry σ] (o : Operation) (w : Workspace σ) :
    (o.perform w).setup = w.setup := by
  by_cases h : o.stocks = false
  · exact Workspace.view_perform Workspace.aside_setup o h w
  · cases o with
    | importBundle payload => exact Workspace.keepsSetup_importBundle payload w
    | save => exact Workspace.keepsSetup_save w
    | load => exact Workspace.keepsSetup_load w
    | clear => exact Workspace.keepsSetup_clear w
    | addDraft d => exact Workspace.keepsSetup_addDraft d w
    | removeEntry index => exact Workspace.keepsSetup_removeEntry index w
    | setPalette palette => rfl
    | setStore store => rfl
    | _ => exact absurd rfl h

theorem Json.orElse_orElse (v w : Json) : (v.orElse w).orElse w = v.orElse w := by
  cases hv : v.isTruthy <;> simp [orElse, hv]

namespace Workspace

variable {σ : Type} [Geometry σ] {asked : Scene → σ → σ → Prop} {w₀ w : Workspace σ}
variable {settings : Settings} {store : Option Store} {palette : Palette}
variable {languages : List Code.Language} {layout : σ} {language : Json}

theorem setup_of_reachable (h : Reachable asked w₀ w) : w.setup = w₀.setup := by
  induction h with
  | start => rfl
  | perform o _ _ ih => exact (o.setup_perform _).trans ih
  | ask _ _ ih => exact ih

/-- The template of every block for the language and the name of its body placeholder, if it
is given, are texts. -/
def Generable (w : Workspace σ) (language : Json) : Prop :=
  ∀ id b, w.board.registry.get? id = some b →
    Code.Generable w.generator (language.orElse w.settings.defaultLanguage) b

omit [Geometry σ] in
theorem run_generate (language : Json) (w : Workspace σ) : (generate language w).1 =
    Definition.lift (Code.generate w.generator w.board.registry language) := rfl

omit [Geometry σ] in
theorem generate_ok_iff (wf : w.board.registry.WellFormed)
    (hl : ∀ l ∈ w.languages, l.unit.IsText)
    (hn : (language.orElse w.settings.defaultLanguage).isScalar = true) :
    (∃ code, (generate language w).1 = .ok code) ↔ w.Generable language := by
  obtain ⟨l, hfound, hunit⟩ := Code.Language.exists_find hl hn
  simp only [run_generate, Bundle.lift_ok_iff]
  exact Code.generate_ok_iff wf hfound (Code.Language.exists_deeper hunit)

omit [Geometry σ] in
/-- A project is exported exactly if its code is generated. -/
theorem exported_ok_iff (hdrag : w.isDragging = false) (naming : Templates.Naming) :
    (∃ bundle, (exported naming (.str "project") language w).1 = .ok bundle) ↔
      ∃ code, (generate (language.orElse w.settings.defaultLanguage) w).1 = .ok code := by
  have hvariant : Bundle.Variant.ofJson? (.str "project") = some .project := by decide
  rw [exported, run_bind_ok (demandNoDrag_of_not_dragging hdrag), hvariant]
  have hget : (get : WorkspaceM σ (Workspace σ)) w = (.ok w, w) := rfl
  dsimp only
  rw [run_bind_ok hget]
  rcases hrun : generate (language.orElse w.settings.defaultLanguage) w with ⟨f | code, w'⟩
  · rw [run_bind_error hrun]
    exact ⟨nofun, nofun⟩
  · rw [run_bind_ok hrun]
    exact ⟨fun _ => ⟨code, rfl⟩, fun _ => ⟨_, rfl⟩⟩

/-- Whatever a user does, generating code for a language returns exactly if the template of
every block for it and the name of its body placeholder, if it is given, are texts.  So does
exporting the project while no block is being dragged. -/
theorem code_of_reachable
    (h : Reachable asked (start settings store palette languages layout) w)
    (hunits : ∀ l ∈ languages, l.unit.IsText) (hdefault : settings.defaultLanguage.isScalar = true)
    (language : Json) (hlanguage : language.isScalar = true) (naming : Templates.Naming) :
    ((∃ code, (generate language w).1 = .ok code) ↔ w.Generable language) ∧
      (w.isDragging = false →
        ((∃ bundle, (exported naming (.str "project") language w).1 = .ok bundle) ↔
          w.Generable language)) := by
  obtain ⟨wf, -⟩ := sound_of_reachable h
  have hsetup := setup_of_reachable h
  have hsettings : w.settings = settings := congrArg Prod.fst hsetup
  have htable : w.languages =
      if languages.isEmpty then Code.standardLanguages else Code.Language.table languages :=
    congrArg Prod.snd hsetup
  have hl : ∀ l ∈ w.languages, l.unit.IsText := by
    rw [htable]
    split
    · decide
    · exact Code.Language.unit_of_mem_table hunits
  have hname : (language.orElse w.settings.defaultLanguage).isScalar = true := by
    rw [hsettings, Json.orElse]
    split <;> assumption
  refine ⟨generate_ok_iff wf hl hname, fun hdrag => ?_⟩
  have hname' : ((language.orElse w.settings.defaultLanguage).orElse
      w.settings.defaultLanguage).isScalar = true := by
    rw [Json.orElse_orElse, hname]
  rw [exported_ok_iff hdrag, generate_ok_iff wf hl hname', Generable, Generable, Json.orElse_orElse]

/-- Code is generated for a container with a command in it and a value over its input, and
the project is exported. -/
theorem code_of_reachable_built : ∃ w : Workspace FixedGeometry,
    Reachable (fun _ _ _ => True) (start {} (some .empty) .standard [] {}) w ∧
      w.board.registry.parent? "blk-2" = some (.container "blk-1") ∧
      w.board.registry.parent? "blk-3" = some (.input "blk-1" "times") ∧
      (∃ code, (generate (.str "python") w).1 = .ok code) ∧
      ∃ bundle,
        (exported Templates.writtenName (.str "project") (.str "python") w).1 = .ok bundle := by
  have h := reachable_builtWorkspace
  have hentries : ∀ e ∈ builtWorkspace.board.registry.entries,
      Code.Generable builtWorkspace.generator
        ((Json.str "python").orElse builtWorkspace.settings.defaultLanguage) e.2 := by
    decide +kernel
  have hall : builtWorkspace.Generable (.str "python") := fun id b hb =>
    hentries (id, b) (Registry.get?_eq_some_iff.1 hb)
  obtain ⟨hgenerate, hexport⟩ :=
    code_of_reachable h nofun rfl (.str "python") rfl Templates.writtenName
  exact ⟨builtWorkspace, h, by decide +kernel, by decide +kernel, hgenerate.2 hall,
    (hexport (by decide +kernel)).2 hall⟩

/-- A block whose template is a number is imported, and then no code is generated and the
project is not exported. -/
theorem not_code_of_reachable : ∃ w : Workspace FixedGeometry,
    Reachable (fun _ _ _ => True) (start {} none .standard [] {}) w ∧ w.isDragging = false ∧
      (generate (.str "javascript") w).1.isOk = false ∧
      (exported Templates.writtenName (.str "project") (.str "javascript") w).1.isOk = false := by
  let w₀ : Workspace FixedGeometry := start {} none .standard [] {}
  let payload : Json := .obj [("instances", .arr [.obj [("id", .str "a"), ("label", .str "a"),
    ("kind", .str "command"), ("templates", .obj [("javascript", .int 5)])]])]
  let w₁ := (Operation.importBundle payload).perform w₀
  have h₀ : Reachable (fun _ _ _ => True) w₀ w₀ := .start
  have h₁ : Reachable _ w₀ w₁ := h₀.perform _ nofun
  exact ⟨w₁, h₁, by decide +kernel, by decide +kernel, by decide +kernel⟩

end Workspace

end Blockwork
