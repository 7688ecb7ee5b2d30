import Blockwork.Proofs.Workspace.GenerateExport

/-!
# Languages that are not known

The name of a language is looked up in two places.  Where a block has no template for it,
the template for the default language is used.  Where the table does not list it, it is
not indented, and the default language has no say in that.

So the code for an unknown language is that for the default language as it would be
without indentation.  It is the code for the default language where that is not indented,
and in general it is not where it is.

Of a language, generation reads the layout and the templates that it selects.  Two names
that come to the same in these have the same code.
-/

namespace Blockwork

namespace Code

variable {g h : Generator} {r : Registry} {name name' : Json} {l m : Language} {id : BlockId}
variable {b : Block}

/-! ## Layouts -/

/-- Two languages that lay code out alike.  The unit only counts in an indented one. -/
structure Language.SameLayout (l m : Language) : Prop where
  indented : m.indented = l.indented
  unit : l.indented = true → m.unit = l.unit

namespace Language.SameLayout

theorem of_plain (hl : l.indented = false) (hm : m.indented = false) : l.SameLayout m where
  indented := hm.trans hl.symm
  unit hindented := by
    rw [hl] at hindented
    cases hindented

theorem deeper (h : l.SameLayout m) (indent : String) : m.deeper indent = l.deeper indent := by
  rw [Language.deeper, Language.deeper, h.indented]
  split
  · next hindented => rw [h.unit hindented]
  · rfl

theorem indentTemplate (h : l.SameLayout m) (indent : String) (template : Json) :
    indentTemplate m indent template = indentTemplate l indent template := by
  unfold Code.indentTemplate
  rw [h.indented]

theorem finishText (h : l.SameLayout m) (indent text : String) :
    finishText m indent text = finishText l indent text := by
  simp only [Code.finishText, Hoisted.at, h.indented]

end Language.SameLayout

/-! ## Names that are read alike -/

/-- The second generator reads the blocks of a registry for the second name as the first does
for the first: the layout is the same, and so is the template of every live block. -/
structure ReadsAlike (g : Generator) (name : Json) (h : Generator) (name' : Json) (r : Registry) :
    Prop where
  layout : ∃ l m, Language.find g.languages name = .ok l ∧
    Language.find h.languages name' = .ok m ∧ l.SameLayout m
  template : ∀ id b, r.get? id = some b → selectTemplate h b name' = selectTemplate g b name

namespace ReadsAlike

theorem blockCodeBy (hread : ReadsAlike g name h name' r) (hb : r.get? id = some b)
    (code : String → BlockId → GenM String) (indent : String) :
    blockCodeBy h r name' code indent b = blockCodeBy g r name code indent b := by
  obtain ⟨l, m, hl, hm, hlayout⟩ := hread.layout
  simp only [Code.blockCodeBy, hl, hm, liftM_ok, pure_bind, hread.template id b hb,
    hlayout.deeper, hlayout.indentTemplate, hlayout.finishText, hlayout.indented]

theorem blockCodeWithin (hread : ReadsAlike g name h name' r) (n : Nat) (indent : String)
    (id : BlockId) :
    blockCodeWithin h r name' n indent id = blockCodeWithin g r name n indent id := by
  induction n generalizing indent id with
  | zero => rw [Code.blockCodeWithin, Code.blockCodeWithin]
  | succ n ih =>
    cases hb : r.get? id with
    | none => rw [Code.blockCodeWithin, Code.blockCodeWithin, hb]
    | some b =>
      have hcode : Code.blockCodeWithin h r name' n = Code.blockCodeWithin g r name n :=
        funext fun indent => funext fun id => ih indent id
      rw [blockCodeWithin_live hb, blockCodeWithin_live hb, hcode, hread.blockCodeBy hb]

/-- Languages that are read alike have the same code. -/
theorem generate {language language' : Json}
    (hread : ReadsAlike g (language.orElse g.defaultLanguage) h
      (language'.orElse h.defaultLanguage) r) :
    generate h r language' = generate g r language := by
  have hcodes : codes (blockCode h r (language'.orElse h.defaultLanguage) "") r.roots =
      codes (blockCode g r (language.orElse g.defaultLanguage) "") r.roots :=
    codes_congr fun id _ => hread.blockCodeWithin (r.size + 1) "" id
  simp only [Code.generate, hcodes]

/-- A name that neither the table nor a template knows is read as the default language is by a
generator that does not indent it. -/
theorem of_unknown (hname : name.isScalar = true) (hdefault : g.defaultLanguage.isScalar = true)
    (hunknown : ∀ l ∈ g.languages, Templates.sameKey l.name name = false)
    (htemplates : ∀ id b, r.get? id = some b → (b.templates.get? name).bind Json.given? = none)
    (hsame : h.defaultLanguage = g.defaultLanguage)
    (hm : Language.find h.languages g.defaultLanguage = .ok m) (hplain : m.indented = false) :
    ReadsAlike g name h g.defaultLanguage r where
  layout := by
    have hnone : g.languages.find? (Templates.sameKey ·.name name) = none :=
      List.find?_eq_none.2 fun l hl => by simp [hunknown l hl]
    refine ⟨{ name }, m, ?_, hm, .of_plain rfl hplain⟩
    rw [Language.find, if_pos hname, hnone, Option.getD_none]
  template id b hb := by
    rw [selectTemplate, selectTemplate, htemplates id b hb, hsame, if_pos hdefault]
    cases (b.templates.get? g.defaultLanguage).bind Json.given? <;> rfl

end ReadsAlike

/-! ## Without indentation -/

namespace Language

/-- A language without indentation. -/
def flat (l : Language) : Language := { l with indented := false }

/-- A table in which a language is not indented. -/
def flatten (table : List Language) (name : Json) : List Language :=
  table.map fun l => if Templates.sameKey l.name name then l.flat else l

theorem find_flatten {table : List Language} (h : find table name = .ok l) :
    find (flatten table name) name = .ok l.flat := by
  have hname (l : Language) :
      (if Templates.sameKey l.name name then l.flat else l).name = l.name := by
    split <;> rfl
  rw [find] at h ⊢
  split at h
  · next hscalar =>
    rw [if_pos hscalar, flatten, List.find?_map]
    simp only [Function.comp_def, hname]
    cases hfound : table.find? (Templates.sameKey ·.name name) with
    | none =>
      rw [hfound] at h
      cases h
      rfl
    | some m =>
      rw [hfound] at h
      cases h
      rw [Option.map_some, if_pos (List.find?_some hfound)]
      rfl
  · cases h

end Language

end Code

namespace Workspace

open Code (Language)

variable {σ : Type} {w : Workspace σ} {language : Json}

/-- A workspace in which the default language is not indented. -/
def flattened (w : Workspace σ) : Workspace σ :=
  { w with languages := Language.flatten w.languages w.settings.defaultLanguage }

/-- The language is neither in the table nor one that a live block has a template for. -/
structure Unknown (w : Workspace σ) (language : Json) : Prop where
  table : ∀ l ∈ w.languages, Templates.sameKey l.name language = false
  templates : ∀ id b, w.board.registry.get? id = some b →
    (b.templates.get? language).bind Json.given? = none

theorem Unknown.of_entries (htable : ∀ l ∈ w.languages, Templates.sameKey l.name language = false)
    (hentries : ∀ e ∈ w.board.registry.entries,
      (e.2.templates.get? language).bind Json.given? = none) : w.Unknown language where
  table := htable
  templates id b hb := hentries (id, b) (Registry.get?_eq_some_iff.1 hb)

/-- The code for an unknown language is that for the default language, where a workspace with
the same blocks has it without indentation. -/
theorem generate_eq_of_unknown {w' : Workspace σ} {m : Language}
    (hlanguage : language.isScalar = true) (hgiven : language.isTruthy = true)
    (hdefault : w.settings.defaultLanguage.isScalar = true) (hunknown : w.Unknown language)
    (hboard : w'.board = w.board) (hsettings : w'.settings = w.settings)
    (hm : Language.find w'.languages w.settings.defaultLanguage = .ok m)
    (hplain : m.indented = false) :
    (generate language w).1 = (generate w.settings.defaultLanguage w').1 := by
  have hread : Code.ReadsAlike w.generator language w'.generator w.settings.defaultLanguage
      w.board.registry :=
    .of_unknown hlanguage hdefault hunknown.table hunknown.templates
      (congrArg Settings.defaultLanguage hsettings) hm hplain
  have hname : language.orElse w.generator.defaultLanguage = language := if_pos hgiven
  have hname' : w.settings.defaultLanguage.orElse w'.generator.defaultLanguage =
      w.settings.defaultLanguage := by
    rw [generator, hsettings, Json.orElse, ite_self]
  have hgenerate : Code.generate w'.generator w.board.registry w.settings.defaultLanguage =
      Code.generate w.generator w.board.registry language :=
    Code.ReadsAlike.generate (by rwa [hname, hname'])
  rw [run_generate, run_generate, hboard, hgenerate]

/-- The code for an unknown language is that for the default language laid out without
indentation.  A language that does not count as given is the default language itself, and where
the default language is not indented an unknown language has the same code. -/
theorem generate_of_unknown (hlanguage : language.isScalar = true)
    (hdefault : w.settings.defaultLanguage.isScalar = true) (hunknown : w.Unknown language) :
    (language.isTruthy = false →
      (generate language w).1 = (generate w.settings.defaultLanguage w).1) ∧
    (language.isTruthy = true →
      (generate language w).1 = (generate w.settings.defaultLanguage w.flattened).1) ∧
    ((∀ l, Language.find w.languages w.settings.defaultLanguage = .ok l → l.indented = false) →
      (generate language w).1 = (generate w.settings.defaultLanguage w).1) := by
  have hmissing (hgiven : language.isTruthy = false) :
      (generate language w).1 = (generate w.settings.defaultLanguage w).1 := by
    have hname : language.orElse w.settings.defaultLanguage =
        w.settings.defaultLanguage.orElse w.settings.defaultLanguage := by
      rw [Json.orElse, hgiven, Json.orElse, ite_self, if_neg Bool.false_ne_true]
    rw [run_generate, run_generate, Code.generate, Code.generate, generator, hname]
  obtain ⟨l, hl⟩ : ∃ l, Language.find w.languages w.settings.defaultLanguage = .ok l := by
    rw [Language.find, if_pos hdefault]
    exact ⟨_, rfl⟩
  refine ⟨hmissing, fun hgiven => ?_, fun hplain => ?_⟩
  · exact generate_eq_of_unknown hlanguage hgiven hdefault hunknown rfl rfl
      (Language.find_flatten hl) rfl
  · cases hgiven : language.isTruthy with
    | false => exact hmissing hgiven
    | true =>
      exact generate_eq_of_unknown hlanguage hgiven hdefault hunknown rfl rfl hl (hplain l hl)

/-- A workspace in which the default language is indented, with two commands in a container. -/
def indentedWorkspace : Workspace FixedGeometry :=
  let operations : List Operation := [.addEntry 2 .origin, .addEntry 0 .origin,
    .addEntry 0 .origin, .attachToBody "blk-2" "blk-1", .attachToBody "blk-3" "blk-1"]
  operations.foldl (fun w o => o.perform w)
    (start { defaultLanguage := .str "python" } none .standard [] {})

theorem reachable_indentedWorkspace :
    Reachable (fun _ _ _ => True) (start { defaultLanguage := .str "python" } none .standard [] {})
      indentedWorkspace := by
  let w₀ : Workspace FixedGeometry :=
    start { defaultLanguage := .str "python" } none .standard [] {}
  have h₀ : Reachable (fun _ _ _ => True) w₀ w₀ := .start
  have h₁ := h₀.perform (.addEntry 2 .origin) fun _ => by decide +kernel
  have h₂ := h₁.perform (.addEntry 0 .origin) fun _ => by decide +kernel
  have h₃ := h₂.perform (.addEntry 0 .origin) fun _ => by decide +kernel
  have h₄ := h₃.perform (.attachToBody "blk-2" "blk-1") nofun
  exact h₄.perform (.attachToBody "blk-3" "blk-1") nofun

theorem generate_indentedWorkspace : (generate (.str "ruby") indentedWorkspace).1.toOption =
    some "for i in range():\n    print()\nprint()" := by
  decide +kernel

/-- An unknown language has the code for Python laid out without indentation, and the code for
JavaScript as it is. -/
theorem generate_of_unknown_built :
    (∃ w : Workspace FixedGeometry,
      Reachable (fun _ _ _ => True)
        (start { defaultLanguage := .str "python" } none .standard [] {})
        w ∧
      (generate (.str "ruby") w).1 = (generate (.str "python") w.flattened).1 ∧
      (generate (.str "ruby") w).1.toOption = some "for i in range():\n    print()\nprint()") ∧
    ∃ w : Workspace FixedGeometry,
      Reachable (fun _ _ _ => True) (start {} (some .empty) .standard [] {}) w ∧
      (generate (.str "ruby") w).1 = (generate (.str "javascript") w).1 := by
  refine ⟨⟨_, reachable_indentedWorkspace, ?_, generate_indentedWorkspace⟩,
    _, reachable_builtWorkspace, ?_⟩
  · have hunknown : indentedWorkspace.Unknown (.str "ruby") :=
      .of_entries (by decide +kernel) (by decide +kernel)
    exact (generate_of_unknown rfl (by decide +kernel) hunknown).2.1 (by decide)
  · have hunknown : builtWorkspace.Unknown (.str "ruby") :=
      .of_entries (by decide +kernel) (by decide +kernel)
    refine (generate_of_unknown rfl (by decide +kernel) hunknown).2.2 fun l hl => ?_
    have hplain : (Language.find builtWorkspace.languages
        builtWorkspace.settings.defaultLanguage).toOption.all (!·.indented) = true := by
      decide +kernel
    rw [hl] at hplain
    simpa [Except.toOption] using hplain

/-- Where Python is the default language, an unknown language has its templates without its
indentation.  The second command is not in the loop any more. -/
theorem not_generate_of_unknown_indented : ∃ w : Workspace FixedGeometry,
    Reachable (fun _ _ _ => True) (start { defaultLanguage := .str "python" } none .standard [] {})
      w ∧
    w.Unknown (.str "ruby") ∧
    (generate (.str "ruby") w).1.toOption = some "for i in range():\n    print()\nprint()" ∧
    (generate w.settings.defaultLanguage w).1.toOption =
      some "for i in range():\n    print()\n    print()" :=
  ⟨indentedWorkspace, reachable_indentedWorkspace,
    .of_entries (by decide +kernel) (by decide +kernel), generate_indentedWorkspace,
    by decide +kernel⟩

end Workspace

end Blockwork
