import Blockwork.Proofs.Code.Calls
import Blockwork.Proofs.Workspace.GenerateExport

/-!
# Code comes from what precedes it

The functions that a block defines can be called by every block that is generated after it,
so the code of a block may depend on others than those below it.  It does not depend on
what is generated after it.  Generation reads a block, the blocks below it and the table,
and nothing else of the registry, and the table at a block at the top level was left by
those before it.

So where two registries have the same first blocks at the top level, with the same blocks
below them, these blocks have the same codes in both.  A block that is added to a workspace
is the last one at the top level, so its code goes behind what was there.
-/

namespace Blockwork

namespace Registry

variable {r s : Registry} {id c : BlockId} {b : Block}

/-- A block and all blocks below it are the same in another registry. -/
def SameTree (r s : Registry) (id : BlockId) : Prop :=
  ∀ x, Relation.ReflTransGen r.Under x id → s.get? x = r.get? x

theorem SameTree.get? (h : r.SameTree s id) : s.get? id = r.get? id := h id .refl

theorem SameTree.contains (h : r.SameTree s id) : s.contains id = r.contains id := by
  rw [Registry.contains, h.get?, Registry.contains]

theorem SameTree.child (h : r.SameTree s id) (hc : r.Under c id) : r.SameTree s c :=
  fun x hx => h x (hx.tail hc)

theorem roots_insert (hid : r.contains id = false) (hb : b.Loose) :
    (r.insert id b).roots = r.roots ++ [id] := by
  have hroot : b.parent.isNone = true := Parent.isNone_iff.2 hb.parent
  rw [roots, entries_insert hid, List.filter_append, List.map_append, roots]
  simp [hroot]

/-- A new block changes nothing about the blocks that are there. -/
theorem sameTree_insert (hnew : r.contains id = false) (hc : r.contains c = true) :
    r.SameTree (r.insert id b) c := by
  intro x hx
  have hlive : r.contains x = true := by
    rcases Relation.ReflTransGen.cases_head hx with rfl | ⟨p, hp, -⟩
    · exact hc
    · exact hp.contains
  have hne : x ≠ id := by
    rintro rfl
    simp [hlive] at hnew
  simp [hne]

/-- A block without children has none below it. -/
theorem WellFormed.eq_of_loose (wf : r.WellFormed) (hid : r.get? id = some b) (hb : b.Loose)
    (h : Relation.ReflTransGen r.Under c id) : c = id := by
  have hnone : ∀ x, r.Under x id → False := by
    refine (wf.forall_under_iff hid).1 ⟨fun e he x hx _ => ?_, fun x hx => ?_⟩
    · have hslot : b.childAt? e.1 = some x :=
        Block.childAt?_eq_some_iff.2 ⟨e.2, Table.lookup_of_mem hb.slots_nodup he, hx⟩
      rw [hb.child] at hslot
      cases hslot
    · rw [hb.nested] at hx
      cases hx
  rcases Relation.ReflTransGen.cases_tail h with rfl | ⟨x, -, hx⟩
  · rfl
  · exact (hnone x hx).elim

end Registry

namespace Code

variable {g : Generator} {r s : Registry} {name language : Json} {id : BlockId}
variable {T U : Functions}

/-! ## Blocks -/

/-- The code of a block comes from the block and those below it. -/
theorem blockCode_congr (wf : r.WellFormed) (wf' : s.WellFormed) (h : r.SameTree s id)
    (indent : String) : blockCode g s name indent id = blockCode g r name indent id := by
  by_cases hid : r.contains id = true
  · refine wf.child_induction (P := fun id => r.SameTree s id → ∀ indent,
      blockCode g s name indent id = blockCode g r name indent id) ?_ id hid h indent
    intro id b hb ih h indent
    have hchild (c : BlockId) (hc : r.Under c id) : s.contains c = r.contains c ∧
        ∀ indent, blockCode g s name indent c = blockCode g r name indent c :=
      ⟨(h.child hc).contains, ih c hc (h.child hc)⟩
    rw [blockCode_live wf' (h.get?.trans hb), blockCode_live wf hb]
    exact blockCodeBy_congr (.refl b) (fun _ he c hc => hchild c (wf.under_of_mem_slots hb he hc))
      (fun c hc => hchild c (wf.under_of_mem_nested hb hc)) indent
  · have hdead : r.get? id = none := Registry.not_contains_iff.1 hid
    rw [blockCode_dead (h.get?.trans hdead), blockCode_dead hdead]

/-! ## Blocks one after the other -/

theorem codes_append (code : BlockId → GenM String) (ids ids' : List BlockId) :
    codes code (ids ++ ids') = do
      let ss ← codes code ids
      let ts ← codes code ids'
      return ss ++ ts := by
  induction ids with
  | nil => simp [codes]
  | cons id ids ih => simp [codes, ih]

/-- The first blocks have the first codes. -/
theorem codes_take {code : BlockId → GenM String} {ids : List BlockId} {ss : List String}
    (h : codes code ids T = (.ok ss, U)) (k : Nat) :
    ∃ V, codes code (ids.take k) T = (.ok (ss.take k), V) := by
  induction ids generalizing T ss k with
  | nil =>
    cases h
    exact ⟨U, by simp only [List.take_nil]; rfl⟩
  | cons id ids ih =>
    obtain ⟨s, T₁, hs, h⟩ := run_bind_eq_ok.1 h
    obtain ⟨ss', U₁, hss, h⟩ := run_bind_eq_ok.1 h
    cases h
    cases k with
    | zero => exact ⟨T, rfl⟩
    | succ k =>
      obtain ⟨V, hV⟩ := ih hss k
      refine ⟨V, ?_⟩
      rw [List.take_succ_cons, List.take_succ_cons, codes, run_bind_ok hs, run_bind_ok hV]
      rfl

/-- The codes of the first `k` blocks at the top level. -/
def firstCodes (g : Generator) (r : Registry) (language : Json) (k : Nat) : GenM (List String) :=
  codes (blockCode g r (language.orElse g.defaultLanguage) "") (r.roots.take k)

/-- The codes of all blocks at the top level, in order of creation. -/
def rootCodes (g : Generator) (r : Registry) (language : Json) : Except Breakdown (List String) :=
  (codes (blockCode g r (language.orElse g.defaultLanguage) "") r.roots []).1

/-- The table that generating all code leaves. -/
def rootTable (g : Generator) (r : Registry) (language : Json) : Functions :=
  (codes (blockCode g r (language.orElse g.defaultLanguage) "") r.roots []).2

/-- The code of a block of another registry, generated after all code of a registry. -/
def codeAfter (g : Generator) (r s : Registry) (language : Json) (id : BlockId) :
    Except Breakdown String :=
  (blockCode g s (language.orElse g.defaultLanguage) "" id (rootTable g r language)).1

theorem generate_eq_rootCodes :
    generate g r language = (rootCodes g r language).map (joinCode "\n") :=
  rfl

/-- A text with the code of one more block. -/
def appendCode (text code : String) : String :=
  if code = "" then text else if text = "" then code else text ++ "\n" ++ code

theorem joinTexts_concat (separator : String) : ∀ {ss : List String} (s : String), ss ≠ [] →
    joinTexts separator (ss ++ [s]) = joinTexts separator ss ++ separator ++ s
  | [], _, h => absurd rfl h
  | [t], s, _ => rfl
  | t :: t' :: ss, s, _ => by
    show t ++ separator ++ joinTexts separator (t' :: ss ++ [s]) =
      t ++ separator ++ joinTexts separator (t' :: ss) ++ separator ++ s
    rw [joinTexts_concat separator s (List.cons_ne_nil t' ss)]
    simp only [String.append_assoc]

theorem joinTexts_ne_empty (separator : String) : ∀ {ss : List String}, ss ≠ [] →
    (∀ s ∈ ss, s ≠ "") → joinTexts separator ss ≠ ""
  | [], h, _ => absurd rfl h
  | [s], _, h => h s (List.mem_singleton_self s)
  | s :: s' :: ss, _, h => by
    intro he
    refine h s (List.mem_cons_self ..) (String.toList_eq_nil_iff.1 ?_)
    have hchars := congrArg String.toList he
    rw [joinTexts, String.toList_append, String.toList_append] at hchars
    exact (List.append_eq_nil_iff.1 (List.append_eq_nil_iff.1 hchars).1).1
    all_goals exact nofun

theorem joinCode_concat (ss : List String) (s : String) :
    joinCode "\n" (ss ++ [s]) = appendCode (joinCode "\n" ss) s := by
  rw [appendCode, joinCode, List.filter_append, joinCode]
  by_cases hs : s = ""
  · rw [if_pos hs, hs, List.filter_cons_of_neg (by simp), List.filter_nil, List.append_nil]
  · rw [if_neg hs, List.filter_cons_of_pos (by simpa using hs), List.filter_nil]
    have hgiven : ∀ t ∈ ss.filter (· ≠ ""), t ≠ "" := fun t ht => by
      simpa using List.of_mem_filter ht
    generalize ss.filter (· ≠ "") = given at hgiven
    by_cases hss : given = []
    · rw [hss]
      rfl
    · rw [if_neg (joinTexts_ne_empty "\n" hss hgiven), joinTexts_concat "\n" s hss]

/-- Where the first blocks at the top level are the same in two registries, and so are those
below them, their codes are the same, and so is the table that they leave. -/
theorem firstCodes_congr {k : Nat} (wf : r.WellFormed) (wf' : s.WellFormed)
    (hroots : s.roots.take k = r.roots.take k) (htrees : ∀ root ∈ r.roots.take k, r.SameTree s root)
    (language : Json) : firstCodes g s language k = firstCodes g r language k := by
  rw [firstCodes, hroots]
  exact codes_congr fun root h => blockCode_congr wf wf' (htrees root h) ""

/-- The codes of the first blocks at the top level come first, whatever comes after them. -/
theorem run_firstCodes {ss : List String} (h : rootCodes g r language = .ok ss) (k : Nat) :
    (firstCodes g r language k []).1 = .ok (ss.take k) := by
  obtain ⟨T, hT⟩ := codes_take (Prod.ext h rfl) k
  exact congrArg Prod.fst hT

theorem take_rootCodes_congr {k : Nat} {ss ts : List String} (wf : r.WellFormed)
    (wf' : s.WellFormed) (hroots : s.roots.take k = r.roots.take k)
    (htrees : ∀ root ∈ r.roots.take k, r.SameTree s root)
    (hss : rootCodes g r language = .ok ss) (hts : rootCodes g s language = .ok ts) :
    ts.take k = ss.take k := by
  have hts' := run_firstCodes hts k
  rw [firstCodes_congr wf wf' hroots htrees language, run_firstCodes hss k] at hts'
  exact (Except.ok.inj hts').symm

/-! ## One more block -/

/-- The code of a new block goes behind the code that was there. -/
theorem generate_insert {b : Block} (wf : r.WellFormed) (hid : id ≠ "")
    (hnew : r.contains id = false) (hb : b.Loose) :
    generate g (r.insert id b) language = do
      let text ← generate g r language
      let code ← codeAfter g r (r.insert id b) language id
      return appendCode text code := by
  let name := language.orElse g.defaultLanguage
  have hroots : codes (blockCode g (r.insert id b) name "") r.roots =
      codes (blockCode g r name "") r.roots :=
    codes_congr fun root h => blockCode_congr wf (wf.insert hid hnew hb)
      (Registry.sameTree_insert hnew (Registry.contains_of_mem_roots h)) ""
  have hrun : generate g (r.insert id b) language =
      ((do
        let ss ← codes (blockCode g r name "") r.roots
        let ts ← codes (blockCode g (r.insert id b) name "") [id]
        return ss ++ ts : GenM (List String)) []).1.map (joinCode "\n") := by
    rw [← hroots, ← codes_append, ← Registry.roots_insert hnew hb]
    rfl
  rw [hrun, generate_eq_rootCodes, rootCodes, codeAfter, rootTable]
  rcases hold : codes (blockCode g r name "") r.roots [] with ⟨e | ss, T⟩
  · rw [run_bind_error hold]
    rfl
  · rw [run_bind_ok hold]
    rcases hcode : blockCode g (r.insert id b) name "" id T with ⟨e | code, U⟩
    · have hlast : codes (blockCode g (r.insert id b) name "") [id] T = (.error e, U) :=
        run_bind_error hcode
      rw [run_bind_error hlast]
      rfl
    · have hlast : codes (blockCode g (r.insert id b) name "") [id] T = (.ok [code], U) :=
        run_bind_ok hcode
      rw [run_bind_ok hlast]
      exact congrArg Except.ok (joinCode_concat ss code)

end Code

namespace Workspace

variable {σ : Type} {w w' : Workspace σ} {d : Definition} {position : Point} {id : BlockId}

/-- What placing a block has done, when it succeeds. -/
theorem add_ok (h : add d position w = (.ok id, w')) : ∃ b,
    Block.ofDefinition d position = .ok b ∧ id = nthId (w.issued + 1) ∧
      w'.board.registry = w.board.registry.insert id b ∧ w'.generator = w.generator := by
  obtain ⟨id', w₁, hcreate, h⟩ := run_bind_eq_ok.1 h
  cases h
  obtain ⟨r, w₂, hblocks, hcreate⟩ := run_bind_eq_ok.1 hcreate
  cases hblocks
  obtain ⟨b, w₃, hblock, hcreate⟩ := run_bind_eq_ok.1 hcreate
  cases hcreate
  have hb : Definition.lift (Block.ofDefinition d position) = .ok b := congrArg Prod.fst hblock
  obtain rfl : w = w₃ := congrArg Prod.snd hblock
  exact ⟨b, Bundle.lift_ok_iff.1 hb, rfl, rfl, rfl⟩

/-- What is generated before a block is placed and after it.  The block has code exactly if its
template and the name of its body placeholder are texts. -/
theorem generate_of_add (wf : w.board.registry.WellFormed) (hfresh : w.Fresh)
    (hadd : add d position w = (.ok id, w')) {language : Json} {l : Code.Language}
    (hl : Code.Language.find w.languages (language.orElse w.settings.defaultLanguage) = .ok l)
    (hunit : l.unit.IsText) :
    (generate language w').1 = (do
      let text ← (generate language w).1
      let code ← Definition.lift
        (Code.codeAfter w.generator w.board.registry w'.board.registry language id)
      return Code.appendCode text code) ∧
    ∃ b, w'.board.registry.get? id = some b ∧
      ((∃ code, Code.codeAfter w.generator w.board.registry w'.board.registry language id =
          .ok code) ↔
        Code.Generable w.generator (language.orElse w.settings.defaultLanguage) b) := by
  obtain ⟨b, hb, rfl, hregistry, hgenerator⟩ := add_ok hadd
  have hloose := Block.loose_ofDefinition hb
  have hne := nthId_ne_empty (w.issued + 1)
  have wf' : w'.board.registry.WellFormed := by
    rw [hregistry]
    exact wf.insert hne hfresh hloose
  have hget : w'.board.registry.get? (nthId (w.issued + 1)) = some b := by
    simp [hregistry]
  refine ⟨?_, b, hget, ?_⟩
  · rw [run_generate, run_generate, hgenerator, hregistry,
      Code.generate_insert wf hne hfresh hloose]
    cases Code.generate w.generator w.board.registry language with
    | error e => rfl
    | ok text =>
      cases Code.codeAfter w.generator w.board.registry
          (w.board.registry.insert (nthId (w.issued + 1)) b) language (nthId (w.issued + 1)) <;>
        rfl
  · have hcode := (Code.succeeds_blockCode (g := w.generator) wf' hl
      (Code.Language.exists_deeper hunit) _ (Registry.contains_of_get? hget) "").ok_iff
      (Code.rootTable w.generator w.board.registry language)
    refine hcode.trans ⟨fun h => h _ b .refl hget, fun h x c hx hc => ?_⟩
    rw [wf'.eq_of_loose hget hloose hx, hget] at hc
    cases hc
    exact h

/-- When a block whose template and body placeholder are texts is placed in a workspace, its
code goes behind the code that was there, on a line of its own, and nothing is added if it has
none.  What could not be generated before cannot be generated now, and for the same reason.
Code is generated for no other block that is placed. -/
theorem code_of_add (wf : w.board.registry.WellFormed) (hfresh : w.Fresh)
    (hadd : add d position w = (.ok id, w')) {language : Json} {l : Code.Language}
    (hl : Code.Language.find w.languages (language.orElse w.settings.defaultLanguage) = .ok l)
    (hunit : l.unit.IsText) :
    ∃ b, w'.board.registry.get? id = some b ∧
      (Code.Generable w.generator (language.orElse w.settings.defaultLanguage) b → ∃ code,
        Code.codeAfter w.generator w.board.registry w'.board.registry language id = .ok code ∧
        (generate language w').1 =
          (generate language w).1.map fun text => Code.appendCode text code) ∧
      ∀ text', (generate language w').1 = .ok text' →
        Code.Generable w.generator (language.orElse w.settings.defaultLanguage) b := by
  obtain ⟨hgenerate, b, hget, hcode⟩ := generate_of_add wf hfresh hadd hl hunit
  refine ⟨b, hget, fun hgen => ?_, fun text' htext' => hcode.1 ?_⟩
  · obtain ⟨code, hc⟩ := hcode.2 hgen
    refine ⟨code, hc, ?_⟩
    rw [hgenerate, hc]
    cases (generate language w).1 <;> rfl
  · rw [hgenerate] at htext'
    obtain ⟨text, -, htext'⟩ := except_bind_eq_ok.1 htext'
    obtain ⟨code, hc, -⟩ := except_bind_eq_ok.1 htext'
    exact ⟨code, Bundle.lift_ok_iff.1 hc⟩

/-- Code comes from what precedes it.  Where the first blocks at the top level are the same in
two registries, and so are those below them, their codes are the same, and so is the table
that they leave, whatever comes after them.  When a block is placed in a workspace, its code
goes behind the code that was there, on a line of its own, and nothing is added if it has none,
provided that its template and the name of its body placeholder are texts. -/
theorem code_of_preceding :
    (∀ {g : Code.Generator} {r s : Registry} {k : Nat}, r.WellFormed → s.WellFormed →
      s.roots.take k = r.roots.take k → (∀ root ∈ r.roots.take k, r.SameTree s root) →
      ∀ language : Json,
        Code.firstCodes g s language k = Code.firstCodes g r language k ∧
        ∀ ss ts, Code.rootCodes g r language = .ok ss → Code.rootCodes g s language = .ok ts →
          ts.take k = ss.take k) ∧
    (∀ {σ : Type} {w w' : Workspace σ} {d : Definition} {position : Point} {id : BlockId},
      w.board.registry.WellFormed → w.Fresh → add d position w = (.ok id, w') →
      ∀ {language : Json} {l : Code.Language},
        Code.Language.find w.languages (language.orElse w.settings.defaultLanguage) = .ok l →
        l.unit.IsText →
        ∃ b, w'.board.registry.get? id = some b ∧
          (Code.Generable w.generator (language.orElse w.settings.defaultLanguage) b → ∃ code,
            Code.codeAfter w.generator w.board.registry w'.board.registry language id = .ok code ∧
            (generate language w').1 =
              (generate language w).1.map fun text => Code.appendCode text code) ∧
          ∀ text', (generate language w').1 = .ok text' →
            Code.Generable w.generator (language.orElse w.settings.defaultLanguage) b) := by
  refine ⟨fun wf wf' hroots htrees language => ⟨?_, fun ss ts => ?_⟩, code_of_add⟩
  · exact Code.firstCodes_congr wf wf' hroots htrees language
  · exact Code.take_rootCodes_congr wf wf' hroots htrees

/-- Another definition of the function, with nothing in its body. -/
def sampleRedefinition : Block :=
  Code.codeBlock "define %name" .container "%name = %body" [("name", { literal := "greet" })] []
    .none

theorem loose_sampleRedefinition : sampleRedefinition.Loose where
  slots_nodup := by decide
  nested := rfl
  parent := rfl
  child slot := by
    rw [Block.childAt?, Option.bind_eq_none_iff]
    intro s hs
    cases List.mem_singleton.1 (Table.mem_of_lookup hs)
    rfl

/-- A definition of the command that says what is typed into it. -/
def sampleSaying : Definition :=
  standardDefinition "say %text" .command "#4C97FF" "say(%text)" "say(%text)" "say(%text)"

/-- A call writes what the definition before it says, though another comes after it, and a
command that is placed behind a container is generated behind it. -/
theorem code_of_preceding_samples :
    (∃ ts, Code.rootCodes {} (Code.sampleCalls.insert "z" sampleRedefinition) (.str "python") =
        .ok ts ∧ ts.take 2 = ["", "say(1)\nsay(2)"]) ∧
    ∃ id w' code, add sampleSaying .origin builtWorkspace = (.ok id, w') ∧
      Code.codeAfter builtWorkspace.generator builtWorkspace.board.registry w'.board.registry
        (.str "python") id = .ok code ∧
      (generate (.str "python") w').1 =
        (generate (.str "python") builtWorkspace).1.map fun text => Code.appendCode text code := by
  constructor
  · have hss : Code.rootCodes {} Code.sampleCalls (.str "python") = .ok ["", "say(1)\nsay(2)"] := by
      decide +kernel
    have hts : Code.rootCodes {} (Code.sampleCalls.insert "z" sampleRedefinition) (.str "python") =
        .ok ["", "say(1)\nsay(2)", ""] := by decide +kernel
    have hnew : Code.sampleCalls.contains "z" = false := by decide
    have wf := Code.wellFormed_sampleCalls
    have hroots : (Code.sampleCalls.insert "z" sampleRedefinition).roots.take 2 =
        Code.sampleCalls.roots.take 2 := by decide
    have hlive : ∀ root ∈ Code.sampleCalls.roots.take 2, Code.sampleCalls.contains root = true := by
      decide
    exact ⟨_, hts, (code_of_preceding.1 wf (wf.insert (by decide) hnew loose_sampleRedefinition)
      hroots (fun root h => Registry.sameTree_insert hnew (hlive root h)) (.str "python")).2 _ _
        hss hts⟩
  · let w' := (add sampleSaying .origin builtWorkspace).2
    have hid : (add sampleSaying .origin builtWorkspace).1 = .ok "blk-4" :=
      eq_ok_of_toOption (by decide +kernel)
    have hadd : add sampleSaying .origin builtWorkspace = (.ok "blk-4", w') := Prod.ext hid rfl
    have hentries : ∀ e ∈ w'.board.registry.entries, Code.Generable builtWorkspace.generator
        ((Json.str "python").orElse builtWorkspace.settings.defaultLanguage) e.2 := by
      decide +kernel
    have hunits : ∀ l ∈ builtWorkspace.languages, l.unit.IsText := by decide +kernel
    have hname : ((Json.str "python").orElse
        builtWorkspace.settings.defaultLanguage).isScalar = true := by decide +kernel
    obtain ⟨l, hl, hunit⟩ := Code.Language.exists_find hunits hname
    obtain ⟨b, hb, hcode, -⟩ := code_of_preceding.2 (sound_of_reachable reachable_builtWorkspace).1
      (by decide +kernel) hadd hl hunit
    obtain ⟨code, hcode, hgenerate⟩ :=
      hcode (hentries ("blk-4", b) (Registry.get?_eq_some_iff.1 hb))
    exact ⟨"blk-4", w', code, hadd, hcode, hgenerate⟩

/-- A palette with a definition whose template is a number, and one block. -/
def sampleNumberEntry : Json :=
  .obj [("definitions", .arr [.obj [("label", .str "a"),
      ("templates", .obj [("javascript", .int 5)])]]),
    ("instances", .arr [.obj [("id", .str "b"), ("label", .str "b"), ("kind", .str "command"),
      ("templates", .obj [("javascript", .str "b()")])]])]

/-- A block whose template is a number is placed from an imported palette, and then nothing is
generated any more. -/
theorem not_code_of_preceding : ∃ w w' : Workspace FixedGeometry,
    Reachable (fun _ _ _ => True) (start {} none .standard [] {}) w ∧
      w.board.registry.WellFormed ∧ w.Fresh ∧
      addEntry 0 .origin w = (.ok "blk-1", w') ∧
      (generate (.str "javascript") w).1 = .ok "b()" ∧
      (generate (.str "javascript") w').1.isOk = false := by
  let w₀ : Workspace FixedGeometry := start {} none .standard [] {}
  let w := (Operation.importBundle sampleNumberEntry).perform w₀
  have h₀ : Reachable (fun _ _ _ => True) w₀ w₀ := .start
  have h : Reachable (fun _ _ _ => True) w₀ w := h₀.perform _ nofun
  have hid : (addEntry 0 .origin w).1 = .ok "blk-1" := eq_ok_of_toOption (by decide +kernel)
  have hcode : (generate (.str "javascript") w).1 = .ok "b()" :=
    eq_ok_of_toOption (by decide +kernel)
  exact ⟨w, _, h, (sound_of_reachable h).1, by decide +kernel, Prod.ext hid rfl, hcode,
    by decide +kernel⟩

end Workspace

end Blockwork
