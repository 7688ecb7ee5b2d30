import Mathlib.Data.List.Infix
import Blockwork.Palette.Search
import Blockwork.Proofs.Lists
import Blockwork.Proofs.Workspace.PaletteValid

/-!
# What a search lists, and in which order

The four criteria of a search give points that are added up.  The points keep the criteria
apart all the same: a definition has 100 points or more exactly if its name is the query,
50 or more exactly if its name is the query or its label contains it, and one or more exactly
if it matches at all.  So falling scores go through three tiers, whatever comes together.

Sorting is stable.  Among definitions of one score the order is that of the palette, and every
definition that matches is listed once for every place that it has there.
-/

namespace Blockwork

/-! ## Texts within texts -/

namespace Text

theorem isSome_dropLiteral?_iff {lit cs : List Char} :
    (dropLiteral? lit cs).isSome = true ↔ lit <+: cs := by
  rw [Option.isSome_iff_exists]
  exact exists_congr fun rest => dropLiteral?_eq_some_iff.trans eq_comm

/-- A piece occurs in a text if it is a stretch of it. -/
theorem occurs_iff {piece cs : List Char} : occurs piece cs = true ↔ piece <:+: cs := by
  induction cs with
  | nil => rw [occurs, List.isEmpty_iff, List.infix_nil]
  | cons c cs ih => rw [occurs, Bool.or_eq_true, isSome_dropLiteral?_iff, ih, List.infix_cons_iff]

end Text

namespace Palette

open Blockwork.Unicode (lower strip)

variable {p : Palette} {query : String} {d : Definition}

/-! ## What matches -/

/-- The name that the palette shows for a definition is the query, in any case. -/
def Named (query : String) (d : Definition) : Prop := lower d.displayName = lower query

/-- The label of a definition contains the query, in any case. -/
def Labelled (query : String) (d : Definition) : Prop :=
  (lower query).toList <:+: (lower d.label).toList

/-- A definition is what a query asks for. -/
inductive Matches (query : String) (d : Definition) : Prop
  | name : Named query d → Matches query d
  | label : Labelled query d → Matches query d
  | kind : d.kind.name = lower query → Matches query d
  | template {text : String} : .str text ∈ d.templates.values →
      (lower query).toList <:+: (lower text).toList → Matches query d

theorem matches_iff : Matches query d ↔ Named query d ∨ Labelled query d ∨
    d.kind.name = lower query ∨
    ∃ text, .str text ∈ d.templates.values ∧ (lower query).toList <:+: (lower text).toList := by
  constructor
  · rintro (h | h | h | ⟨ht, hin⟩)
    · exact .inl h
    · exact .inr (.inl h)
    · exact .inr (.inr (.inl h))
    · exact .inr (.inr (.inr ⟨_, ht, hin⟩))
  · rintro (h | h | h | ⟨text, ht, hin⟩)
    · exact .name h
    · exact .label h
    · exact .kind h
    · exact .template ht hin

/-- What points say about a definition. -/
structure Scored (query : String) (d : Definition) (points : Nat) : Prop where
  matches_iff : 0 < points ↔ Matches query d
  named_iff : 100 ≤ points ↔ Named query d
  labelled_iff : 50 ≤ points ↔ Named query d ∨ Labelled query d

theorem containsText_iff {text piece : String} :
    containsText text piece = true ↔ piece.toList <:+: text.toList := Text.occurs_iff

theorem exists_anyTemplate (query : String) {vs : List Json} (h : ∀ v ∈ vs, v.IsText) :
    ∃ any, anyTemplate query vs = .ok any ∧
      (any = true ↔ ∃ text, .str text ∈ vs ∧ query.toList <:+: (lower text).toList) := by
  induction vs with
  | nil => exact ⟨false, rfl, by simp⟩
  | cons v vs ih =>
    obtain ⟨hv, hvs⟩ := List.forall_mem_cons.1 h
    obtain ⟨any, hany, hiff⟩ := ih hvs
    obtain ⟨t, rfl⟩ := hv
    by_cases hin : containsText (lower t) query = true
    · refine ⟨true, by rw [anyTemplate, if_pos hin], iff_of_true rfl ?_⟩
      exact ⟨t, List.mem_cons_self .., containsText_iff.1 hin⟩
    · refine ⟨any, by rw [anyTemplate, if_neg hin, hany], ?_⟩
      rw [containsText_iff] at hin
      simp [hiff, or_and_right, exists_or, hin]

/-- A definition whose templates are texts has a score. -/
theorem exists_score (query : String) (h : d.templates.allTexts = true) :
    ∃ points, score (lower query) d = .ok points ∧ Scored query d points := by
  obtain ⟨any, hany, hiff⟩ := exists_anyTemplate (lower query) (Templates.allTexts_iff.1 h)
  refine ⟨_, by rw [score, hany]; rfl, ?_⟩
  have hlabel : containsText (lower d.label) (lower query) = true ↔ Labelled query d :=
    containsText_iff
  have hname : Named query d ↔ lower d.displayName = lower query := Iff.rfl
  constructor
  · rw [matches_iff, ← hiff, ← hlabel, hname]
    grind
  · rw [hname]
    grind
  · rw [hname, ← hlabel]
    grind

/-! ## What is listed -/

/-- The points of a definition, none if it cannot be asked. -/
def points (query : String) (d : Definition) : Nat := (score (lower query) d).toOption.getD 0

theorem score_eq_points (query : String) (h : d.templates.allTexts = true) :
    score (lower query) d = .ok (points query d) := by
  obtain ⟨n, hn, -⟩ := exists_score query h
  rw [points, hn]
  rfl

theorem scored_points (query : String) (h : d.templates.allTexts = true) :
    Scored query d (points query d) := by
  obtain ⟨n, hn, hscored⟩ := exists_score query h
  rwa [points, hn]

/-- A definition with its place in the palette. -/
abbrev Hit := Definition × Nat

/-- What a search lists. -/
structure Ranked (query : String) (p : Palette) (hits : List Hit) : Prop where
  /-- What matches is listed, and nothing else. -/
  mem_iff : ∀ {d i}, (d, i) ∈ hits ↔ p[i]? = some d ∧ Matches query d
  /-- No place is listed twice. -/
  places_nodup : (hits.map Prod.snd).Nodup
  /-- Those whose name is the query come first, and the others whose label contains it come
  before the rest. -/
  tiers : hits.Pairwise fun a b => (Named query b.1 → Named query a.1) ∧
    (Labelled query b.1 → Named query a.1 ∨ Labelled query a.1)
  /-- Those of one score are in the order of the palette. -/
  stable : ∀ n, hits.Pairwise fun a b =>
    score (lower query) a.1 = .ok n → score (lower query) b.1 = .ok n → a.2 < b.2

/-- The definitions that match, with their places, in the order in which they are listed. -/
def hits (query : String) (p : Palette) : List Hit :=
  (p.zipIdx.filter fun h => 0 < points query h.1).mergeSort
    fun a b => points query b.1 ≤ points query a.1

theorem mem_hits_iff (h : ∀ d ∈ p, d.templates.allTexts = true) {i : Nat} :
    (d, i) ∈ hits query p ↔ p[i]? = some d ∧ Matches query d := by
  rw [hits, (List.mergeSort_perm _ _).mem_iff, List.mem_filter, List.mem_zipIdx_iff_getElem?]
  refine and_congr_right fun hd => ?_
  rw [decide_eq_true_eq]
  exact (scored_points query (h d (List.mem_of_getElem? hd))).matches_iff

/-- The scores of what is listed fall, and hits of one score are in the order of the palette. -/
theorem falling_hits (query : String) (p : Palette) :
    ((hits query p).Pairwise fun a b => points query b.1 ≤ points query a.1) ∧
      ∀ n, (hits query p).Pairwise fun a b =>
        points query a.1 = n → points query b.1 = n → a.2 < b.2 := by
  have htrans (a b c : Hit) : decide (points query b.1 ≤ points query a.1) = true →
      decide (points query c.1 ≤ points query b.1) = true →
      decide (points query c.1 ≤ points query a.1) = true := by
    simp only [decide_eq_true_eq]
    omega
  have htotal (a b : Hit) : (decide (points query b.1 ≤ points query a.1) ||
      decide (points query a.1 ≤ points query b.1)) = true := by
    simp only [Bool.or_eq_true, decide_eq_true_eq]
    omega
  constructor
  · refine (List.pairwise_mergeSort htrans htotal _).imp fun h => ?_
    exact of_decide_eq_true h
  · intro n
    let found := p.zipIdx.filter fun h => 0 < points query h.1
    have hplaces : (found.filter fun h => points query h.1 = n).Pairwise fun a b => a.2 < b.2 := by
      refine List.Pairwise.filter _ (List.Pairwise.filter _ (List.pairwise_map.1 ?_))
      rw [List.zipIdx_map_snd]
      exact List.pairwise_lt_range'
    have htied : (found.filter fun h => points query h.1 = n).Pairwise fun a b =>
        decide (points query b.1 ≤ points query a.1) = true := by
      refine List.pairwise_of_forall_mem_list fun a ha b hb => ?_
      simp only [List.mem_filter, decide_eq_true_eq] at ha hb ⊢
      exact (hb.2.trans ha.2.symm).le
    rw [← filter_mergeSort htrans htotal htied, List.pairwise_filter] at hplaces
    exact hplaces.imp fun h ha hb => h (decide_eq_true ha) (decide_eq_true hb)

theorem ranked_hits (query : String) (h : ∀ d ∈ p, d.templates.allTexts = true) :
    Ranked query p (hits query p) := by
  obtain ⟨hfall, htied⟩ := falling_hits query p
  have htexts {a : Hit} (ha : a ∈ hits query p) : a.1.templates.allTexts = true :=
    h a.1 (List.mem_of_getElem? ((mem_hits_iff h).1 ha).1)
  constructor
  · exact mem_hits_iff h
  · refine ((List.mergeSort_perm _ _).map Prod.snd).nodup_iff.2 ?_
    exact (List.nodup_zipIdx_map_snd p).sublist (List.filter_sublist.map Prod.snd)
  · refine hfall.imp_of_mem fun {a b} ha hb hle => ?_
    have hsa := scored_points query (htexts ha)
    have hsb := scored_points query (htexts hb)
    constructor
    · intro hn
      exact hsa.named_iff.1 ((hsb.named_iff.2 hn).trans hle)
    · intro hl
      exact hsa.labelled_iff.1 ((hsb.labelled_iff.2 (.inr hl)).trans hle)
  · refine fun n => (htied n).imp_of_mem fun {a b} ha hb hlt hna hnb => hlt ?_ ?_
    · rw [score_eq_points query (htexts ha)] at hna
      exact Except.ok.inj hna
    · rw [score_eq_points query (htexts hb)] at hnb
      exact Except.ok.inj hnb

theorem search_eq_hits (h : ∀ d ∈ p, d.templates.allTexts = true) (hq : strip query ≠ "")
    (k : Nat) :
    p.search query k = .ok (((hits query p).map Prod.fst).take k) := by
  have hscored : (p.mapM fun d => do return (← Definition.lift (score (lower query) d), d)) =
      .ok (p.map fun d => (points query d, d)) := by
    refine mapM_eq_map fun d hd => ?_
    rw [score_eq_points query (h d hd)]
    rfl
  have hfound : ((p.map fun d => (points query d, d)).filter fun s => 0 < s.1) =
      (p.zipIdx.filter fun h => 0 < points query h.1).map fun h => (points query h.1, h.1) := by
    nth_rewrite 1 [← List.zipIdx_map_fst 0 p]
    rw [List.map_map, List.filter_map]
    rfl
  rw [search, if_neg hq, hscored]
  change Except.ok _ = _
  rw [hfound, ← List.map_mergeSort
    (r := fun a b : Hit => decide (points query b.1 ≤ points query a.1)) fun _ _ _ _ => rfl,
    List.map_map]
  rfl

/-- For a query that is not blank a search lists what matches, tier by tier, and a limit cuts the
list. -/
theorem search_ranked (h : ∀ d ∈ p, d.templates.allTexts = true) (hq : strip query ≠ "") :
    ∃ hits : List Hit, Ranked query p hits ∧
      ∀ k : Nat, p.search query k = .ok ((hits.map Prod.fst).take k) :=
  ⟨hits query p, ranked_hits query h, search_eq_hits h hq⟩

/-- Of these, the last one is nothing that a search for a box finds. -/
def samplePalette : Palette := [
  { label := "draw", templates := ⟨[(.str "c", .str "box();")]⟩ },
  { label := "a box" },
  { label := "Box" },
  { label := "circle" }]

theorem search_ranked_sample :
    (∀ d ∈ samplePalette, d.templates.allTexts = true) ∧ strip "BOX" ≠ "" ∧
    ∃ hits : List Hit, Ranked "BOX" samplePalette hits ∧
      (∀ k : Nat, samplePalette.search "BOX" k = .ok ((hits.map Prod.fst).take k)) ∧
      ({ label := "Box" }, 2) ∈ hits ∧ ({ label := "circle" }, 3) ∉ hits := by
  have htexts : ∀ d ∈ samplePalette, d.templates.allTexts = true := by decide +kernel
  have hq : strip "BOX" ≠ "" := by decide +kernel
  obtain ⟨hits, hranked, hsearch⟩ := search_ranked htexts hq
  have hcircle : ¬ Matches "BOX" { label := "circle" } := by
    have hscored := scored_points "BOX" (htexts { label := "circle" } (by simp [samplePalette]))
    rw [← hscored.matches_iff]
    decide +kernel
  refine ⟨htexts, hq, hits, hranked, hsearch, ?_, ?_⟩
  · exact hranked.mem_iff.2 ⟨rfl, .name (by unfold Named; decide +kernel)⟩
  · exact fun h => hcircle (hranked.mem_iff.1 h).2

end Palette

end Blockwork
