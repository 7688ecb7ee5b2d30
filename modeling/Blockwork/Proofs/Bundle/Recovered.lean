import Blockwork.Proofs.Bundle.Relink

/-!
# What is recovered from records

Records may list anything: blocks that are not there, one block twice or in two
places, blocks within themselves, inputs that do not exist.  What is recovered from
them is well formed all the same, and it is as much as could be recovered.

Every edge is one that the record of its holder lists, and a body keeps the order of
its list.  Of the references that claim a block, the first that is admissible when
its turn comes gets it.  No reference is left that could still be attached.
-/

namespace Blockwork.Bundle

variable {r s t made : Registry} {items : List Json} {refs : List Reference} {x : BlockId}
variable {place : Parent}

/-! ## What records list -/

/-- The blocks that a record lists in its body. -/
def recordedBody (members : Members) : List BlockId :=
  match Json.member members "nestedChildIds" with
  | .arr items => items.map Json.display
  | _ => []

/-- A record lists a block over one of its inputs. -/
def RecordsInput (members : Members) (slot : String) (child : BlockId) : Prop :=
  ∃ inputs state v, Json.member members "inputs" = .obj inputs ∧ (slot, .obj state) ∈ inputs ∧
    Json.member state "childId" = v ∧ v ≠ .null ∧ v.display = child

/-- The record of the holder lists a block in a place. -/
def Recorded (items : List Json) : Parent → BlockId → Prop
  | .none, _ => False
  | .container id, child =>
      ∃ members, .obj members ∈ items ∧ recordId members = id ∧ child ∈ recordedBody members
  | .input id slot, child =>
      ∃ members, .obj members ∈ items ∧ recordId members = id ∧ RecordsInput members slot child

theorem nestedOf_map_display (v : Json) : ((nestedOf v).getD []).map Json.display =
    match v with
    | .arr items => items.map Json.display
    | _ => [] := by
  cases v with
  | arr items => cases items <;> simp [nestedOf, Json.isTruthy]
  | _ => simp only [nestedOf]; split <;> rfl

/-- The reference in the entry of an input. -/
def inputReference? (id : BlockId) (entry : String × Json) : Option Reference :=
  match entry.2 with
  | .obj state =>
      match Json.member state "childId" with
      | .null => none
      | child => some ⟨child.display, id, some entry.1⟩
  | _ => none

/-- The entries that a record has for inputs. -/
def recordedInputs (members : Members) : Members :=
  match Json.member members "inputs" with
  | .obj inputs => inputs
  | _ => []

theorem references_eq (members : Members) : references members =
    (recordedBody members).map (⟨·, recordId members, none⟩) ++
      (recordedInputs members).filterMap (inputReference? (recordId members)) := by
  have hbody : recordedBody members =
      ((nestedOf (Json.member members "nestedChildIds")).getD []).map Json.display :=
    (nestedOf_map_display _).symm
  rw [references, hbody, List.map_map, recordedInputs]
  refine congrArg₂ _ rfl ?_
  cases Json.member members "inputs" <;> rfl

theorem inputReference?_eq_some_iff {id : BlockId} {name : String} {v : Json} {e : Reference} :
    inputReference? id (name, v) = some e ↔
      ∃ state c, v = .obj state ∧ Json.member state "childId" = c ∧ c ≠ .null ∧
        e = ⟨c.display, id, some name⟩ := by
  unfold inputReference?
  cases v with
  | obj state =>
    simp only [Json.obj.injEq]
    split
    · next hn =>
      refine ⟨nofun, ?_⟩
      rintro ⟨_, c, rfl, hc, hne, -⟩
      exact absurd (hc.symm.trans hn) hne
    · next hne =>
      constructor
      · intro h
        exact ⟨state, _, rfl, rfl, hne, (Option.some.inj h).symm⟩
      · rintro ⟨_, c, rfl, rfl, -, rfl⟩
        rfl
  | _ => simp

/-- A reference is to a block that the record lists in its body or over an input. -/
theorem mem_references_iff {members : Members} {e : Reference} :
    e ∈ references members ↔ e.parent = recordId members ∧
      ((e.slot = none ∧ e.child ∈ recordedBody members) ∨
        ∃ slot, e.slot = some slot ∧ RecordsInput members slot e.child) := by
  obtain ⟨child, parent, slot⟩ := e
  rw [references_eq, List.mem_append, List.mem_map, List.mem_filterMap]
  constructor
  · rintro (⟨c, hc, he⟩ | ⟨⟨name, v⟩, hm, he⟩)
    · cases he
      exact ⟨rfl, .inl ⟨rfl, hc⟩⟩
    · obtain ⟨state, c, rfl, hc, hne, he⟩ := inputReference?_eq_some_iff.1 he
      cases he
      refine ⟨rfl, .inr ⟨name, rfl, ?_⟩⟩
      unfold recordedInputs at hm
      split at hm
      · next inputs hi => exact ⟨inputs, state, c, hi, hm, hc, hne, rfl⟩
      · cases hm
  · rintro ⟨rfl, ⟨rfl, hc⟩ | ⟨name, rfl, inputs, state, c, hi, hm, hc, hne, rfl⟩⟩
    · exact .inl ⟨child, hc, rfl⟩
    · refine .inr ⟨(name, .obj state), ?_, ?_⟩
      · rw [recordedInputs, hi]
        exact hm
      · exact inputReference?_eq_some_iff.2 ⟨state, c, rfl, hc, hne, rfl⟩

/-! ## The records of a list -/

variable {records : List Members}

theorem allReferences_map (records : List Members) :
    allReferences (records.map .obj) = records.flatMap references := by
  rw [allReferences, List.flatMap_map]

@[simp] theorem bodyOf_append (id : BlockId) (refs refs' : List Reference) :
    bodyOf id (refs ++ refs') = bodyOf id refs ++ bodyOf id refs' := by
  simp [bodyOf]

theorem bodyOf_references (id : BlockId) (members : Members) :
    bodyOf id (references members) =
      if recordId members = id then recordedBody members else [] := by
  have hinputs : bodyOf id ((recordedInputs members).filterMap
      (inputReference? (recordId members))) = [] := by
    rw [bodyOf, List.map_eq_nil_iff, List.filter_eq_nil_iff]
    intro e he
    obtain ⟨⟨name, v⟩, -, he⟩ := List.mem_filterMap.1 he
    obtain ⟨state, c, -, -, -, rfl⟩ := inputReference?_eq_some_iff.1 he
    simp [Reference.place]
  rw [references_eq, bodyOf_append, hinputs, List.append_nil, bodyOf]
  split
  · next h =>
    rw [List.filter_eq_self.2, List.map_map]
    · exact List.map_id _
    · intro e he
      obtain ⟨c, -, rfl⟩ := List.mem_map.1 he
      simp [Reference.place, h]
  · next h =>
    rw [List.filter_eq_nil_iff.2, List.map_nil]
    intro e he
    obtain ⟨c, -, rfl⟩ := List.mem_map.1 he
    simp [Reference.place, h]

/-- Only the record of a block puts anything into its body. -/
theorem bodyOf_flatMap {members : Members} (hn : (records.map recordId).Nodup)
    (hm : members ∈ records) :
    bodyOf (recordId members) (records.flatMap references) = recordedBody members := by
  induction records with
  | nil => cases hm
  | cons first rest ih =>
    obtain ⟨hne, hrest⟩ := List.nodup_cons.1 hn
    rw [List.flatMap_cons, bodyOf_append, bodyOf_references]
    rcases List.mem_cons.1 hm with rfl | hm
    · have hnone : bodyOf (recordId members) (rest.flatMap references) = [] := by
        rw [bodyOf, List.map_eq_nil_iff, List.filter_eq_nil_iff]
        intro e he
        obtain ⟨other, ho, he⟩ := List.mem_flatMap.1 he
        have hp : e.parent ≠ recordId members := by
          rw [(mem_references_iff.1 he).1]
          exact fun h => hne (h ▸ List.mem_map_of_mem ho)
        cases hs : e.slot <;> simp [Reference.place, hs, hp]
      rw [if_pos rfl, hnone, List.append_nil]
    · rw [if_neg, List.nil_append]
      · exact ih hrest hm
      · exact fun h => hne (h ▸ List.mem_map_of_mem hm)

/-- What is recorded is what is referred to. -/
theorem recorded_iff : Recorded items place x ↔
    ∃ e ∈ allReferences items, e.place = place ∧ e.child = x := by
  constructor
  · intro h
    cases place with
    | none => exact h.elim
    | container id =>
      obtain ⟨members, hm, rfl, hx⟩ := h
      exact ⟨⟨x, _, none⟩, List.mem_flatMap.2 ⟨_, hm, mem_references_iff.2 ⟨rfl, .inl ⟨rfl, hx⟩⟩⟩,
        rfl, rfl⟩
    | input id slot =>
      obtain ⟨members, hm, rfl, hx⟩ := h
      exact ⟨⟨x, _, some slot⟩,
        List.mem_flatMap.2 ⟨_, hm, mem_references_iff.2 ⟨rfl, .inr ⟨slot, rfl, hx⟩⟩⟩, rfl, rfl⟩
  · rintro ⟨e, he, rfl, rfl⟩
    obtain ⟨item, hm, he⟩ := List.mem_flatMap.1 he
    cases item with
    | obj members =>
      obtain ⟨hp, ⟨hs, hc⟩ | ⟨slot, hs, hc⟩⟩ := mem_references_iff.1 he
      · rw [Reference.place, hs]
        exact ⟨members, hm, hp.symm, hc⟩
      · rw [Reference.place, hs]
        exact ⟨members, hm, hp.symm, hc⟩
    | _ => cases he

/-- A run along the references of records leaves bodies that are parts of the recorded
ones. -/
theorem Relinked.sublist (h : Relinked (allReferences (records.map .obj)) made r) (hl : made.Loose)
    (hids : made.ids = records.map recordId) {id : BlockId} {b : Block} (hb : r.get? id = some b) :
    ∃ members ∈ records, recordId members = id ∧ b.nested.Sublist (recordedBody members) := by
  have hlive : id ∈ made.ids := by
    rw [← h.ids, Registry.mem_ids_iff]
    exact Registry.contains_of_get? hb
  obtain ⟨b₀, hb₀⟩ := Registry.contains_iff.1 (Registry.mem_ids_iff.1 hlive)
  rw [hids] at hlive
  obtain ⟨members, hm, rfl⟩ := List.mem_map.1 hlive
  obtain ⟨c, added, hc, hn, hs⟩ := h.nested hb₀
  cases hb.symm.trans hc
  have hnodup : (records.map recordId).Nodup := hids ▸ made.nodup
  refine ⟨members, hm, rfl, ?_⟩
  rw [hn, (hl hb₀).2.nested, List.nil_append, ← bodyOf_flatMap hnodup hm, ← allReferences_map]
  exact hs

/-! ## The first claim -/

/-- The blocks when relinking has come through some of the references. -/
def RelinkedUpTo (items : List Json) (done : List Reference) (s : Registry) : Prop :=
  ∃ made, makeBlocks .empty 0 items = .ok made ∧ done.foldlM relink made = .ok s

/-- A place is what the first reference claims for a block that can be attached when
its turn comes.  The references before it that claim the block could not be. -/
def FirstClaim (items : List Json) (x : BlockId) (place : Parent) : Prop :=
  ∃ done e rest s s', allReferences items = done ++ e :: rest ∧ e.child = x ∧ e.place = place ∧
    RelinkedUpTo items done s ∧ attach s e = .ok s' ∧
    ∀ earlier f later t, done = earlier ++ f :: later → f.child = x →
      RelinkedUpTo items earlier t → ∃ fault, attach t f = .error fault

theorem run_append_iff {refs' : List Reference} :
    (refs ++ refs').foldlM relink r = .ok t ↔
      ∃ s, refs.foldlM relink r = .ok s ∧ refs'.foldlM relink s = .ok t := by
  rw [List.foldlM_append, except_bind_eq_ok]

theorem run_cons_iff {e : Reference} :
    (e :: refs).foldlM relink r = .ok t ↔
      ∃ s, relink r e = .ok s ∧ refs.foldlM relink s = .ok t := by
  rw [List.foldlM_cons, except_bind_eq_ok]

/-- A reference that is attached in the course of a run gives the block its parent in
the end. -/
theorem parent?_of_attached {done rest : List Reference} {e : Reference} {s' : Registry}
    (wf : made.WellFormed) (hs : done.foldlM relink made = .ok s) (ha : attach s e = .ok s')
    (h : (done ++ e :: rest).foldlM relink made = .ok r) : r.parent? e.child = some e.place := by
  obtain ⟨hadmits, -⟩ := attach_ok_iff.1 ha
  obtain ⟨s₁, hs₁, hrest⟩ := run_append_iff.1 h
  cases hs.symm.trans hs₁
  obtain ⟨s₂, hs₂, hrest⟩ := run_cons_iff.1 hrest
  have hwf := (relinked_of_run wf hs).wellFormed
  rcases relink_ok hs₂ with ⟨-, rfl⟩ | ⟨hn, -⟩
  · refine (relinked_of_run (hwf.link hadmits) hrest).kept ?_ hadmits.ne_none
    simp [hadmits.ne_none, hadmits.live]
  · exact absurd hadmits hn

/-- A block that gets a parent in the course of a run gets it from a reference. -/
theorem exists_attached (wf : r.WellFormed) (h : refs.foldlM relink r = .ok s)
    (hfree : r.parent? x = some .none) (hp : s.parent? x = some place) (hne : place ≠ .none) :
    ∃ done e rest t, refs = done ++ e :: rest ∧ done.foldlM relink r = .ok t ∧
      t.Admits e.child e.place ∧ e.child = x ∧ e.place = place := by
  induction refs generalizing r with
  | nil =>
    cases h
    exact absurd (Option.some.inj (hp.symm.trans hfree)) hne
  | cons e refs ih =>
    obtain ⟨r₁, h₁, h⟩ := run_cons_iff.1 h
    have hlater (hwf : r₁.WellFormed) (hfree : r₁.parent? x = some .none) :
        ∃ done f rest t, e :: refs = done ++ f :: rest ∧ done.foldlM relink r = .ok t ∧
          t.Admits f.child f.place ∧ f.child = x ∧ f.place = place := by
      obtain ⟨done, f, rest, t, rfl, ht, hf⟩ := ih hwf h hfree
      exact ⟨e :: done, f, rest, t, rfl, run_cons_iff.2 ⟨r₁, h₁, ht⟩, hf⟩
    rcases relink_ok h₁ with ⟨ha, rfl⟩ | ⟨-, rfl⟩
    · have hparent := Registry.parent?_link (x := x) ha.ne_none ha.live
      by_cases hx : x = e.child
      · rw [if_pos hx] at hparent
        have hplace := (relinked_of_run (wf.link ha) h).kept hparent ha.ne_none
        exact ⟨[], e, refs, r, rfl, rfl, ha, hx.symm,
          Option.some.inj (hplace.symm.trans hp)⟩
      · rw [if_neg hx] at hparent
        exact hlater (wf.link ha) (hparent.trans hfree)
    · exact hlater wf hfree

theorem parent?_iff_firstClaim (hm : makeBlocks .empty 0 items = .ok made) (hl : made.Loose)
    (h : (allReferences items).foldlM relink made = .ok r) (hne : place ≠ .none) :
    r.parent? x = some place ↔ FirstClaim items x place := by
  have wf := hl.wellFormed
  have hids := (relinked_of_run wf h).ids
  constructor
  · intro hp
    have hlive : made.contains x = true := by
      rw [← Registry.mem_ids_iff, ← hids, Registry.mem_ids_iff]
      exact Registry.contains_of_parent? hp
    obtain ⟨done, e, rest, s, hrefs, hs, ha, rfl, rfl⟩ :=
      exists_attached wf h (hl.parent? hlive) hp hne
    refine ⟨done, e, rest, s, _, hrefs, rfl, rfl, ⟨made, hm, hs⟩, attach_ok_iff.2 ⟨ha, rfl⟩, ?_⟩
    rintro earlier f later t rfl hf ⟨made', hm', ht⟩
    cases hm.symm.trans hm'
    cases hatt : attach t f with
    | error fault => exact ⟨fault, rfl⟩
    | ok t' =>
      -- then the block would have had a parent when the turn came to `e`
      have hparent := parent?_of_attached wf ht hatt hs
      rw [hf, ha.free] at hparent
      exact absurd (Option.some.inj hparent).symm (attach_ok_iff.1 hatt).1.ne_none
  · rintro ⟨done, e, rest, s, s', hrefs, rfl, rfl, ⟨made', hm', hs⟩, ha, -⟩
    cases hm.symm.trans hm'
    rw [hrefs] at h
    exact parent?_of_attached wf hs ha h

/-! ## What is recovered -/

/-- What is recovered from a list of records. -/
structure Recovered (items : List Json) (r : Registry) : Prop where
  /-- The edges make a forest that obeys the rules of kinds. -/
  wellFormed : r.WellFormed
  /-- Every edge is one that the record of its holder lists. -/
  recorded : ∀ {place x}, r.Holds place x → Recorded items place x
  /-- A body is part of the list that the record of its block has, in its order. -/
  nested : ∀ {id b}, r.get? id = some b →
    ∃ members, .obj members ∈ items ∧ recordId members = id ∧
      b.nested.Sublist (recordedBody members)
  /-- A block is where the first admissible claim puts it, and without such a claim
  at the top level. -/
  parent?_iff : ∀ {x place}, place ≠ .none →
    (r.parent? x = some place ↔ FirstClaim items x place)
  /-- No recorded edge between live blocks can still be attached. -/
  maximal : ∀ e ∈ allReferences items, r.contains e.child = true → r.contains e.parent = true →
    ∃ cause, attach r e = .error (.attach cause)

/-- A list is read if its blocks are made and all children have texts.  Then the blocks are
relinked. -/
theorem registryOf_ok_iff : registryOf (.arr items) = .ok r ↔
    ∃ made, makeBlocks .empty 0 items = .ok made ∧
      (∀ v ∈ allChildValues items, v.isWritable = true) ∧
      (allReferences items).foldlM relink made = .ok r := by
  rw [registryOf, except_bind_eq_ok]
  refine exists_congr fun made => and_congr_right fun _ => ?_
  rw [except_bind_eq_ok, ← demandTexts_ok_iff]
  exact ⟨fun ⟨_, htexts, h⟩ => ⟨htexts, h⟩, fun ⟨htexts, h⟩ => ⟨(), htexts, h⟩⟩

/-- Reading a list makes the blocks of its records and runs along its references. -/
theorem run_of_registryOf (h : registryOf (.arr items) = .ok r) :
    ∃ (made : Registry) (records : List Members),
      makeBlocks .empty 0 items = .ok made ∧ made.Loose ∧ items = records.map .obj ∧
      made.ids = records.map recordId ∧ (allReferences items).foldlM relink made = .ok r ∧
      Relinked (allReferences items) made r := by
  obtain ⟨made, hm, -, hrun⟩ := registryOf_ok_iff.1 h
  obtain ⟨hl, records, hitems, hids⟩ := makeBlocks_ok hm Registry.loose_empty
  exact ⟨made, records, hm, hl, hitems, hids.trans (List.nil_append _), hrun,
    relinked_of_run hl.wellFormed hrun⟩

/-- What is read is well formed. -/
theorem wellFormed_of_registryOf {v : Json} (h : registryOf v = .ok r) : r.WellFormed := by
  cases v with
  | arr items =>
    obtain ⟨made, records, -, -, -, -, -, hrel⟩ := run_of_registryOf h
    exact hrel.wellFormed
  | _ => cases h

/-- The blocks that are read have names for their body placeholders. -/
theorem bodiesNamed_of_registryOf {v : Json} (h : registryOf v = .ok r) : r.BodiesNamed := by
  cases v with
  | arr items =>
    obtain ⟨made, records, hm, -, -, -, -, hrel⟩ := run_of_registryOf h
    have hmade : made.BodiesNamed := bodiesNamed_makeBlocks hm Registry.bodiesNamed_empty
    refine hmade.of_get? fun {x c} hc => ?_
    have hshell : (r.get? x).map Block.shell = (made.get? x).map Block.shell := by
      rw [← Registry.get?_mapBlocks, hrel.shell, Registry.get?_mapBlocks]
    rw [hc] at hshell
    obtain ⟨b, hb, heq⟩ := Option.map_eq_some_iff.1 hshell.symm
    exact ⟨b, hb, congrArg (fun b => b.kind) heq.symm,
      congrArg (fun b => b.containerVar) heq.symm⟩
  | _ => cases h

/-- A part of a bundle that is there has been read. -/
theorem part_eq_some {α : Type} {members : Members} {name : String}
    {read : Json → Except Fault α} {a : α} (h : part members name read = .ok (some a)) :
    read (Json.member members name) = .ok a := by
  unfold part at h
  split at h
  · cases h
  · cases hr : read (Json.member members name) with
    | error f =>
      rw [hr] at h
      cases h
    | ok b =>
      rw [hr] at h
      cases h
      rfl

theorem registry_of_readValue {v : Json} {contents : Contents} (h : readValue v = .ok contents)
    (hr : contents.registry = some r) : ∃ v, registryOf v = .ok r := by
  cases v with
  | obj members =>
    obtain ⟨definitions, -, h⟩ := except_bind_eq_ok.1 h
    obtain ⟨registry, hreg, h⟩ := except_bind_eq_ok.1 h
    obtain ⟨code, -, h⟩ := except_bind_eq_ok.1 h
    dsimp only at h
    split at h
    · cases h
    · cases h
      cases hr
      exact ⟨_, part_eq_some hreg⟩
  | _ => cases h

theorem registry_of_read {v : Json} {contents : Contents} (h : read v = .ok contents)
    (hr : contents.registry = some r) : ∃ v, registryOf v = .ok r := by
  have hread : ∃ v, readValue v = .ok contents := by
    unfold read at h
    split at h
    · split at h
      · exact ⟨_, h⟩
      · cases h
    · exact ⟨_, h⟩
  obtain ⟨v, hv⟩ := hread
  exact registry_of_readValue hv hr

/-- The blocks of a bundle that is read are well formed. -/
theorem wellFormed_of_read {v : Json} {contents : Contents} (h : read v = .ok contents)
    (hr : contents.registry = some r) : r.WellFormed := by
  obtain ⟨v, hv⟩ := registry_of_read h hr
  exact wellFormed_of_registryOf hv

theorem bodiesNamed_of_read {v : Json} {contents : Contents} (h : read v = .ok contents)
    (hr : contents.registry = some r) : r.BodiesNamed := by
  obtain ⟨v, hv⟩ := registry_of_read h hr
  exact bodiesNamed_of_registryOf hv

/-- Whatever records a list has, if it is read at all, as much is recovered from it as
the rules allow. -/
theorem recovered_of_registryOf (h : registryOf (.arr items) = .ok r) : Recovered items r := by
  obtain ⟨made, records, hm, hl, rfl, hrecords, hrun, hrel⟩ := run_of_registryOf h
  exact {
    wellFormed := hrel.wellFormed
    recorded := fun {place x} hh =>
      recorded_iff.2 ((hrel.holds hh).resolve_left (hl.not_holds place x))
    nested := fun {id b} hb => by
      obtain ⟨members, hm, hid, hs⟩ := hrel.sublist hl hrecords hb
      exact ⟨members, List.mem_map_of_mem hm, hid, hs⟩
    parent?_iff := parent?_iff_firstClaim hm hl hrun
    maximal := fun e he hc hp => attach_refused hc hp (hrel.maximal e he) }

/-- A record with an id, a kind and a list for the body. -/
def briefRecord (id kind : String) (body : List String) : Json :=
  .obj [("id", .str id), ("label", .str "%x"), ("kind", .str kind),
    ("nestedChildIds", .arr (body.map .str))]

/-- Two containers that claim the same block, and each other. -/
def tangledRecords : List Json :=
  [briefRecord "a" "container" ["a", "b", "c", "b", "d"], briefRecord "b" "container" ["c", "a"],
    briefRecord "c" "command" ["b"]]

theorem recovered_of_tangledRecords : ∃ r, registryOf (.arr tangledRecords) = .ok r ∧
    Recovered tangledRecords r ∧ r.parent? "c" = some (.container "a") :=
  ⟨_, rfl, recovered_of_registryOf rfl, rfl⟩

end Blockwork.Bundle
