import Blockwork.Proofs.Bundle.RecordBreaks
import Blockwork.Proofs.Bundle.SnapshotText

/-!
# What breaks the reading of a bundle

A bundle is read, or it is refused with a fault of the payload, or the reading breaks down.
It breaks down where a value is taken as it is.  The templates of a definition may be no
templates at all, since a definition does not check them before it takes them.  A coordinate
of a block may be a number beyond the doubles, since only values that are no numbers count as
an invalid position.  The templates of a block with a body may not be texts, when the name of
the body placeholder has to be found in them.  And a value may have no text where its text is
asked for, because of a whole number that is too long: a label, a colour, a kind that a
message is to name, an id, a literal, a child, or the code and its language.

`Breaks` lists these places, each with what has to be in order before it is reached, and
`BreaksBy` says of a step that it breaks down in certain ways and is otherwise refused by a
fault of the payload.  It goes along sequences.  The list of definitions and the list of
records break down at the first item that does, behind items that can be read.  Relinking
never fails.  A `Proper` bundle that has a text has nothing at these places that could break.
-/

namespace Blockwork.Bundle

variable {α : Type}

/-- The payload breaks down its reading.  What comes before can be read. -/
inductive Breaks (payload : Json) : Breakdown → Prop
  | definition {members : Members} {before after : List Json} {v : Json} {e : Breakdown} :
      payloadMembers? payload = some members →
      Json.member members "definitions" = .arr (before ++ v :: after) →
      (∀ w ∈ before, ∃ d, Definition.ofJson w = .ok d) → DefinitionBreaks v e → Breaks payload e
  | block {members : Members} {before after : List Json} {v : Json} {r : Registry}
      {e : Breakdown} :
      payloadMembers? payload = some members →
      (∃ definitions, part members "definitions" definitionsOf = .ok definitions) →
      Json.member members "instances" = .arr (before ++ v :: after) →
      makeBlocks .empty 0 before = .ok r → BlockBreaks r v e → Breaks payload e
  /-- All blocks are made, and a child has no text. -/
  | child {members : Members} {items : List Json} {v : Json} :
      payloadMembers? payload = some members →
      (∃ definitions, part members "definitions" definitionsOf = .ok definitions) →
      Json.member members "instances" = .arr items →
      (∃ made, makeBlocks .empty 0 items = .ok made) →
      v ∈ allChildValues items → v.isWritable = false → Breaks payload .badValue
  /-- There are code and a language, and one of them has no text. -/
  | code {members : Members} {language v : Json} :
      payloadMembers? payload = some members →
      (∃ definitions, part members "definitions" definitionsOf = .ok definitions) →
      (∃ registry, part members "instances" registryOf = .ok registry) →
      Json.member members "code" ≠ .null →
      (Json.member members "language").given? = some language →
      v ∈ [Json.member members "code", language] → v.isWritable = false →
      Breaks payload .badValue

/-! ## Bundles -/

section Bundles

variable {members : Members} {payload : Json}

theorem breaksBy_definitionsOf (v : Json) :
    BreaksBy (definitionsOf v) fun e => ∃ before w after, v = .arr (before ++ w :: after) ∧
      (∀ x ∈ before, ∃ d, Definition.ofJson x = .ok d) ∧ DefinitionBreaks w e := by
  cases v with
  | arr items => exact (breaksBy_readDefinitions items 0).congr fun e => by simp
  | _ => exact sturdy_of_not (.payload _) fun e ⟨_, _, _, h, _⟩ => by cases h

/-- When the blocks have been made and the children have texts, nothing that the records refer
to can fail. -/
theorem breaksBy_registryOf (v : Json) :
    BreaksBy (registryOf v) fun e => (∃ before w after, v = .arr (before ++ w :: after) ∧
      ∃ made, makeBlocks .empty 0 before = .ok made ∧ BlockBreaks made w e) ∨
      ∃ items, v = .arr items ∧ (∃ made, makeBlocks .empty 0 items = .ok made) ∧
        Unwritten (allChildValues items) e := by
  cases v with
  | arr items =>
    refine ((breaksBy_makeBlocks items .empty 0).bind fun made hmade =>
      (breaksBy_demandTexts (allChildValues items)).bind_of_sturdy fun _ htexts => ?_).congr
        fun e => by simp
    obtain ⟨r, hr⟩ := exists_registryOf hmade (demandTexts_ok_iff.1 htexts)
    obtain ⟨made', hmade', -, hrun⟩ := registryOf_ok_iff.1 hr
    cases hmade.symm.trans hmade'
    rw [hrun]
    exact .ok r
  | _ =>
    refine sturdy_of_not (.payload _) ?_
    rintro e (⟨_, _, _, h, -⟩ | ⟨_, h, -⟩) <;> cases h

/-- Code without a language is not read, and neither is a language without code. -/
theorem breaksBy_codeOf (members : Members) :
    BreaksBy (codeOf members) fun e => ∃ language, Json.member members "code" ≠ .null ∧
      (Json.member members "language").given? = some language ∧
      Unwritten [Json.member members "code", language] e := by
  unfold codeOf
  split
  · next hcode => exact sturdy_of_not (.ok none) fun e ⟨_, h, _⟩ => h hcode
  · next hlanguage _ =>
    refine sturdy_of_not (.ok none) fun e ⟨_, _, h, _⟩ => ?_
    cases hlanguage.symm.trans h
  · next language hlanguage hcode =>
    refine ((breaksBy_demandTexts _).bind_of_sturdy fun _ _ => .ok _).congr fun e => ?_
    rw [hlanguage]
    exact ⟨fun h => ⟨language, hcode, rfl, h⟩, fun ⟨_, _, he, h⟩ => Option.some.inj he ▸ h⟩

/-- A part that is null is not read. -/
theorem breaksBy_part {name : String} {read : Json → Except Fault α}
    {B : Json → Breakdown → Prop} (h : ∀ v, BreaksBy (read v) (B v))
    (hnull : ∀ e, ¬ B .null e) :
    BreaksBy (part members name read) (B (Json.member members name)) := by
  by_cases hv : Json.member members name = .null
  · rw [part_of_null hv, hv]
    exact sturdy_of_not (.ok _) hnull
  · rw [part_of_ne_null hv]
    exact (h _).bind_of_sturdy fun a _ => .ok (some a)

theorem read_of_members (h : payloadMembers? payload = some members) :
    read payload = readValue (.obj members) := by
  cases payload with
  | obj ms =>
    cases h
    rfl
  | str text =>
    rw [payloadMembers?] at h
    split at h
    · next hparse =>
      cases h
      rw [read, hparse]
    · cases h
  | _ => cases h

theorem refused_of_no_members (h : payloadMembers? payload = none) :
    ∃ cause, read payload = .error (.payload cause) := by
  cases payload with
  | obj ms => cases h
  | str text =>
    rw [read]
    cases hparse : Json.parse? text with
    | none => exact ⟨_, rfl⟩
    | some v =>
      cases v with
      | obj ms =>
        rw [payloadMembers?, hparse] at h
        cases h
      | _ => exact ⟨_, rfl⟩
  | _ => exact ⟨_, rfl⟩

theorem breaksBy_read (payload : Json) : BreaksBy (read payload) (Breaks payload) := by
  cases hm : payloadMembers? payload with
  | none =>
    obtain ⟨cause, hrun⟩ := refused_of_no_members hm
    rw [hrun]
    refine sturdy_of_not (.payload cause) fun e h => ?_
    cases h with
    | definition hm' | block hm' | child hm' | code hm' => cases hm.symm.trans hm'
  | some members =>
    rw [read_of_members hm]
    refine ((breaksBy_part breaksBy_definitionsOf ?_).bind fun definitions _ =>
      (breaksBy_part breaksBy_registryOf ?_).bind fun registry _ =>
        (breaksBy_codeOf members).bind_of_sturdy fun code _ => ?_).congr fun e => ⟨?_, fun h => ?_⟩
    · rintro e ⟨_, _, _, h, -⟩
      cases h
    · rintro e (⟨_, _, _, h, -⟩ | ⟨_, h, -⟩) <;> cases h
    · dsimp only
      split
      · exact .payload _
      · exact .ok _
    · rintro (⟨before, v, after, hv, hbefore, h⟩ | ⟨definitions, hd,
        (⟨before, v, after, hv, made, hmade, h⟩ | ⟨items, hv, hmade, rfl, v, hchild, hno⟩) |
        ⟨registry, hr, language, hcode, hlanguage, rfl, v, hvalue, hno⟩⟩)
      · exact .definition hm hv hbefore h
      · exact .block hm ⟨definitions, hd⟩ hv hmade h
      · exact .child hm ⟨definitions, hd⟩ hv hmade hchild hno
      · exact .code hm ⟨definitions, hd⟩ ⟨registry, hr⟩ hcode hlanguage hvalue hno
    · cases h with
      | definition hm' hv hbefore h =>
        cases hm.symm.trans hm'
        exact .inl ⟨_, _, _, hv, hbefore, h⟩
      | block hm' hd hv hmade h =>
        cases hm.symm.trans hm'
        obtain ⟨definitions, hd⟩ := hd
        exact .inr ⟨definitions, hd, .inl (.inl ⟨_, _, _, hv, _, hmade, h⟩)⟩
      | child hm' hd hv hmade hchild hno =>
        cases hm.symm.trans hm'
        obtain ⟨definitions, hd⟩ := hd
        exact .inr ⟨definitions, hd, .inl (.inr ⟨_, hv, hmade, rfl, _, hchild, hno⟩)⟩
      | code hm' hd hr hcode hlanguage hvalue hno =>
        cases hm.symm.trans hm'
        obtain ⟨definitions, hd⟩ := hd
        obtain ⟨registry, hr⟩ := hr
        exact .inr ⟨definitions, hd, .inr ⟨registry, hr, _, hcode, hlanguage, rfl, _, hvalue, hno⟩⟩

/-- A payload is read, or it is refused by a fault of the payload, exactly if it does not
break down. -/
theorem read_or_refused_iff (payload : Json) :
    ((∃ contents, read payload = .ok contents) ∨
      ∃ cause, read payload = .error (.payload cause)) ↔ ∀ e, ¬ Breaks payload e := by
  obtain ⟨hrefused, hbreaks⟩ := breaksBy_read payload
  constructor
  · rintro (⟨contents, h⟩ | ⟨cause, h⟩) e he
    · cases h.symm.trans ((hbreaks e).2 he)
    · cases h.symm.trans ((hbreaks e).2 he)
  · intro hno
    cases h : read payload with
    | ok contents => exact .inl ⟨contents, rfl⟩
    | error f =>
      rcases hrefused f h with ⟨cause, rfl⟩ | ⟨e, rfl⟩
      · exact .inr ⟨cause, rfl⟩
      · exact absurd ((hbreaks e).1 h) (hno e)

/-- A block at a number beyond the doubles. -/
def remoteBundle : Json :=
  .obj [("instances", .arr [.obj [("id", .str "a"), ("label", .str "a"),
    ("kind", .str "command"), ("x", .int (10 ^ 400))]])]

/-- A definition whose templates are a number. -/
def countedBundle : Json :=
  .obj [("definitions", .arr [.obj [("label", .str "a"), ("templates", .int 5)]])]

/-- A container with a template that is a number. -/
def numberedBundle : Json :=
  .obj [("instances", .arr [.obj [("id", .str "a"), ("label", .str "a"),
    ("kind", .str "container"), ("templates", .obj [("python", .int 5)])]])]

/-- A block whose id is too long a whole number. -/
def longBundle : Json :=
  .obj [("instances", .arr [.obj [("id", .int (10 ^ 5000)), ("label", .str "a"),
    ("kind", .str "command")]])]

/-- The breakdown that a reading ends in, if it does. -/
def breakdown? (x : Except Fault α) : Option Breakdown :=
  match x with
  | .error (.breakdown e) => some e
  | _ => none

theorem eq_of_breakdown? {x : Except Fault α} {e : Breakdown} (h : breakdown? x = some e) :
    x = .error (.breakdown e) := by
  unfold breakdown? at h
  split at h
  · cases h
    rfl
  · cases h

/-- None of the four is read, and none is refused by a fault of the payload. -/
theorem not_read_or_refused : read remoteBundle = .error (.breakdown .overflow) ∧
    read countedBundle = .error (.breakdown .wrongType) ∧
    read numberedBundle = .error (.breakdown .wrongType) ∧
    read longBundle = .error (.breakdown .badValue) :=
  ⟨eq_of_breakdown? (by decide +kernel), eq_of_breakdown? (by decide +kernel),
    eq_of_breakdown? (by decide +kernel), eq_of_breakdown? (by decide +kernel)⟩

/-! ## Proper bundles -/

/-- The coordinates in the record of a block are within the doubles, and if the block has a
body, it has a name for the body placeholder or templates that are texts. -/
structure ProperBlock (members : Members) : Prop where
  x : (Json.member members "x").toFloat ≠ .error .overflow
  y : (Json.member members "y").toFloat ≠ .error .overflow
  body : ∀ kind, Kind.ofJson? (blockKind members) = some kind → kind.hasBody = true →
    (Json.member members "containerVar").isTruthy = true ∨
      ∀ templates, Json.member members "templates" = .obj templates → ∀ t ∈ templates, t.2.IsText

/-- The templates of a definition can be read, and the records of blocks are proper. -/
structure Proper (payload : Json) : Prop where
  definitions : ∀ members items record, payloadMembers? payload = some members →
    Json.member members "definitions" = .arr items → .obj record ∈ items →
    ∃ t, Templates.ofJson (Json.member record "templates") = .ok t
  instances : ∀ members items record, payloadMembers? payload = some members →
    Json.member members "instances" = .arr items → .obj record ∈ items → ProperBlock record

theorem isWritable_payloadMembers (hw : payload.isWritable = true)
    (hm : payloadMembers? payload = some members) : (Json.obj members).isWritable = true := by
  cases payload with
  | obj ms =>
    cases hm
    exact hw
  | str text =>
    rw [payloadMembers?] at hm
    split at hm
    · next hparse =>
      cases hm
      exact Json.isWritable_parse? hparse
    · cases hm
  | _ => cases hm

/-- A record that has a text breaks down the reading of a definition by its templates only. -/
theorem DefinitionBreaks.templates_of_isWritable {v : Json} {e : Breakdown}
    (h : DefinitionBreaks v e) (hw : v.isWritable = true) :
    ∃ record, v = .obj record ∧ Templates.ofJson (Json.member record "templates") = .error e := by
  cases h with
  | label hl hno => cases hno.symm.trans (Json.isWritable_of_member? hw hl)
  | kind _ _ hno =>
    cases hno.symm.trans (Json.isWritable_getD hw "kind" (Json.isWritable_getD hw "type" rfl))
  | color _ _ _ hno => cases hno.symm.trans (Json.isWritable_getD hw "color" rfl)
  | templates _ _ _ _ he => exact ⟨_, rfl, he⟩

/-- A proper record that has a text does not break down the reading of a block. -/
theorem ProperBlock.not_breaks {r : Registry} {record : Members} {e : Breakdown}
    (h : ProperBlock record) (hw : (Json.obj record).isWritable = true) :
    ¬ BlockBreaks r (.obj record) e := by
  intro hbreaks
  cases hbreaks with
  | kind _ _ _ hno =>
    cases hno.symm.trans (Json.isWritable_orElse (Json.isWritable_member hw "kind")
      (Json.isWritable_member hw "type"))
  | look _ hv hno =>
    have hcolor : (recordColor record).isWritable = true :=
      Json.isWritable_orElse (Json.isWritable_member hw "color") rfl
    have hlook : ∀ v ∈ [Json.member record "label", recordColor record], v.isWritable = true :=
      List.forall_mem_cons.2
        ⟨Json.isWritable_member hw "label", List.forall_mem_singleton.2 hcolor⟩
    cases hno.symm.trans (hlook _ hv)
  | x _ hx => exact h.x hx
  | y _ _ hy => exact h.y hy
  | id _ hno => cases hno.symm.trans (Json.isWritable_member hw "id")
  | body hr _ _ hnameless =>
    obtain ⟨hbody, hname, ts, hts, t, ht, hno⟩ := hnameless
    rcases h.body _ hr.kind hbody with hgiven | htexts
    · cases hname.symm.trans hgiven
    · exact hno (htexts _ hts t ht)
  | literal _ _ _ _ hi hentry _ hv hno =>
    have hinputs := Json.isWritable_member hw "inputs"
    rw [hi] at hinputs
    have hentry := Json.isWritable_obj.1 hinputs _ hentry
    cases hno.symm.trans (isWritable_literalValue? hentry hv)

/-- Nothing breaks down the reading of a proper bundle that has a text. -/
theorem not_breaks_of_proper (h : Proper payload) (hw : payload.isWritable = true)
    (e : Breakdown) : ¬ Breaks payload e := by
  intro hbreaks
  have hpart {members : Members} {name : String} {items : List Json}
      (hm : payloadMembers? payload = some members)
      (hitems : Json.member members name = .arr items) : ∀ v ∈ items, v.isWritable = true :=
    Json.isWritable_arr.1 (hitems ▸ Json.isWritable_member (isWritable_payloadMembers hw hm) name)
  cases hbreaks with
  | definition hm hitems _ hv =>
    obtain ⟨record, rfl, he⟩ := hv.templates_of_isWritable (hpart hm hitems _ (by simp))
    obtain ⟨t, ht⟩ := h.definitions _ _ record hm hitems (by simp)
    cases ht.symm.trans he
  | @block members before after v r e hm _ hitems _ hv =>
    have hw := hpart hm hitems v (by simp)
    cases v with
    | obj record => exact (h.instances members _ record hm hitems (by simp)).not_breaks hw hv
    | _ => cases hv
  | child hm _ hitems _ hv hno =>
    cases hno.symm.trans (isWritable_allChildValues (hpart hm hitems) hv)
  | @code members language v hm _ _ _ hlanguage hv hno =>
    have hw := isWritable_payloadMembers hw hm
    have hgiven : language = Json.member members "language" := by
      rw [Json.given?] at hlanguage
      split at hlanguage <;> cases hlanguage
      rfl
    rw [hgiven] at hv
    have hcode : ∀ v ∈ [Json.member members "code", Json.member members "language"],
        v.isWritable = true :=
      List.forall_mem_cons.2 ⟨Json.isWritable_member hw "code",
        List.forall_mem_singleton.2 (Json.isWritable_member hw "language")⟩
    cases hno.symm.trans (hcode v hv)

/-- A bundle that has a text is read if it is proper, or it is refused with a message. -/
theorem gives_read (h : Proper payload) (hw : payload.isWritable = true) :
    Gives (read payload) fun _ => True := by
  obtain ⟨hrefused, hbreaks⟩ := breaksBy_read payload
  cases hrun : read payload with
  | ok contents => exact .ok trivial
  | error f =>
    rcases hrefused f hrun with ⟨cause, rfl⟩ | ⟨e, rfl⟩
    · exact .error rfl
    · exact absurd ((hbreaks e).1 hrun) (not_breaks_of_proper h hw e)

end Bundles

end Blockwork.Bundle
