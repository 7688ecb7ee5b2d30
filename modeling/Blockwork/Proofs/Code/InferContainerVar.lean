import Mathlib.Data.List.Find
import Blockwork.Proofs.Code.LiteralInfluence

/-!
# Where the body goes when nobody says so

The body placeholder that is inferred is searched for in one text, all templates joined with
blanks.  A blank is no word character, so a name that ends a template ends there in the joined
text too, and a template that begins with word characters does not lengthen the name in front
of it.  The joined text has the placeholders of the templates and no others, in their order,
and the search finds the first one in the first template that has any.

The search wants a word boundary behind the name, filling in wants no word character there.
For names of word characters that is the same.  So the body does go into the template that
the name was found in, at the place where it was found.
-/

namespace Blockwork

open Text (IsName namesIn)
open Unicode (isWord startsWithWord)

variable {cs before after w : List Char} {name : String} {texts : List String}

/-! ## Conventional names -/

/-- The conventional name that a name is, if it is one. -/
def conventional? (w : List Char) : Option String := conventionalNames.find? (·.toList = w)

/-- A text that no placeholder of a conventional name stands in. -/
def Unconventional (cs : List Char) : Prop :=
  ∀ n ∈ conventionalNames, ¬ Code.Mentions n.toList cs

/-- The placeholder of a conventional name leads in a text: what stands in front of it has no
such placeholder. -/
structure Leads (name : String) (cs before after : List Char) : Prop where
  conventional : name ∈ conventionalNames
  split : cs = before ++ '%' :: (name.toList ++ after)
  ends : startsWithWord after = false
  first : Unconventional before

theorem isName_of_mem_conventionalNames : ∀ n ∈ conventionalNames, IsName n.toList := by
  decide +kernel

theorem conventional?_eq_some_iff :
    conventional? w = some name ↔ name ∈ conventionalNames ∧ name.toList = w := by
  constructor
  · intro h
    exact ⟨List.mem_of_find?_eq_some h, by simpa using List.find?_some h⟩
  · rintro ⟨hmem, rfl⟩
    cases hfound : conventional? name.toList with
    | none => simpa using List.find?_eq_none.1 hfound name hmem
    | some n =>
      have hn : n.toList = name.toList := by simpa using List.find?_some hfound
      rw [String.toList_inj.1 hn]

theorem unconventional_iff : Unconventional cs ↔ ∀ w ∈ namesIn cs, conventional? w = none := by
  constructor
  · intro h w hw
    by_contra hsome
    obtain ⟨n, hn⟩ := Option.ne_none_iff_exists'.1 hsome
    obtain ⟨hmem, rfl⟩ := conventional?_eq_some_iff.1 hn
    exact h n hmem ((Code.mentions_iff (isName_of_mem_conventionalNames n hmem)).2 hw)
  · intro h n hmem hn
    have hnone := h n.toList ((Code.mentions_iff (isName_of_mem_conventionalNames n hmem)).1 hn)
    cases hnone.symm.trans (conventional?_eq_some_iff.2 ⟨hmem, rfl⟩)

/-! ## Searching one text -/

/-- The search stops where a placeholder could be filled in. -/
theorem conventionalAt?_eq_find? (cs : List Char) : conventionalAt? cs =
    conventionalNames.find? fun n => (Code.placeholderAt? n.toList ('%' :: cs)).isSome := by
  rw [conventionalAt?]
  congr 1
  funext n
  have hdrop : Text.dropLiteral? ('%' :: n.toList) ('%' :: cs) = Text.dropLiteral? n.toList cs := by
    simp [Text.dropLiteral?]
  rw [Code.placeholderAt?, hdrop]
  cases Text.dropLiteral? n.toList cs with
  | none => rfl
  | some rest => cases hrest : startsWithWord rest <;> simp [hrest]

theorem conventionalAt?_eq (cs : List Char) :
    conventionalAt? cs = conventional? (cs.takeWhile isWord) := by
  rw [conventionalAt?_eq_find?, conventional?]
  refine List.find?_congr fun n hn => ?_
  rw [Code.placeholderAt?_percent (isName_of_mem_conventionalNames n hn)]
  by_cases hrun : cs.takeWhile isWord = n.toList
  · simp [hrun]
  · simp [hrun, Ne.symm hrun]

/-- The search finds the first of the names in a text that is conventional. -/
theorem firstConventional?_eq (cs : List Char) :
    firstConventional? cs = (namesIn cs).findSome? conventional? := by
  induction cs with
  | nil => rfl
  | cons c cs ih =>
    rw [firstConventional?, namesIn]
    split
    · rw [List.findSome?_cons, conventionalAt?_eq, ih]
      cases conventional? (cs.takeWhile isWord) <;> rfl
    · exact ih

theorem firstConventional?_eq_none_iff : firstConventional? cs = none ↔ Unconventional cs := by
  rw [firstConventional?_eq, List.findSome?_eq_none_iff, unconventional_iff]

theorem exists_leads (h : firstConventional? cs = some name) :
    ∃ before after, Leads name cs before after := by
  rw [firstConventional?_eq] at h
  obtain ⟨front, w, back, hnames, hw, hfront⟩ := List.findSome?_eq_some_iff.1 h
  obtain ⟨hmem, rfl⟩ := conventional?_eq_some_iff.1 hw
  obtain ⟨before, after, hcs, hafter, rfl⟩ := Text.exists_of_namesIn_eq hnames
  exact ⟨before, after, hmem, hcs, hafter, unconventional_iff.2 hfront⟩

/-- Filling in the leading name puts the value in the place of its placeholder. -/
theorem Leads.substituteChars (h : Leads name cs before after) (value : List Char) :
    Code.substituteChars cs name.toList value =
      before ++ value ++ Code.substituteChars after name.toList value := by
  have hname := isName_of_mem_conventionalNames name h.conventional
  have hfront := Code.substituteChars_of_not_mentions (h.first name h.conventional) value
  rw [Code.substituteChars_eq hname] at hfront
  rw [Code.substituteChars_eq hname, Code.substituteChars_eq hname, h.split,
    Text.fillNames_append_stop (Text.startsWithWord_percent _), hfront,
    Text.fillNames_name hname h.ends, List.append_assoc]
  simp [Code.sameValue?]

/-! ## Searching the joined templates -/

/-- Joining texts with blanks makes no placeholder across a boundary and hides none. -/
theorem namesIn_joinTexts (texts : List String) :
    namesIn (joinTexts " " texts).toList = texts.flatMap fun t => namesIn t.toList := by
  have hstop (rest : List Char) : startsWithWord (' ' :: rest) = false :=
    show isWord ' ' = false by decide +kernel
  induction texts with
  | nil => rfl
  | cons s texts ih =>
    cases texts with
    | nil => simp [joinTexts]
    | cons t texts =>
      have hjoin : (joinTexts " " (s :: t :: texts)).toList =
          s.toList ++ ' ' :: (joinTexts " " (t :: texts)).toList := by
        simp [joinTexts]
      rw [hjoin, Text.namesIn_append_stop (hstop _), Text.namesIn_cons (by decide), ih]
      rfl

theorem firstConventional?_joinTexts (texts : List String) :
    firstConventional? (joinTexts " " texts).toList =
      texts.findSome? fun t => firstConventional? t.toList := by
  rw [firstConventional?_eq, namesIn_joinTexts]
  induction texts with
  | nil => rfl
  | cons t texts ih =>
    rw [List.flatMap_cons, List.findSome?_append, ih, List.findSome?_cons, firstConventional?_eq]
    cases (namesIn t.toList).findSome? conventional? <;> rfl

variable {templates : Templates} {explicit : Option Json}

theorem inferContainerVar_eq (htexts : templates.texts? = some texts)
    (hexplicit : explicit.bind Json.given? = none) : inferContainerVar templates explicit =
      .ok (.str ((texts.findSome? fun t => firstConventional? t.toList).getD "body")) := by
  rw [inferContainerVar, hexplicit, htexts, ← firstConventional?_joinTexts]

/-- Without a given name, the body placeholder has the conventional name that leads in the
first template with any, and `body` if there is none.  Joining the templates changes nothing
about the names behind their percent signs, and filling in the name that leads replaces the
placeholder it leads with. -/
theorem inferContainerVar_first (htexts : templates.texts? = some texts)
    (hexplicit : explicit.bind Json.given? = none) :
    namesIn (joinTexts " " texts).toList = (texts.flatMap fun t => namesIn t.toList) ∧
    ((∀ t ∈ texts, Unconventional t.toList) ∧
        inferContainerVar templates explicit = .ok (.str "body") ∨
      ∃ earlier text later name before after, texts = earlier ++ text :: later ∧
        (∀ t ∈ earlier, Unconventional t.toList) ∧ Leads name text.toList before after ∧
        inferContainerVar templates explicit = .ok (.str name) ∧
        ∀ value, (Code.substitute text name value).toList =
          before ++ value.toList ++ Code.substituteChars after name.toList value.toList) := by
  refine ⟨namesIn_joinTexts texts, ?_⟩
  rw [inferContainerVar_eq htexts hexplicit]
  cases hfound : texts.findSome? fun t => firstConventional? t.toList with
  | none =>
    rw [List.findSome?_eq_none_iff] at hfound
    exact .inl ⟨fun t ht => firstConventional?_eq_none_iff.1 (hfound t ht), rfl⟩
  | some name =>
    obtain ⟨earlier, text, later, hsplit, hname, hearlier⟩ := List.findSome?_eq_some_iff.1 hfound
    obtain ⟨before, after, hleads⟩ := exists_leads hname
    refine .inr ⟨earlier, text, later, name, before, after, hsplit,
      fun t ht => firstConventional?_eq_none_iff.1 (hearlier t ht), hleads, rfl, fun value => ?_⟩
    rw [Code.substitute, String.toList_ofList]
    exact hleads.substituteChars value.toList

/-- Two templates that would hold other placeholders if they were joined without a blank. -/
def boundaryTemplates : Templates :=
  ⟨[(.str "javascript", .str "%bodyguard %th"), (.str "python", .str "en %then %body")]⟩

/-- The name comes from the second template, although the first one looks like two others. -/
theorem inferContainerVar_boundaryTemplates :
    boundaryTemplates.texts? = some ["%bodyguard %th", "en %then %body"] ∧
    (some (Json.str "")).bind Json.given? = none ∧
    inferContainerVar boundaryTemplates (some (.str "")) = .ok (.str "then") ∧
    ∃ earlier text later before after,
      ["%bodyguard %th", "en %then %body"] = earlier ++ text :: later ∧
      Leads "then" text.toList before after ∧
      ∀ value, (Code.substitute text "then" value).toList =
        before ++ value.toList ++ Code.substituteChars after "then".toList value.toList := by
  have htexts : boundaryTemplates.texts? = some ["%bodyguard %th", "en %then %body"] := rfl
  have hexplicit : (some (Json.str "")).bind Json.given? = none := rfl
  have hthen : inferContainerVar boundaryTemplates (some (.str "")) = .ok (.str "then") := rfl
  refine ⟨htexts, hexplicit, hthen, ?_⟩
  obtain ⟨-, ⟨-, hbody⟩ | ⟨earlier, text, later, name, before, after, hsplit, -, hleads, hname,
    hfill⟩⟩ := inferContainerVar_first htexts hexplicit
  · simp [hthen] at hbody
  · cases hthen.symm.trans hname
    exact ⟨earlier, text, later, before, after, hsplit, hleads, hfill⟩

end Blockwork
