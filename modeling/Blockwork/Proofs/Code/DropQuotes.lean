import Mathlib.Logic.Function.Iterate
import Blockwork.Proofs.Code.HungPlaceholders
import Blockwork.Proofs.Code.PercentNames

/-!
# Dropping quotes again

The quotes in the code of a block are dropped again at every level around it.  Dropping them
once can bring a quote behind an equals sign or a declaring word that was not there before,
and one pass does not go back.  So the second time can drop more.

Every time drops quotes in pairs and nothing else, so it comes to an end.  Nothing is dropped
from a text exactly when no declared name and no value in it is quoted.
-/

namespace Blockwork.Code

open Text (Pattern replaceFrom replaceMatches doubleQuote dropLiteral?)
open Unicode (isBlank isWord)

variable {p : Pattern} {b : Option Char} {cs out taken rest w : List Char}

/-! ## Patterns that drop quotes -/

/-- A text that is another without some of its quotes. -/
structure Unquoted (out cs : List Char) : Prop where
  sublist : out.Sublist cs
  /-- Nothing but quotes is missing. -/
  kept : out.filter (· ≠ doubleQuote) = cs.filter (· ≠ doubleQuote)

theorem Unquoted.refl (cs : List Char) : Unquoted cs cs := ⟨.refl cs, rfl⟩

theorem Unquoted.trans (h : Unquoted out taken) (h' : Unquoted taken cs) : Unquoted out cs :=
  ⟨h.sublist.trans h'.sublist, h.kept.trans h'.kept⟩

theorem Unquoted.append {out' cs' : List Char} (h : Unquoted out cs) (h' : Unquoted out' cs') :
    Unquoted (out ++ out') (cs ++ cs') :=
  ⟨h.sublist.append h'.sublist, by rw [List.filter_append, List.filter_append, h.kept, h'.kept]⟩

/-- A pattern that writes what it takes without two quotes. -/
def Unquotes (p : Pattern) : Prop :=
  ∀ {b cs out n}, p b cs = some (out, n) → ∃ taken rest, cs = taken ++ rest ∧ n = taken.length ∧
    Unquoted out taken ∧ out.count doubleQuote + 2 = taken.count doubleQuote

/-- A pattern fits at no place of a text. -/
def FitsNowhere (p : Pattern) (b : Option Char) (cs : List Char) : Prop :=
  ∀ before c rest, cs = before ++ c :: rest → p (lastOr b before) (c :: rest) = none

theorem fitsNowhere_cons_iff {c : Char} :
    FitsNowhere p b (c :: cs) ↔ p b (c :: cs) = none ∧ FitsNowhere p (some c) cs := by
  constructor
  · intro h
    refine ⟨h [] c cs rfl, fun before d rest hcs => ?_⟩
    exact h (c :: before) d rest (congrArg (c :: ·) hcs)
  · rintro ⟨hhere, hrest⟩ before d rest hcs
    cases before with
    | nil =>
      cases hcs
      exact hhere
    | cons x before =>
      cases hcs
      exact hrest before d rest rfl

/-- What a match is replaced by, and the text behind it. -/
theorem Unquotes.exists_of_fit (hp : Unquotes p) {c : Char} {n : Nat}
    (h : p b (c :: cs) = some (out, n)) : ∃ taken rest, cs = taken ++ rest ∧
      n - 1 = taken.length ∧ Unquoted out (c :: taken) ∧
      out.count doubleQuote + 2 = (c :: taken).count doubleQuote := by
  obtain ⟨taken, rest, hcs, rfl, hout, hcount⟩ := hp h
  cases taken with
  | nil => simp at hcount
  | cons d taken =>
    cases hcs
    exact ⟨taken, rest, rfl, rfl, hout, hcount⟩

theorem replaceFrom_fit {c : Char} {n : Nat} (h : p b (c :: (taken ++ rest)) = some (out, n))
    (hn : n - 1 = taken.length) : replaceFrom p 0 b (c :: (taken ++ rest)) =
      out ++ replaceFrom p 0 (lastOr (some c) taken) rest := by
  have hskip := replaceFrom_skip p 0 (some c) taken rest
  rw [replaceFrom, h]
  dsimp only
  rw [hn, ← hskip, Nat.add_zero]

theorem replaceFrom_none {c : Char} (h : p b (c :: cs) = none) :
    replaceFrom p 0 b (c :: cs) = c :: replaceFrom p 0 (some c) cs := by
  rw [replaceFrom, h]

/-- A pass drops quotes and nothing else. -/
theorem Unquotes.unquoted (hp : Unquotes p) : ∀ (b : Option Char) (cs : List Char),
    Unquoted (replaceFrom p 0 b cs) cs
  | _, [] => .refl []
  | b, c :: cs => by
    rcases h : p b (c :: cs) with _ | ⟨out, n⟩
    · rw [replaceFrom_none h]
      exact Unquoted.append (.refl [c]) (hp.unquoted (some c) cs)
    · obtain ⟨taken, rest, hcs, hn, hout, -⟩ := hp.exists_of_fit h
      have hshort : rest.length < (c :: cs).length := by
        rw [hcs, List.length_cons, List.length_append]
        omega
      have hrest := hp.unquoted (lastOr (some c) taken) rest
      rw [hcs] at h ⊢
      rw [replaceFrom_fit h hn]
      exact hout.append hrest
termination_by _ cs => cs.length

/-- A pass that changes a text drops two quotes. -/
theorem Unquotes.eq_or_count (hp : Unquotes p) (b : Option Char) (cs : List Char) :
    replaceFrom p 0 b cs = cs ∨
      (replaceFrom p 0 b cs).count doubleQuote + 2 ≤ cs.count doubleQuote := by
  induction cs generalizing b with
  | nil => exact .inl rfl
  | cons c cs ih =>
    rcases h : p b (c :: cs) with _ | ⟨out, n⟩
    · rw [replaceFrom_none h]
      rcases ih (some c) with heq | hlt
      · exact .inl (congrArg (c :: ·) heq)
      · right
        rw [List.count_cons, List.count_cons]
        omega
    · right
      obtain ⟨taken, rest, rfl, hn, -, hcount⟩ := hp.exists_of_fit h
      have hrest := (hp.unquoted (lastOr (some c) taken) rest).sublist.count_le doubleQuote
      have hsplit : (c :: (taken ++ rest)).count doubleQuote =
          (c :: taken).count doubleQuote + rest.count doubleQuote := by
        rw [← List.cons_append, List.count_append]
      rw [replaceFrom_fit h hn, List.count_append, hsplit]
      omega

/-- A pass leaves a text as it is exactly when the pattern fits nowhere. -/
theorem Unquotes.eq_self_iff (hp : Unquotes p) :
    replaceFrom p 0 b cs = cs ↔ FitsNowhere p b cs := by
  refine ⟨fun heq => ?_, Text.replaceFrom_unfit b cs⟩
  induction cs generalizing b with
  | nil =>
    intro before c rest hcs
    simp at hcs
  | cons c cs ih =>
    rcases h : p b (c :: cs) with _ | ⟨out, n⟩
    · rw [replaceFrom_none h] at heq
      exact fitsNowhere_cons_iff.2 ⟨h, ih (List.cons.inj heq).2⟩
    · obtain ⟨taken, rest, rfl, hn, -, hcount⟩ := hp.exists_of_fit h
      have hrest := (hp.unquoted (lastOr (some c) taken) rest).sublist.count_le doubleQuote
      have hsame := congrArg (List.count doubleQuote) heq
      rw [replaceFrom_fit h hn, ← List.cons_append, List.count_append, List.count_append] at hsame
      omega

/-! ## The two patterns -/

/-- A text with quotes around a part of it loses two quotes when it loses these. -/
theorem unquoted_quoted (front inner back : List Char) :
    Unquoted (front ++ inner ++ back)
        (front ++ doubleQuote :: (inner ++ doubleQuote :: back)) ∧
      (front ++ inner ++ back).count doubleQuote + 2 =
        (front ++ doubleQuote :: (inner ++ doubleQuote :: back)).count doubleQuote := by
  have hsub : (inner ++ back).Sublist (doubleQuote :: (inner ++ doubleQuote :: back)) :=
    ((List.Sublist.refl inner).append (List.sublist_cons_self ..)).cons doubleQuote
  refine ⟨⟨?_, ?_⟩, ?_⟩
  · rw [List.append_assoc]
    exact (List.Sublist.refl front).append hsub
  · simp
  · simp only [List.count_append, List.count_cons_self]
    omega

theorem unquotes_declaration : Unquotes declaration := by
  intro b cs out n h
  rw [declaration] at h
  split at h
  · cases h
  · cases hword : declaringAt? cs with
    | none => simp [hword] at h
    | some r =>
      obtain ⟨word, rest⟩ := r
      rw [hword] at h
      dsimp only at h
      cases hname : quotedAt? rest with
      | none => simp [hname] at h
      | some r =>
        obtain ⟨name, behind⟩ := r
        rw [hname] at h
        obtain ⟨equals, hequals, he⟩ := Option.map_eq_some_iff.1 h
        obtain ⟨after, hafter⟩ := eq_of_equalsAt? hequals
        cases he
        refine ⟨word ++ doubleQuote :: (name ++ doubleQuote :: equals), after, ?_, ?_,
          unquoted_quoted word name equals⟩
        · rw [(eq_of_declaringAt? hword).2, eq_of_quotedAt? hname, hafter]
          simp
        · simp only [List.length_append, List.length_cons]
          omega

theorem unquotes_assignment : Unquotes assignment := by
  intro b cs out n h
  cases cs with
  | nil => cases h
  | cons c cs =>
    by_cases hc : c = '='
    · subst hc
      obtain ⟨⟨value, after⟩, hvalue, he⟩ := Option.map_eq_some_iff.1 h
      have hsplit := List.takeWhile_append_dropWhile (p := isBlank) (l := cs)
      cases he
      have hall := unquoted_quoted ('=' :: cs.takeWhile isBlank) value []
      rw [List.append_nil] at hall
      refine ⟨'=' :: cs.takeWhile isBlank ++ doubleQuote :: (value ++ [doubleQuote]), after, ?_, ?_,
        hall⟩
      · rw [eq_of_quotedAt? hvalue] at hsplit
        conv_lhs => rw [← hsplit]
        simp
      · simp only [List.length_append, List.length_cons, List.length_nil]
        omega
    · simp [assignment, hc] at h

/-! ## Where they fit -/

/-- A quoted text stands behind an equals sign and blanks. -/
def QuotedValue (cs : List Char) : Prop :=
  ∃ before blanks value after,
    cs = before ++ '=' :: (blanks ++ doubleQuote :: (value ++ doubleQuote :: after)) ∧
    (∀ c ∈ blanks, isBlank c = true) ∧ value ≠ [] ∧ doubleQuote ∉ value

/-- A quoted text stands between a declaring word on its own, with blanks behind it, and an
equals sign, with blanks in front. -/
def QuotedName (cs : List Char) : Prop :=
  ∃ before word blanks name blanks' after,
    cs = before ++ (word ++ (blanks ++ doubleQuote :: (name ++ doubleQuote ::
      (blanks' ++ '=' :: after)))) ∧
    word ∈ declaringWords ∧ before.getLast?.any isWord = false ∧
    (∀ c ∈ blanks, isBlank c = true) ∧ blanks ≠ [] ∧ name ≠ [] ∧ doubleQuote ∉ name ∧
    ∀ c ∈ blanks', isBlank c = true

theorem lastOr_eq (b : Option Char) (piece : List Char) : lastOr b piece = piece.getLast?.or b := by
  induction piece generalizing b with
  | nil => rfl
  | cons c piece ih =>
    have hcons : lastOr b (c :: piece) = lastOr (some c) piece := rfl
    rw [hcons, ih, List.getLast?_cons]
    cases piece.getLast? <;> rfl

theorem takeWhile_run {q : Char → Bool} {run : List Char} (hrun : ∀ c ∈ run, q c = true)
    {d : Char} (hd : q d = false) (rest : List Char) :
    (run ++ d :: rest).takeWhile q = run ∧ (run ++ d :: rest).dropWhile q = d :: rest := by
  have hstop : ¬ q d = true := ne_true_of_eq_false hd
  rw [List.takeWhile_append_of_pos hrun, List.takeWhile_cons_of_neg hstop, List.append_nil,
    List.dropWhile_append_of_pos hrun, List.dropWhile_cons_of_neg hstop]
  exact ⟨rfl, rfl⟩

theorem mem_takeWhile {q : Char → Bool} : ∀ c ∈ cs.takeWhile q, q c = true :=
  fun _ => List.mem_takeWhile_imp

theorem quotedAt?_eq_some_iff : quotedAt? cs = some (w, rest) ↔
    cs = doubleQuote :: (w ++ doubleQuote :: rest) ∧ w ≠ [] ∧ doubleQuote ∉ w := by
  constructor
  · intro h
    refine ⟨eq_of_quotedAt? h, ?_⟩
    cases cs with
    | nil => cases h
    | cons q cs =>
      have hw : ∀ c ∈ cs.takeWhile (· ≠ doubleQuote), c ≠ doubleQuote := fun c hc => by
        simpa using List.mem_takeWhile_imp hc
      rw [quotedAt?] at h
      split at h
      · cases hinner : cs.takeWhile (· ≠ doubleQuote) with
        | nil =>
          rw [hinner] at h
          cases h
        | cons c inner =>
          cases hrest : cs.dropWhile (· ≠ doubleQuote) with
          | nil =>
            rw [hinner, hrest] at h
            cases h
          | cons q' tail =>
            rw [hinner, hrest] at h
            rw [hinner] at hw
            cases h
            exact ⟨List.cons_ne_nil c inner, fun hm => hw _ hm rfl⟩
      · cases h
  · rintro ⟨rfl, hne, hnot⟩
    have hrun : ∀ c ∈ w, decide (c ≠ doubleQuote) = true := by
      intro c hc
      simp only [decide_eq_true_eq]
      rintro rfl
      exact hnot hc
    obtain ⟨htake, hdrop⟩ := takeWhile_run hrun (d := doubleQuote) (by simp) rest
    rw [quotedAt?, if_pos rfl, htake, hdrop]
    cases w with
    | nil => exact absurd rfl hne
    | cons c w => rfl

theorem isSome_equalsAt?_iff : (equalsAt? cs).isSome ↔
    ∃ blanks after, cs = blanks ++ '=' :: after ∧ ∀ c ∈ blanks, isBlank c = true := by
  rw [equalsAt?]
  constructor
  · intro h
    split at h
    · next rest hrest =>
      have hsplit := List.takeWhile_append_dropWhile (p := isBlank) (l := cs)
      rw [hrest] at hsplit
      exact ⟨_, rest, hsplit.symm, mem_takeWhile⟩
    · cases h
  · rintro ⟨blanks, after, rfl, hblanks⟩
    rw [(takeWhile_run hblanks (by decide) _).2]
    rfl

/-- Declaring words have no blanks. -/
theorem not_blank_of_mem_declaringWords :
    ∀ word ∈ declaringWords, ∀ c ∈ word, (!isBlank c) = true := by
  have hall : ∀ word ∈ declaringWords, word.all (!isBlank ·) = true := by decide +kernel
  exact fun word hword => List.all_eq_true.1 (hall word hword)

theorem exists_of_declaringAt? (h : declaringAt? cs = some (w, rest)) :
    ∃ word ∈ declaringWords, ∃ blanks, w = word ++ blanks ∧ blanks ≠ [] ∧
      (∀ c ∈ blanks, isBlank c = true) ∧ cs = word ++ (blanks ++ rest) ∧
      rest = (cs.dropWhile (!isBlank ·)).dropWhile isBlank := by
  obtain ⟨word, hmem, hword⟩ := List.exists_of_findSome?_eq_some h
  cases hd : dropLiteral? word cs with
  | none => simp [hd] at hword
  | some tail =>
    have hcs := Text.dropLiteral?_eq_some_iff.1 hd
    have hsplit := List.takeWhile_append_dropWhile (p := isBlank) (l := tail)
    have hblank : ∀ c ∈ tail.takeWhile isBlank, isBlank c = true := mem_takeWhile
    rw [hd] at hword
    dsimp only at hword
    cases hblanks : tail.takeWhile isBlank with
    | nil =>
      rw [hblanks] at hword
      cases hword
    | cons c blanks =>
      rw [hblanks] at hword hsplit hblank
      cases hword
      refine ⟨word, hmem, c :: blanks, rfl, List.cons_ne_nil c blanks, hblank, ?_, ?_⟩
      · rw [hcs, hsplit]
      · have hc : (!isBlank c) = false := by rw [hblank c (List.mem_cons_self ..), Bool.not_true]
        have hrun := (takeWhile_run (not_blank_of_mem_declaringWords word hmem) hc
          (blanks ++ tail.dropWhile isBlank)).2
        rw [← List.cons_append, hsplit] at hrun
        rw [hcs, hrun]

theorem declaringAt?_word {word blanks : List Char} {d : Char} (hword : word ∈ declaringWords)
    (hne : blanks ≠ []) (hblanks : ∀ c ∈ blanks, isBlank c = true) (hd : isBlank d = false) :
    declaringAt? (word ++ (blanks ++ d :: rest)) = some (word ++ blanks, d :: rest) := by
  obtain ⟨c, blanks', rfl⟩ := List.exists_cons_of_ne_nil hne
  have hsome : (declaringAt? (word ++ (c :: blanks' ++ d :: rest))).isSome := by
    rw [declaringAt?, List.findSome?_isSome_iff]
    refine ⟨word, hword, ?_⟩
    rw [Text.dropLiteral?_eq_some_iff.2 rfl]
    dsimp only
    rw [(takeWhile_run hblanks hd rest).1]
    rfl
  obtain ⟨⟨w, tail⟩, hw⟩ := Option.isSome_iff_exists.1 hsome
  obtain ⟨-, -, -, -, -, -, -, htail⟩ := exists_of_declaringAt? hw
  have hc : (!isBlank c) = false := by rw [hblanks c (List.mem_cons_self ..), Bool.not_true]
  have hrun := (takeWhile_run (not_blank_of_mem_declaringWords word hword) hc
    (blanks' ++ d :: rest)).2
  rw [← List.cons_append] at hrun
  rw [hrun, (takeWhile_run hblanks hd rest).2] at htail
  have hsplit := (eq_of_declaringAt? hw).2
  rw [htail, ← List.append_assoc] at hsplit
  rw [hw, htail, List.append_cancel_right hsplit]

theorem isSome_assignment_iff : (assignment b cs).isSome ↔
    ∃ blanks value after,
      cs = '=' :: (blanks ++ doubleQuote :: (value ++ doubleQuote :: after)) ∧
      (∀ c ∈ blanks, isBlank c = true) ∧ value ≠ [] ∧ doubleQuote ∉ value := by
  constructor
  · intro h
    cases cs with
    | nil => cases h
    | cons c cs =>
      by_cases hc : c = '='
      · subst hc
        rw [assignment, Option.isSome_map, Option.isSome_iff_exists] at h
        obtain ⟨⟨value, after⟩, hvalue⟩ := h
        obtain ⟨hquoted, hne, hnot⟩ := quotedAt?_eq_some_iff.1 hvalue
        refine ⟨cs.takeWhile isBlank, value, after, ?_, mem_takeWhile, hne, hnot⟩
        rw [← hquoted, List.takeWhile_append_dropWhile]
      · simp [assignment, hc] at h
  · rintro ⟨blanks, value, after, rfl, hblanks, hne, hnot⟩
    have hvalue :
        quotedAt? (doubleQuote :: (value ++ doubleQuote :: after)) = some (value, after) :=
      quotedAt?_eq_some_iff.2 ⟨rfl, hne, hnot⟩
    rw [assignment, (takeWhile_run hblanks (by decide) _).2, hvalue]
    rfl

theorem isSome_declaration_iff : (declaration b cs).isSome ↔
    b.any isWord = false ∧ ∃ word blanks name blanks' after,
      cs = word ++ (blanks ++ doubleQuote :: (name ++ doubleQuote :: (blanks' ++ '=' :: after))) ∧
      word ∈ declaringWords ∧ (∀ c ∈ blanks, isBlank c = true) ∧ blanks ≠ [] ∧
      name ≠ [] ∧ doubleQuote ∉ name ∧ ∀ c ∈ blanks', isBlank c = true := by
  constructor
  · intro h
    rw [declaration] at h
    split at h
    · cases h
    · next hb =>
      refine ⟨eq_false_of_ne_true hb, ?_⟩
      cases hword : declaringAt? cs with
      | none => simp [hword] at h
      | some r =>
        obtain ⟨w, rest⟩ := r
        rw [hword] at h
        dsimp only at h
        cases hname : quotedAt? rest with
        | none => simp [hname] at h
        | some r =>
          obtain ⟨name, behind⟩ := r
          rw [hname] at h
          dsimp only at h
          rw [Option.isSome_map] at h
          obtain ⟨blanks', after, hbehind, hblanks'⟩ := isSome_equalsAt?_iff.1 h
          obtain ⟨word, hmem, blanks, -, hne, hblanks, hcs, -⟩ := exists_of_declaringAt? hword
          obtain ⟨hquoted, hnamed, hnot⟩ := quotedAt?_eq_some_iff.1 hname
          refine ⟨word, blanks, name, blanks', after, ?_, hmem, hblanks, hne, hnamed, hnot,
            hblanks'⟩
          rw [hcs, hquoted, hbehind]
  · rintro ⟨hb, word, blanks, name, blanks', after, rfl, hmem, hblanks, hne, hnamed, hnot, hblanks'⟩
    have hname : quotedAt? (doubleQuote :: (name ++ doubleQuote :: (blanks' ++ '=' :: after))) =
        some (name, blanks' ++ '=' :: after) := quotedAt?_eq_some_iff.2 ⟨rfl, hnamed, hnot⟩
    have hequals : (equalsAt? (blanks' ++ '=' :: after)).isSome :=
      isSome_equalsAt?_iff.2 ⟨blanks', after, rfl, hblanks'⟩
    rw [declaration, if_neg (ne_true_of_eq_false hb),
      declaringAt?_word hmem hne hblanks (by decide)]
    dsimp only
    rw [hname]
    dsimp only
    rw [Option.isSome_map]
    exact hequals

/-- A pattern that needs something to fit to fits somewhere or nowhere. -/
theorem fitsNowhere_iff (hnil : ∀ b, p b [] = none) : FitsNowhere p none cs ↔
    ¬ ∃ before rest, cs = before ++ rest ∧ (p before.getLast? rest).isSome := by
  have hlast (before : List Char) : lastOr none before = before.getLast? := by
    rw [lastOr_eq, Option.or_none]
  constructor
  · rintro h ⟨before, rest, hcs, hfit⟩
    cases rest with
    | nil =>
      rw [hnil] at hfit
      cases hfit
    | cons c rest =>
      rw [← hlast, h before c rest hcs] at hfit
      cases hfit
  · intro h before c rest hcs
    rw [hlast, ← Option.not_isSome_iff_eq_none]
    exact fun hfit => h ⟨before, c :: rest, hcs, hfit⟩

theorem fitsNowhere_assignment_iff : FitsNowhere assignment none cs ↔ ¬ QuotedValue cs := by
  rw [fitsNowhere_iff fun _ => rfl, QuotedValue]
  simp only [isSome_assignment_iff]
  refine not_congr ⟨?_, ?_⟩
  · rintro ⟨before, _, rfl, blanks, value, after, rfl, h⟩
    exact ⟨before, blanks, value, after, rfl, h⟩
  · rintro ⟨before, blanks, value, after, rfl, h⟩
    exact ⟨before, _, rfl, blanks, value, after, rfl, h⟩

theorem fitsNowhere_declaration_iff : FitsNowhere declaration none cs ↔ ¬ QuotedName cs := by
  have hnil (b : Option Char) : declaration b [] = none := by
    rw [declaration]
    split <;> rfl
  rw [fitsNowhere_iff hnil, QuotedName]
  simp only [isSome_declaration_iff]
  refine not_congr ⟨?_, ?_⟩
  · rintro ⟨before, _, rfl, hb, word, blanks, name, blanks', after, rfl, hmem, h⟩
    exact ⟨before, word, blanks, name, blanks', after, rfl, hmem, hb, h⟩
  · rintro ⟨before, word, blanks, name, blanks', after, rfl, hmem, hb, h⟩
    exact ⟨before, _, rfl, hb, word, blanks, name, blanks', after, rfl, hmem, h⟩

/-! ## Both passes -/

theorem unquoted_dropQuotesChars (cs : List Char) : Unquoted (dropQuotesChars cs) cs :=
  (unquotes_assignment.unquoted none _).trans (unquotes_declaration.unquoted none cs)

/-- Dropping quotes changes nothing, or drops two. -/
theorem dropQuotesChars_eq_or_count (cs : List Char) : dropQuotesChars cs = cs ∨
    (dropQuotesChars cs).count doubleQuote + 2 ≤ cs.count doubleQuote := by
  have hcount := (unquotes_assignment.unquoted none (replaceMatches declaration cs)).sublist.count_le
    doubleQuote
  rcases unquotes_declaration.eq_or_count none cs with hnames | hnames
  · rcases unquotes_assignment.eq_or_count none cs with hvalues | hvalues
    · left
      rw [dropQuotesChars, replaceMatches, replaceMatches, hnames, hvalues]
    · right
      rw [dropQuotesChars, replaceMatches, replaceMatches, hnames]
      exact hvalues
  · right
    rw [dropQuotesChars, replaceMatches]
    rw [replaceMatches] at hcount ⊢
    omega

theorem dropQuotesChars_eq_self_iff :
    dropQuotesChars cs = cs ↔ ¬ QuotedName cs ∧ ¬ QuotedValue cs := by
  rw [← fitsNowhere_declaration_iff, ← fitsNowhere_assignment_iff,
    ← unquotes_declaration.eq_self_iff, ← unquotes_assignment.eq_self_iff]
  constructor
  · intro h
    have hcount := (unquotes_assignment.unquoted none (replaceMatches declaration cs)).sublist.count_le
      doubleQuote
    rcases unquotes_declaration.eq_or_count none cs with hnames | hnames
    · refine ⟨hnames, ?_⟩
      rw [dropQuotesChars, replaceMatches, replaceMatches, hnames] at h
      exact h
    · have hsame := congrArg (List.count doubleQuote) h
      rw [dropQuotesChars, replaceMatches] at hsame
      rw [replaceMatches] at hcount hsame
      omega
  · rintro ⟨hnames, hvalues⟩
    rw [dropQuotesChars, replaceMatches, replaceMatches, hnames, hvalues]

section Codes

variable {code : String} {k : Nat}

theorem toList_dropQuotes (code : String) :
    (dropQuotes code).toList = dropQuotesChars code.toList :=
  String.toList_ofList

/-- Nothing is dropped where no declared name and no value is quoted. -/
theorem dropQuotes_eq_self_iff :
    dropQuotes code = code ↔ ¬ QuotedName code.toList ∧ ¬ QuotedValue code.toList := by
  rw [← dropQuotesChars_eq_self_iff, ← toList_dropQuotes, String.toList_inj]

theorem dropQuotes_eq_or_count (code : String) : dropQuotes code = code ∨
    (dropQuotes code).toList.count doubleQuote + 2 ≤ code.toList.count doubleQuote := by
  rw [← String.toList_inj, toList_dropQuotes]
  exact dropQuotesChars_eq_or_count code.toList

/-- Quotes are dropped at most as often as there are pairs of them. -/
theorem iterate_dropQuotes (h : code.toList.count doubleQuote ≤ 2 * k + 1) :
    dropQuotes^[k + 1] code = dropQuotes^[k] code := by
  induction k generalizing code with
  | zero =>
    rcases dropQuotes_eq_or_count code with heq | hcount
    · exact heq
    · omega
  | succ k ih =>
    rcases dropQuotes_eq_or_count code with heq | hcount
    · rw [Function.iterate_fixed heq, Function.iterate_fixed heq]
    · rw [Function.iterate_succ_apply, ih (by omega), Function.iterate_succ_apply]

/-- Dropping quotes a second time changes nothing exactly when the first time leaves no quoted
name in a declaration and no quoted value behind an equals sign.  In a text with `2 * k + 1`
quotes there is nothing more to drop after `k` times.  Nothing but quotes is ever dropped. -/
theorem dropQuotes_dropQuotes (code : String) :
    (dropQuotes (dropQuotes code) = dropQuotes code ↔
      ¬ QuotedName (dropQuotes code).toList ∧ ¬ QuotedValue (dropQuotes code).toList) ∧
    (∀ k, code.toList.count doubleQuote ≤ 2 * k + 1 →
      dropQuotes^[k + 1] code = dropQuotes^[k] code) ∧
    Unquoted (dropQuotes code).toList code.toList := by
  refine ⟨dropQuotes_eq_self_iff, fun k h => iterate_dropQuotes h, ?_⟩
  rw [toList_dropQuotes]
  exact unquoted_dropQuotesChars code.toList

/-- With three quotes once is enough. -/
theorem dropQuotes_dropQuotes_unclosed :
    "x = \"a\" + \"".toList.count doubleQuote ≤ 2 * 1 + 1 ∧
    dropQuotes^[1 + 1] "x = \"a\" + \"" = dropQuotes^[1] "x = \"a\" + \"" := by
  have hcount : "x = \"a\" + \"".toList.count doubleQuote ≤ 2 * 1 + 1 := by decide +kernel
  exact ⟨hcount, (dropQuotes_dropQuotes "x = \"a\" + \"").2.1 1 hcount⟩

/-- With four quotes it is not: a blank value is unquoted, and a quoted one comes next. -/
theorem not_dropQuotes_dropQuotes :
    dropQuotes "x = \" \"\"a\"" = "x =  \"a\"" ∧
    dropQuotes (dropQuotes "x = \" \"\"a\"") = "x =  a" := by
  decide +kernel

end Codes

end Blockwork.Code
