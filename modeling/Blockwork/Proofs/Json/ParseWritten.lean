import Blockwork.Json.Reader
import Blockwork.Proofs.Decimal.DoubleText
import Blockwork.Proofs.Registry.Lookup

/-!
# Values are read back

The text of a value is read as the value itself, with two reservations.  A double
becomes the double that its text stands for, and of several members of one name an
object keeps the first place and the last value.  `readBack` is the value with both
applied, and `parse?_write` says that it is what is read.

The text is cut into the `tokens` of the value, whatever comes behind it that is no part
of a number.  The reader then puts the value together from its tokens and places it in
the innermost list or object that is open.
-/

namespace Blockwork.Json

/-! ## What is read -/

/-- The double that the text of a double is read as. -/
def reread (x : Float) : Float :=
  match parse? (write (.float x)) with
  | some (.float y) => y
  | _ => x

mutual

/-- The value that the text of a value is read as. -/
def readBack : Json → Json
  | .float x => .float (reread x)
  | .arr items => .arr (readBackItems items)
  | .obj members => .obj (readBackMembers [] members)
  | v => v

def readBackItems : List Json → List Json
  | [] => []
  | v :: vs => readBack v :: readBackItems vs

/-- The members that are read behind those of an object that are done. -/
def readBackMembers (done : List (String × Json)) : List (String × Json) → List (String × Json)
  | [] => done
  | (n, v) :: ms => readBackMembers (Table.set done n (readBack v)) ms

end

mutual

/-- The tokens of the text of a value. -/
def tokens : Json → List Token
  | .null => [.atom .null]
  | .bool b => [.atom (.bool b)]
  | .int n => [.atom (.int n)]
  | .float x => [.atom (.float (reread x))]
  | .str s => [.text s]
  | .arr items => .openList :: (itemTokens items ++ [.closeList])
  | .obj members => .openObject :: (memberTokens members ++ [.closeObject])

/-- The tokens of items, with commas between them. -/
def itemTokens : List Json → List Token
  | [] => []
  | [v] => tokens v
  | v :: vs => tokens v ++ .comma :: itemTokens vs

/-- The tokens of members, with commas between them. -/
def memberTokens : List (String × Json) → List Token
  | [] => []
  | [(n, v)] => .text n :: .colon :: tokens v
  | (n, v) :: ms => .text n :: .colon :: (tokens v ++ .comma :: memberTokens ms)

end

/-! ## Doubles -/

theorem parse?_of_readsAs {s : String} {y : Float} (h : ReadsAs s.toList y) :
    parse? s = some (.float y) := by
  have htokens := h [] (endsBefore_nil _)
  rw [List.append_nil] at htokens
  rw [parse?, htokens]
  rfl

/-- The text of a double is read as a double, and a zero is read only where one was
written. -/
theorem readsAs_reread (x : Float) : ReadsAs (write (.float x)).toList (reread x) ∧
    ((x == 0.0) = false → (reread x == 0.0) = false) := by
  obtain ⟨y, hy, hzero⟩ := exists_readsAs x
  have hreread : reread x = y := by rw [reread, parse?_of_readsAs hy]
  rw [hreread]
  exact ⟨hy, hzero⟩

/-! ## The tokens of a text -/

theorem tokensFrom?_comma (cs : List Char) :
    tokensFrom? 0 (',' :: ' ' :: cs) = (tokensFrom? 0 cs).map (.comma :: ·) :=
  tokensFrom?_mark rfl rfl _

theorem tokensFrom?_colon (cs : List Char) :
    tokensFrom? 0 (':' :: ' ' :: cs) = (tokensFrom? 0 cs).map (.colon :: ·) :=
  tokensFrom?_mark rfl rfl _

mutual

/-- The text of a value is cut into its tokens. -/
theorem tokensFrom?_write : ∀ (v : Json) {rest : List Char}, v.isWritable = true →
    EndsBefore isNumeric rest →
    tokensFrom? 0 ((write v).toList ++ rest) = (tokensFrom? 0 rest).map (v.tokens ++ ·)
  | .null, _, _, _ => rfl
  | .bool true, _, _, _ => rfl
  | .bool false, _, _, _ => rfl
  | .int n, _, hw, hrest => tokensFrom?_int (of_decide_eq_true hw) hrest
  | .float x, rest, _, hrest => (readsAs_reread x).1 rest hrest
  | .str s, rest, _, _ => tokensFrom?_writeText s rest
  | .arr items, rest, hw, _ => by
      have htext : (write (.arr items)).toList ++ rest =
          '[' :: ((writeItems items).toList ++ ']' :: rest) := by
        simp [write]
      have hopen : mark? '[' = some .openList := rfl
      have hclose : mark? ']' = some .closeList := rfl
      rw [htext, tokensFrom?_mark rfl hopen, tokensFrom?_writeItems items hw,
        tokensFrom?_mark rfl hclose]
      simp [tokens, Function.comp_def]
  | .obj members, rest, hw, _ => by
      have htext : (write (.obj members)).toList ++ rest =
          Char.ofNat 0x7b :: ((writeMembers members).toList ++ Char.ofNat 0x7d :: rest) := by
        simp [write]
      have hopen : mark? (Char.ofNat 0x7b) = some .openObject := rfl
      have hclose : mark? (Char.ofNat 0x7d) = some .closeObject := rfl
      rw [htext, tokensFrom?_mark rfl hopen, tokensFrom?_writeMembers members hw,
        tokensFrom?_mark rfl hclose]
      simp [tokens, Function.comp_def]

/-- The text of items, in front of the mark that closes a list. -/
theorem tokensFrom?_writeItems : ∀ (vs : List Json) {rest : List Char}, areWritable vs = true →
    tokensFrom? 0 ((writeItems vs).toList ++ ']' :: rest) =
      (tokensFrom? 0 (']' :: rest)).map (itemTokens vs ++ ·)
  | [], _, _ => by simp [writeItems, itemTokens]
  | [v], _, hw => by
      have hv : v.isWritable = true := ((Bool.and_eq_true _ _).mp hw).1
      exact tokensFrom?_write v hv (endsBefore_cons.2 rfl)
  | v :: w :: vs, rest, hw => by
      obtain ⟨hv, hvs⟩ := (Bool.and_eq_true _ _).mp hw
      have htext : (writeItems (v :: w :: vs)).toList ++ ']' :: rest =
          (write v).toList ++ ',' :: ' ' :: ((writeItems (w :: vs)).toList ++ ']' :: rest) := by
        simp [writeItems]
      rw [htext, tokensFrom?_write v hv (endsBefore_cons.2 rfl), tokensFrom?_comma,
        tokensFrom?_writeItems (w :: vs) hvs]
      simp [itemTokens, Function.comp_def]

/-- The text of members, in front of the mark that closes an object. -/
theorem tokensFrom?_writeMembers : ∀ (ms : List (String × Json)) {rest : List Char},
    haveWritable ms = true →
    tokensFrom? 0 ((writeMembers ms).toList ++ Char.ofNat 0x7d :: rest) =
      (tokensFrom? 0 (Char.ofNat 0x7d :: rest)).map (memberTokens ms ++ ·)
  | [], _, _ => by simp [writeMembers, memberTokens]
  | [(n, v)], rest, hw => by
      have hv : v.isWritable = true := ((Bool.and_eq_true _ _).mp hw).1
      have htext : (writeMembers [(n, v)]).toList ++ Char.ofNat 0x7d :: rest =
          (writeText n).toList ++ ':' :: ' ' :: ((write v).toList ++ Char.ofNat 0x7d :: rest) := by
        simp [writeMembers]
      rw [htext, tokensFrom?_writeText, tokensFrom?_colon,
        tokensFrom?_write v hv (endsBefore_cons.2 rfl)]
      simp [memberTokens, Function.comp_def]
  | (n, v) :: m :: ms, rest, hw => by
      obtain ⟨hv, hms⟩ := (Bool.and_eq_true _ _).mp hw
      have htext : (writeMembers ((n, v) :: m :: ms)).toList ++ Char.ofNat 0x7d :: rest =
          (writeText n).toList ++ ':' :: ' ' :: ((write v).toList ++
            ',' :: ' ' :: ((writeMembers (m :: ms)).toList ++ Char.ofNat 0x7d :: rest)) := by
        simp [writeMembers]
      rw [htext, tokensFrom?_writeText, tokensFrom?_colon,
        tokensFrom?_write v hv (endsBefore_cons.2 rfl), tokensFrom?_comma,
        tokensFrom?_writeMembers (m :: ms) hms]
      simp [memberTokens, Function.comp_def]

end

/-! ## The value of tokens -/

theorem readTokens_cons (r : Reading) (t : Token) (ts : List Token) :
    readTokens r (t :: ts) = (r.step t).bind (readTokens · ts) := by
  rw [readTokens]
  cases r.step t <;> rfl

/-- A value never starts with the mark that closes a list. -/
theorem readTokens_itemOrEnd (v : Json) (opened : List Frame) (ts : List Token) :
    readTokens ⟨.itemOrEnd, opened⟩ (v.tokens ++ ts) =
      readTokens ⟨.value, opened⟩ (v.tokens ++ ts) := by
  cases v <;> rfl

mutual

/-- The tokens of a value are put together to what is read back, and that is placed where
a value may come. -/
theorem readTokens_tokens : ∀ (v : Json) (opened : List Frame) (ts : List Token),
    readTokens ⟨.value, opened⟩ (v.tokens ++ ts) =
      (place v.readBack opened).bind (readTokens · ts)
  | .null, _, _ => readTokens_cons ..
  | .bool _, _, _ => readTokens_cons ..
  | .int _, _, _ => readTokens_cons ..
  | .float _, _, _ => readTokens_cons ..
  | .str _, _, _ => readTokens_cons ..
  | .arr [], _, _ => (readTokens_cons ..).trans (readTokens_cons ..)
  | .arr (v :: vs), opened, ts => by
      have hfirst : readTokens ⟨.itemOrEnd, .items [] :: opened⟩
          (itemTokens (v :: vs) ++ .closeList :: ts) =
          readTokens ⟨.value, .items [] :: opened⟩ (itemTokens (v :: vs) ++ .closeList :: ts) := by
        cases vs with
        | nil => exact readTokens_itemOrEnd v _ _
        | cons w vs =>
          rw [itemTokens, List.append_assoc]
          · exact readTokens_itemOrEnd v _ _
          · exact nofun
      have hitems := readTokens_itemTokens (v :: vs) [] opened (.closeList :: ts) nofun
      have hclosed : closeFrame .closeList
          (.items ((readBackItems (v :: vs)).reverse ++ []) :: opened) =
          place (.arr (readBackItems (v :: vs))) opened := by
        rw [closeFrame, List.append_nil, List.reverse_reverse]
      calc readTokens ⟨.value, opened⟩ ((arr (v :: vs)).tokens ++ ts)
        _ = readTokens ⟨.itemOrEnd, .items [] :: opened⟩
            (itemTokens (v :: vs) ++ .closeList :: ts) := by
          rw [tokens, List.cons_append, List.append_assoc]
          exact readTokens_cons ..
        _ = _ := hfirst.trans (hitems.trans (readTokens_cons ..))
        _ = _ := congrArg (Option.bind · (readTokens · ts)) hclosed
  | .obj [], _, _ => (readTokens_cons ..).trans (readTokens_cons ..)
  | .obj ((n, v) :: ms), opened, ts => by
      have hfirst : readTokens ⟨.nameOrEnd, .members [] :: opened⟩
          (memberTokens ((n, v) :: ms) ++ .closeObject :: ts) =
          readTokens ⟨.name, .members [] :: opened⟩
            (memberTokens ((n, v) :: ms) ++ .closeObject :: ts) := by
        cases ms <;> rfl
      have hmembers := readTokens_memberTokens ((n, v) :: ms) [] opened (.closeObject :: ts) nofun
      calc readTokens ⟨.value, opened⟩ ((obj ((n, v) :: ms)).tokens ++ ts)
        _ = readTokens ⟨.nameOrEnd, .members [] :: opened⟩
            (memberTokens ((n, v) :: ms) ++ .closeObject :: ts) := by
          rw [tokens, List.cons_append, List.append_assoc]
          exact readTokens_cons ..
        _ = _ := hfirst.trans (hmembers.trans (readTokens_cons ..))

/-- The tokens of items are read into the list that is open. -/
theorem readTokens_itemTokens : ∀ (vs done : List Json) (opened : List Frame) (ts : List Token),
    vs ≠ [] → readTokens ⟨.value, .items done :: opened⟩ (itemTokens vs ++ ts) =
      readTokens ⟨.commaOrEnd, .items ((readBackItems vs).reverse ++ done) :: opened⟩ ts
  | [], _, _, _, h => absurd rfl h
  | [v], done, opened, ts, _ => readTokens_tokens v (.items done :: opened) ts
  | v :: w :: vs, done, opened, ts, _ => by
      have hrest := readTokens_itemTokens (w :: vs) (v.readBack :: done) opened ts nofun
      have hvalue := readTokens_tokens v (.items done :: opened)
        (.comma :: (itemTokens (w :: vs) ++ ts))
      have hdone : (readBackItems (w :: vs)).reverse ++ v.readBack :: done =
          (readBackItems (v :: w :: vs)).reverse ++ done := by
        rw [readBackItems.eq_2 v, List.reverse_cons, List.append_assoc, List.singleton_append]
      rw [itemTokens, List.append_assoc, ← hdone]
      · exact hvalue.trans ((readTokens_cons ..).trans hrest)
      · exact nofun

/-- The tokens of members are read into the object that is open. -/
theorem readTokens_memberTokens : ∀ (ms done : List (String × Json)) (opened : List Frame)
    (ts : List Token), ms ≠ [] →
    readTokens ⟨.name, .members done :: opened⟩ (memberTokens ms ++ ts) =
      readTokens ⟨.commaOrEnd, .members (readBackMembers done ms) :: opened⟩ ts
  | [], _, _, _, h => absurd rfl h
  | [(n, v)], done, opened, ts, _ => readTokens_tokens v (.valueOf done n :: opened) ts
  | (n, v) :: m :: ms, done, opened, ts, _ => by
      have hrest :=
        readTokens_memberTokens (m :: ms) (Table.set done n v.readBack) opened ts nofun
      have hvalue := readTokens_tokens v (.valueOf done n :: opened)
        (.comma :: (memberTokens (m :: ms) ++ ts))
      rw [memberTokens, List.cons_append, List.cons_append, List.append_assoc]
      · exact hvalue.trans ((readTokens_cons ..).trans hrest)
      · exact nofun

end

/-- The text of a value that can be written is read, and as what is read back. -/
theorem parse?_write {v : Json} (h : v.isWritable = true) : parse? (write v) = some v.readBack := by
  have htokens := tokensFrom?_write v h (endsBefore_nil isNumeric)
  have hvalue := readTokens_tokens v [] []
  rw [List.append_nil] at htokens hvalue
  rw [parse?, htokens]
  change readTokens ⟨.value, []⟩ (v.tokens ++ []) = _
  rw [List.append_nil, hvalue]
  rfl

/-! ## What is read of lists and objects -/

theorem readBackItems_eq (vs : List Json) : readBackItems vs = vs.map readBack := by
  induction vs with
  | nil => rfl
  | cons v vs ih => rw [readBackItems, ih, List.map_cons]

/-- Members of different names are all read, in their order. -/
theorem readBackMembers_of_nodup {done ms : List (String × Json)}
    (h : (Table.names (done ++ ms)).Nodup) :
    readBackMembers done ms = done ++ Table.mapValues ms readBack := by
  induction ms generalizing done with
  | nil => exact (List.append_nil done).symm
  | cons m ms ih =>
    obtain ⟨n, v⟩ := m
    have hnames : (Table.names done ++ n :: Table.names ms).Nodup := by
      simpa [Table.names] using h
    have hn : n ∉ Table.names done := fun hm =>
      (List.nodup_append.1 hnames).2.2 n hm n (List.mem_cons_self ..) rfl
    have hset : Table.set done n v.readBack = done ++ [(n, v.readBack)] := Table.set_of_not_mem hn
    have hrest : (Table.names ((done ++ [(n, v.readBack)]) ++ ms)).Nodup := by
      simpa [Table.names] using hnames
    rw [readBackMembers, hset, ih hrest, List.append_assoc]
    rfl

theorem readBackMembers_ne_nil {done : List (String × Json)} (ms : List (String × Json))
    (h : done ≠ []) : readBackMembers done ms ≠ [] := by
  induction ms generalizing done with
  | nil => exact h
  | cons m ms ih =>
    refine ih ?_
    cases done with
    | nil => exact absurd rfl h
    | cons e es =>
      rw [Table.set]
      split <;> simp

/-- What counts as given still does when it has been read back. -/
theorem isTruthy_readBack {v : Json} (h : v.isTruthy = true) : v.readBack.isTruthy = true := by
  cases v with
  | float x =>
    have hx : (x == 0.0) = false := by simpa [isTruthy] using h
    simp [readBack, isTruthy, (readsAs_reread x).2 hx]
  | arr items =>
    cases items with
    | nil => cases h
    | cons v vs => rfl
  | obj members =>
    cases members with
    | nil => cases h
    | cons m ms =>
      have hne : readBackMembers [] (m :: ms) ≠ [] :=
        readBackMembers_ne_nil ms (List.cons_ne_nil _ _)
      simpa [readBack, isTruthy] using hne
  | _ => exact h

theorem member_mapValues_readBack (ms : List (String × Json)) (name : String) :
    member (Table.mapValues ms readBack) name = (member ms name).readBack := by
  simp only [member, member?, Table.lookup_mapValues]
  cases ms.lookup name <;> rfl

end Blockwork.Json
