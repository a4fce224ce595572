import CimStore.Json.Print
import CimStore.Payload.Entry
import CimStore.Proofs.Maps

/-!
# Written payloads read back

A text that was written as JSON is read as what it was written from, whatever stands behind it:

* `Json.Reads`: a scan takes exactly this text off the front and gives this value;
* `Json.reads_quote`: a string of any characters, those that are escaped included;
* `Json.reads_listBlock`, `Json.reads_objectBlock`: a list and an object over several lines, given
  what is read of their parts;
* `Entry.readAll_renderAll`: a whole payload. The texts of a set have to ascend, as those of a slot
  do; any others come back in ascending order.
-/

namespace CimStore

namespace Json

/-- The scan takes exactly `cs` off the front of a text and reads it as `x`. -/
def Reads {α : Type} (scan : Scan α) (cs : List Char) (x : α) : Prop :=
  ∀ rest, scan (cs ++ rest) = .ok (x, rest)

/-! ## Strings -/

theorem hexNumber?_hexDigit : ∀ n < 32,
    hexNumber? '0' '0' (hexDigit (n / 16)) (hexDigit (n % 16)) = some n := by
  decide +kernel

/-- **A character is read as it was written**, escaped or not. -/
theorem stringChar_escapeChar (c : Char) : Reads stringChar (escapeChar c) (some c) := by
  intro rest
  unfold escapeChar
  by_cases hquote : c = '"'
  · simp [hquote, stringChar, escaped?]
  by_cases hslash : c = '\\'
  · simp [hslash, stringChar, escaped?]
  by_cases hn : c = '\n'
  · simp [hn, stringChar, escaped?]
  by_cases hr : c = '\r'
  · simp [hr, stringChar, escaped?]
  by_cases ht : c = '\t'
  · simp [ht, stringChar, escaped?]
  by_cases hb : c = '\x08'
  · simp [hb, stringChar, escaped?]
  by_cases hf : c = '\x0c'
  · simp [hf, stringChar, escaped?]
  simp only [hquote, hslash, hn, hr, ht, hb, hf, if_false]
  by_cases hcontrol : c.toNat < 0x20
  · -- Four digits, of which the first two are zero; there are no surrogates below the space.
    have hsmall : c.toNat < 0xD800 := by omega
    rw [if_pos hcontrol]
    simp [stringChar, unicodeEscape, hexNumber, hexNumber?_hexDigit c.toNat hcontrol, hsmall,
      Char.ofNat_toNat, bind, Except.bind]
  · rw [if_neg hcontrol]
    show stringChar (c :: rest) = _
    unfold stringChar
    split <;> simp_all

theorem length_le_length_escaped (t : List Char) : t.length ≤ (t.flatMap escapeChar).length := by
  have hpos : ∀ c, 1 ≤ (escapeChar c).length := by
    intro c
    unfold escapeChar
    repeat' split
    all_goals simp
  induction t with
  | nil => simp
  | cons c t ih =>
    rw [List.flatMap_cons, List.length_append, List.length_cons]
    have := hpos c
    omega

theorem stringChars_escaped (t rest : List Char) {fuel : Nat} (h : t.length < fuel) :
    stringChars fuel (t.flatMap escapeChar ++ '"' :: rest) = .ok (t, rest) := by
  induction t generalizing fuel with
  | nil =>
    obtain ⟨fuel, rfl⟩ := Nat.exists_eq_add_of_lt h
    simp [stringChars, stringChar, bind, Except.bind]
  | cons c t ih =>
    obtain ⟨fuel, rfl⟩ := Nat.exists_eq_succ_of_ne_zero (by omega : fuel ≠ 0)
    have hrest := @ih fuel (by simpa using h)
    rw [List.flatMap_cons, List.append_assoc, stringChars, stringChar_escapeChar c]
    simp [hrest, bind, Except.bind]

/-- **A string is read as it was written.** -/
theorem stringTail_quote (s : String) (rest : List Char) :
    stringTail (s.toList.flatMap escapeChar ++ '"' :: rest) = .ok (s, rest) := by
  have hlen := length_le_length_escaped s.toList
  unfold stringTail
  rw [stringChars_escaped]
  · simp [bind, Except.bind]
  · simp only [List.length_append, List.length_cons]
    omega

theorem quote_append (s : String) (rest : List Char) :
    quote s ++ rest = '"' :: (s.toList.flatMap escapeChar ++ '"' :: rest) := by
  simp [quote]

/-! ## Blanks -/

@[simp]
theorem skipSpace_newline (cs : List Char) : skipSpace ('\n' :: cs) = skipSpace cs := rfl

@[simp]
theorem skipSpace_blank (cs : List Char) : skipSpace (' ' :: cs) = skipSpace cs := rfl

@[simp]
theorem skipSpace_replicate (n : Nat) (cs : List Char) :
    skipSpace (List.replicate n ' ' ++ cs) = skipSpace cs := by
  induction n with
  | zero => rfl
  | succ n ih => rw [List.replicate_succ, List.cons_append, skipSpace_blank, ih]

theorem skipSpace_of_not_isSpace {c : Char} (h : isSpace c = false) (cs : List Char) :
    skipSpace (c :: cs) = c :: cs := by
  simp [skipSpace, h]

@[simp]
theorem skipSpace_quote (s : String) (rest : List Char) :
    skipSpace (quote s ++ rest) = quote s ++ rest := by
  rw [quote_append]
  exact skipSpace_of_not_isSpace rfl _

theorem reads_quote (s : String) : Reads text (quote s) s := by
  intro rest
  unfold text
  rw [skipSpace_quote, quote_append]
  exact stringTail_quote s rest

/-- The text begins as a string, a list or an object does. -/
def Opens (cs : List Char) : Prop := ∃ c tail, cs = c :: tail ∧ (c = '"' ∨ c = '[' ∨ c = '\x7b')

theorem opens_quote (s : String) : Opens (quote s) := ⟨'"', _, rfl, .inl rfl⟩

theorem opens_listBlock (indent : Nat) (parts : List (List Char)) :
    Opens (listBlock indent parts) := by
  unfold listBlock block
  split
  · exact ⟨'[', _, rfl, .inr (.inl rfl)⟩
  · exact ⟨'[', _, rfl, .inr (.inl rfl)⟩

theorem opens_objectBlock (indent : Nat) (parts : List (List Char)) :
    Opens (objectBlock indent parts) := by
  unfold objectBlock block
  split
  · exact ⟨'\x7b', _, rfl, .inr (.inr rfl)⟩
  · exact ⟨'\x7b', _, rfl, .inr (.inr rfl)⟩

/-! ## The parts of a block -/

/-- The parts after the first one, each behind a comma and a line break. -/
def furtherLines (indent : Nat) (parts : List (List Char)) : List Char :=
  parts.flatMap fun part => ',' :: '\n' :: (List.replicate indent ' ' ++ part)

theorem length_le_length_furtherLines (indent : Nat) (parts : List (List Char)) :
    parts.length ≤ (furtherLines indent parts).length := by
  induction parts with
  | nil => simp [furtherLines]
  | cons part parts ih =>
    simp only [furtherLines, List.flatMap_cons, List.length_append, List.length_cons] at ih ⊢
    omega

theorem commaLines_cons (indent : Nat) (part : List Char) (parts : List (List Char)) :
    commaLines ((part :: parts).map (List.replicate indent ' ' ++ ·)) =
      List.replicate indent ' ' ++ (part ++ furtherLines indent parts) := by
  induction parts generalizing part with
  | nil => simp [commaLines, furtherLines]
  | cons next parts ih =>
    have hnext := ih next
    rw [List.map_cons] at hnext
    rw [List.map_cons, List.map_cons, commaLines, hnext]
    · simp [furtherLines]
    · exact List.cons_ne_nil _ _

/-- What closes a block, with the text behind it. -/
def closingLine (closing : Char) (indent : Nat) (rest : List Char) : List Char :=
  '\n' :: (List.replicate indent ' ' ++ closing :: rest)

theorem block_cons (opening closing : Char) (indent : Nat) (part : List Char)
    (parts : List (List Char)) (rest : List Char) :
    block opening closing indent (part :: parts) ++ rest =
      opening :: '\n' :: (List.replicate (indent + 2) ' ' ++
        (part ++ (furtherLines (indent + 2) parts ++ closingLine closing indent rest))) := by
  rw [block, if_neg (by simp), commaLines_cons]
  simp [closingLine]

theorem skipSpace_closingLine {closing : Char} (h : isSpace closing = false) (indent : Nat)
    (rest : List Char) : skipSpace (closingLine closing indent rest) = closing :: rest := by
  rw [closingLine, skipSpace_newline, skipSpace_replicate, skipSpace_of_not_isSpace h]

theorem Opens.skipSpace {cs : List Char} (h : Opens cs) (rest : List Char) :
    Json.skipSpace (cs ++ rest) = cs ++ rest := by
  obtain ⟨c, tail, rfl, rfl | rfl | rfl⟩ := h
  all_goals exact skipSpace_of_not_isSpace rfl _

/-! ## Lists -/

theorem nextItem_first {cs : List Char} (h : Opens cs) (indent : Nat) (rest : List Char) :
    nextItem true ('\n' :: (List.replicate indent ' ' ++ (cs ++ rest))) =
      .ok (some (cs ++ rest)) := by
  unfold nextItem
  rw [skipSpace_newline, skipSpace_replicate, h.skipSpace]
  obtain ⟨c, tail, rfl, rfl | rfl | rfl⟩ := h
  all_goals rfl

theorem nextItem_further {cs : List Char} (h : Opens cs) (indent : Nat) (rest : List Char) :
    nextItem false (',' :: '\n' :: (List.replicate indent ' ' ++ (cs ++ rest))) =
      .ok (some (cs ++ rest)) := by
  unfold nextItem
  rw [skipSpace_of_not_isSpace rfl]
  simp only [skipSpace_newline, skipSpace_replicate, h.skipSpace]
  obtain ⟨c, tail, rfl, rfl | rfl | rfl⟩ := h
  all_goals rfl

/-- The items that follow the first one. -/
theorem items_furtherLines {α : Type} {item : Scan α} {parts : List (List Char)} {xs : List α}
    (h : List.Forall₂ (fun part x => Opens part ∧ Reads item part x) parts xs)
    (indent outer : Nat) (rest : List Char) {fuel : Nat} (hfuel : parts.length < fuel) :
    items item fuel false (furtherLines indent parts ++ closingLine ']' outer rest) =
      .ok (xs, rest) := by
  induction h generalizing fuel with
  | nil =>
    obtain ⟨fuel, rfl⟩ := Nat.exists_eq_succ_of_ne_zero (by omega : fuel ≠ 0)
    have hclosed : skipSpace (closingLine ']' outer rest) = ']' :: rest :=
      skipSpace_closingLine rfl outer rest
    simp [furtherLines, items, nextItem, close, hclosed, bind, Except.bind, pure, Except.pure]
  | @cons part x parts xs hpart _ ih =>
    obtain ⟨fuel, rfl⟩ := Nat.exists_eq_succ_of_ne_zero (by omega : fuel ≠ 0)
    have hrest := @ih fuel (by simpa using hfuel)
    have htext : furtherLines indent (part :: parts) ++ closingLine ']' outer rest =
        ',' :: '\n' :: (List.replicate indent ' ' ++
          (part ++ (furtherLines indent parts ++ closingLine ']' outer rest))) := by
      simp [furtherLines]
    rw [htext, items, nextItem_further hpart.1]
    simp [hpart.2 _, hrest, bind, Except.bind]

/-- **A list is read as it was written**, if each of its items is. -/
theorem list_listBlock {α : Type} {item : Scan α} {parts : List (List Char)} {xs : List α}
    (h : List.Forall₂ (fun part x => Opens part ∧ Reads item part x) parts xs) (indent : Nat)
    (rest : List Char) : ∃ tail, listBlock indent parts ++ rest = '[' :: tail ∧
      list item tail = .ok (xs, rest) := by
  cases h with
  | nil => exact ⟨']' :: rest, rfl, rfl⟩
  | @cons part x parts xs hpart hparts =>
    refine ⟨_, block_cons .., ?_⟩
    have hlen := length_le_length_furtherLines (indent + 2) parts
    rw [list, items, nextItem_first hpart.1]
    simp only [bind, Except.bind, hpart.2 _]
    rw [items_furtherLines hparts]
    simp only [List.length_cons, List.length_append]
    omega

/-! ## Objects -/

theorem nextKey_first (key : String) (indent : Nat) (rest : List Char) :
    nextKey true ('\n' :: (List.replicate indent ' ' ++ (quote key ++ rest))) =
      .ok (some (key.toList.flatMap escapeChar ++ '"' :: rest)) := by
  unfold nextKey
  rw [skipSpace_newline, skipSpace_replicate, skipSpace_quote, quote_append]
  rfl

theorem nextKey_further (key : String) (indent : Nat) (rest : List Char) :
    nextKey false (',' :: '\n' :: (List.replicate indent ' ' ++ (quote key ++ rest))) =
      .ok (some (key.toList.flatMap escapeChar ++ '"' :: rest)) := by
  unfold nextKey
  rw [skipSpace_of_not_isSpace rfl]
  simp only [skipSpace_newline, skipSpace_replicate, quote_append]
  rfl

/-- The members of an object, each taken in by `member`, lead from the first state to the last. -/
inductive Folds {σ : Type} (member : σ → String → Scan σ) : σ → List (List Char) → σ → Prop
  | nil (s : σ) : Folds member s [] s
  | cons {s s' t : σ} {key : String} {value : List Char} {parts : List (List Char)}
      (first : Reads (member s key) (':' :: ' ' :: value) s') (further : Folds member s' parts t) :
      Folds member s (Json.member key value :: parts) t

/-- The members that follow the first one. -/
theorem members_furtherLines {σ : Type} {member : σ → String → Scan σ} {s t : σ}
    {parts : List (List Char)} (h : Folds member s parts t) (indent outer : Nat)
    (rest : List Char) {fuel : Nat} (hfuel : parts.length < fuel) :
    members member fuel false s (furtherLines indent parts ++ closingLine '\x7d' outer rest) =
      .ok (t, rest) := by
  induction h generalizing fuel with
  | nil s =>
    obtain ⟨fuel, rfl⟩ := Nat.exists_eq_succ_of_ne_zero (by omega : fuel ≠ 0)
    have hclosed : skipSpace (closingLine '\x7d' outer rest) = '\x7d' :: rest :=
      skipSpace_closingLine rfl outer rest
    simp [furtherLines, members, nextKey, close, hclosed, bind, Except.bind, pure, Except.pure]
  | @cons s s' t key value parts first further ih =>
    obtain ⟨fuel, rfl⟩ := Nat.exists_eq_succ_of_ne_zero (by omega : fuel ≠ 0)
    have hrest := @ih fuel (by simpa using hfuel)
    have htext : furtherLines indent (Json.member key value :: parts) ++
        closingLine '\x7d' outer rest = ',' :: '\n' :: (List.replicate indent ' ' ++
          (quote key ++ (':' :: ' ' :: value ++
            (furtherLines indent parts ++ closingLine '\x7d' outer rest)))) := by
      simp [furtherLines, Json.member]
    rw [htext, members, nextKey_further]
    simp only [bind, Except.bind, stringTail_quote, first _, hrest]

/-- **An object is read as it was written**, if each of its members is. -/
theorem object_objectBlock {σ : Type} {member : σ → String → Scan σ} {s t : σ}
    {parts : List (List Char)} (h : Folds member s parts t) (indent : Nat) (rest : List Char) :
    ∃ tail, objectBlock indent parts ++ rest = '\x7b' :: tail ∧
      object member s tail = .ok (t, rest) := by
  cases h with
  | nil => exact ⟨'\x7d' :: rest, rfl, rfl⟩
  | @cons _ s' _ key value parts first further =>
    refine ⟨_, block_cons .., ?_⟩
    have hlen := length_le_length_furtherLines (indent + 2) parts
    have htext : Json.member key value ++ (furtherLines (indent + 2) parts ++
        closingLine '\x7d' indent rest) = quote key ++ (':' :: ' ' :: value ++
          (furtherLines (indent + 2) parts ++ closingLine '\x7d' indent rest)) := by
      simp [Json.member]
    rw [htext, object, members, nextKey_first]
    simp only [bind, Except.bind, stringTail_quote, first _]
    rw [members_furtherLines further]
    simp only [List.length_cons, List.length_append]
    omega

theorem colon_colon (cs : List Char) : colon (':' :: cs) = .ok cs := rfl

end Json

/-! ## Entries -/

namespace Entry

open Json

theorem reads_shape_text (depth : Nat) (t : String) :
    Reads (shape depth) (quote t) (.text t) := by
  intro rest
  unfold shape
  rw [skipSpace_quote, quote_append]
  simp [stringTail_quote, bind, Except.bind]

theorem Shape.ofItems_map_text (ts : List String) : ofItems (ts.map text) = texts ts := by
  have htexts : texts? (ts.map text) = some ts := by
    induction ts with
    | nil => rfl
    | cons t ts ih => simp [texts?, ih]
  rw [ofItems, htexts]

theorem reads_shape_texts (depth indent : Nat) (ts : List String) :
    Reads (shape (depth + 1)) (listBlock indent (ts.map quote)) (.texts ts) := by
  intro rest
  have hitems : List.Forall₂ (fun part x => Opens part ∧ Reads (shape depth) part x)
      (ts.map quote) (ts.map Shape.text) := by
    rw [List.forall₂_map_left_iff, List.forall₂_map_right_iff, List.forall₂_same]
    exact fun t _ => ⟨opens_quote t, reads_shape_text depth t⟩
  have hskip := (opens_listBlock indent (ts.map quote)).skipSpace rest
  obtain ⟨tail, htext, hread⟩ := list_listBlock hitems indent rest
  unfold shape
  rw [hskip, htext]
  simp [scalar?, isDigit, hread, Shape.ofItems_map_text, bind, Except.bind]

/-- The texts of a value ascend if it is a set, as `Slot.read` gives them. -/
def IsCanonical : Value → Prop
  | .text _ => True
  | .texts ts => ts.Pairwise (· < ·)

instance : DecidablePred IsCanonical
  | .text _ => isTrue trivial
  | .texts ts => inferInstanceAs (Decidable (ts.Pairwise (· < ·)))

/-- A value is read as it was written. -/
theorem reads_renderValue (indent : Nat) {v : Value} (h : IsCanonical v) :
    ∃ sh, Reads (shape maxDepth) (renderValue indent v) sh ∧ sh.value? = some v := by
  cases v with
  | text t => exact ⟨.text t, reads_shape_text _ t, rfl⟩
  | texts ts =>
    refine ⟨.texts ts, reads_shape_texts _ indent ts, ?_⟩
    rw [Shape.value?, SortedMap.keys_ofList_of_pairwise h]

theorem opens_renderAttributes (indent : Nat) (values : SortedMap String Value) :
    Opens (renderAttributes indent values) :=
  opens_objectBlock ..

theorem opens_render (indent : Nat) (e : Entry) : Opens (render indent e) :=
  opens_objectBlock ..

/-- Takes in an attribute, as `readAttributes` does. -/
def takeAttribute (values : SortedMap String Value) (name : String) :
    Scan (SortedMap String Value) := fun cs => do
  let (shape, cs) ← shape maxDepth (← colon cs)
  match shape.value? with
  | some value => .ok (values.insert name value, cs)
  | none => .error .mistyped

/-- Each attribute binds its name once more, from the values before it. -/
theorem folds_takeAttribute (indent : Nat) {es : List (String × Value)}
    (hes : ∀ e ∈ es, IsCanonical e.2) (m : SortedMap String Value) :
    Folds takeAttribute m (es.map fun e => member e.1 (renderValue indent e.2))
      (es.foldl (fun m e => m.insert e.1 e.2) m) := by
  induction es generalizing m with
  | nil => exact .nil m
  | cons e es ih =>
    obtain ⟨sh, hread, hvalue⟩ := reads_renderValue indent (hes e (List.mem_cons_self ..))
    refine .cons (fun rest => ?_) (ih (fun a ha => hes a (List.mem_cons_of_mem _ ha)) _)
    have hspace : shape maxDepth (' ' :: (renderValue indent e.2 ++ rest)) =
        shape maxDepth (renderValue indent e.2 ++ rest) := by
      unfold shape
      rw [skipSpace_blank]
    simp only [takeAttribute, List.cons_append, colon_colon, bind, Except.bind]
    rw [hspace, hread]
    simp only [hvalue]

/-- **The attributes are read as they were written.** -/
theorem reads_renderAttributes (indent : Nat) {values : SortedMap String Value}
    (h : ∀ e ∈ values.entries, IsCanonical e.2) :
    Reads readAttributes (renderAttributes indent values) values := by
  intro rest
  obtain ⟨tail, htext, hread⟩ :=
    object_objectBlock (folds_takeAttribute (indent + 2) h SortedMap.empty) indent rest
  have hself : values.entries.foldl (fun m e => m.insert e.1 e.2) SortedMap.empty = values :=
    SortedMap.ofList_eq_self values
  unfold readAttributes
  rw [(opens_renderAttributes indent values).skipSpace, renderAttributes, htext]
  exact hself ▸ hread

/-- **An entry is read as it was written.** -/
theorem reads_render (indent : Nat) {e : Entry} (h : ∀ a ∈ e.attributes.entries, IsCanonical a.2) :
    Reads read (render indent e) e := by
  intro rest
  have hspace : ∀ cs, text (' ' :: cs) = text cs := fun cs => by
    unfold text
    rw [skipSpace_blank]
  have hattributes : ∀ cs, readAttributes (' ' :: cs) = readAttributes cs := fun cs => by
    unfold readAttributes
    rw [skipSpace_blank]
  have hid : Reads (Parts.member {} "rdfid") (':' :: ' ' :: quote e.rdfid)
      ⟨some e.rdfid, none, none⟩ := fun rest => by
    simp [Parts.member, colon_colon, hspace, reads_quote _ rest, bind, Except.bind]
  have htype : Reads (Parts.member ⟨some e.rdfid, none, none⟩ "type")
      (':' :: ' ' :: quote e.cimType) ⟨some e.rdfid, some e.cimType, none⟩ := fun rest => by
    simp [Parts.member, colon_colon, hspace, reads_quote _ rest, bind, Except.bind]
  have hvalues : Reads (Parts.member ⟨some e.rdfid, some e.cimType, none⟩ "attributes")
      (':' :: ' ' :: renderAttributes (indent + 2) e.attributes)
      ⟨some e.rdfid, some e.cimType, some e.attributes⟩ := fun rest => by
    simp [Parts.member, colon_colon, hattributes, reads_renderAttributes (indent + 2) h rest,
      bind, Except.bind]
  have hfolds := Folds.cons hid (.cons htype (.cons hvalues (.nil _)))
  obtain ⟨tail, htext, hread⟩ := object_objectBlock hfolds indent rest
  unfold read
  rw [(opens_render indent e).skipSpace, render, htext]
  simp [hread, Parts.entry, bind, Except.bind, pure, Except.pure]

/-- **A payload is read as it was written.** -/
theorem readAll_renderAll {es : List Entry}
    (h : ∀ e ∈ es, ∀ a ∈ e.attributes.entries, IsCanonical a.2) :
    readAll (renderAll es) = .ok es := by
  have hitems : List.Forall₂ (fun part x => Opens part ∧ Reads read part x)
      (es.map (render 2)) es := by
    rw [List.forall₂_map_left_iff, List.forall₂_same]
    exact fun e he => ⟨opens_render 2 e, reads_render 2 (h e he)⟩
  have hskip := (opens_listBlock 0 (es.map (render 2))).skipSpace []
  obtain ⟨tail, htext, hread⟩ := list_listBlock hitems 0 []
  rw [List.append_nil] at hskip htext
  unfold readAll renderAll
  rw [String.toList_ofList, hskip, htext]
  simp [hread, skipSpace, bind, Except.bind]

end Entry

end CimStore
