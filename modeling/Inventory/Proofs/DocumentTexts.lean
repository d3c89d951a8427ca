import Inventory.Json.Printer
import Inventory.Json.Reader
import Inventory.Proofs.Documents
import Inventory.Proofs.Spellings

/-!
The texts of documents. What is written for a value is read back as it stands, except that each number becomes what its
own text is read as.
-/

namespace Inventory.DocumentTexts

open Text Numeral Json Reader Document Spellings

variable {c : Char} {cs rest : List Char} {n fuel : Nat} {j : Json}

section Strings

theorem readOnto_lowHex (h : n < 0x20) : readOnto 16 0 (lowHex n) = some n := by
  have hall : ∀ n, n < 0x20 → readOnto 16 0 (lowHex n) = some n := by decide
  exact hall n h

theorem escapeChar_cases (c : Char) :
    (escapeChar c = [c] ∧ c ≠ '"' ∧ c ≠ '\\' ∧ 0x20 ≤ c.toNat) ∨
    (∃ e, escapeChar c = ['\\', e] ∧ simpleEscape? e = some c) ∨
    (escapeChar c = '\\' :: 'u' :: lowHex c.toNat ∧ c.toNat < 0x20) := by
  unfold escapeChar
  split
  · exact .inr (.inl ⟨'"', rfl, rfl⟩)
  · exact .inr (.inl ⟨'\\', rfl, rfl⟩)
  · exact .inr (.inl ⟨'b', rfl, rfl⟩)
  · exact .inr (.inl ⟨'f', rfl, rfl⟩)
  · exact .inr (.inl ⟨'n', rfl, rfl⟩)
  · exact .inr (.inl ⟨'r', rfl, rfl⟩)
  · exact .inr (.inl ⟨'t', rfl, rfl⟩)
  · rename_i hq hb _ _ _ _ _
    split
    · exact .inr (.inr ⟨rfl, ‹_›⟩)
    · exact .inl ⟨rfl, hq, hb, Nat.le_of_not_lt ‹_›⟩

theorem pieces_char (hq : c ≠ '"') (hb : c ≠ '\\') (hc : 0x20 ≤ c.toNat) (cs : List Char) :
    pieces (c :: cs) = (pieces cs).map fun r => (.char c :: r.1, r.2) := by
  rw [Reader.pieces]
  · rw [if_neg (by simp [hb, Nat.not_lt.2 hc])]
    cases pieces cs <;> rfl
  · exact fun he => absurd he hq
  · exact fun _ _ _ _ _ he => absurd he hb
  · exact fun _ _ he => absurd he hb

theorem pieces_escape {e : Char} (h : simpleEscape? e = some c) (cs : List Char) :
    pieces ('\\' :: e :: cs) = (pieces cs).map fun r => (.char c :: r.1, r.2) := by
  have hu : e ≠ 'u' := by
    rintro rfl
    cases h
  rw [Reader.pieces]
  · rw [h]
    cases pieces cs <;> rfl
  · exact fun _ _ _ _ _ he => absurd he hu

theorem pieces_lowHex (h : c.toNat < 0x20) (cs : List Char) :
    pieces ('\\' :: 'u' :: (lowHex c.toNat ++ cs)) = (pieces cs).map fun r => (.char c :: r.1, r.2) := by
  have hunit : ofUnit c.toNat = .char c := by
    have hhigh : isHigh c.toNat = false := by
      simp only [isHigh, Bool.and_eq_false_iff, decide_eq_false_iff_not]
      omega
    have hlow : isLow c.toNat = false := by
      simp only [isLow, Bool.and_eq_false_iff, decide_eq_false_iff_not]
      omega
    rw [ofUnit, hhigh, hlow, Char.ofNat_toNat]
    rfl
  have hread := readOnto_lowHex h
  rw [lowHex] at hread
  rw [lowHex, List.cons_append, List.cons_append, List.cons_append, List.cons_append, List.nil_append, Reader.pieces,
    hread, ← hunit]
  cases pieces cs <;> rfl

theorem pieces_escapeChar (c : Char) (cs : List Char) :
    pieces (escapeChar c ++ cs) = (pieces cs).map fun r => (.char c :: r.1, r.2) := by
  rcases escapeChar_cases c with ⟨he, hq, hb, hc⟩ | ⟨e, he, hsimple⟩ | ⟨he, hc⟩
  · rw [he]
    exact pieces_char hq hb hc cs
  · rw [he]
    exact pieces_escape hsimple cs
  · rw [he]
    exact pieces_lowHex hc cs

theorem pieces_escaped (cs rest : List Char) :
    pieces (cs.flatMap escapeChar ++ '"' :: rest) = some (cs.map .char, rest) := by
  induction cs with
  | nil => rfl
  | cons c cs ih => rw [List.flatMap_cons, List.append_assoc, pieces_escapeChar, ih, Option.map_some, List.map_cons]

theorem joinPieces_chars (cs : List Char) : joinPieces (cs.map .char) = some cs := by
  induction cs with
  | nil => rfl
  | cons c cs ih => rw [List.map_cons, joinPieces, ih, Option.map_some]

/-- A string is read back from behind its first quote, whatever follows it. -/
theorem string_escaped (s : String) (rest : List Char) :
    string (s.toList.flatMap escapeChar ++ '"' :: rest) = some (some s, rest) := by
  rw [string, pieces_escaped, Option.map_some]
  simp only [joinPieces_chars, Option.map_some, String.ofList_toList]

end Strings

/-- What the text of a number is read as, unless it is too large. -/
def readBack (n : Number) : Option Number :=
  match Reader.read? n.render with
  | some (.num m) => m
  | _ => none

section Values

theorem skipSpace_cons (h : isSpace c = false) (cs : List Char) : skipSpace (c :: cs) = c :: cs := by
  rw [skipSpace, List.dropWhile_cons, h]
  rfl

theorem isSpace_of_isDigit (h : c.isDigit = true) : isSpace c = false := by
  rw [Bool.eq_false_iff]
  intro hs
  simp only [isSpace, Bool.or_eq_true, beq_iff_eq] at hs
  rcases hs with ((rfl | rfl) | rfl) | rfl <;> cases h

theorem value_digit (h : c.isDigit = true) (cs : List Char) :
    value (fuel + 1) (c :: cs) = (number false (c :: cs)).map fun r => (.num r.1, r.2) := by
  rw [value, skipSpace_cons (isSpace_of_isDigit h)]
  split
  case h_8 => rfl
  all_goals
    rename_i he
    obtain ⟨rfl, -⟩ := List.cons.inj he
    cases h

theorem value_spelling {sp : Spelling} (hs : sp.Sound) (hrest : Stopped rest) :
    value (fuel + 1) (sp.chars ++ rest) = some (.num sp.number, rest) := by
  have hnumber := number_append hs hrest
  rw [Spelling.chars]
  cases hneg : sp.negative with
  | true =>
      rw [hneg] at hnumber
      rw [if_pos rfl, List.cons_append, value, skipSpace_cons (by decide)]
      simp only [hnumber, Option.map_some]
  | false =>
      rw [hneg] at hnumber
      rw [if_neg (by decide)]
      cases hwhole : sp.whole with
      | nil => exact absurd hwhole hs.begun
      | cons c cs =>
          have hc : c.isDigit = true := hs.whole c (by rw [hwhole]; exact List.mem_cons_self)
          have hcons : sp.unsigned ++ rest =
              c :: (cs ++ (Spelling.pointed sp.fraction ++ Spelling.powered sp.exp) ++ rest) := by
            rw [Spelling.unsigned, hwhole]
            rfl
          rw [hcons] at hnumber ⊢
          rw [value_digit hc, hnumber, Option.map_some]

theorem read?_of_value {text : String} {d : Document}
    (h : value (2 * text.toList.length + 2) text.toList = some (d, [])) : Reader.read? text = some d := by
  rw [Reader.read?, readChars?, h]
  rfl

theorem readBack_eq {m : Number} {sp : Spelling} (hs : sp.Sound) (ht : m.render.toList = sp.chars) :
    readBack m = sp.number := by
  have hread : Reader.read? m.render = some (.num sp.number) := by
    have hvalue : value (2 * sp.chars.length + 2) (sp.chars ++ []) = some (.num sp.number, []) :=
      value_spelling hs (by simp [Stopped])
    refine read?_of_value ?_
    rw [List.append_nil] at hvalue
    rwa [ht]
  rw [readBack, hread]

theorem head_renderChars (j : Json) : ∃ c cs, renderChars j = c :: cs ∧ isSpace c = false ∧ c ≠ ']' := by
  cases j with
  | null => exact ⟨_, _, rfl, by decide, by decide⟩
  | bool b => cases b <;> exact ⟨_, _, rfl, by decide, by decide⟩
  | str s => exact ⟨_, _, rfl, by decide, by decide⟩
  | arr items => exact ⟨_, _, rfl, by decide, by decide⟩
  | obj fields => exact ⟨_, _, rfl, by decide, by decide⟩
  | num n =>
      obtain ⟨sp, hs, ht⟩ := exists_sound n
      rw [renderChars, ht, Spelling.chars]
      split
      · exact ⟨_, _, rfl, by decide, by decide⟩
      · cases hwhole : sp.whole with
        | nil => exact absurd hwhole hs.begun
        | cons c cs =>
            have hc : c.isDigit = true := hs.whole c (by rw [hwhole]; exact List.mem_cons_self)
            refine ⟨c, cs ++ (Spelling.pointed sp.fraction ++ Spelling.powered sp.exp), ?_, isSpace_of_isDigit hc, ?_⟩
            · rw [Spelling.unsigned, hwhole, List.cons_append]
            · rintro rfl
              cases hc

theorem head_renderItems (j : Json) (js : List Json) :
    ∃ c cs, renderItems (j :: js) = c :: cs ∧ isSpace c = false ∧ c ≠ ']' := by
  obtain ⟨c, cs, hj, hc⟩ := head_renderChars j
  cases js with
  | nil => exact ⟨c, cs, hj, hc⟩
  | cons k js => exact ⟨c, cs ++ ',' :: renderItems (k :: js), by rw [renderItems, hj, List.cons_append]; simp, hc⟩

theorem length_renderChars_pos (j : Json) : 0 < (renderChars j).length := by
  obtain ⟨c, cs, hj, -⟩ := head_renderChars j
  rw [hj]
  exact Nat.succ_pos _

theorem stopped_cons (h : c ∈ [',', ']', '\x7d']) (cs : List Char) : Stopped (c :: cs) := by
  intro d hd
  cases hd
  exact h

theorem value_arr (hc : isSpace c = false) (hclose : c ≠ ']') (cs : List Char) :
    value (fuel + 1) ('[' :: c :: cs) = (items fuel (c :: cs)).map fun r => (.arr r.1, r.2) := by
  rw [value, skipSpace_cons (by decide)]
  simp only [skipSpace_cons hc]
  split
  · rename_i he
    exact absurd (List.cons.inj he).1 hclose
  · rfl

theorem value_obj (cs : List Char) :
    value (fuel + 1) ('\x7b' :: '"' :: cs) = (fields fuel ('"' :: cs)).map fun r => (.obj r.1, r.2) := by
  rw [value, skipSpace_cons (by decide)]
  simp only [skipSpace_cons (c := '"') (by decide)]
  rfl

theorem items_last {d : Document} (h : value fuel cs = some (d, ']' :: rest)) :
    items (fuel + 1) cs = some ([d], rest) := by
  rw [items, h]
  simp only [Option.bind_eq_bind, Option.bind_some, skipSpace_cons (c := ']') (by decide)]
  rfl

theorem items_next {d : Document} (h : value fuel cs = some (d, ',' :: rest)) :
    items (fuel + 1) cs = (items fuel rest).map fun r => (d :: r.1, r.2) := by
  rw [items, h]
  simp only [Option.bind_eq_bind, Option.bind_some, skipSpace_cons (c := ',') (by decide)]
  cases items fuel rest <;> rfl

/-- The text of a field up to its value. -/
def renderKey (k : String) : List Char := '"' :: (k.toList.flatMap escapeChar ++ ['"', ':'])

theorem fields_last {k : String} {d : Document} (h : value fuel cs = some (d, '\x7d' :: rest)) :
    fields (fuel + 1) (renderKey k ++ cs) = some ([(some k, d)], rest) := by
  rw [renderKey, List.cons_append, fields, skipSpace_cons (by decide)]
  simp only [List.append_assoc, List.cons_append, List.nil_append, string_escaped, Option.bind_eq_bind,
    Option.bind_some, skipSpace_cons (c := ':') (by decide), h, skipSpace_cons (c := '\x7d') (by decide)]
  rfl

theorem fields_next {k : String} {d : Document} (h : value fuel cs = some (d, ',' :: rest)) :
    fields (fuel + 1) (renderKey k ++ cs) = (fields fuel rest).map fun r => ((some k, d) :: r.1, r.2) := by
  rw [renderKey, List.cons_append, fields, skipSpace_cons (by decide)]
  simp only [List.append_assoc, List.cons_append, List.nil_append, string_escaped, Option.bind_eq_bind,
    Option.bind_some, skipSpace_cons (c := ':') (by decide), h, skipSpace_cons (c := ',') (by decide)]
  cases fields fuel rest <;> rfl

theorem renderFields_last (k : String) (j : Json) : renderFields [(k, j)] = renderKey k ++ renderChars j := by
  simp [renderFields, renderString, renderKey]

theorem renderFields_next (k : String) (j : Json) (f : String × Json) (fs : List (String × Json)) :
    renderFields ((k, j) :: f :: fs) = renderKey k ++ (renderChars j ++ ',' :: renderFields (f :: fs)) := by
  simp [renderFields, renderString, renderKey]

theorem head_renderFields (f : String × Json) (fs : List (String × Json)) :
    ∃ cs, renderFields (f :: fs) = '"' :: cs := by
  cases fs with
  | nil => exact ⟨_, renderFields_last _ _⟩
  | cons g fs => exact ⟨_, renderFields_next _ _ _ _⟩

-- A character is worth two steps: one for the value that begins there, one for the list or object around it.
mutual

/-- A value is read from its text, whatever follows that ends it. -/
theorem value_render : ∀ (j : Json) (rest : List Char) {fuel : Nat}, Stopped rest →
    2 * (renderChars j).length ≤ fuel + 1 → value fuel (renderChars j ++ rest) = some (reading readBack j, rest)
  | j, _, 0, _, hfuel => by
      have := length_renderChars_pos j
      omega
  | .null, rest, fuel + 1, _, _ => by
      rw [renderChars, List.cons_append, value, skipSpace_cons (by decide)]
      rfl
  | .bool true, rest, fuel + 1, _, _ => by
      rw [renderChars, List.cons_append, value, skipSpace_cons (by decide)]
      rfl
  | .bool false, rest, fuel + 1, _, _ => by
      rw [renderChars, List.cons_append, value, skipSpace_cons (by decide)]
      rfl
  | .num n, rest, fuel + 1, hrest, _ => by
      obtain ⟨sp, hs, ht⟩ := exists_sound n
      rw [renderChars, ht, value_spelling hs hrest, reading, readBack_eq hs ht]
  | .str s, rest, fuel + 1, _, _ => by
      rw [renderChars, renderString, List.cons_append, value, skipSpace_cons (by decide)]
      simp only [List.append_assoc, List.singleton_append, string_escaped, Option.map_some, reading]
  | .arr [], rest, fuel + 1, _, _ => by
      rw [renderChars, List.cons_append, value, skipSpace_cons (by decide)]
      rfl
  | .arr (j :: js), rest, fuel + 1, _, hfuel => by
      simp only [renderChars, List.length_cons, List.length_append] at hfuel
      have hitems := items_render (j :: js) rest (List.cons_ne_nil _ _) (by omega : _ ≤ fuel)
      obtain ⟨c, cs, hhead, hc, hclose⟩ := head_renderItems j js
      rw [renderChars, List.cons_append, List.append_assoc, List.singleton_append, hhead, List.cons_append,
        value_arr hc hclose, ← List.cons_append, ← hhead, hitems, Option.map_some, reading]
  | .obj [], rest, fuel + 1, _, _ => by
      rw [renderChars, List.cons_append, value, skipSpace_cons (by decide)]
      rfl
  | .obj (f :: fs), rest, fuel + 1, _, hfuel => by
      simp only [renderChars, List.length_cons, List.length_append] at hfuel
      have hfields := fields_render (f :: fs) rest (List.cons_ne_nil _ _) (by omega : _ ≤ fuel)
      obtain ⟨cs, hhead⟩ := head_renderFields f fs
      rw [renderChars, List.cons_append, List.append_assoc, List.singleton_append, hhead, List.cons_append,
        value_obj, ← List.cons_append, ← hhead, hfields, Option.map_some, reading]

theorem items_render : ∀ (js : List Json) (rest : List Char) {fuel : Nat}, js ≠ [] →
    2 * (renderItems js).length ≤ fuel →
      items fuel (renderItems js ++ ']' :: rest) = some (readingItems readBack js, rest)
  | [], _, _, hne, _ => absurd rfl hne
  | j :: js, _, 0, _, hfuel => by
      obtain ⟨c, cs, hhead, -⟩ := head_renderItems j js
      rw [hhead, List.length_cons] at hfuel
      omega
  | [j], rest, fuel + 1, _, hfuel => items_last (value_render j _ (stopped_cons (by decide) rest) hfuel)
  | j :: k :: js, rest, fuel + 1, _, hfuel => by
      simp only [renderItems, List.length_append, List.length_cons] at hfuel
      have hitems := items_render (k :: js) rest (List.cons_ne_nil _ _) (by omega : _ ≤ fuel)
      rw [renderItems, List.append_assoc, List.cons_append,
        items_next (value_render j _ (stopped_cons (by decide) _) (by omega)), hitems]
      rfl
      simp

theorem fields_render : ∀ (fs : List (String × Json)) (rest : List Char) {fuel : Nat}, fs ≠ [] →
    2 * (renderFields fs).length ≤ fuel →
      fields fuel (renderFields fs ++ '\x7d' :: rest) = some (readingFields readBack fs, rest)
  | [], _, _, hne, _ => absurd rfl hne
  | f :: fs, _, 0, _, hfuel => by
      obtain ⟨cs, hhead⟩ := head_renderFields f fs
      rw [hhead, List.length_cons] at hfuel
      omega
  | [(k, j)], rest, fuel + 1, _, hfuel => by
      rw [renderFields_last, List.length_append] at hfuel
      rw [renderFields_last, List.append_assoc,
        fields_last (value_render j _ (stopped_cons (by decide) rest) (by omega))]
      rfl
  | (k, j) :: f :: fs, rest, fuel + 1, _, hfuel => by
      rw [renderFields_next, List.length_append, List.length_append, List.length_cons] at hfuel
      have hfields := fields_render (f :: fs) rest (List.cons_ne_nil _ _) (by omega : _ ≤ fuel)
      rw [renderFields_next, List.append_assoc, List.append_assoc, List.cons_append,
        fields_next (value_render j _ (stopped_cons (by decide) _) (by omega)), hfields]
      rfl

end

/-- The text of a value is read as the value, up to its numbers. -/
theorem read?_render (j : Json) : Reader.read? j.render = some (reading readBack j) := by
  refine read?_of_value ?_
  rw [render, String.toList_ofList]
  simpa using value_render j [] (by simp [Stopped]) (Nat.le_add_right_of_le (Nat.le_add_right _ 2))

end Values

end Inventory.DocumentTexts
