import Inventory.Proofs.Literals

/-!
Texts between quotes. Each is a literal that is read back as its text, whatever stands in it; but of the control
characters only the ends of lines and the tabulator are escaped, so that any other stands in the literal as it is.
-/

namespace Inventory.QuotedTexts

open Text Quoted Literals

variable {c : Char} {cs : List Char} {s : String}

/-- A control character of ASCII. -/
def IsControl (c : Char) : Prop := c.toNat < 0x20 ∨ c.toNat = 0x7f

/-- What a character behind a backslash stands for, if it may stand there. -/
def escape? (c : Char) : Option Char := escapes.lookup c

/-- The text before the first quote that no backslash protects. Nothing may follow that quote. -/
def readBody? : List Char → Option (List Char)
  | [] => none
  | ['"'] => some []
  | '\\' :: e :: cs => (escape? e).bind fun c => (readBody? cs).map (c :: ·)
  | c :: cs => if c = '"' ∨ c = '\\' then none else (readBody? cs).map (c :: ·)

/-- The text that a literal stands for. -/
def read? : List Char → Option String
  | '"' :: cs => (readBody? cs).map String.ofList
  | _ => none

/-- Begun by a quote, and ended by the only other one that no backslash protects. -/
def Delimited (literal : List Char) : Prop := ∃ body, literal = '"' :: (body ++ ['"']) ∧ Body '"' body

/-- A literal of a text, in which no control character stands as it is. -/
structure WellFormed (s : String) (literal : List Char) : Prop where
  delimited : Delimited literal
  printable : ∀ c ∈ literal, ¬IsControl c
  readsBack : read? literal = some s

/-- A control character that has no escape. -/
def IsBare (c : Char) : Prop := IsControl c ∧ c ∉ ['\n', '\r', '\t']

theorem delimited_quoted (s : String) : Delimited (quoted s) := ⟨encode s.toList, rfl, body_encode s.toList⟩

section Reading

theorem readBody?_cons (hq : c ≠ '"') (hb : c ≠ '\\') : readBody? (c :: cs) = (readBody? cs).map (c :: ·) := by
  rw [readBody?, if_neg (not_or.2 ⟨hq, hb⟩)]
  · exact fun he => absurd he hq
  · exact fun _ _ he => absurd he hb

theorem readBody?_encode (cs : List Char) : readBody? (encode cs ++ ['"']) = some cs := by
  induction cs with
  | nil => rfl
  | cons c cs ih =>
      rw [encode, List.flatMap_cons, List.append_assoc, ← encode]
      rcases encodeChar_cases c with ⟨he, hne⟩ | ⟨e, he, hmem⟩
      · have hq := hne ('"', '"') (by decide)
        have hb := hne ('\\', '\\') (by decide)
        rw [he, List.singleton_append, readBody?_cons hq.symm hb.symm, ih, Option.map_some]
      · have hescape : ∀ p ∈ escapes, escape? p.1 = some p.2 := by decide
        rw [he, List.cons_append, List.singleton_append, readBody?, hescape (e, c) hmem, ih]
        rfl

theorem read?_quoted (s : String) : read? (quoted s) = some s := by
  rw [quoted, read?, readBody?_encode, Option.map_some, String.ofList_toList]

theorem quoted_injective : Function.Injective quoted := fun s t h => by
  have ht := read?_quoted t
  rw [← h, read?_quoted] at ht
  exact Option.some.inj ht

end Reading

section Controls

theorem not_isControl_delimiter : ¬IsControl '"' ∧ ¬IsControl '\\' := by
  unfold IsControl
  decide

/-- Of the characters with an escape, no control character is left out. -/
theorem isBare_iff : IsBare c ↔ IsControl c ∧ ∀ p ∈ escapes, p.2 ≠ c := by
  refine and_congr_right fun hc => ?_
  have hq : c ≠ '"' := fun h => not_isControl_delimiter.1 (h ▸ hc)
  have hb : c ≠ '\\' := fun h => not_isControl_delimiter.2 (h ▸ hc)
  simp [escapes, hq, hb, eq_comm (b := c)]

theorem mem_encodeChar_iff {a : Char} (hc : IsControl c) : c ∈ encodeChar a ↔ c = a ∧ IsBare c := by
  rw [isBare_iff]
  rcases encodeChar_cases a with ⟨he, hne⟩ | ⟨e, he, hmem⟩
  · rw [he, List.mem_singleton]
    exact ⟨fun h => ⟨h, hc, h ▸ hne⟩, fun h => h.1⟩
  · have hletter : ∀ p ∈ escapes, ¬IsControl p.1 := by
      unfold IsControl
      decide
    rw [he]
    refine iff_of_false (fun h => ?_) fun h => h.2.2 (e, a) hmem h.1.symm
    rcases List.mem_cons.1 h with rfl | h
    · exact not_isControl_delimiter.2 hc
    · exact hletter (e, a) hmem (List.mem_singleton.1 h ▸ hc)

theorem mem_quoted_iff (hc : IsControl c) : c ∈ quoted s ↔ c ∈ s.toList ∧ IsBare c := by
  have hq : c ≠ '"' := fun h => not_isControl_delimiter.1 (h ▸ hc)
  rw [quoted, List.mem_cons, or_iff_right hq, List.mem_append, List.mem_singleton, or_iff_left hq, encode,
    List.mem_flatMap]
  constructor
  · rintro ⟨a, ha, hmem⟩
    obtain ⟨rfl, hbare⟩ := (mem_encodeChar_iff hc).1 hmem
    exact ⟨ha, hbare⟩
  · rintro ⟨hs, hbare⟩
    exact ⟨c, hs, (mem_encodeChar_iff hc).2 ⟨rfl, hbare⟩⟩

end Controls

/-- A text between quotes is delimited and read back, so that no two texts have one literal; and it is a well-formed
literal exactly if every control character of the text ends a line or is a tabulator. -/
theorem wellFormed_unless_bare (s : String) :
    Delimited (quoted s) ∧ read? (quoted s) = some s ∧ (∀ t, quoted t = quoted s → t = s) ∧
      (WellFormed s (quoted s) ↔ ∀ c ∈ s.toList, ¬IsBare c) := by
  refine ⟨delimited_quoted s, read?_quoted s, fun t ht => quoted_injective ht, ?_⟩
  constructor
  · exact fun h c hmem hbare => h.printable c ((mem_quoted_iff hbare.1).2 ⟨hmem, hbare⟩) hbare.1
  · refine fun h => ⟨delimited_quoted s, fun c hmem hc => ?_, read?_quoted s⟩
    obtain ⟨hs, hbare⟩ := (mem_quoted_iff hc).1 hmem
    exact h c hs hbare

/-- A control character that neither ends a line nor is a tabulator is not escaped. -/
theorem not_wellFormed_control : IsControl '\x01' ∧ quoted "\x01" = ['"', '\x01', '"'] ∧
    ¬WellFormed "\x01" (quoted "\x01") := by
  have hc : IsControl '\x01' := .inl (by decide)
  exact ⟨hc, rfl, fun h => h.printable '\x01' (by decide) hc⟩

end Inventory.QuotedTexts
