import Inventory.Listing.Filter
import Inventory.Text.Pattern.Size
import Mathlib.Data.List.Forall2

/-!
The patterns of searches by a beginning: which texts they match, and that none is longer than patterns may be.
-/

namespace Inventory

open Text

/-- A text that begins with another, whatever the case of letters. -/
def BeginsWith (s v : String) : Prop :=
  ∃ head rest, s.toList = head ++ rest ∧ List.Forall₂ (fun d c => LetterCase.sameFolded d c = true) v.toList head

namespace Text.Pattern

open Listing

variable {ignoreCase : Bool} {c : Char} {cs vs : List Char} {before : Option Char} {ts : List Token} {n : Size}

section Reading

theorem escape?_of_meta (h : c ∈ metaChars) : escape? ignoreCase (c :: cs) = some (.char c, cs) := by
  simp only [metaChars, List.mem_cons, List.not_mem_nil, or_false] at h
  rcases h with rfl | rfl | rfl | rfl | rfl | rfl | rfl | rfl | rfl | rfl | rfl | rfl | rfl | rfl | rfl | rfl | rfl |
    rfl <;> rfl

/-- A character that needs a backslash has one, so each is read as itself. -/
theorem parse?_escaped (cs : List Char) : parse? ignoreCase (cs.flatMap escapeChar) = some (cs.map .char) := by
  induction cs with
  | nil => rw [List.flatMap_nil, parse?, List.map_nil]
  | cons c cs ih =>
      rw [List.flatMap_cons, List.map_cons]
      by_cases hc : c ∈ metaChars
      · have he : escapeChar c = ['\\', c] := by simp [escapeChar, hc]
        rw [he, List.cons_append, List.cons_append, List.nil_append, parse?]
        split
        · rename_i t rest ht
          rw [escape?_of_meta hc] at ht
          cases ht
          rw [ih]
          rfl
        · rename_i ht
          rw [escape?_of_meta hc] at ht
          cases ht
      · have he : escapeChar c = [c] := by simp [escapeChar, hc]
        have hplain : ∀ d ∈ metaChars, c ≠ d := fun d hd hcd => hc (hcd ▸ hd)
        have hsub : unsupported.all metaChars.contains = true := rfl
        have hu : c ∉ unsupported := fun hu => hc (List.contains_iff_mem.1 (List.all_eq_true.1 hsub c hu))
        -- what the reader does not support is among what is written with a backslash
        rw [he, List.singleton_append, parse?, if_neg (by simp [hu]), ih]
        · rfl
        · exact hplain _ (by decide)
        · exact hplain _ (by decide)
        · exact hplain _ (by decide)

theorem parse?_startingWith (v : String) :
    parse? ignoreCase (startingWith v).toList = some (.place .start :: v.toList.map .char) := by
  rw [startingWith, String.toList_ofList, parse?, parse?_escaped]
  rfl

theorem eq_of_compile?_startingWith {v : String} (h : compile? ignoreCase (startingWith v).toList = some ts) :
    ts = .place .start :: v.toList.map .char := by
  obtain ⟨hp, -⟩ := Option.filter_eq_some_iff.1 h
  rw [parse?_startingWith] at hp
  exact (Option.some.inj hp).symm

end Reading

section Matching

theorem matchesHere_chars : matchesHere true (vs.map .char) before cs = true ↔
    ∃ head rest, cs = head ++ rest ∧ List.Forall₂ (fun d c => LetterCase.sameFolded d c = true) vs head := by
  induction vs generalizing before cs with
  | nil => simp [matchesHere]
  | cons v vs ih =>
      cases cs with
      | nil =>
          simp only [List.map_cons, matchesHere, Bool.false_eq_true, false_iff]
          rintro ⟨head, rest, he, h⟩
          cases h
          cases he
      | cons c cs =>
          simp only [List.map_cons, matchesHere, Token.matchesChar, if_true, Bool.and_eq_true, ih]
          constructor
          · rintro ⟨hv, head, rest, rfl, h⟩
            exact ⟨c :: head, rest, rfl, .cons hv h⟩
          · rintro ⟨head, rest, he, h⟩
            cases h with
            | cons hv h =>
                cases he
                exact ⟨hv, _, rest, rfl, h⟩

theorem not_found_start : found ignoreCase (.place .start :: ts) (some c) cs = false := by
  induction cs generalizing c with
  | nil => rfl
  | cons d cs ih =>
      rw [found, ih, Bool.or_false]
      rfl

theorem isMatch_startingWith {s v : String} :
    isMatch true (.place .start :: v.toList.map .char) s = true ↔ BeginsWith s v := by
  have hhere : isMatch true (.place .start :: v.toList.map .char) s =
      matchesHere true (v.toList.map .char) none s.toList := by
    unfold isMatch
    cases s.toList with
    | nil => rfl
    | cons c cs =>
        rw [found, not_found_start, Bool.or_false]
        rfl
  rw [hhere]
  exact matchesHere_chars

end Matching

section Length

theorem le_lookUp (m : Shared) (i key : Nat) : m.states ≤ (m.lookUp i key).1.states := by
  obtain ⟨states, places⟩ := m
  rw [Shared.lookUp]
  split
  · split
    · exact Nat.le_refl _
    · exact Nat.le_succ _
  · exact Nat.le_succ _

theorem le_read (m : Shared) (next : Nat) (rs : List (Nat × Nat)) : m.states ≤ (m.read next rs).states := by
  have hfold : ∀ p : Shared × Nat, p.1.states ≤ (rs.foldl Shared.readRange p).1.states := by
    induction rs with
    | nil => exact fun p => Nat.le_refl _
    | cons r rs ih => exact fun p => Nat.le_trans (le_lookUp p.1 _ _) (ih _)
  exact hfold (m, next)

theorem lt_addSet (s : CharSet) : n.states < (n.addSet s).states := by
  unfold Size.addSet
  split
  · exact Nat.lt_add_of_pos_right (by decide)
  · have hfold : ∀ (sequences : List (List (Nat × Nat))) (m : Shared), m.states ≤
        (sequences.foldl (fun m sequence => m.read (n.states + 1) sequence) m).states := by
      intro sequences
      induction sequences with
      | nil => exact fun m => Nat.le_refl _
      | cons sequence sequences ih => exact fun m => Nat.le_trans (le_read m _ sequence) (ih _)
    exact Nat.lt_of_lt_of_le (Nat.lt_add_of_pos_right (by decide)) (hfold _ ⟨n.states + 2, Array.replicate 1000 none⟩)

theorem lt_addChar (c : Char) : n.states < (n.addChar c).states := Nat.lt_add_of_pos_right c.utf8Size_pos

theorem lt_addToken (t : Token) : n.states < (n.addToken ignoreCase t).states := by
  cases t with
  | char c =>
      simp only [Size.addToken]
      split
      · exact lt_addChar c
      · split
        · exact lt_addSet _
        · exact lt_addChar c
  | oneOf s =>
      simp only [Size.addToken]
      split
      · split
        · exact lt_addChar _
        · exact lt_addSet _
      · exact lt_addSet _
  | place p => exact Nat.lt_succ_self _

theorem le_limit_of_fits (h : n.fits ignoreCase ts = true) : 32 * (n.states + ts.length) ≤ Size.limit := by
  induction ts generalizing n with
  | nil =>
      have hle : (Size.mk (n.states + 1) (n.branches + 1) n.ranges).bytes ≤ Size.limit := of_decide_eq_true h
      simp only [Size.bytes, List.length_nil] at hle ⊢
      omega
  | cons t ts ih =>
      rw [Size.fits, Bool.and_eq_true] at h
      have hle := ih h.2
      have hlt : n.states < (n.addToken ignoreCase t).states := lt_addToken t
      rw [List.length_cons]
      omega

/-- A pattern has no more tokens than there is room for their states. -/
theorem le_limit_of_compile? {pattern : List Char} (h : compile? ignoreCase pattern = some ts) :
    32 * ts.length ≤ Size.limit := by
  obtain ⟨-, hf⟩ := Option.filter_eq_some_iff.1 h
  have hle := le_limit_of_fits hf
  rw [List.length_reverse] at hle
  omega

theorem compile?_startingWith_eq_none {v : String} (h : Size.limit < 32 * v.toList.length) :
    compile? ignoreCase (startingWith v).toList = none := by
  cases hc : compile? ignoreCase (startingWith v).toList with
  | none => rfl
  | some ts =>
      have hle := le_limit_of_compile? hc
      rw [eq_of_compile?_startingWith hc, List.length_cons, List.length_map] at hle
      omega

end Length

end Text.Pattern

end Inventory
