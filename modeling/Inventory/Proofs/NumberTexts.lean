import Inventory.Json.Printer
import Inventory.Proofs.Uid

/-!
The characters that numbers are written with. Only numbers with a fraction have a point or an exponent, and all that
come from floating-point numbers have one.
-/

namespace Inventory.NumberTexts

open Text Numeral Binary64

variable {c : Char} {n : Nat} {lead : Int} {ds : List Char} {whole : Bool} {l : Layout}

/-- A mark in a number that is no integer. -/
def isMark (c : Char) : Bool := c == '.' || c == 'e'

/-- A character of a number. -/
def isNumeral (c : Char) : Bool := c.isDigit || c == '-' || c == '+' || isMark c

def Numerals (cs : List Char) : Prop := ∀ c ∈ cs, isNumeral c = true

instance (cs : List Char) : Decidable (Numerals cs) := List.decidableBAll _ cs

theorem isDigit_digitChar : ∀ d, d < 10 → (digitChar d).isDigit = true := by decide

theorem isDigit_of_mem_digits (h : c ∈ digits 10 n) : c.isDigit = true := by
  obtain ⟨d, hd, rfl⟩ := mem_digits (by decide) h
  exact isDigit_digitChar d hd

theorem isNumeral_of_isDigit (h : c.isDigit = true) : isNumeral c = true := by simp [isNumeral, h]

theorem numerals_digits (n : Nat) : Numerals (digits 10 n) :=
  fun _ hc => isNumeral_of_isDigit (isDigit_of_mem_digits hc)

theorem toList_signed (i : Int) :
    (signed i).toList = if i < 0 then '-' :: digits 10 i.natAbs else digits 10 i.natAbs := by
  rw [signed]
  split <;> simp [decimal]

theorem minus_not_mem_digits : '-' ∉ digits 10 n := fun h => absurd (isDigit_of_mem_digits h) (by decide)

theorem signed_injective {i j : Int} (h : (signed i).toList = (signed j).toList) : i = j := by
  rw [toList_signed, toList_signed] at h
  split at h <;> split at h
  · have := digits_injective (List.cons.inj h).2
    omega
  · exact absurd (h ▸ List.mem_cons_self) minus_not_mem_digits
  · exact absurd (h ▸ List.mem_cons_self) minus_not_mem_digits
  · have := digits_injective h
    omega

theorem numerals_signed (i : Int) : Numerals (signed i).toList := by
  rw [toList_signed]
  split
  · exact List.forall_mem_cons.2 ⟨by decide, numerals_digits _⟩
  · exact numerals_digits _

theorem not_isMark_of_isDigit (h : c.isDigit = true) : isMark c = false := by
  refine Bool.eq_false_iff.2 fun hm => ?_
  simp only [isMark, Bool.or_eq_true, beq_iff_eq] at hm
  rcases hm with rfl | rfl <;> cases h

theorem isMark_of_mem_signed {i : Int} (h : c ∈ (signed i).toList) : isMark c = false := by
  have hdigits : ∀ c ∈ digits 10 i.natAbs, isMark c = false :=
    fun c hc => not_isMark_of_isDigit (isDigit_of_mem_digits hc)
  rw [toList_signed] at h
  split at h
  · exact List.forall_mem_cons.2 ⟨by decide, hdigits⟩ c h
  · exact hdigits c h

section Layouts

theorem mem_significant (h : c ∈ significant ds) : c = '0' ∨ c ∈ ds := by
  unfold significant at h
  split at h
  · exact .inl (List.mem_singleton.1 h)
  · rename_i hk
    have hin := List.mem_reverse.1 h
    exact .inr (List.mem_reverse.1 ((List.dropWhile_sublist _).subset hin))

theorem numerals_significant (h : Numerals ds) : Numerals (significant ds) := by
  intro c hc
  rcases mem_significant hc with rfl | hc
  · decide
  · exact h c hc

theorem numerals_replicate (n : Nat) : Numerals (List.replicate n '0') := by
  intro c hc
  rw [List.eq_of_mem_replicate hc]
  decide

theorem numerals_layPositional (h : Numerals ds) : Numerals (layPositional whole ds lead) := by
  unfold layPositional
  split
  · refine List.forall_mem_cons.2 ⟨by decide, List.forall_mem_cons.2 ⟨by decide, ?_⟩⟩
    exact List.forall_mem_append.2 ⟨numerals_replicate _, h⟩
  · simp only []
    split
    · have hfraction : Numerals (if whole then ['.', '0'] else []) := by
        split <;> decide
      exact List.forall_mem_append.2 ⟨List.forall_mem_append.2 ⟨h, numerals_replicate _⟩, hfraction⟩
    · refine List.forall_mem_append.2 ⟨fun c hc => h c (List.mem_of_mem_take hc), ?_⟩
      exact List.forall_mem_cons.2 ⟨by decide, fun c hc => h c (List.mem_of_mem_drop hc)⟩

theorem layScientific_eq (ds : List Char) (lead : Int) : ∃ mantissa, (Numerals ds → Numerals mantissa) ∧
    layScientific ds lead = mantissa ++ 'e' :: (if lead < 0 then '-' else '+') :: digits 10 lead.natAbs := by
  match ds with
  | [] => exact ⟨[], id, rfl⟩
  | [d] => exact ⟨[d], id, rfl⟩
  | d :: e :: es =>
      refine ⟨d :: '.' :: e :: es, fun h => ?_, rfl⟩
      obtain ⟨hd, hes⟩ := List.forall_mem_cons.1 h
      exact List.forall_mem_cons.2 ⟨hd, List.forall_mem_cons.2 ⟨by decide, hes⟩⟩

theorem numerals_layScientific (h : Numerals ds) : Numerals (layScientific ds lead) := by
  obtain ⟨mantissa, hm, he⟩ := layScientific_eq ds lead
  rw [he]
  refine List.forall_mem_append.2 ⟨hm h, List.forall_mem_cons.2 ⟨by decide, List.forall_mem_cons.2 ⟨?_, ?_⟩⟩⟩
  · split <;> decide
  · exact numerals_digits _

theorem exists_mark_layPositional : ∃ c ∈ layPositional true ds lead, isMark c = true := by
  unfold layPositional
  split
  · exact ⟨'.', by simp, rfl⟩
  · simp only []
    split
    · exact ⟨'.', by simp, rfl⟩
    · exact ⟨'.', by simp, rfl⟩

theorem exists_mark_layScientific : ∃ c ∈ layScientific ds lead, isMark c = true := by
  obtain ⟨mantissa, -, he⟩ := layScientific_eq ds lead
  refine ⟨'e', ?_, rfl⟩
  rw [he]
  simp

theorem toList_render (l : Layout) (x : Binary64) : ∃ ds lead body, Numerals ds ∧
    (body = layPositional l.wholeFraction ds lead ∨ body = layScientific ds lead) ∧
      (x.render l).toList = if x.negative then '-' :: body else body := by
  let d := shortest l.tie x
  let lead := d.scale + (digits 10 d.digits).length - 1
  let ds := significant (digits 10 d.digits)
  have hds : Numerals ds := numerals_significant (numerals_digits d.digits)
  refine ⟨ds, lead, if l.positional lead then layPositional l.wholeFraction ds lead else layScientific ds lead, hds,
    ?_, String.toList_ofList⟩
  split
  · exact .inl rfl
  · exact .inr rfl

theorem numerals_render (l : Layout) (x : Binary64) : Numerals (x.render l).toList := by
  obtain ⟨ds, lead, body, hds, hbody, ht⟩ := toList_render l x
  have hnumerals : Numerals body := by
    rcases hbody with rfl | rfl
    · exact numerals_layPositional hds
    · exact numerals_layScientific hds
  rw [ht]
  split
  · exact List.forall_mem_cons.2 ⟨by decide, hnumerals⟩
  · exact hnumerals

theorem exists_mark_render (x : Binary64) : ∃ c ∈ (x.render .document).toList, isMark c = true := by
  obtain ⟨ds, lead, body, -, hbody, ht⟩ := toList_render .document x
  have hmark : ∃ c ∈ body, isMark c = true := by
    rcases hbody with rfl | rfl
    · exact exists_mark_layPositional
    · exact exists_mark_layScientific
  obtain ⟨c, hc, hm⟩ := hmark
  refine ⟨c, ?_, hm⟩
  rw [ht]
  split
  · exact List.mem_cons_of_mem _ hc
  · exact hc

end Layouts

theorem numerals_number (n : Number) : Numerals n.render.toList := by
  cases n with
  | int i => exact numerals_signed i
  | float x => exact numerals_render _ x

/-- Different integers have different texts, and no integer has the text of a floating-point number. -/
theorem number_injective {n n' : Number}
    (hfloats : ∀ x y, n = .float x → n' = .float y → x.render .document = y.render .document → x = y)
    (h : n.render = n'.render) : n = n' := by
  have hmixed : ∀ (i : Int) (x : Binary64), signed i ≠ x.render .document := by
    intro i x he
    obtain ⟨c, hc, hm⟩ := exists_mark_render x
    rw [← he] at hc
    rw [isMark_of_mem_signed hc] at hm
    cases hm
  cases n with
  | int i =>
      cases n' with
      | int j => exact congrArg _ (signed_injective (congrArg String.toList h))
      | float y => exact absurd h (hmixed i y)
  | float x =>
      cases n' with
      | int j => exact absurd h.symm (hmixed j x)
      | float y => exact congrArg _ (hfloats x y rfl rfl h)

end Inventory.NumberTexts
