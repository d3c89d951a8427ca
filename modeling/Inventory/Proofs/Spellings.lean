import Inventory.Json.Reader
import Inventory.Proofs.NumberTexts

/-!
How numbers are spelled in documents: a sign, digits, a fraction and an exponent. The parts of a spelling are what a
reader takes it apart into, whatever follows it.
-/

namespace Inventory.Spellings

open Text Numeral Binary64 Json Reader NumberTexts

variable {c : Char} {cs ds rest : List Char} {n : Nat} {lead : Int} {x : Binary64}

/-- The parts of a number as it is written. A number without a fraction has no point. -/
structure Spelling where
  negative : Bool
  whole : List Char
  fraction : List Char
  exp : Option Int

namespace Spelling

def pointed : List Char → List Char
  | [] => []
  | ds => '.' :: ds

def powered : Option Int → List Char
  | none => []
  | some e => 'e' :: (if e < 0 then '-' else '+') :: digits 10 e.natAbs

def unsigned (sp : Spelling) : List Char := sp.whole ++ (pointed sp.fraction ++ powered sp.exp)

def chars (sp : Spelling) : List Char := if sp.negative then '-' :: sp.unsigned else sp.unsigned

/-- Digits on both sides of the point, and no zero before others. -/
structure Sound (sp : Spelling) : Prop where
  whole : ∀ c ∈ sp.whole, c.isDigit = true
  fraction : ∀ c ∈ sp.fraction, c.isDigit = true
  begun : sp.whole ≠ []
  leading : ∀ ds, sp.whole = '0' :: ds → ds = []

/-- The power of ten that the last digit stands for. -/
def scale (sp : Spelling) : Int := sp.exp.getD 0 - sp.fraction.length

/-- What the spelling is read as, unless it is too large. -/
def number (sp : Spelling) : Option Number := makeNumber sp.negative sp.whole sp.fraction sp.exp

end Spelling

open Spelling

/-- What may stand behind a value in a document. -/
def Stopped (rest : List Char) : Prop := ∀ c, rest.head? = some c → c ∈ [',', ']', '\x7d']

section Reading

theorem isDigit_eq (c : Char) : Reader.isDigit c = c.isDigit := by
  simp [Reader.isDigit, Char.isDigit, Char.le_def]

theorem someDigits_append (hds : ∀ c ∈ ds, c.isDigit = true) (hne : ds ≠ [])
    (hrest : ∀ c, rest.head? = some c → c.isDigit = false) : someDigits (ds ++ rest) = some (ds, rest) := by
  have hall : ∀ c ∈ ds, Reader.isDigit c = true := fun c hc => (isDigit_eq c).trans (hds c hc)
  have hstop : rest.takeWhile Reader.isDigit = [] ∧ rest.dropWhile Reader.isDigit = rest := by
    cases rest with
    | nil => exact ⟨rfl, rfl⟩
    | cons c cs => simp [isDigit_eq, hrest c rfl]
  rw [someDigits, List.takeWhile_append_of_pos hall, List.dropWhile_append_of_pos hall, hstop.1, hstop.2,
    List.append_nil]
  cases ds with
  | nil => exact absurd rfl hne
  | cons d ds => rfl

theorem wholeDigits_append {sp : Spelling} (hs : sp.Sound) (hrest : ∀ c, rest.head? = some c → c.isDigit = false) :
    wholeDigits (sp.whole ++ rest) = some (sp.whole, rest) := by
  rw [wholeDigits, someDigits_append hs.whole hs.begun hrest]
  split
  · rename_i d ds r he
    have hwhole : sp.whole = '0' :: d :: ds := congrArg Prod.fst (Option.some.inj he)
    cases hs.leading _ hwhole
  · rfl

theorem fractionDigits_append (hds : ∀ c ∈ ds, c.isDigit = true)
    (hrest : ∀ c, rest.head? = some c → c.isDigit = false ∧ c ≠ '.') :
    fractionDigits (pointed ds ++ rest) = some (ds, rest) := by
  cases ds with
  | nil =>
      cases rest with
      | nil => rfl
      | cons c cs =>
          rw [pointed, List.nil_append, fractionDigits]
          exact fun _ he => (hrest c rfl).2 (List.cons.inj he).1
  | cons d ds =>
      rw [pointed, List.cons_append, fractionDigits]
      · exact someDigits_append hds (List.cons_ne_nil d ds) fun c hc => (hrest c hc).1
      · exact fun he => List.cons_ne_nil d ds he

theorem exponent_append {e : Option Int} (hrest : ∀ c, rest.head? = some c → c.isDigit = false ∧ c ≠ 'e' ∧ c ≠ 'E') :
    exponent (powered e ++ rest) = some (e, rest) := by
  cases e with
  | none =>
      cases rest with
      | nil => rfl
      | cons c cs =>
          obtain ⟨-, he, hE⟩ := hrest c rfl
          simp [powered, exponent, he, hE]
  | some e =>
      have hdigits : someDigits (digits 10 e.natAbs ++ rest) = some (digits 10 e.natAbs, rest) :=
        someDigits_append (fun _ hc => isDigit_of_mem_digits hc) (digits_ne_nil 10 _) fun c hc => (hrest c hc).1
      have hread : read? 10 (digits 10 e.natAbs) = some e.natAbs := read?_digits (by decide) (by decide) _
      have hletter : ('e' == 'e' || 'e' == 'E') = true := rfl
      by_cases hneg : e < 0
      · have hvalue : -(e.natAbs : Int) = e := by omega
        simp only [powered, exponent, if_pos hletter, if_pos hneg, List.cons_append, hdigits, Option.bind_some, hread,
          Option.pure_def, Option.bind_eq_bind, Option.map_some, hvalue, if_true]
      · have hvalue : (e.natAbs : Int) = e := by omega
        simp only [powered, exponent, if_pos hletter, if_neg hneg, List.cons_append, hdigits, Option.bind_some, hread,
          Option.pure_def, Option.bind_eq_bind, Option.map_some, hvalue, Bool.false_eq_true, if_false]

theorem not_stop (hrest : Stopped rest) (c : Char) (h : rest.head? = some c) :
    c.isDigit = false ∧ c ≠ '.' ∧ c ≠ 'e' ∧ c ≠ 'E' := by
  have hends := hrest c h
  simp only [List.mem_cons, List.not_mem_nil, or_false] at hends
  rcases hends with rfl | rfl | rfl <;> decide

theorem number_append {sp : Spelling} (hs : sp.Sound) (hrest : Stopped rest) :
    Reader.number sp.negative (sp.unsigned ++ rest) = some (sp.number, rest) := by
  have hexponent : exponent (powered sp.exp ++ rest) = some (sp.exp, rest) := exponent_append fun c hc =>
    ⟨(not_stop hrest c hc).1, (not_stop hrest c hc).2.2⟩
  have hpowered : ∀ c, (powered sp.exp ++ rest).head? = some c → c.isDigit = false ∧ c ≠ '.' := by
    intro c hc
    cases hexp : sp.exp with
    | none =>
        rw [hexp, powered, List.nil_append] at hc
        exact ⟨(not_stop hrest c hc).1, (not_stop hrest c hc).2.1⟩
    | some e =>
        rw [hexp, powered] at hc
        cases hc
        decide
  have hpointed : ∀ c, (pointed sp.fraction ++ (powered sp.exp ++ rest)).head? = some c → c.isDigit = false := by
    intro c hc
    cases hfraction : sp.fraction with
    | nil =>
        rw [hfraction] at hc
        exact (hpowered c hc).1
    | cons d ds =>
        rw [hfraction] at hc
        cases hc
        decide
  rw [unsigned, List.append_assoc, List.append_assoc, Reader.number, wholeDigits_append hs hpointed]
  simp only [Option.bind_eq_bind, Option.bind_some, fractionDigits_append hs.fraction hpowered, hexponent]
  rfl

end Reading

section Writing

theorem eq_zero_of_digits (h : digits 10 n = '0' :: ds) : n = 0 ∧ ds = [] := by
  induction n using Nat.strongRecOn generalizing ds with
  | ind n ih =>
      rw [digits] at h
      split at h
      · rename_i hn
        cases hq : digits 10 (n / 10) with
        | nil => exact absurd hq (digits_ne_nil 10 _)
        | cons c cs =>
            rw [hq] at h
            obtain ⟨rfl, -⟩ := List.cons.inj h
            have := (ih (n / 10) (Nat.div_lt_self (by omega) (by decide)) hq).1
            omega
      · have hzero : ∀ n, n < 10 → digitChar n = '0' → n = 0 := by decide
        obtain ⟨hc, hds⟩ := List.cons.inj h
        exact ⟨hzero n (by omega) hc, hds.symm⟩

/-- Digits of a number, the first of them standing for a power of ten, which is one if the number is zero. -/
structure Figures (ds : List Char) (lead : Int) : Prop where
  digits : ∀ c ∈ ds, c.isDigit = true
  begun : ds ≠ []
  leading : ∀ cs, ds = '0' :: cs → cs = [] ∧ lead = 0

/-- A spelling of the number that digits are of, up to zeros around them. Zeros follow the digits only up to the first
place behind the point. -/
structure Spells (sp : Spelling) (ds : List Char) (lead : Int) : Prop where
  sound : sp.Sound
  places : ∃ before after, sp.whole ++ sp.fraction = List.replicate before '0' ++ (ds ++ List.replicate after '0') ∧
    sp.scale = lead + 1 - ds.length - after ∧ (after = 0 ∨ sp.scale = -1)

theorem isDigit_replicate (k : Nat) : ∀ c ∈ List.replicate k '0', c.isDigit = true := by
  intro c hc
  rw [List.eq_of_mem_replicate hc]
  rfl

theorem pointed_of_ne_nil (h : ds ≠ []) : pointed ds = '.' :: ds := by
  cases ds with
  | nil => exact absurd rfl h
  | cons d ds => rfl

theorem spells_small (h : Figures ds lead) (hlead : lead < 0) :
    Spells ⟨false, ['0'], List.replicate (-lead - 1).toNat '0' ++ ds, none⟩ ds lead := by
  refine ⟨⟨?_, ?_, ?_, ?_⟩, (-lead - 1).toNat + 1, 0, ?_, ?_, .inl rfl⟩
  · intro c hc
    rw [List.mem_singleton.1 hc]
    rfl
  · exact List.forall_mem_append.2 ⟨isDigit_replicate _, h.digits⟩
  · exact List.cons_ne_nil _ _
  · exact fun _ he => (List.cons.inj he).2.symm
  · simp [List.replicate_succ]
  · simp only [scale, Option.getD_none, List.length_append, List.length_replicate]
    omega

theorem spells_whole (h : Figures ds lead) (hlead : 0 ≤ lead) (hlong : ds.length ≤ (lead + 1).toNat) :
    Spells ⟨false, ds ++ List.replicate ((lead + 1).toNat - ds.length) '0', ['0'], none⟩ ds lead := by
  refine ⟨⟨?_, ?_, ?_, ?_⟩, 0, (lead + 1).toNat - ds.length + 1, ?_, ?_, .inr rfl⟩
  · exact List.forall_mem_append.2 ⟨h.digits, isDigit_replicate _⟩
  · intro c hc
    rw [List.mem_singleton.1 hc]
    rfl
  · exact List.append_ne_nil_of_left_ne_nil h.begun _
  · intro cs he
    cases ds with
    | nil => exact absurd rfl h.begun
    | cons d ds =>
        obtain ⟨rfl, hcs⟩ := List.cons.inj he
        obtain ⟨rfl, rfl⟩ := h.leading ds rfl
        simpa using hcs.symm
  · simp [List.replicate_succ']
  · simp only [scale, Option.getD_none, List.length_singleton]
    omega

theorem spells_split (h : Figures ds lead) (hlead : 0 ≤ lead) (hlong : (lead + 1).toNat < ds.length) :
    Spells ⟨false, ds.take (lead + 1).toNat, ds.drop (lead + 1).toNat, none⟩ ds lead := by
  refine ⟨⟨?_, ?_, ?_, ?_⟩, 0, 0, ?_, ?_, .inl rfl⟩
  · exact fun c hc => h.digits c (List.mem_of_mem_take hc)
  · exact fun c hc => h.digits c (List.mem_of_mem_drop hc)
  · rw [Ne, List.take_eq_nil_iff, not_or]
    exact ⟨by omega, h.begun⟩
  · intro cs he
    cases ds with
    | nil => exact absurd rfl h.begun
    | cons d ds =>
        have hpos : (lead + 1).toNat = lead.toNat + 1 := by omega
        rw [hpos, List.take_succ_cons] at he
        obtain ⟨rfl, -⟩ := List.cons.inj he
        obtain ⟨rfl, rfl⟩ := h.leading ds rfl
        simp at hlong
  · simp
  · simp only [scale, Option.getD_none, List.length_drop]
    omega

theorem spells_scientific {d : Char} (h : Figures (d :: ds) lead) :
    Spells ⟨false, [d], ds, some lead⟩ (d :: ds) lead := by
  obtain ⟨hd, hds⟩ := List.forall_mem_cons.1 h.digits
  refine ⟨⟨?_, hds, List.cons_ne_nil _ _, fun _ he => (List.cons.inj he).2.symm⟩, 0, 0, ?_, ?_, .inl rfl⟩
  · intro c hc
    rw [List.mem_singleton.1 hc]
    exact hd
  · simp
  · simp only [scale, Option.getD_some, List.length_cons]
    omega

theorem exists_spells_layPositional (h : Figures ds lead) :
    ∃ sp : Spelling, Spells sp ds lead ∧ sp.unsigned = layPositional true ds lead := by
  unfold layPositional
  split
  · rename_i hlead
    refine ⟨_, spells_small h hlead, ?_⟩
    simp [unsigned, powered, pointed_of_ne_nil (List.append_ne_nil_of_right_ne_nil _ h.begun)]
  · rename_i hlead
    simp only []
    split
    · rename_i hlong
      refine ⟨_, spells_whole h (by omega) hlong, ?_⟩
      simp [unsigned, powered, pointed]
    · rename_i hlong
      refine ⟨_, spells_split h (by omega) (by omega), ?_⟩
      have hne : ds.drop (lead + 1).toNat ≠ [] := by
        rw [Ne, List.drop_eq_nil_iff]
        omega
      simp [unsigned, powered, pointed_of_ne_nil hne]

theorem exists_spells_layScientific (h : Figures ds lead) :
    ∃ sp : Spelling, Spells sp ds lead ∧ sp.unsigned = layScientific ds lead := by
  cases ds with
  | nil => exact absurd rfl h.begun
  | cons d ds =>
      refine ⟨_, spells_scientific h, ?_⟩
      cases ds <;> simp [unsigned, pointed, powered, layScientific]

theorem Spells.withSign {sp : Spelling} (h : Spells sp ds lead) (negative : Bool) :
    Spells { sp with negative } ds lead :=
  ⟨⟨h.sound.whole, h.sound.fraction, h.sound.begun, h.sound.leading⟩, h.places⟩

theorem significant_ne_nil (ds : List Char) : significant ds ≠ [] := by
  unfold significant
  split
  · exact List.cons_ne_nil _ _
  · assumption

theorem exists_zeros_behind (ds : List Char) :
    ∃ k, ds = (ds.reverse.dropWhile (· == '0')).reverse ++ List.replicate k '0' := by
  have hzeros : ∀ c ∈ ds.reverse.takeWhile (· == '0'), c = '0' :=
    fun c hc => beq_iff_eq.1 (List.all_eq_true.1 List.all_takeWhile c hc)
  refine ⟨(ds.reverse.takeWhile (· == '0')).length, ?_⟩
  calc
    ds = (ds.reverse.takeWhile (· == '0') ++ ds.reverse.dropWhile (· == '0')).reverse := by
      rw [List.takeWhile_append_dropWhile, List.reverse_reverse]
    _ = (ds.reverse.dropWhile (· == '0')).reverse ++ (ds.reverse.takeWhile (· == '0')).reverse := List.reverse_append
    _ = _ := by
      rw [List.eq_replicate_iff.2 ⟨rfl, hzeros⟩, List.reverse_replicate, List.length_replicate]

/-- Zeros are left out at the end of the digits of a number, and nothing else. -/
theorem digits_eq_significant (n : Nat) : ∃ k, digits 10 n = significant (digits 10 n) ++ List.replicate k '0' := by
  obtain ⟨k, hdigits⟩ := exists_zeros_behind (digits 10 n)
  cases hkept : ((digits 10 n).reverse.dropWhile (· == '0')).reverse with
  | cons c cs =>
      have hsignificant : significant (digits 10 n) = c :: cs := by
        rw [significant, hkept]
      rw [hsignificant, ← hkept]
      exact ⟨k, hdigits⟩
  -- zero has no digit but the one that is left out
  | nil =>
      rw [hkept, List.nil_append] at hdigits
      cases k with
      | zero => exact absurd hdigits (digits_ne_nil 10 n)
      | succ k =>
          rw [List.replicate_succ] at hdigits
          rw [(eq_zero_of_digits hdigits).2] at hdigits
          exact ⟨0, by rw [significant, hkept, hdigits]; rfl⟩

theorem figures_significant (hn : n ≠ 0) (lead : Int) : Figures (significant (digits 10 n)) lead := by
  obtain ⟨k, hk⟩ := digits_eq_significant n
  refine ⟨fun c hc => ?_, significant_ne_nil _, fun cs he => ?_⟩
  · refine isDigit_of_mem_digits (n := n) ?_
    rw [hk]
    exact List.mem_append_left _ hc
  · rw [he, List.cons_append] at hk
    exact absurd (eq_zero_of_digits hk).1 hn

/-- A decimal that has been chosen reads back, unless none of few digits does. -/
theorem readsAs_shortest (tie : Tie) (hx : x.isZero = false) :
    readsAs x (shortest tie x) = true ∨ shortest tie x = exact x := by
  rw [shortest, hx, if_neg (by simp)]
  simp only []
  cases h : (List.range 17).findSome? fun (n : Nat) =>
      (neighbours tie x (leadExponent x.magnitude unitsPerOne - n)).find? (readsAs x) with
  | none => exact .inr rfl
  | some d =>
      obtain ⟨k, -, hd⟩ := List.exists_of_findSome?_eq_some h
      exact .inl (List.find?_some hd)

theorem magnitude_pos (hx : x.isZero = false) : 0 < x.magnitude := by
  have hm : 0 < x.mant := by
    rw [isZero, beq_eq_false_iff_ne] at hx
    omega
  rw [magnitude, Nat.shiftLeft_eq]
  exact Nat.mul_pos hm (Nat.two_pow_pos _)

theorem digits_shortest_ne_zero {tie : Tie} (hx : x.isZero = false) : (shortest tie x).digits ≠ 0 := by
  rcases readsAs_shortest tie hx with h | h
  · intro hzero
    rw [readsAs, hzero, ofDecimal?, if_pos rfl, beq_iff_eq] at h
    rw [← Option.some.inj h] at hx
    cases hx
  · have hpow : ∀ k, 0 < Nat.pow 5 k := fun k => Nat.pow_pos (by decide)
    rw [h]
    exact Nat.ne_of_gt (Nat.mul_pos (magnitude_pos hx) (hpow 1074))

/-- The exponent of the first digit of a number as it is written. -/
def leading (l : Layout) (x : Binary64) : Int :=
  (shortest l.tie x).scale + (digits 10 (shortest l.tie x).digits).length - 1

/-- The digits of a number as it is written, without zeros around them. -/
def figures (l : Layout) (x : Binary64) : List Char := significant (digits 10 (shortest l.tie x).digits)

theorem figures_of_render (l : Layout) (x : Binary64) : Figures (figures l x) (leading l x) := by
  cases hx : x.isZero with
  | false => exact figures_significant (digits_shortest_ne_zero hx) _
  | true =>
      have hshortest : shortest l.tie x = ⟨0, 0⟩ := by rw [shortest, if_pos hx]
      have hdigits : digits 10 0 = ['0'] := by
        rw [digits, if_neg (by decide)]
        rfl
      have hsignificant : significant ['0'] = ['0'] := rfl
      rw [figures, leading, hshortest, hdigits, hsignificant]
      refine ⟨fun c hc => ?_, List.cons_ne_nil _ _, fun cs he => ⟨(List.cons.inj he).2.symm, rfl⟩⟩
      rw [List.mem_singleton.1 hc]
      rfl

theorem exists_spells_render (x : Binary64) : ∃ sp : Spelling, Spells sp (figures .document x) (leading .document x) ∧
    sp.negative = x.negative ∧ (x.render .document).toList = sp.chars := by
  have hbody : ∃ sp : Spelling, Spells sp (figures .document x) (leading .document x) ∧
      sp.unsigned = if Layout.document.positional (leading .document x) then
        layPositional true (figures .document x) (leading .document x)
      else layScientific (figures .document x) (leading .document x) := by
    split
    · exact exists_spells_layPositional (figures_of_render .document x)
    · exact exists_spells_layScientific (figures_of_render .document x)
  obtain ⟨sp, hsp, hu⟩ := hbody
  refine ⟨{ sp with negative := x.negative }, hsp.withSign x.negative, rfl, ?_⟩
  have hsame : Spelling.unsigned { sp with negative := x.negative } = sp.unsigned := rfl
  rw [Spelling.chars, hsame, hu]
  exact String.toList_ofList

def integer (i : Int) : Spelling := ⟨decide (i < 0), digits 10 i.natAbs, [], none⟩

theorem sound_integer (i : Int) : (integer i).Sound where
  whole := fun _ hc => isDigit_of_mem_digits hc
  fraction := by simp [integer]
  begun := digits_ne_nil 10 _
  leading := fun _ he => (eq_zero_of_digits he).2

theorem chars_integer (i : Int) : (signed i).toList = (integer i).chars := by
  simp [integer, toList_signed, Spelling.chars, Spelling.unsigned, pointed, powered]

theorem exists_sound (n : Number) : ∃ sp : Spelling, sp.Sound ∧ n.render.toList = sp.chars := by
  cases n with
  | int i => exact ⟨integer i, sound_integer i, chars_integer i⟩
  | float x =>
      obtain ⟨sp, hsp, -, ht⟩ := exists_spells_render x
      exact ⟨sp, hsp.sound, ht⟩

end Writing

end Inventory.Spellings
