import Inventory.Proofs.InstancePages

/-!
What the filter of a search by the beginning of a text finds, whatever the characters of the text: the values that begin
with it up to the case of letters. Its test fails only where a pattern made of such a text is too large.
-/

namespace Inventory.PrefixSearches

open Query Listing Inventory.Graph Store Text

variable {path : Path} {t : EquipmentType} {attr : Attribute} {q : Search} {v : FieldValue} {stored : List Json}

/-- Some stored text begins with one that a search offers. -/
def Begun (stored : List Json) (q : Search) (attr : Attribute) : Prop :=
  ∃ v, Offers q attr (.string v) ∧ ∃ s, .str s ∈ stored ∧ BeginsWith s v

/-- The pattern of a text is no larger than patterns may be. -/
def Accepted (v : String) : Prop := ∃ ts, Pattern.compile? true (startingWith v).toList = some ts

/-- A test fails on a text that a search offers. -/
def FailsOn (q : Search) (attr : Attribute) (e : QueryFault) : Prop :=
  ∃ v, Offers q attr (.string v) ∧ ¬Accepted v ∧ e = .invalidPattern (.tooLarge (startingWith v))

theorem not_accepted_iff {v : String} :
    ¬Accepted v ↔ Pattern.compile? true (startingWith v).toList = none := by
  rw [Option.eq_none_iff_forall_ne_some]
  exact not_exists

theorem exists_string_of_offers (hstring : attr.dataType = .string) (h : Offers q attr v) : ∃ s, v = .string s := by
  obtain ⟨raw, -, hc⟩ := h
  have htype : v.dataType = .string := (Conversions.dataType_of_convert hc).trans hstring
  cases v with
  | string s => exact ⟨s, rfl⟩
  | int i => cases htype
  | float x => cases htype

section Searches

variable (hstring : attr.dataType = .string) (hregex : q.comparison = .regex)
include hstring hregex

theorem begun_iff : (∃ v ∈ offers q attr, MeetsOn path stored q.comparison v) ↔ Begun stored q attr := by
  rw [hregex]
  constructor
  · rintro ⟨v, hv, hm⟩
    obtain ⟨s, rfl⟩ := exists_string_of_offers hstring (mem_offers.1 hv)
    refine ⟨s, mem_offers.1 hv, ?_⟩
    cases path <;> exact hm
  · rintro ⟨s, hs, hbegins⟩
    refine ⟨.string s, mem_offers.2 hs, ?_⟩
    cases path <;> exact hbegins

theorem settles_begun {f : Filter} (hf : searchFilter? path t attr q = some f) (g : Graph) (vars : Vars) (u : Uid) :
    Settles (FailsOn q attr) (holds g vars u f) (Begun (g.values u (predicateOf t attr)) q attr) := by
  have hany : Settles (FailsOn q attr) (holds g vars u f)
      (∃ v ∈ offers q attr, MeetsOn path (g.values u (predicateOf t attr)) q.comparison v) :=
    settles_searchFilter? hf fun s _ hs hnone => ⟨s, hs, not_accepted_iff.2 hnone, rfl⟩
  exact hany.congr (begun_iff hstring hregex)

end Searches

/-- The filter of a search by beginnings finds the nodes of which some value begins with some text that is offered. It
always decides where the patterns of those texts are accepted, and it fails only on one whose pattern is not. -/
theorem finds_begun_or_fails (path : Path) (t : EquipmentType) (hstring : attr.dataType = .string)
    (hregex : q.comparison = .regex) (hsome : ∃ v, Offers q attr v) :
    ∃ f, searchFilter? path t attr q = some f ∧ ∀ g vars u,
      (∀ b, holds g vars u f = .ok b → (b = true ↔ Begun (g.values u (predicateOf t attr)) q attr)) ∧
      (∀ e, holds g vars u f = .error e → FailsOn q attr e) ∧
      ((∀ v, Offers q attr (.string v) → Accepted v) → ∃ b, holds g vars u f = .ok b) := by
  obtain ⟨v, hv⟩ := hsome
  obtain ⟨f, hf⟩ := exists_searchFilter? path t hv
  refine ⟨f, hf, fun g vars u => ?_⟩
  obtain ⟨hdecides, hfails⟩ := settles_begun hstring hregex hf g vars u
  refine ⟨hdecides, hfails, fun haccepted => ?_⟩
  cases hr : holds g vars u f with
  | ok b => exact ⟨b, rfl⟩
  | error e =>
      obtain ⟨v, hv, hnot, -⟩ := hfails e hr
      exact absurd (haccepted v hv) hnot

section Signs

open InstanceListing (server shelf longText compile?_longText holds_startingWith_of_none)

/-- A text of characters with a meaning in patterns, and of others. -/
def sign : String := "r.*(k)/\"\n^$"

/-- A text that begins with the sign but for the case of its letters, one of which is the Kelvin sign, and one that
does not, but would if characters had their meaning. -/
def signs : Store :=
  (unused .none).afterCalls [.execute (.of none [⟨none,
    [.text (.blank "x") Vocabulary.identifier "R.*(\u212a)/\"\n^$ etc.",
      .text (.blank "y") Vocabulary.identifier "r..k/\"\n"], []⟩])]

def key : Attribute := .identifier "key" "id"

theorem offers_sign {v : String} : Offers (.regex "key" sign) key (.string v) ↔ v = sign := by
  rw [offers_single rfl (rfl : FieldValue.convert key.dataType (.str sign) = .ok (.string sign)),
    FieldValue.string.injEq]

theorem accepted_sign : Accepted sign := by
  have hsome : (Pattern.compile? true (startingWith sign).toList).isSome = true := by decide +kernel
  exact Option.isSome_iff_exists.1 hsome

theorem begun_sign_iff {u : Uid} {s : String} (h : signs.graph.values u Vocabulary.identifier = [.str s]) :
    Begun (signs.graph.values u Vocabulary.identifier) (.regex "key" sign) key ↔
      Pattern.isMatch true (.place .start :: sign.toList.map .char) s = true := by
  simp only [Begun, offers_sign, exists_eq_left, h, List.mem_singleton, Json.str.injEq,
    Pattern.isMatch_startingWith]

/-- The sign is found where a text begins with it, and nowhere else. -/
theorem finds_sign : ∃ f, searchFilter? .related server key (.regex "key" sign) = some f ∧
    holds signs.graph .empty ⟨1⟩ f = .ok true ∧ holds signs.graph .empty ⟨2⟩ f = .ok false := by
  have hfirst : signs.graph.values ⟨1⟩ Vocabulary.identifier = [.str "R.*(\u212a)/\"\n^$ etc."] := by decide +kernel
  have hsecond : signs.graph.values ⟨2⟩ Vocabulary.identifier = [.str "r..k/\"\n"] := by decide +kernel
  obtain ⟨f, hf, hfinds⟩ := finds_begun_or_fails (q := .regex "key" sign) .related server
    (rfl : key.dataType = .string) rfl ⟨.string sign, offers_sign.2 rfl⟩
  have hok : ∀ u, ∃ b, holds signs.graph .empty u f = .ok b := fun u =>
    (hfinds signs.graph .empty u).2.2 fun v hv => by
      rw [offers_sign.1 hv]
      exact accepted_sign
  obtain ⟨found, hfound⟩ := hok ⟨1⟩
  obtain ⟨missed, hmissed⟩ := hok ⟨2⟩
  have hbegun := ((hfinds signs.graph .empty ⟨1⟩).1 found hfound).trans (begun_sign_iff hfirst)
  have hnot := ((hfinds signs.graph .empty ⟨2⟩).1 missed hmissed).trans (begun_sign_iff hsecond)
  refine ⟨f, hf, ?_, ?_⟩
  · rw [hfound, hbegun.2 (by decide +kernel)]
  · rw [hmissed, Bool.eq_false_iff.2 (hnot.not.2 (by decide +kernel))]

/-- A text that is offered is found, but the test fails on one before it. -/
theorem fails_on_longText : ∃ f,
    searchFilter? .listed server key (.anyOf "key" .regex [.str longText, .str "x"]) = some f ∧
    Begun (shelf.graph.values ⟨1⟩ (predicateOf server key)) (.anyOf "key" .regex [.str longText, .str "x"]) key ∧
    ∀ b, holds shelf.graph .empty ⟨1⟩ f ≠ .ok b := by
  have hkey : .str "x" ∈ shelf.graph.values ⟨1⟩ Vocabulary.identifier := by decide +kernel
  have hbegins : BeginsWith "x" "x" := ⟨['x'], [], rfl, .cons (by decide) .nil⟩
  refine ⟨.or [.regex Vocabulary.identifier (startingWith longText) true,
    .regex Vocabulary.identifier (startingWith "x") true], rfl, ⟨"x", ⟨.str "x", ?_, rfl⟩, "x", hkey, hbegins⟩, ?_⟩
  · exact List.mem_cons_of_mem _ (List.mem_singleton.2 rfl)
  · intro b hb
    rw [holds, holdsAny, holds_startingWith_of_none compile?_longText] at hb
    cases hb

end Signs

end Inventory.PrefixSearches
