import Inventory.Proofs.Conversions
import Inventory.Proofs.Graph.Filters
import Inventory.Proofs.Patterns

/-!
What the searches of a listing mean, and those among related instances: some value of each must be met, if any of its
values has the attribute's type. They fail only where a text to begin with gives a pattern that is too large.
-/

namespace Inventory.Listing

open Query Inventory.Graph Text

variable {path : Path} {g : Graph} {vars : Vars} {t : EquipmentType} {a : Attribute} {q : Search} {f : SearchFilter}
  {u : Uid} {v : FieldValue} {stored : List Json} {E : QueryFault → Prop}

/-- Stored values meet a value searched for: a text is equal to it or begins with it, and a number is equal to it. -/
def Meets (stored : List Json) : Comparison → FieldValue → Prop
  | .eq, .string s => .str s ∈ stored
  | .regex, .string s => ∃ text, .str text ∈ stored ∧ BeginsWith text s
  | _, .int i => ∃ n, .num n ∈ stored ∧ Comparison.numberEq n (.int i) = true
  | _, .float x => ∃ n, .num n ∈ stored ∧ Comparison.numberEq n (.float x) = true

/-- The attribute that a search is about: of all but the parent identifier that of its name. -/
def About (t : EquipmentType) (q : Search) (a : Attribute) : Prop :=
  t.attribute? q.key = some a ∧ a.isParentIdentifier = false

/-- One of the values of a search stands for a value of an attribute's type. -/
def Offers (q : Search) (a : Attribute) (v : FieldValue) : Prop :=
  ∃ raw ∈ q.values, FieldValue.convert a.dataType raw = .ok v

/-- A search is met by a node, if it is about an attribute and offers a value of its type. -/
def Met (g : Graph) (t : EquipmentType) (u : Uid) (q : Search) : Prop :=
  ∀ a, About t q a → (∃ v, Offers q a v) → ∃ v, Offers q a v ∧ Meets (g.values u (predicateOf t a)) q.comparison v

/-- A text to begin with, among searches, has a pattern that is too large. -/
def TooLarge (t : EquipmentType) (f : SearchFilter) (e : QueryFault) : Prop :=
  ∃ q ∈ f.searches, ∃ a s, About t q a ∧ q.comparison = .regex ∧ Offers q a (.string s) ∧
    Pattern.compile? true (startingWith s).toList = none ∧ e = .invalidPattern (.tooLarge (startingWith s))

/-- Some stored number is not less than a bound. -/
def AtLeast (stored : List Json) (bound : Number) : Prop :=
  ∃ n, .num n ∈ stored ∧ n.toBinary64.lt bound.toBinary64 = false

/-- Stored values meet a value on a path: among related instances a number is a lower bound. -/
def MeetsOn (path : Path) (stored : List Json) (c : Comparison) (v : FieldValue) : Prop :=
  match path, v with
  | .related, .int i => AtLeast stored (.int i)
  | .related, .float x => AtLeast stored (.float x)
  | _, _ => Meets stored c v

/-- A search is met by a node on a path, if it is about an attribute that may be searched by there and offers a value
of its type. -/
def MetOn (path : Path) (g : Graph) (t : EquipmentType) (u : Uid) (q : Search) : Prop :=
  ∀ a, searched? path t q.key = some a → (∃ v, Offers q a v) →
    ∃ v, Offers q a v ∧ MeetsOn path (g.values u (predicateOf t a)) q.comparison v

/-- A text to begin with, among searches on a path, has a pattern that is too large. -/
def TooLargeOn (path : Path) (t : EquipmentType) (f : SearchFilter) (e : QueryFault) : Prop :=
  ∃ q ∈ f.searches, ∃ a s, searched? path t q.key = some a ∧ q.comparison = .regex ∧ Offers q a (.string s) ∧
    Pattern.compile? true (startingWith s).toList = none ∧ e = .invalidPattern (.tooLarge (startingWith s))

theorem valuesMatch_num_iff {n : Number} :
    Comparison.valuesMatch stored (.num n) = true ↔ ∃ m, .num m ∈ stored ∧ Comparison.numberEq m n = true := by
  rw [Comparison.valuesMatch, List.any_eq_true]
  · constructor
    · rintro ⟨j, hj, he⟩
      cases j with
      | num m => exact ⟨m, hj, he⟩
      | null | bool _ | str _ | arr _ | obj _ => cases he
    · rintro ⟨m, hm, he⟩
      exact ⟨.num m, hm, he⟩
  · rintro wanted ⟨⟩

theorem any_reaches_num_iff {n : Number} :
    (stored.any fun s => Comparison.reaches s (.num n)) = true ↔ AtLeast stored n := by
  have hreaches : ∀ m : Number, Comparison.reaches (.num m) (.num n) = true ↔
      m.toBinary64.lt n.toBinary64 = false := by
    intro m
    simp only [Comparison.reaches, Comparison.compareAlike?, Comparison.orderingOf]
    cases m.toBinary64.lt n.toBinary64 <;> cases m.toBinary64.same n.toBinary64 <;> simp
  rw [List.any_eq_true]
  constructor
  · rintro ⟨j, hj, hr⟩
    cases j with
    | num m => exact ⟨m, hj, (hreaches m).1 hr⟩
    | null | bool _ | str _ | arr _ | obj _ => cases hr
  · rintro ⟨m, hm, hr⟩
    exact ⟨.num m, hm, (hreaches m).2 hr⟩

theorem settles_startingWith {predicate s : String}
    (hE : Pattern.compile? true (startingWith s).toList = none → E (.invalidPattern (.tooLarge (startingWith s)))) :
    Settles E (holds g vars u (.regex predicate (startingWith s) true))
      (Meets (g.values u predicate) .regex (.string s)) := by
  rw [holds]
  cases hc : Pattern.compile? true (startingWith s).toList with
  | none =>
      refine .error ?_
      rw [patternFault, Pattern.parse?_startingWith]
      exact hE hc
  | some ts =>
      obtain rfl := Pattern.eq_of_compile?_startingWith hc
      refine .ok ?_
      rw [List.any_eq_true]
      constructor
      · rintro ⟨j, hj, hm⟩
        cases j with
        | str text => exact ⟨text, hj, Pattern.isMatch_startingWith.1 hm⟩
        | null | bool _ | num _ | arr _ | obj _ => cases hm
      · rintro ⟨text, ht, hb⟩
        exact ⟨.str text, ht, Pattern.isMatch_startingWith.2 hb⟩

theorem settles_alternative (c : Comparison) (predicate : String) (v : FieldValue)
    (hE : ∀ s, c = .regex → v = .string s → Pattern.compile? true (startingWith s).toList = none →
      E (.invalidPattern (.tooLarge (startingWith s)))) :
    Settles E (holds g vars u (alternative path predicate v.dataType c v))
      (MeetsOn path (g.values u predicate) c v) := by
  cases v with
  | string s =>
      have hmeets : MeetsOn path (g.values u predicate) c (.string s) ↔ Meets (g.values u predicate) c (.string s) := by
        cases path <;> rfl
      refine Settles.congr ?_ hmeets.symm
      cases c with
      | eq =>
          change Settles E (holds g vars u (.eq predicate (.str s))) _
          rw [holds_eq_str]
          exact .ok decide_eq_true_iff
      | regex => exact settles_startingWith (hE s rfl rfl)
  | int _ | float _ =>
      cases path with
      | listed => cases c <;> exact .ok valuesMatch_num_iff
      | related => cases c <;> exact .ok any_reaches_num_iff

def offers (q : Search) (a : Attribute) : List FieldValue :=
  q.values.filterMap fun raw => (FieldValue.convert a.dataType raw).toOption

theorem mem_offers : v ∈ offers q a ↔ Offers q a v := by
  rw [offers, List.mem_filterMap]
  refine exists_congr fun raw => and_congr_right fun _ => ?_
  cases FieldValue.convert a.dataType raw with
  | error e => simp [Except.toOption]
  | ok w => simp [Except.toOption]

theorem offers_single {raw : Json} {w : FieldValue} (hq : q.values = [raw])
    (hc : FieldValue.convert a.dataType raw = .ok w) : Offers q a v ↔ v = w := by
  simp only [Offers, hq, List.mem_singleton, exists_eq_left, hc, Except.ok.injEq]
  exact eq_comm

theorem searchFilter?_eq (path : Path) (t : EquipmentType) (a : Attribute) (q : Search) : searchFilter? path t a q =
    Filter.anyOf ((offers q a).map fun v => alternative path (predicateOf t a) v.dataType q.comparison v) := by
  have htype : ∀ v ∈ offers q a, v.dataType = a.dataType := by
    intro v hv
    obtain ⟨raw, -, hc⟩ := mem_offers.1 hv
    exact Conversions.dataType_of_convert hc
  have hmap : (offers q a).map (fun v => alternative path (predicateOf t a) v.dataType q.comparison v) =
      (offers q a).map (alternative path (predicateOf t a) a.dataType q.comparison) :=
    List.map_congr_left fun v hv => by rw [htype v hv]
  rw [hmap, offers, List.map_filterMap]
  rfl

theorem searched?_listed {key : String} :
    searched? .listed t key = some a ↔ t.attribute? key = some a ∧ a.isParentIdentifier = false := by
  simp [searched?, Option.filter_eq_some_iff]

theorem metOn_listed : MetOn .listed g t u q ↔ Met g t u q :=
  forall_congr' fun _ => imp_congr_left searched?_listed

theorem tooLargeOn_listed : TooLargeOn .listed t f = TooLarge t f := by
  funext e
  simp only [TooLargeOn, TooLarge, About, searched?_listed]

theorem metOn_single {w : FieldValue} (hs : searched? path t q.key = some a) (ho : ∀ v, Offers q a v ↔ v = w) :
    MetOn path g t u q ↔ MeetsOn path (g.values u (predicateOf t a)) q.comparison w := by
  constructor
  · intro h
    obtain ⟨v, hv, hm⟩ := h a hs ⟨w, (ho w).2 rfl⟩
    rwa [(ho v).1 hv] at hm
  · rintro hm b hb -
    obtain rfl : a = b := Option.some.inj (hs.symm.trans hb)
    exact ⟨w, (ho w).2 rfl, hm⟩

/-- The test of one search, or nothing if it has nothing to test. -/
def searchTest? (path : Path) (t : EquipmentType) (q : Search) : Option Filter :=
  (searched? path t q.key).bind fun a => searchFilter? path t a q

theorem exists_searchFilter? (path : Path) (t : EquipmentType) (h : Offers q a v) :
    ∃ f, searchFilter? path t a q = some f := by
  rw [searchFilter?_eq]
  obtain ⟨w, ws, hw⟩ := List.exists_cons_of_ne_nil (List.ne_nil_of_mem (mem_offers.2 h))
  rw [hw]
  cases ws with
  | nil => exact ⟨_, rfl⟩
  | cons w' ws => exact ⟨_, rfl⟩

/-- A search has a test only if it offers some value, so that what it asks for is not void. -/
theorem offers_of_searchFilter? {test : Filter} (h : searchFilter? path t a q = some test) : ∃ v, Offers q a v := by
  obtain ⟨v, hv⟩ : ∃ v, v ∈ offers q a := by
    refine List.exists_mem_of_ne_nil _ fun hnil => ?_
    rw [searchFilter?_eq, hnil] at h
    cases h
  exact ⟨v, mem_offers.1 hv⟩

theorem settles_searchFilter? {test : Filter} (hf : searchFilter? path t a q = some test)
    (hE : ∀ s, q.comparison = .regex → Offers q a (.string s) →
      Pattern.compile? true (startingWith s).toList = none → E (.invalidPattern (.tooLarge (startingWith s)))) :
    Settles E (holds g vars u test)
      (∃ v ∈ offers q a, MeetsOn path (g.values u (predicateOf t a)) q.comparison v) := by
  rw [searchFilter?_eq] at hf
  rw [holds_anyOf hf]
  refine Settles.holdsAny_map fun v hv => settles_alternative q.comparison (predicateOf t a) v ?_
  rintro s hc rfl hnone
  exact hE s hc (mem_offers.1 hv) hnone

theorem metOn_of_none (h : searchTest? path t q = none) : MetOn path g t u q := by
  intro a ha
  rintro ⟨v, hv⟩
  obtain ⟨f, hf⟩ := exists_searchFilter? path t hv
  rw [searchTest?, ha, Option.bind_some, hf] at h
  cases h

theorem settles_searchTest {test : Filter} (hq : q ∈ f.searches) (h : searchTest? path t q = some test) :
    Settles (TooLargeOn path t f) (holds g vars u test) (MetOn path g t u q) := by
  obtain ⟨a, ha, ht⟩ := Option.bind_eq_some_iff.1 h
  have hany : Settles (TooLargeOn path t f) (holds g vars u test)
      (∃ v ∈ offers q a, MeetsOn path (g.values u (predicateOf t a)) q.comparison v) :=
    settles_searchFilter? ht fun s hc ho hnone => ⟨q, hq, a, s, ha, hc, ho, hnone, rfl⟩
  refine hany.congr ⟨?_, fun hmet => ?_⟩
  · rintro ⟨v, hv, hm⟩ a' ha' -
    obtain rfl : a = a' := Option.some.inj (ha.symm.trans ha')
    exact ⟨v, mem_offers.1 hv, hm⟩
  · obtain ⟨v, hv, hm⟩ := hmet a ha (offers_of_searchFilter? ht)
    exact ⟨v, mem_offers.2 hv, hm⟩

theorem mem_ordered : q ∈ f.ordered ↔ q ∈ f.searches := (List.mergeSort_perm f.searches _).mem_iff

theorem settles_attributes (path : Path) (t : EquipmentType) (f : SearchFilter) (vars : Vars) (u : Uid) :
    Settles (TooLargeOn path t f) (passes g vars (attributeFilter? path t f) u)
      (∀ q ∈ f.searches, MetOn path g t u q) := by
  have hall : Settles (TooLargeOn path t f) (holdsAll g vars u (f.ordered.filterMap (searchTest? path t)))
      (∀ q ∈ f.ordered, MetOn path g t u q) :=
    Settles.holdsAll_filterMap (fun q hq test ht => settles_searchTest (mem_ordered.1 hq) ht)
      fun q _ hnone => metOn_of_none hnone
  rw [attributeFilter?, passes_allOf]
  refine hall.congr ?_
  simp only [mem_ordered]

theorem settles_searches (t : EquipmentType) (f : SearchFilter) (vars : Vars) (u : Uid) :
    Settles (TooLarge t f) (passes g vars (instanceFilter? t f) u) (∀ q ∈ f.searches, Met g t u q) := by
  have hall := settles_attributes (g := g) .listed t f vars u
  simp only [metOn_listed, tooLargeOn_listed] at hall
  exact hall

theorem settles_relationship (t : EquipmentType) (f : SearchFilter) (vars : Vars) (u : Uid) :
    Settles (TooLargeOn .related t f) (holds g vars u (relationshipFilter t f))
      (.str t.typeName ∈ g.values u Vocabulary.equipmentType ∧ ∀ q ∈ f.searches, MetOn .related g t u q) := by
  have htype : Settles (TooLargeOn .related t f) (holds g vars u (.eq Vocabulary.equipmentType (.str t.typeName)))
      (.str t.typeName ∈ g.values u Vocabulary.equipmentType) := by
    rw [holds_eq_str]
    exact .ok decide_eq_true_iff
  have hattributes := settles_attributes (g := g) .related t f vars u
  unfold relationshipFilter
  cases hf : attributeFilter? .related t f with
  | none =>
      rw [hf] at hattributes
      exact htype.congr (iff_self_and.2 fun _ => (hattributes.decides true rfl).1 rfl)
  | some attributes =>
      rw [hf] at hattributes
      rw [holds]
      refine htype.holdsAll_cons ?_
      rw [holdsAll_singleton_eq]
      exact hattributes

end Inventory.Listing
