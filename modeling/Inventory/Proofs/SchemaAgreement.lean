import Inventory.Proofs.AttributeNames
import Inventory.Proofs.Repository.SchemaWrites

/-!
Agreement of what is declared with the types there are. Declarations are kept by predicate and by type name alone, while
names may have dots and types in different scopes may share one, so that to declare a type can undo what has been
declared for another.
-/

namespace Inventory.SchemaAgreement

open Repository Inventory.Graph Schema Store Vocabulary Admission

variable {r : Repository} {s : Store} {c : Change} {g g' : Graph} {t t' : EquipmentType} {as : List Attribute}
  {name : String}

/-- The predicates of a type are declared as its definition says, and its declaration lists all of them. -/
structure Agreement (g : Graph) (t : EquipmentType) : Prop where
  predicates : ∀ q ∈ (Declaration.ofAttributes t.typeName t.attributes).predicates,
    g.predicates.get? q.predicate = some q
  fields : ∃ d, g.types.get? (typeDeclaration t.typeName) = some d ∧
    ∀ a ∈ t.attributes, Listing.predicateOf t a ∈ d.fields

/-- Agreement for each type there is, in any scopes. -/
def Agrees (g : Graph) : Prop := ∀ u, g.values u metaType ≠ [] → ∃ t, StoredType g u t ∧ Agreement g t

/-- A type with a predicate that attributes under a name declare differently, or a type of this name with a predicate
that is not listed for them. -/
def UndoneBy (name : String) (as : List Attribute) (t : EquipmentType) : Prop :=
  (∃ q ∈ (Declaration.ofAttributes t.typeName t.attributes).predicates, ∃ d,
      declared? (Declaration.ofAttributes name as).predicates q.predicate = some d ∧ d ≠ q) ∨
    t.typeName = name ∧ ∃ a ∈ t.attributes,
      Listing.predicateOf t a ∉ (Declaration.ofAttributes name as).typeStatement.fields

/-- A change that declares a type and thereby undoes what is declared for one there is. -/
def Undoes (r : Repository) (s : Store) (c : Change) : Prop :=
  ∃ name as, Declares r s c name as ∧ ∃ u t, StoredType (c.run r s).graph u t ∧ UndoneBy name as t

section Agreement

theorem ofAttributes_bare (name : String) (as : List Attribute) :
    Declaration.ofAttributes name (bare as) = Declaration.ofAttributes name as := by
  have hp : ((bare as).filter (·.isPlain)).map (predicateOf name) = (as.filter (·.isPlain)).map (predicateOf name) := by
    rw [bare, List.filter_map, List.map_map]
    rfl
  simp only [Declaration.ofAttributes, hp]

theorem typeDeclaration_injective {m n : String} (h : typeDeclaration m = typeDeclaration n) : m = n := by
  have hl := congrArg String.toList h
  simp only [typeDeclaration, String.toList_append] at hl
  exact String.toList_injective (List.append_cancel_left hl)

theorem Agreement.of_same (h : Agreement g t) (hs : SameSchema g g') (ht : SameAttributes t t') : Agreement g' t' := by
  obtain ⟨hname, has⟩ := ht
  obtain ⟨d, hd, hf⟩ := h.fields
  refine ⟨?_, d, ?_, ?_⟩
  · rw [hname, has, hs.1]
    exact h.predicates
  · rw [hname, hs.2]
    exact hd
  · rw [has]
    intro a ha
    rw [Listing.predicateOf, hname]
    exact hf a ha

theorem declared?_isSome {qs : List PredicateStatement} {q : PredicateStatement} (h : q ∈ qs) :
    (declared? qs q.predicate).isSome = true :=
  List.find?_isSome.2 ⟨q, List.mem_reverse.2 h, by simp⟩

theorem agreement_of_declared (hg : Valued g) (hs : SameSchema (declaredIn g name as) g') (hn : ¬UndoneBy name as t)
    (h : Agreement g t ∨ t.typeName = name ∧ bare t.attributes = bare as) : Agreement g' t := by
  rw [UndoneBy, not_or] at hn
  obtain ⟨hpredicates, hfields⟩ := hn
  constructor
  · intro q hq
    rw [hs.1, predicates_declaredIn hg]
    cases hd : declared? (Declaration.ofAttributes name as).predicates q.predicate with
    | some d =>
        rw [Option.some_or]
        by_contra hne
        exact hpredicates ⟨q, hq, d, hd, fun he => hne (congrArg some he)⟩
    | none =>
        rw [Option.none_or]
        rcases h with h | ⟨hname, has⟩
        · exact h.predicates q hq
        · rw [← ofAttributes_bare, hname, has, ofAttributes_bare] at hq
          have hsome := declared?_isSome hq
          rw [hd] at hsome
          cases hsome
  · rw [hs.2]
    by_cases hname : t.typeName = name
    · refine ⟨_, by rw [types_declaredIn hg, if_pos (by rw [hname])], fun a ha => ?_⟩
      by_contra hmem
      exact hfields ⟨hname, a, ha, hmem⟩
    · obtain ⟨d, hd, hf⟩ := (h.resolve_right fun hnew => hname hnew.1).fields
      refine ⟨d, ?_, hf⟩
      rw [types_declaredIn hg, if_neg fun he => hname (typeDeclaration_injective he), hd]

theorem not_agreement_of_undone (hg : Valued g) (hs : SameSchema (declaredIn g name as) g') (hu : UndoneBy name as t) :
    ¬Agreement g' t := by
  rintro ⟨hpredicates, d, hd, hf⟩
  rcases hu with ⟨q, hq, e, he, hne⟩ | ⟨rfl, a, ha, hmem⟩
  · have hq' := hpredicates q hq
    rw [hs.1, predicates_declaredIn hg, he, Option.some_or] at hq'
    exact hne (Option.some.inj hq')
  · rw [hs.2, types_declaredIn hg, if_pos rfl] at hd
    cases hd
    exact hmem (hf a ha)

end Agreement

section Changes

/-- What every change maintains. -/
structure Maintained (g : Graph) : Prop where
  described : Described g
  valued : Valued g

theorem Maintained.change (r : Repository) (c : Change) (hs : Coherent s.graph) (h : Maintained s.graph) :
    Maintained (c.run r s).graph := by
  refine ⟨c.described r hs h.described, ?_⟩
  rcases c.schema r hs h.described with ⟨hsame, -⟩ | ⟨name, as, hdecl, -⟩
  · exact h.valued.of_sameSchema hsame
  · cases hdecl with
    | created _ _ hsame => exact (valued_declaredIn h.valued _ _).of_sameSchema hsame
    | updated _ _ _ _ _ _ _ _ _ hsame => exact (valued_declaredIn h.valued _ _).of_sameSchema hsame

theorem maintained_after (hs : Coherent s.graph) (h : Maintained s.graph) (cs : List Change) :
    Maintained (after r s cs).graph := by
  induction cs generalizing s with
  | nil => exact h
  | cons c cs ih => exact ih (c.step r hs).2 (h.change r c hs)

theorem sameSchema_of_declares (h : Declares r s c name as) :
    SameSchema (declaredIn s.graph name as) (c.run r s).graph := by
  cases h with
  | created _ _ h => exact h
  | updated _ _ _ _ _ _ _ _ _ h => exact h

theorem agrees_of_change (c : Change) (hs : Coherent s.graph) (hk : Maintained s.graph) (h : Agrees s.graph)
    (hn : ¬Undoes r s c) : Agrees (c.run r s).graph := by
  intro u hu
  obtain ⟨t', w, m, hdef⟩ := (c.described r hs hk.described).types u hu
  have hagreement : ∀ {t}, StoredType s.graph u t → Agreement s.graph t := by
    intro t ht
    obtain ⟨t₀, ht₀, ha⟩ := h u ht.live
    rwa [ht.unique hs ht₀]
  refine ⟨t', hdef.type, ?_⟩
  rcases c.schema r hs hk.described with ⟨hsame, hlasting⟩ | ⟨name, as, hdecl, htypes⟩
  · obtain ⟨t, ht, heq⟩ := hlasting u t' hdef.type
    exact (hagreement ht).of_same hsame heq
  · refine agreement_of_declared hk.valued (sameSchema_of_declares hdecl) (fun hundone => ?_) ?_
    · exact hn ⟨name, as, hdecl, u, t', hdef.type, hundone⟩
    · rcases htypes u t' hdef.type with ⟨t, ht, heq⟩ | hnew
      · exact .inl ((hagreement ht).of_same (.refl _) heq)
      · exact .inr hnew

theorem not_agrees_of_undoes (hs : Coherent s.graph) (hk : Maintained s.graph) (h : Undoes r s c) :
    ¬Agrees (c.run r s).graph := by
  obtain ⟨name, as, hdecl, u, t, ht, hundone⟩ := h
  intro hagrees
  obtain ⟨t', ht', ha⟩ := hagrees u ht.live
  obtain rfl := ht.unique (c.step r hs).2 ht'
  exact not_agreement_of_undone hk.valued (sameSchema_of_declares hdecl) hundone ha

end Changes

/-- All that is declared agrees with the types there are, after each of some operations, exactly if none of these
declares a type and undoes with it what is declared for this or another. -/
theorem agrees_iff (r : Repository) (refusals : Refusals) (cs : List Change) :
    (∀ pre, pre <+: cs → Agrees (after r (bootstrapped refusals) pre).graph) ↔
      ∀ pre c, pre ++ [c] <+: cs → ¬Undoes r (after r (bootstrapped refusals) pre) c := by
  have hstart : Maintained (bootstrapped refusals).graph :=
    ⟨described_bootstrapped refusals, valued_bootstrapped refusals⟩
  have hempty : Agrees (bootstrapped refusals).graph := fun u hu =>
    absurd (idle_bootstrapped refusals u metaType (by decide)).1 hu
  have hiff : (∀ pre, pre <+: cs → Maintained (after r (bootstrapped refusals) pre).graph ∧
      Agrees (after r (bootstrapped refusals) pre).graph) ↔
        ∀ pre c, pre ++ [c] <+: cs → ¬Undoes r (after r (bootstrapped refusals) pre) c :=
    forall_prefix_iff (P := fun g => Maintained g ∧ Agrees g) (coherent_bootstrapped refusals) ⟨hstart, hempty⟩
      (fun s c hs h hn => ⟨h.1.change r c hs, agrees_of_change c hs h.1 h.2 hn⟩)
      (fun s c hs h hb hafter => not_agrees_of_undoes hs h.1 hb hafter.2) cs
  rw [← hiff]
  refine forall₂_congr fun pre _ => ⟨fun h => ⟨?_, h⟩, And.right⟩
  exact maintained_after (coherent_bootstrapped refusals) hstart pre

section Names

theorem eq_of_append_dot {xs ys us vs : List Char} (hx : '.' ∉ xs) (hy : '.' ∉ ys)
    (h : xs ++ '.' :: us = ys ++ '.' :: vs) : xs = ys := by
  induction xs generalizing ys with
  | nil =>
      cases ys with
      | nil => rfl
      | cons y ys =>
          cases h
          exact absurd List.mem_cons_self hy
  | cons x xs ih =>
      cases ys with
      | nil =>
          cases h
          exact absurd List.mem_cons_self hx
      | cons y ys =>
          rw [List.cons_append, List.cons_append, List.cons.injEq] at h
          rw [h.1, ih (fun hm => hx (List.mem_cons_of_mem _ hm)) (fun hm => hy (List.mem_cons_of_mem _ hm)) h.2]

/-- Without dots in their names, types are undone only by one of the same name. -/
theorem not_undoneBy_of_dotless (ht : '.' ∉ t.typeName.toList) (hn : '.' ∉ name.toList) (hne : t.typeName ≠ name) :
    ¬UndoneBy name as t := by
  rintro (⟨q, hq, d, hd, -⟩ | ⟨he, -⟩)
  · obtain ⟨a, -, rfl⟩ := List.mem_map.1 hq
    obtain ⟨hmem, hpred⟩ := mem_of_declared? hd
    obtain ⟨b, -, rfl⟩ := List.mem_map.1 hmem
    have hp := congrArg String.toList hpred
    simp only [predicateOf, PredicateStatement.new, PredicateStatement.indexed, toList_attributePredicate,
      List.append_cancel_left_eq] at hp
    exact hne (String.toList_injective (eq_of_append_dot hn ht hp)).symm
  · exact hne he

end Names

section TwinRacks

/-- Racks in two scopes, of which one is deleted again. -/
def twinRacks : List Change :=
  [.upsertSource ((MetadataSource.equipment "a" "s1").withColumns ["id", "size", "height"]),
    .upsertSource ((MetadataSource.equipment "b" "s2").withColumns ["id", "size"]),
    .createType ⟨0⟩ ((((EquipmentType.new "rack" "0x1").withScope "s1").withAttribute (.identifier "key" "id")
      ).withAttribute (.new "size" .int "size") |>.withAttribute (.new "height" .int "height")),
    .createType ⟨0⟩ ((((EquipmentType.new "rack" "0x2").withScope "s2").withAttribute (.identifier "key" "id")
      ).withAttribute (.new "size" .string "size")),
    .deleteType ⟨0⟩ "rack" "s2"]

set_option maxRecDepth 100000 in
theorem cells_twinRacks :
    (after ⟨0, .standard⟩ (bootstrapped .none) twinRacks).graph.values ⟨3⟩ metaType = [.str "rack"] ∧
      (after ⟨0, .standard⟩ (bootstrapped .none) twinRacks).graph.values ⟨7⟩ metaType = [] ∧
      ((after ⟨0, .standard⟩ (bootstrapped .none) twinRacks).graph.edges ⟨3⟩ metaAttribute).items = [⟨4⟩, ⟨5⟩, ⟨6⟩] ∧
      (after ⟨0, .standard⟩ (bootstrapped .none) twinRacks).graph.values ⟨5⟩ attributeName = [.str "size"] ∧
      (after ⟨0, .standard⟩ (bootstrapped .none) twinRacks).graph.values ⟨5⟩ attributeType = [.num (.int 2)] ∧
      (after ⟨0, .standard⟩ (bootstrapped .none) twinRacks).graph.values ⟨5⟩ attributeIdentifier = [.bool false] ∧
      (after ⟨0, .standard⟩ (bootstrapped .none) twinRacks).graph.values ⟨5⟩ attributeParentIdentifier =
        [.bool false] ∧
      ((after ⟨0, .standard⟩ (bootstrapped .none) twinRacks).graph.predicates.get? "equipment.rack.size").map
        (·.kind) = some .string := by
  decide +kernel

/-- The declaration of the one that has been deleted is in the place of that of the other. -/
theorem not_agrees_twinRacks : ¬Agrees (after ⟨0, .standard⟩ (bootstrapped .none) twinRacks).graph := by
  have h := cells_twinRacks
  generalize (after ⟨0, .standard⟩ (bootstrapped .none) twinRacks).graph = g at h ⊢
  obtain ⟨hname, -, hlinks, hsize, htype, hid, hparent, hdeclared⟩ := h
  intro hagrees
  obtain ⟨t, ht, ha⟩ := hagrees ⟨3⟩ (by simp [hname])
  have hlink : ⟨5⟩ ∈ (g.edges ⟨3⟩ metaAttribute).items := by simp [hlinks]
  obtain ⟨a, hmem, hstored⟩ := forall₂_right ht.attributes hlink
  have hrack : t.typeName = "rack" := by simpa [hname] using ht.name.symm
  have hnamed : a.name = "size" := by simpa [hsize] using hstored.name.symm
  have hplain : a.isPlain = true := by
    have hi := hstored.identifier
    have hp := hstored.parentIdentifier
    rw [hid] at hi
    rw [hparent] at hp
    simp_all [Attribute.isPlain]
  have hint : a.dataType = .int := by
    have hcode := hstored.type
    rw [htype] at hcode
    cases hd : a.dataType <;> rw [hd] at hcode <;> first | rfl | cases hcode
  have hq := ha.predicates (predicateOf t.typeName a) (List.mem_map_of_mem (List.mem_filter.2 ⟨hmem, hplain⟩))
  have hp : (predicateOf t.typeName a).predicate = "equipment.rack.size" := by
    rw [predicateOf, hrack, hnamed]
    exact (by decide +kernel : attributePredicate "rack" "size" = "equipment.rack.size")
  rw [hp] at hq
  rw [hq, predicateOf, hint] at hdeclared
  cases hdeclared

end TwinRacks

end Inventory.SchemaAgreement
