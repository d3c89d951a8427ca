import Inventory.Proofs.Record
import Inventory.Schema.Catalog
import Mathlib.Data.List.Nodup

/-!
Types that grow. More attributes add predicates after those that were declared, and a catalog in which a type was
recorded before it grew misses the new predicates and the type, and nothing else.
-/

namespace Inventory.SchemaAdditions

open Schema

variable {typeName key : String} {as bs : List Attribute} {c : Catalog} {s : Statement} {ss ts : List Statement}

/-- The predicates that attributes of a type have to themselves. -/
def ownPredicates (typeName : String) (as : List Attribute) : List String :=
  (as.filter (·.isPlain)).map fun a => Vocabulary.attributePredicate typeName a.name

/-- The statements that declare the predicates of some attributes. -/
def predicateStatements (typeName : String) (as : List Attribute) : List Statement :=
  (Declaration.ofAttributes typeName as).predicates.map .predicate

/-- The statement that declares a type with some attributes. -/
def typeStatement (typeName : String) (as : List Attribute) : Statement :=
  .type (Declaration.ofAttributes typeName as).typeStatement

section Catalogs

theorem get?_record (c : Catalog) (ss : List Statement) (key : String) :
    (c.record ss).get? key = (ss.reverse.find? (·.key == key)).or (c.get? key) :=
  Table.get?_foldl_insert Statement.key c.applied ss key

theorem get?_record_of_ne (h : ∀ s ∈ ss, s.key ≠ key) : (c.record ss).get? key = c.get? key := by
  have hnone : ss.reverse.find? (·.key == key) = none := by simpa using h
  rw [get?_record, hnone, Option.none_or]

theorem get?_record_of_mem (hd : (ss.map Statement.key).Nodup) (hs : s ∈ ss) :
    (c.record ss).get? s.key = some s := by
  rw [get?_record]
  cases hf : ss.reverse.find? (·.key == s.key) with
  | none =>
      have := List.find?_eq_none.1 hf s (List.mem_reverse.2 hs)
      simp at this
  | some t =>
      have hkey : t.key = s.key := by simpa using List.find?_some hf
      have ht : t ∈ ss := List.mem_reverse.1 (List.mem_of_find?_eq_some hf)
      rw [List.inj_on_of_nodup_map hd ht hs hkey, Option.some_or]

theorem mem_missing : s ∈ c.missing ss ↔ s ∈ ss ∧ c.get? s.key ≠ some s := by
  simp [Catalog.missing]

theorem missing_append (c : Catalog) (ss ts : List Statement) :
    c.missing (ss ++ ts) = c.missing ss ++ c.missing ts := List.filter_append ss ts

theorem missing_eq_nil (h : ∀ s ∈ ss, c.get? s.key = some s) : c.missing ss = [] :=
  List.eq_nil_iff_forall_not_mem.2 fun s hs => (mem_missing.1 hs).2 (h s (mem_missing.1 hs).1)

theorem missing_eq_self (h : ∀ s ∈ ss, c.get? s.key = none) : c.missing ss = ss :=
  List.filter_eq_self.2 fun s hs => by simp [h s hs]

theorem missing_record_missing (hd : (ss.map Statement.key).Nodup) : (c.record (c.missing ss)).missing ss = [] := by
  refine missing_eq_nil fun s hs => ?_
  by_cases hm : s ∈ c.missing ss
  · exact get?_record_of_mem (hd.sublist (List.filter_sublist.map Statement.key)) hm
  · rw [get?_record_of_ne fun t ht hkey => ?_]
    · exact not_not.1 fun h => hm (mem_missing.2 ⟨hs, h⟩)
    · -- The key belongs to `s` alone, which the catalog holds already.
      rw [List.inj_on_of_nodup_map hd (mem_missing.1 ht).1 hs hkey] at ht
      exact hm ht

end Catalogs

section Declarations

theorem statements_eq (typeName : String) (as : List Attribute) :
    (Declaration.ofAttributes typeName as).statements =
      predicateStatements typeName as ++ [typeStatement typeName as] := rfl

theorem ownPredicates_append (typeName : String) (as bs : List Attribute) :
    ownPredicates typeName (as ++ bs) = ownPredicates typeName as ++ ownPredicates typeName bs := by
  simp [ownPredicates]

theorem predicates_append (typeName : String) (as bs : List Attribute) :
    (Declaration.ofAttributes typeName (as ++ bs)).predicates =
      (Declaration.ofAttributes typeName as).predicates ++ (Declaration.ofAttributes typeName bs).predicates := by
  simp [Declaration.ofAttributes]

theorem fields_eq (typeName : String) (as : List Attribute) :
    (Declaration.ofAttributes typeName as).typeStatement.fields = sharedFields ++ ownPredicates typeName as := by
  simp [Declaration.ofAttributes, ownPredicates, predicateOf, PredicateStatement.new, PredicateStatement.indexed]

theorem keys_predicateStatements (typeName : String) (as : List Attribute) :
    (predicateStatements typeName as).map Statement.key = ownPredicates typeName as := by
  simp [predicateStatements, Declaration.ofAttributes, ownPredicates, predicateOf, PredicateStatement.new,
    PredicateStatement.indexed, Statement.key, Function.comp_def]

theorem key_typeStatement (typeName : String) (as : List Attribute) :
    (typeStatement typeName as).key = "type " ++ Vocabulary.typeDeclaration typeName := rfl

theorem type_not_mem_ownPredicates (n typeName : String) (as : List Attribute) :
    "type " ++ n ∉ ownPredicates typeName as := by
  intro h
  obtain ⟨a, -, ha⟩ := List.mem_map.1 h
  have hp := Vocabulary.isAttributePredicate_attributePredicate typeName a.name
  rw [ha] at hp
  simp [Vocabulary.isAttributePredicate] at hp

theorem nodup_keys (hd : (ownPredicates typeName as).Nodup) :
    ((Declaration.ofAttributes typeName as).statements.map Statement.key).Nodup := by
  rw [statements_eq, List.map_append, keys_predicateStatements, List.map_singleton, key_typeStatement,
    List.nodup_append]
  refine ⟨hd, List.nodup_singleton _, fun p hp q hq he => ?_⟩
  rw [he, List.mem_singleton.1 hq] at hp
  exact type_not_mem_ownPredicates _ _ _ hp

theorem typeStatement_append : typeStatement typeName as = typeStatement typeName (as ++ bs) ↔
    bs.any (·.isPlain) = false := by
  have hnil : ownPredicates typeName bs = [] ↔ bs.any (·.isPlain) = false := by
    simp [ownPredicates]
  rw [← hnil, typeStatement, typeStatement, Statement.type.injEq, TypeStatement.mk.injEq]
  change _ ∧ (Declaration.ofAttributes typeName as).typeStatement.fields =
    (Declaration.ofAttributes typeName (as ++ bs)).typeStatement.fields ↔ _
  rw [fields_eq, fields_eq, ownPredicates_append]
  simp [Declaration.ofAttributes]

end Declarations

section Growth

/-- The catalog misses the predicates of the new attributes, and the type if there are any. -/
theorem missing_grown (hd : (ownPredicates typeName (as ++ bs)).Nodup)
    (hnew : ∀ p ∈ ownPredicates typeName bs, c.get? p = none) :
    (c.record (Declaration.ofAttributes typeName as).statements).missing
        (Declaration.ofAttributes typeName (as ++ bs)).statements =
      predicateStatements typeName bs ++ (if bs.any (·.isPlain) then [typeStatement typeName (as ++ bs)] else []) := by
  rw [ownPredicates_append, List.nodup_append] at hd
  obtain ⟨has, -, hapart⟩ := hd
  have hkeys := nodup_keys has
  have hsplit : (Declaration.ofAttributes typeName (as ++ bs)).statements =
      predicateStatements typeName as ++ (predicateStatements typeName bs ++ [typeStatement typeName (as ++ bs)]) := by
    rw [statements_eq, predicateStatements, predicates_append, List.map_append, List.append_assoc]
    rfl
  rw [hsplit, missing_append, missing_append]
  have hold : (c.record (Declaration.ofAttributes typeName as).statements).missing
      (predicateStatements typeName as) = [] :=
    missing_eq_nil fun s hs => get?_record_of_mem hkeys (List.mem_append_left _ hs)
  have hadded : (c.record (Declaration.ofAttributes typeName as).statements).missing
      (predicateStatements typeName bs) = predicateStatements typeName bs := by
    refine missing_eq_self fun s hs => ?_
    have hkey : s.key ∈ ownPredicates typeName bs := by
      rw [← keys_predicateStatements]
      exact List.mem_map_of_mem hs
    rw [get?_record_of_ne fun t ht he => ?_, hnew _ hkey]
    rw [statements_eq, List.mem_append, List.mem_singleton] at ht
    rcases ht with ht | rfl
    · refine hapart t.key ?_ s.key hkey he
      rw [← keys_predicateStatements]
      exact List.mem_map_of_mem ht
    · rw [← he, key_typeStatement] at hkey
      exact type_not_mem_ownPredicates _ _ _ hkey
  have htype : (c.record (Declaration.ofAttributes typeName as).statements).get?
      (typeStatement typeName (as ++ bs)).key = some (typeStatement typeName as) :=
    get?_record_of_mem hkeys (List.mem_append_right _ (List.mem_singleton_self _))
  rw [hold, hadded, List.nil_append, Catalog.missing, List.filter_singleton, htype]
  simp only [ne_eq, Option.some.injEq, typeStatement_append, Bool.not_eq_false, Bool.decide_eq_true, cond_eq_ite]

/-- The declaration of a type with more attributes is that of the type with the new predicates at the end. A catalog
that has none of them and has recorded the type misses them in their order, then the type if there are any, and
nothing once these have been recorded. -/
theorem declaration_grows (typeName : String) (as bs : List Attribute)
    (distinct : (ownPredicates typeName (as ++ bs)).Nodup) :
    (Declaration.ofAttributes typeName (as ++ bs)).predicates =
        (Declaration.ofAttributes typeName as).predicates ++ (Declaration.ofAttributes typeName bs).predicates ∧
      (Declaration.ofAttributes typeName (as ++ bs)).typeStatement =
        { name := (Declaration.ofAttributes typeName as).typeStatement.name
          fields := (Declaration.ofAttributes typeName as).typeStatement.fields ++ ownPredicates typeName bs } ∧
      ∀ c : Catalog, (∀ p ∈ ownPredicates typeName bs, c.get? p = none) →
        let recorded := c.record (Declaration.ofAttributes typeName as).statements
        let combined := (Declaration.ofAttributes typeName (as ++ bs)).statements
        recorded.missing combined =
            predicateStatements typeName bs ++
              (if bs.any (·.isPlain) then [typeStatement typeName (as ++ bs)] else []) ∧
          (recorded.record (recorded.missing combined)).missing combined = [] := by
  refine ⟨predicates_append typeName as bs, ?_, fun c hnew =>
    ⟨missing_grown distinct hnew, missing_record_missing (nodup_keys distinct)⟩⟩
  have hfields := fields_eq typeName (as ++ bs)
  rw [ownPredicates_append, ← List.append_assoc, ← fields_eq] at hfields
  rw [← hfields]
  rfl

/-- What is declared of a rack before it has a size. -/
def noted : List Attribute := [.identifier "key" "id", .new "note" .string "note"]

def sized : List Attribute := [.new "size" .int "size"]

/-- The size of a rack is declared, and the rack again, where the inventory starts from what every inventory does. -/
theorem declaration_grows_rack :
    (ownPredicates "rack" (noted ++ sized)).Nodup ∧
      (∀ p ∈ ownPredicates "rack" sized, (Catalog.empty.record baseStatements).get? p = none) ∧
        ((Catalog.empty.record baseStatements).record (Declaration.ofAttributes "rack" noted).statements).missing
            (Declaration.ofAttributes "rack" (noted ++ sized)).statements =
          [.predicate ⟨"equipment.rack.size", .int, false, [], false⟩, typeStatement "rack" (noted ++ sized)] := by
  have hdistinct : (ownPredicates "rack" (noted ++ sized)).Nodup := by decide +kernel
  have hnew : ∀ p ∈ ownPredicates "rack" sized, (Catalog.empty.record baseStatements).get? p = none := by
    decide +kernel
  obtain ⟨-, -, hmissing⟩ := declaration_grows "rack" noted sized hdistinct
  refine ⟨hdistinct, hnew, (hmissing _ hnew).1.trans ?_⟩
  decide +kernel

end Growth

end Inventory.SchemaAdditions
