import Inventory.Hierarchy.Request
import Inventory.Proofs.FilterTexts
import Inventory.Proofs.Searches

/-!
The texts of queries about instances: whatever texts a user searches for, they stand in literals that are closed, and
neither their number nor anything outside of them depends on what the texts are.
-/

namespace Inventory.QueryTexts

open Text Query Listing Hierarchy Literals SafeNames NumberTexts FilterTexts

variable {t : EquipmentType} {a : Attribute} {p name : String} {v v' : Json} {f f' : Filter} {fs fs' : List Filter}
  {o o' : Option Filter} {ws ws' ws'' : List Word} {cs blank : List Char} {scopes : List String} {s : ListingSpec}
  {depth : Nat} {path : Listing.Path}

section Names

theorem isDelimiter_of_isSafeChar {c : Char} (h : Vocabulary.isSafeChar c = true) : isDelimiter c = false := by
  refine Bool.eq_false_iff.2 fun hd => ?_
  simp only [isDelimiter, Bool.or_eq_true, beq_iff_eq] at hd
  rcases hd with rfl | rfl <;> cases h

theorem isDelimiter_of_isNumeral {c : Char} (h : isNumeral c = true) : isDelimiter c = false := by
  refine Bool.eq_false_iff.2 fun hd => ?_
  simp only [isDelimiter, Bool.or_eq_true, beq_iff_eq] at hd
  rcases hd with rfl | rfl <;> cases h

theorem plain_safe (h : Safe name) : Plain name.toList := fun c hc => isDelimiter_of_isSafeChar (h c hc)

theorem plain_numerals (h : Numerals cs) : Plain cs := fun c hc => isDelimiter_of_isNumeral (h c hc)

theorem plain_uid (u : Uid) : Plain u.text.toList := by
  have hdigit : ∀ d, d < 16 → isDelimiter (Numeral.digitChar d) = false := by decide
  rw [Uid.text, String.toList_ofList]
  refine List.forall_mem_cons.2 ⟨by decide, List.forall_mem_cons.2 ⟨by decide, fun c hc => ?_⟩⟩
  obtain ⟨d, hd, rfl⟩ := Numeral.mem_digits (by decide) hc
  exact hdigit d hd

theorem plain_indent (depth : Nat) : Plain (indent depth) := by
  intro c hc
  rw [List.eq_of_mem_replicate hc]
  rfl

end Names

section Filters

theorem reads_strings (ss : List String) : Reads (literal (.ofStrings ss)) (literal (.ofStrings (ss.map fun _ => "")))
    (ss.map .text) := by
  have hitems : ReadsAll (ss.map Quoted.quoted) ((ss.map fun _ => "").map Quoted.quoted) (ss.map .text) := by
    induction ss with
    | nil => exact .nil
    | cons s ss ih =>
        have hcons := ReadsAll.cons (.quoted s "") ih
        exact hcons
  rw [literal_strings, literal_strings]
  exact .between ['['] [']'] (by decide) (by decide) (hitems.joined ", ".toList (by decide))

theorem reads_comparison {operator : String} (ho : Plain operator.toList) (hp : Safe p)
    (h : Reads (literal v) (literal v') ws) : Reads (comparison operator p v) (comparison operator p v') ws := by
  have hhead : Plain (operator.toList ++ (['('] ++ (p.toList ++ ", ".toList))) :=
    ho.append (.append (by decide) (.append (plain_safe hp) (by decide)))
  rw [comparison_eq, comparison_eq]
  exact .between _ [')'] hhead (by decide) h

theorem reads_startingWith (hp : Safe p) (s s' : String) : Reads (Filter.regex p (startingWith s) true).chars
    (Filter.regex p (startingWith s') true).chars [.pattern (startingWith s)] := by
  have hhead : Plain ("regexp(".toList ++ (p.toList ++ ", ".toList)) :=
    .append (by decide) ((plain_safe hp).append (by decide))
  rw [chars_startingWith, chars_startingWith]
  exact .between _ "i)".toList hhead (by decide) (.slashed s s')

/-- Filters whose texts differ in the bodies of literals only. -/
def ReadsFilters (fs fs' : List Filter) (ws : List Word) : Prop :=
  ReadsAll (fs.map Filter.chars) (fs'.map Filter.chars) ws

theorem ReadsFilters.and (h : ReadsFilters fs fs' ws) : Reads (Filter.and fs).chars (Filter.and fs').chars ws := by
  rw [chars_and, chars_and]
  exact .between ['('] [')'] (by decide) (by decide) (h.joined " AND ".toList (by decide))

theorem ReadsFilters.or (h : ReadsFilters fs fs' ws) : Reads (Filter.or fs).chars (Filter.or fs').chars ws := by
  rw [chars_or, chars_or]
  exact .between ['('] [')'] (by decide) (by decide) (h.joined " OR ".toList (by decide))

theorem ReadsFilters.one (h : Reads f.chars f'.chars ws) : ReadsFilters [f] [f'] ws := ReadsAll.one h

theorem ReadsFilters.cons (h : Reads f.chars f'.chars ws) (hs : ReadsFilters fs fs' ws') :
    ReadsFilters (f :: fs) (f' :: fs') (ws ++ ws') := ReadsAll.cons h hs

theorem ReadsFilters.flatMap {ι : Type} {is : List ι} {k k' : ι → List Filter} {w : ι → List Word}
    (h : ∀ i ∈ is, ReadsFilters (k i) (k' i) (w i)) : ReadsFilters (is.flatMap k) (is.flatMap k') (is.flatMap w) := by
  rw [ReadsFilters, List.map_flatMap, List.map_flatMap]
  exact ReadsAll.flatMap h

theorem ReadsFilters.gathered {k : List Filter → Option Filter} {gather : List Filter → Filter}
    (h : ReadsFilters fs fs' ws) (hg : Reads (gather fs).chars (gather fs').chars ws) (hnil : k [] = none)
    (hone : ∀ f, k [f] = some f) (hmany : ∀ f g fs, k (f :: g :: fs) = some (gather (f :: g :: fs))) :
    ReadsFilters (k fs).toList (k fs').toList ws := by
  match fs, fs' with
  | [], [] =>
      rw [hnil]
      exact h
  | [f], [f'] =>
      rw [hone, hone]
      exact h
  | f :: g :: fs, f' :: g' :: fs' =>
      rw [hmany, hmany]
      exact .one hg
  | [], _ :: _ | _ :: _, [] => cases h
  | [_], _ :: _ :: _ | _ :: _ :: _, [_] =>
      cases h with
      | cons _ hs => cases hs

theorem ReadsFilters.allOf (h : ReadsFilters fs fs' ws) :
    ReadsFilters (Filter.allOf fs).toList (Filter.allOf fs').toList ws :=
  h.gathered h.and rfl (fun _ => rfl) fun _ _ _ => rfl

theorem ReadsFilters.anyOf (h : ReadsFilters fs fs' ws) :
    ReadsFilters (Filter.anyOf fs).toList (Filter.anyOf fs').toList ws :=
  h.gathered h.or rfl (fun _ => rfl) fun _ _ _ => rfl

theorem chars_filterClause (f : Filter) : filterClause (some f) = " @filter(".toList ++ (f.chars ++ [')']) := by
  rw [← List.append_assoc]
  rfl

theorem ReadsFilters.clause (h : ReadsFilters o.toList o'.toList ws) : Reads (filterClause o) (filterClause o') ws := by
  match o, o' with
  | none, none =>
      cases h
      exact .plain (by decide)
  | some f, some f' =>
      rw [chars_filterClause, chars_filterClause]
      cases h with
      | cons h hs =>
          cases hs
          rw [List.append_nil]
          exact .between " @filter(".toList [')'] (by decide) (by decide) h
  | none, some _ | some _, none => cases h

theorem reads_text (hp : Safe p) (s s' : String) :
    Reads (Filter.eq p (.str s)).chars (Filter.eq p (.str s')).chars [.text s] :=
  reads_comparison (by decide) hp (.quoted s s')

theorem reads_type (name : String) : Reads (Filter.eq Vocabulary.equipmentType (.str name)).chars
    (Filter.eq Vocabulary.equipmentType (.str name)).chars [.text name] := reads_text (by decide) name name

theorem reads_scopeFilter (scopes : List String) :
    Reads (scopeFilter scopes).chars (scopeFilter (scopes.map fun _ => "")).chars (scopes.map .text) :=
  reads_comparison (by decide) (by decide) (reads_strings scopes)

theorem reads_typeFilter (typeName typeName' : String) (scopes : List String) :
    Reads (typeFilter typeName scopes).chars (typeFilter typeName' (scopes.map fun _ => "")).chars
      (.text typeName :: scopes.map .text) := by
  have htype := reads_text (p := Vocabulary.equipmentType) (by decide) typeName typeName'
  exact (ReadsFilters.cons htype (.one (reads_scopeFilter scopes))).and

end Filters

section Searches

/-- What stands for a text that is searched for. -/
def searchWord : Comparison → String → Word
  | .eq, s => .text s
  | .regex, s => .pattern (startingWith s)

/-- What stands for a value of a search: only texts have literals. -/
def valueWords (a : Attribute) (c : Comparison) (raw : Json) : List Word :=
  match FieldValue.convert a.dataType raw with
  | .ok (.string s) => [searchWord c s]
  | _ => []

def searchWords (path : Listing.Path) (t : EquipmentType) (s : Search) : List Word :=
  match searched? path t s.key with
  | some a => s.values.flatMap (valueWords a s.comparison)
  | none => []

/-- A value with its text emptied, unless it is a number in a text. -/
def emptied (t : EquipmentType) (key : String) : Json → Json
  | .str s => if (t.attribute? key).any (·.dataType.isNumeric) then .str s else .str ""
  | j => j

def emptiedSearch (t : EquipmentType) (s : Search) : Search := { s with values := s.values.map (emptied t s.key) }

def emptiedFilter (t : EquipmentType) (f : SearchFilter) : SearchFilter := ⟨f.searches.map (emptiedSearch t)⟩

theorem reads_alternative_text (hp : Safe p) (c : Comparison) (s s' : String) :
    Reads (alternative path p .string c (.string s)).chars (alternative path p .string c (.string s')).chars
      [searchWord c s] := by
  cases c with
  | eq => exact reads_text hp s s'
  | regex => exact reads_startingWith hp s s'

theorem reads_alternative_number (hp : Safe p) (c : Comparison) {d : DataType} (hd : d ≠ .string) {v : FieldValue}
    {n : Number} (hv : v.toJson = .num n) :
    Reads (alternative path p d c v).chars (alternative path p d c v).chars [] := by
  have hliteral : Reads (literal v.toJson) (literal v.toJson) [] := by
    rw [hv]
    exact .plain (plain_numerals (numerals_number n))
  have heq : Reads (Filter.eq p v.toJson).chars (Filter.eq p v.toJson).chars [] :=
    reads_comparison (by decide) hp hliteral
  have hge : Reads (Filter.ge p v.toJson).chars (Filter.ge p v.toJson).chars [] :=
    reads_comparison (by decide) hp hliteral
  cases d with
  | string => exact absurd rfl hd
  | int | float =>
      cases path with
      | listed => exact heq
      | related => exact hge

theorem toJson_of_dataType {v : FieldValue} (h : v.dataType ≠ .string) : ∃ n, v.toJson = .num n := by
  cases v with
  | string s => exact absurd rfl h
  | int i => exact ⟨.int i, rfl⟩
  | float x => exact ⟨.float x, rfl⟩

theorem emptied_of_not_str {raw : Json} (h : ∀ s, raw ≠ .str s) (t : EquipmentType) (key : String) :
    emptied t key raw = raw := by
  cases raw with
  | str s => exact absurd rfl (h s)
  | null | bool _ | num _ | arr _ | obj _ => rfl

/-- A value that is searched for in texts is emptied if it is one. -/
theorem reads_value_text (hp : Safe (predicateOf t a)) {key : String} (ha : t.attribute? key = some a)
    (hd : a.dataType = .string) (c : Comparison) (raw : Json) :
    ReadsFilters (alternative? path t a c raw).toList (alternative? path t a c (emptied t key raw)).toList
      (valueWords a c raw) := by
  unfold alternative? valueWords
  rw [hd]
  cases raw with
  | str s =>
      have hempty : emptied t key (.str s) = .str "" := by simp [emptied, ha, hd, DataType.isNumeric]
      rw [hempty]
      exact .one (reads_alternative_text hp c s "")
  | num n =>
      have hplain : ∀ s, Json.num n ≠ .str s := fun _ h => by cases h
      rw [emptied_of_not_str hplain]
      exact .one (reads_alternative_text hp c _ _)
  | bool b =>
      have hplain : ∀ s, Json.bool b ≠ .str s := fun _ h => by cases h
      rw [emptied_of_not_str hplain]
      exact .one (reads_alternative_text hp c _ _)
  | null | arr _ | obj _ => exact .nil

/-- A value that is searched for in numbers is written as a number, whatever it is. -/
theorem reads_value_number (hp : Safe (predicateOf t a)) {key : String} (ha : t.attribute? key = some a)
    (hd : a.dataType ≠ .string) (c : Comparison) (raw : Json) :
    ReadsFilters (alternative? path t a c raw).toList (alternative? path t a c (emptied t key raw)).toList
      (valueWords a c raw) := by
  have hnumeric : a.dataType.isNumeric = true := by
    cases h : a.dataType with
    | string => exact absurd h hd
    | int | float => rfl
  have hsame : emptied t key raw = raw := by
    cases raw with
    | str s => simp [emptied, ha, hnumeric]
    | null | bool _ | num _ | arr _ | obj _ => rfl
  unfold alternative? valueWords
  rw [hsame]
  cases hv : FieldValue.convert a.dataType raw with
  | error e => exact .nil
  | ok v =>
      have htype : v.dataType ≠ .string := by
        rw [Conversions.dataType_of_convert hv]
        exact hd
      obtain ⟨n, hn⟩ := toJson_of_dataType htype
      cases v with
      | string s => exact absurd rfl htype
      | int _ | float _ => exact .one (reads_alternative_number hp c hd hn)

theorem reads_value (ht : Named t) {key : String} (ha : t.attribute? key = some a) (c : Comparison) (raw : Json) :
    ReadsFilters (alternative? path t a c raw).toList (alternative? path t a c (emptied t key raw)).toList
      (valueWords a c raw) := by
  have hp : Safe (predicateOf t a) := ht.predicateOf (List.mem_of_find?_eq_some ha)
  by_cases hd : a.dataType = .string
  · exact reads_value_text hp ha hd c raw
  · exact reads_value_number hp ha hd c raw

theorem reads_search (ht : Named t) (s : Search) : ReadsFilters (clause? path t s).toList
    (clause? path t (emptiedSearch t s)).toList (searchWords path t s) := by
  unfold clause? searchWords
  change ReadsFilters _ ((searched? path t s.key).bind fun a => searchFilter? path t a (emptiedSearch t s)).toList _
  cases hs : searched? path t s.key with
  | none => exact .nil
  | some a =>
      have hall : ReadsFilters (s.values.flatMap fun raw => (alternative? path t a s.comparison raw).toList)
          (s.values.flatMap fun raw => (alternative? path t a s.comparison (emptied t s.key raw)).toList)
          (s.values.flatMap (valueWords a s.comparison)) :=
        ReadsFilters.flatMap fun raw _ => reads_value ht (attribute_of_searched hs) s.comparison raw
      rw [← List.filterMap_eq_flatMap_toList, ← List.filterMap_eq_flatMap_toList] at hall
      have hmap : (emptiedSearch t s).values.filterMap (alternative? path t a s.comparison) =
          s.values.filterMap fun raw => alternative? path t a s.comparison (emptied t s.key raw) := by
        rw [emptiedSearch, List.filterMap_map]
        rfl
      rw [← hmap] at hall
      exact hall.anyOf

theorem ordered_emptiedFilter (t : EquipmentType) (f : SearchFilter) :
    (emptiedFilter t f).ordered = f.ordered.map (emptiedSearch t) := by
  have hmap : (f.searches.mergeSort fun a b => b.priority ≤ a.priority).map (emptiedSearch t) =
      (f.searches.map (emptiedSearch t)).mergeSort fun a b => b.priority ≤ a.priority :=
    List.map_mergeSort fun _ _ _ _ => rfl
  exact hmap.symm

theorem reads_attributeFilter (path : Listing.Path) (ht : Named t) (f : SearchFilter) :
    ReadsFilters (attributeFilter? path t f).toList (attributeFilter? path t (emptiedFilter t f)).toList
      (f.ordered.flatMap (searchWords path t)) := by
  have hall : ReadsFilters (f.ordered.flatMap fun s => (clause? path t s).toList)
      (f.ordered.flatMap fun s => (clause? path t (emptiedSearch t s)).toList)
      (f.ordered.flatMap (searchWords path t)) := ReadsFilters.flatMap fun s _ => reads_search ht s
  rw [← List.filterMap_eq_flatMap_toList, ← List.filterMap_eq_flatMap_toList] at hall
  have hmap : (emptiedFilter t f).ordered.filterMap (clause? path t) =
      f.ordered.filterMap fun s => clause? path t (emptiedSearch t s) := by
    rw [ordered_emptiedFilter, List.filterMap_map]
    rfl
  rw [← hmap] at hall
  exact hall.allOf

theorem relationshipFilter_eq (t : EquipmentType) (f : SearchFilter) :
    [relationshipFilter t f] = (Filter.allOf (.eq Vocabulary.equipmentType (.str t.typeName) ::
      (attributeFilter? .related t f).toList)).toList := by
  rw [relationshipFilter]
  cases attributeFilter? .related t f <;> rfl

theorem reads_relationshipFilter (ht : Named t) (f : SearchFilter) : ReadsFilters [relationshipFilter t f]
    [relationshipFilter t (emptiedFilter t f)] (.text t.typeName :: f.ordered.flatMap (searchWords .related t)) := by
  rw [relationshipFilter_eq, relationshipFilter_eq]
  have htype := reads_type t.typeName
  exact (ReadsFilters.cons htype (reads_attributeFilter .related ht f)).allOf

end Searches

section Blocks

variable {bind : Option String} {b b' : Block}

theorem charsAll_selections (depth : Nat) (ss : List Selection) :
    Selection.charsAll depth ss = ss.flatMap (Selection.chars depth) := by
  induction ss with
  | nil => rfl
  | cons s ss ih =>
      rw [List.flatMap_cons, ← ih]
      rfl

theorem reads_hop (edge : Edge) (hb : Plain (binding bind)) (he : Plain edge.chars)
    (h : Reads (filterClause o) (filterClause o') ws) :
    Reads (Traversal.chars depth ⟨edge, o, bind, []⟩) (Traversal.chars depth ⟨edge, o', bind, []⟩) ws := by
  have hchars : ∀ o, Traversal.chars depth ⟨edge, o, bind, []⟩ =
      (indent depth ++ binding bind ++ edge.chars) ++ (filterClause o ++ ['\n']) := by
    intro o
    rw [← List.append_assoc]
    rfl
  rw [hchars, hchars]
  exact .between _ ['\n'] (((plain_indent depth).append hb).append he) (by decide) h

theorem reads_hops {h h' : Traversal} (edge : Edge) (hb : Plain (binding bind)) (he : Plain edge.chars)
    (hfilter : Reads (filterClause o) (filterClause o') ws)
    (hh : Reads (Traversal.chars (depth + 1) h) (Traversal.chars (depth + 1) h') ws') :
    Reads (Traversal.chars depth ⟨edge, o, bind, [h]⟩) (Traversal.chars depth ⟨edge, o', bind, [h']⟩) (ws ++ ws') := by
  have hchars : ∀ o h, Traversal.chars depth ⟨edge, o, bind, [h]⟩ =
      (indent depth ++ binding bind ++ edge.chars) ++ (filterClause o ++ " \x7b\n".toList) ++
        ([] ++ (Traversal.chars (depth + 1) h ++ (indent depth ++ "\x7d\n".toList))) := by
    intro o h
    have he : Traversal.chars depth ⟨edge, o, bind, [h]⟩ = indent depth ++ binding bind ++ edge.chars ++
        filterClause o ++ (" \x7b\n".toList ++ (Traversal.chars (depth + 1) h ++ []) ++ indent depth ++
          "\x7d\n".toList) := rfl
    rw [he]
    simp only [List.nil_append, List.append_nil, List.append_assoc]
  have hhead := hfilter.between (indent depth ++ binding bind ++ edge.chars) " \x7b\n".toList
    (((plain_indent depth).append hb).append he) (by decide)
  rw [hchars, hchars]
  exact hhead.append (hh.between [] _ (by decide) ((plain_indent depth).append (by decide)))

theorem plain_field {label : String} (hl : Safe label) (hp : Safe p) (depth : Nat) :
    Plain (Selection.chars depth (.field label p)) :=
  .append (.append (.append (.append (plain_indent depth) (plain_safe hl)) (by decide)) (plain_safe hp)) (by decide)

theorem plain_parent {label : String} (hl : Safe label) (depth : Nat) :
    Plain (Selection.chars depth (.edge label ⟨Vocabulary.parent, false⟩
      [.field idLabel Vocabulary.uid, .field identifierLabel Vocabulary.identifier])) := by
  have hid : Plain (Selection.chars (depth + 1) (.field idLabel Vocabulary.uid)) :=
    plain_field (by decide) (by decide) _
  have hidentifier : Plain (Selection.chars (depth + 1) (.field identifierLabel Vocabulary.identifier)) :=
    plain_field (by decide) (by decide) _
  have hhead : Plain (indent depth ++ label.toList ++ ": ".toList ++ Edge.chars ⟨Vocabulary.parent, false⟩ ++
      " \x7b\n".toList) :=
    .append (.append (.append (.append (plain_indent depth) (plain_safe hl)) (by decide)) (by decide)) (by decide)
  have hfields := hid.append (hidentifier.append fun _ hc => absurd hc List.not_mem_nil)
  exact .append (.append (hhead.append hfields) (plain_indent depth)) (by decide)

theorem plain_projection (ht : Named t) (all : Bool) (depth : Nat) :
    Plain (Selection.charsAll depth (projection t all)) := by
  rw [charsAll_selections, projection, List.flatMap_cons]
  refine .append (plain_field (by decide) (by decide) depth) fun c hc => ?_
  obtain ⟨s, hs, hc⟩ := List.mem_flatMap.1 hc
  obtain ⟨a, ha, hs⟩ := List.mem_filterMap.1 hs
  rcases ht.attributeSelection ha hs with ⟨p, rfl, hp⟩ | rfl
  · exact plain_field (ht.labels a ha) hp depth c hc
  · exact plain_parent (ht.labels a ha) depth c hc

/-- Blocks that differ in where they start and what they follow only, with no delimiter in what they share. -/
structure Framed (b b' : Block) : Prop where
  same : b' = { b with root := b'.root, filter := b'.filter, traversals := b'.traversals }
  binds : Plain (binding b.bind)
  name : Plain (b.name.getD "var").toList
  order : Plain (orderClause b.order)
  first : Plain (pageClause "first" b.first)
  offset : Plain (pageClause "offset" b.offset)
  recursion : Plain (recursionClause b.recursion)
  selections : Plain (Selection.charsAll 2 b.selections)

theorem Framed.bare (hsame : b' = { b with root := b'.root, filter := b'.filter, traversals := b'.traversals })
    (hbinds : Plain (binding b.bind)) (hname : b.name = none) (horder : b.order = none) (hfirst : b.first = none)
    (hoffset : b.offset = none) (hrecursion : b.recursion = none) (hselections : b.selections = []) : Framed b b' := by
  refine ⟨hsame, hbinds, ?_, ?_, ?_, ?_, ?_, ?_⟩
  · rw [hname]
    decide
  · rw [horder]
    decide
  · rw [hfirst]
    decide
  · rw [hoffset]
    decide
  · rw [hrecursion]
    decide
  · rw [hselections]
    decide

theorem reads_block (h : Framed b b') (hroot : Reads b.root.chars b'.root.chars ws)
    (hfilter : Reads (filterClause b.filter) (filterClause b'.filter) ws')
    (hs : Reads (Traversal.charsAll 2 b.traversals) (Traversal.charsAll 2 b'.traversals) ws'') :
    Reads b.chars b'.chars (ws ++ ws' ++ ws'') := by
  let head := indent 1 ++ binding b.bind ++ (b.name.getD "var").toList ++ "(func: ".toList
  let page := orderClause b.order ++ pageClause "first" b.first ++ pageClause "offset" b.offset ++ [')'] ++
    recursionClause b.recursion
  let tail := Selection.charsAll 2 b.selections ++ indent 1 ++ "\x7d\n".toList
  have hchars : ∀ r o ts, Block.chars { b with root := r, filter := o, traversals := ts } =
      head ++ (r.chars ++ page) ++ ([] ++ (filterClause o ++ " \x7b\n".toList)) ++
        ([] ++ (Traversal.charsAll 2 ts ++ tail)) := by
    intro r o ts
    simp only [Block.chars, head, page, tail, List.append_assoc, List.nil_append]
  have hhead : Plain head := .append (.append (.append (plain_indent 1) h.binds) h.name) (by decide)
  have hpage : Plain page := .append (.append (.append (.append h.order h.first) h.offset) (by decide)) h.recursion
  have htail : Plain tail := .append (.append h.selections (plain_indent 1)) (by decide)
  rw [h.same, hchars, hchars]
  exact ((hroot.between head page hhead hpage).append (hfilter.between [] _ (by decide) (by decide))).append
    (hs.between [] tail (by decide) htail)

end Blocks

section Requests

/-- Related entities with their identifiers emptied. -/
def emptiedRelated (r : Related) : Related :=
  ⟨r.product.map fun _ => "", r.application.map fun _ => "", r.installation.map fun _ => ""⟩

def emptiedSpec (t : EquipmentType) (s : ListingSpec) : ListingSpec :=
  { s with filter := emptiedFilter t s.filter, related := emptiedRelated s.related }

def emptiedScopes (scopes : List String) : List String := scopes.map fun _ => ""

/-- The texts of the scopes, in the order of the scopes. -/
def scopeWords (scopes : List String) : List Word := scopes.map .text

def relatedWords (r : Related) (scopes : List String) : List Word :=
  (r.application.toList.flatMap fun id => .text id :: scopeWords scopes ++ scopeWords scopes) ++
    (r.product.toList.flatMap fun id => .text id :: scopeWords scopes) ++
    (r.installation.toList.flatMap fun id => .text id :: scopeWords scopes)

/-- Blocks whose texts differ in the bodies of literals only. -/
def ReadsBlocks (bs bs' : List Block) (ws : List Word) : Prop := ReadsAll (bs.map Block.chars) (bs'.map Block.chars) ws

variable {b b' : Block} {bs bs' : List Block} {q q' : Query}

theorem ReadsBlocks.nil : ReadsBlocks [] [] [] := ReadsAll.nil

theorem ReadsBlocks.cons (h : Reads b.chars b'.chars ws) (hs : ReadsBlocks bs bs' ws') :
    ReadsBlocks (b :: bs) (b' :: bs') (ws ++ ws') := ReadsAll.cons h hs

theorem ReadsBlocks.append (h : ReadsBlocks bs bs' ws) {cs cs' : List Block} (h' : ReadsBlocks cs cs' ws') :
    ReadsBlocks (bs ++ cs) (bs' ++ cs') (ws ++ ws') := by
  rw [ReadsBlocks, List.map_append, List.map_append]
  exact ReadsAll.append h h'

theorem reads_query (hname : q'.name = q.name) (hparams : q'.params = q.params) (hn : Plain q.name.toList)
    (hp : Plain (paramClause q.params)) (h : ReadsBlocks q.blocks q'.blocks ws) : Reads q.chars q'.chars ws := by
  have hchars : ∀ q : Query, q.chars = ("query ".toList ++ q.name.toList ++ paramClause q.params ++
      " \x7b\n".toList) ++ ((q.blocks.map Block.chars).flatten ++ ['\x7d']) := by
    intro q
    rw [← List.append_assoc, ← List.flatMap_def]
    rfl
  rw [hchars, hchars, hname, hparams]
  exact h.flatten.between _ ['\x7d'] (.append (.append (.append (by decide) hn) hp) (by decide)) (by decide)

theorem reads_some (h : Reads f.chars f'.chars ws) : Reads (filterClause (some f)) (filterClause (some f')) ws :=
  ReadsFilters.clause (.one h)

theorem reads_root (hp : Safe p) (s s' : String) :
    Reads (Root.eq p (.str s)).chars (Root.eq p (.str s')).chars [.text s] :=
  reads_comparison (by decide) hp (.quoted s s')

theorem plain_nothing : Plain (binding none) := by decide

theorem reads_linkedBlock (predicate edge var : String) (hp : Safe predicate) (he : Safe edge) (hv : Safe var)
    (id : String) (scopes : List String) : Reads (linkedBlock predicate id edge var scopes).chars
      (linkedBlock predicate "" edge var (emptiedScopes scopes)).chars (.text id :: scopeWords scopes) := by
  have hhop : Reads (Traversal.chars 2 ⟨⟨edge, false⟩, none, some var, []⟩)
      (Traversal.chars 2 ⟨⟨edge, false⟩, none, some var, []⟩) [] :=
    reads_hop ⟨edge, false⟩ (.append (plain_safe hv) (by decide)) (plain_safe he) .nil
  have hblock : Reads (linkedBlock predicate id edge var scopes).chars
      (linkedBlock predicate "" edge var (emptiedScopes scopes)).chars
        ([.text id] ++ scopeWords scopes ++ ([] ++ [])) :=
    reads_block (.bare rfl plain_nothing rfl rfl rfl rfl rfl rfl) (reads_root hp id "")
      (reads_some (reads_scopeFilter scopes)) (hhop.append .nil)
  exact hblock.as (by simp)

theorem reads_applicationBlock (var : String) (hv : Safe var) (id : String) (scopes : List String) :
    Reads (applicationBlock id var scopes).chars (applicationBlock "" var (emptiedScopes scopes)).chars
      (.text id :: scopeWords scopes ++ scopeWords scopes) := by
  have hlast : Reads (Traversal.chars 3 ⟨⟨Vocabulary.instanceEquipment, false⟩, none, some var, []⟩)
      (Traversal.chars 3 ⟨⟨Vocabulary.instanceEquipment, false⟩, none, some var, []⟩) [] :=
    reads_hop ⟨Vocabulary.instanceEquipment, false⟩ (.append (plain_safe hv) (by decide)) (by decide) .nil
  have hhops := reads_hops ⟨Vocabulary.applicationInstance, false⟩ plain_nothing (by decide)
    (reads_some (reads_scopeFilter scopes)) hlast
  have hblock : Reads (applicationBlock id var scopes).chars (applicationBlock "" var (emptiedScopes scopes)).chars
      ([.text id] ++ scopeWords scopes ++ (scopeWords scopes ++ [] ++ [])) :=
    reads_block (.bare rfl plain_nothing rfl rfl rfl rfl rfl rfl) (reads_root (by decide) id "")
      (reads_some (reads_scopeFilter scopes)) (hhops.append .nil)
  exact hblock.as (by simp)

theorem reads_optional (o : Option String) (k l : String → Block) (w : String → List Word)
    (h : ∀ id, Reads (k id).chars (l "").chars (w id)) :
    ReadsBlocks (o.toList.map k) ((o.map fun _ => "").toList.map l) (o.toList.flatMap w) := by
  cases o with
  | none => exact .nil
  | some id => exact .cons (h id) .nil

theorem reads_related (r : Related) (scopes : List String) : ReadsBlocks ((relatedBlocks r scopes).map (·.2))
    ((relatedBlocks (emptiedRelated r) (emptiedScopes scopes)).map (·.2)) (relatedWords r scopes) := by
  have happlication := reads_optional r.application (applicationBlock · "ID_App" scopes)
    (applicationBlock · "ID_App" (emptiedScopes scopes)) (fun id => .text id :: scopeWords scopes ++ scopeWords scopes)
    fun id => reads_applicationBlock "ID_App" (by decide) id scopes
  have hlinked : ∀ predicate edge var (o : Option String), Safe predicate → Safe edge → Safe var →
      ReadsBlocks (o.toList.map (linkedBlock predicate · edge var scopes))
        ((o.map fun _ => "").toList.map (linkedBlock predicate · edge var (emptiedScopes scopes)))
        (o.toList.flatMap fun id => .text id :: scopeWords scopes) :=
    fun predicate edge var o hp he hv => reads_optional o _ (linkedBlock predicate · edge var (emptiedScopes scopes)) _
      (reads_linkedBlock predicate edge var hp he hv · scopes)
  have hproduct := hlinked Vocabulary.productTag Vocabulary.productEquipment "ID_Pro" r.product (by decide) (by decide)
    (by decide)
  have hinstallation := hlinked Vocabulary.instanceId Vocabulary.instanceEquipment "ID_Ins" r.installation (by decide)
    (by decide) (by decide)
  have hall := (happlication.append hproduct).append hinstallation
  simp only [relatedBlocks, List.map_append, List.map_map]
  exact hall

def linkedNames (r : Related) : List String :=
  (r.application.toList.map fun _ => "ID_App") ++ (r.product.toList.map fun _ => "ID_Pro") ++
    (r.installation.toList.map fun _ => "ID_Ins")

theorem names_relatedBlocks (r : Related) (scopes : List String) :
    (relatedBlocks r scopes).map (·.1) = linkedNames r := by
  simp only [relatedBlocks, linkedNames, List.map_append, List.map_map]
  rfl

theorem linkedNames_emptied (r : Related) : linkedNames (emptiedRelated r) = linkedNames r := by
  obtain ⟨product, application, installation⟩ := r
  cases product <;> cases application <;> cases installation <;> rfl

theorem safe_linkedNames {r : Related} (h : name ∈ linkedNames r) : Safe name := by
  simp only [linkedNames, List.mem_append, List.mem_map] at h
  obtain (⟨_, -, rfl⟩ | ⟨_, -, rfl⟩) | ⟨_, -, rfl⟩ := h <;> decide

theorem reads_linked (r : Related) (scopes : List String) : Reads
    (filterClause (Filter.allOf ((relatedBlocks r scopes).map fun b => .uid (uidVar b.1))))
    (filterClause (Filter.allOf ((relatedBlocks (emptiedRelated r) (emptiedScopes scopes)).map
      fun b => .uid (uidVar b.1)))) [] := by
  have hmap : ∀ r scopes, (relatedBlocks r scopes).map (fun b => Filter.uid (uidVar b.1)) =
      (linkedNames r).map fun name => .uid (uidVar name) := by
    intro r scopes
    rw [← names_relatedBlocks r scopes, List.map_map]
    rfl
  have hall : ∀ names : List String, (∀ name ∈ names, Safe name) →
      ReadsFilters (names.map fun name => .uid (uidVar name)) (names.map fun name => .uid (uidVar name)) [] := by
    intro names hnames
    induction names with
    | nil => exact .nil
    | cons name names ih =>
        obtain ⟨hname, hnames⟩ := List.forall_mem_cons.1 hnames
        have huid : Plain (Filter.uid (uidVar name)).chars :=
          .append (.append (by decide) (plain_safe hname)) (by decide)
        exact .cons (.plain huid) (ih hnames)
  rw [hmap, hmap, linkedNames_emptied]
  exact (hall _ fun name => safe_linkedNames).allOf.clause

theorem reads_candidates (ht : Named t) (s : ListingSpec) (scopes : List String) :
    Reads (candidates t s scopes).chars (candidates t (emptiedSpec t s) (emptiedScopes scopes)).chars
      (.text t.typeName :: scopeWords scopes ++ s.filter.ordered.flatMap (searchWords .listed t)) := by
  have hfilter := (ReadsFilters.cons (reads_scopeFilter scopes) (reads_attributeFilter .listed ht s.filter)).allOf
  have hbinds : Plain (binding (some candidatesVar)) := by decide
  have hblock : Reads (candidates t s scopes).chars (candidates t (emptiedSpec t s) (emptiedScopes scopes)).chars
      ([.text t.typeName] ++ (scopeWords scopes ++ s.filter.ordered.flatMap (searchWords .listed t)) ++ []) :=
    reads_block (.bare rfl hbinds rfl rfl rfl rfl rfl rfl) (reads_root (by decide) t.typeName t.typeName)
      hfilter.clause .nil
  exact hblock.as (by simp)

theorem plain_order {order : Order} (h : Safe order.predicate) : Plain (orderClause (some order)) := by
  have hname : ∀ d : SortDirection, Plain d.name.toList := by
    intro d
    cases d <;> decide
  exact .append (.append (.append (by decide) (hname order.direction)) (by decide)) (plain_safe h)

theorem reads_count (var block : String) (hv : Safe var) (hb : Safe block)
    (h : Reads (filterClause o) (filterClause o') ws) :
    Reads (countOf ((Block.named block (.uid (uidVar var))).filtered o)).chars
      (countOf ((Block.named block (.uid (uidVar var))).filtered o')).chars ws := by
  have hnone : Plain [] := by decide
  have hselections : Plain (Selection.charsAll 2 [.count totalLabel]) := by decide
  have hframed : Framed (countOf ((Block.named block (.uid (uidVar var))).filtered o))
      (countOf ((Block.named block (.uid (uidVar var))).filtered o')) :=
    ⟨rfl, hnone, plain_safe hb, hnone, hnone, hnone, hnone, hselections⟩
  have hroot : Plain (Root.uid (uidVar var)).chars := .append (.append (by decide) (plain_safe hv)) (by decide)
  have hblock := reads_block hframed (.plain hroot) h .nil
  exact hblock.as (by simp)

theorem reads_paged (var : String) (ht : Named t) (hv : Safe var) (s : ListingSpec)
    (h : Reads (filterClause o) (filterClause o') ws) :
    Reads (paged ((Block.named rowsBlock (.uid (uidVar var))).filtered o) t s).chars
      (paged ((Block.named rowsBlock (.uid (uidVar var))).filtered o') t (emptiedSpec t s)).chars ws := by
  have hnone : Plain [] := by decide
  have hname : Plain rowsBlock.toList := by decide
  have hfirst : Plain (pageClause "first" (some (.var pageSizeVar))) := by decide
  have hoffset : Plain (pageClause "offset" (some (.var offsetVar))) := by decide
  have horder : Plain (orderClause (some ⟨sortPredicate t s.sortBy, s.sortOrder⟩)) :=
    plain_order (ht.sortPredicate s.sortBy)
  have hframed : Framed (paged ((Block.named rowsBlock (.uid (uidVar var))).filtered o) t s)
      (paged ((Block.named rowsBlock (.uid (uidVar var))).filtered o') t (emptiedSpec t s)) :=
    ⟨rfl, hnone, hname, horder, hfirst, hoffset, hnone, plain_projection ht false 2⟩
  have hroot : Plain (Root.uid (uidVar var)).chars := .append (.append (by decide) (plain_safe hv)) (by decide)
  have hblock := reads_block hframed (.plain hroot) h .nil
  exact hblock.as (by simp)

theorem reads_list (ht : Named t) (s : ListingSpec) (scopes : List String) : Reads (list t s scopes).query.chars
    (list t (emptiedSpec t s) (emptiedScopes scopes)).query.chars
    (relatedWords s.related scopes ++ .text t.typeName :: scopeWords scopes ++
      s.filter.ordered.flatMap (searchWords .listed t)) := by
  have hlinked := reads_linked s.related scopes
  have hcount := reads_count candidatesVar countBlock (by decide) (by decide) hlinked
  have hpage := reads_paged candidatesVar ht (by decide) s hlinked
  have hblocks := (reads_related s.related scopes).append (ReadsBlocks.cons (reads_candidates ht s scopes)
    (.cons hcount (.cons hpage .nil)))
  have hname : Plain rowsBlock.toList := by decide
  have hparams : Plain (paramClause pageParams) := by decide
  have hquery : Reads (list t s scopes).query.chars (list t (emptiedSpec t s) (emptiedScopes scopes)).query.chars _ :=
    reads_query rfl rfl hname hparams hblocks
  exact hquery.as (by simp)

theorem reads_get (ht : Named t) (identifier : String) (scopes : List String) :
    Reads (get t identifier scopes).query.chars (get t "" (emptiedScopes scopes)).query.chars
      (.text identifier :: .text t.typeName :: scopeWords scopes) := by
  have hnone : Plain [] := by decide
  have hname : Plain instanceBlock.toList := by decide
  let block := fun identifier scopes =>
    ((Block.named instanceBlock (.eq Vocabulary.identifier (.str identifier))).filtered
      (typeFilter t.typeName scopes)).select (projection t true)
  have hframed : Framed (block identifier scopes) (block "" (emptiedScopes scopes)) :=
    ⟨rfl, hnone, hname, hnone, hnone, hnone, hnone, plain_projection ht true 2⟩
  have hblock := reads_block hframed (reads_root (by decide) identifier "")
    (reads_some (reads_typeFilter t.typeName t.typeName scopes)) .nil
  have hquery : Reads (get t identifier scopes).query.chars (get t "" (emptiedScopes scopes)).query.chars _ :=
    reads_query rfl rfl hname hnone (.cons hblock .nil)
  exact hquery.as (by simp [scopeWords])

/-- The block that binds an instance and those of its children that are searched for. -/
def childrenRoot (t : EquipmentType) (anchorType : String) (anchor : Uid) (f : SearchFilter) (scopes : List String) :
    Block :=
  anchored anchor (typeFilter anchorType scopes)
    (hopTo .descendants Vocabulary.parent (.and [relationshipFilter t f, scopeFilter scopes]))

theorem reads_childrenRoot (ht : Named t) (anchorType : String) (anchor : Uid) (f : SearchFilter)
    (scopes : List String) : Reads (childrenRoot t anchorType anchor f scopes).chars
      (childrenRoot t anchorType anchor (emptiedFilter t f) (emptiedScopes scopes)).chars
      (.text anchorType :: scopeWords scopes ++ .text t.typeName ::
        f.ordered.flatMap (searchWords .related t) ++ scopeWords scopes) := by
  have hbinds : Plain (binding (some anchorVar)) := by decide
  have hreached : Plain (binding (some reachedVar)) := by decide
  have hedge : Plain (Direction.descendants.edge Vocabulary.parent).chars := by decide
  have hroot : Plain (Root.uid [.node anchor]).chars := .append (.append (by decide) (plain_uid anchor)) (by decide)
  have hfilter : ReadsFilters [relationshipFilter t f, scopeFilter scopes]
      [relationshipFilter t (emptiedFilter t f), scopeFilter (emptiedScopes scopes)] _ :=
    (reads_relationshipFilter ht f).append (ReadsFilters.one (reads_scopeFilter scopes))
  have hhop : Reads (Traversal.charsAll 2 (childrenRoot t anchorType anchor f scopes).traversals)
      (Traversal.charsAll 2
        (childrenRoot t anchorType anchor (emptiedFilter t f) (emptiedScopes scopes)).traversals) _ :=
    (reads_hop (Direction.descendants.edge Vocabulary.parent) hreached hedge (reads_some hfilter.and)).append .nil
  have hblock : Reads (childrenRoot t anchorType anchor f scopes).chars
      (childrenRoot t anchorType anchor (emptiedFilter t f) (emptiedScopes scopes)).chars _ :=
    reads_block (.bare rfl hbinds rfl rfl rfl rfl rfl rfl) (.plain hroot)
      (reads_some (reads_typeFilter anchorType anchorType scopes)) hhop
  exact hblock.as (by simp [scopeWords])

theorem reads_children (ht : Named t) (parent : EquipmentType) (anchor : Uid) (s : ListingSpec) (scopes : List String) :
    Reads (children parent t anchor s scopes).query.chars
      (children parent t anchor (emptiedSpec t s) (emptiedScopes scopes)).query.chars
      (.text parent.typeName :: scopeWords scopes ++ .text t.typeName ::
        s.filter.ordered.flatMap (searchWords .related t) ++ scopeWords scopes) := by
  have hname : Plain "Children".toList := by decide
  have hparams : Plain (paramClause pageParams) := by decide
  have hcount : ∀ block var, Safe block → Safe var → Reads (counted block var).chars (counted block var).chars [] :=
    fun block var hb hv => reads_count var block hv hb .nil
  have hunfiltered : Reads (filterClause none) (filterClause none) [] := .nil
  have hpage : Reads (paged (Block.named rowsBlock (.uid (uidVar reachedVar))) t s).chars
      (paged (Block.named rowsBlock (.uid (uidVar reachedVar))) t (emptiedSpec t s)).chars [] :=
    reads_paged reachedVar ht (by decide) s hunfiltered
  have hblocks : ReadsBlocks (children parent t anchor s scopes).query.blocks
      (children parent t anchor (emptiedSpec t s) (emptiedScopes scopes)).query.blocks _ :=
    .cons (reads_childrenRoot ht parent.typeName anchor s.filter scopes)
      (.cons (hcount existsBlock anchorVar (by decide) (by decide))
        (.cons (hcount countBlock reachedVar (by decide) (by decide)) (.cons hpage .nil)))
  have hquery : Reads (children parent t anchor s scopes).query.chars
      (children parent t anchor (emptiedSpec t s) (emptiedScopes scopes)).query.chars _ :=
    reads_query rfl rfl hname hparams hblocks
  exact hquery.as (by simp)

end Requests

/-- What is asked of the instances of a type. -/
inductive Inquiry
  | list (s : ListingSpec) (scopes : List String)
  | get (identifier : String) (scopes : List String)
  | children (parent : EquipmentType) (anchor : Uid) (s : ListingSpec) (scopes : List String)

namespace Inquiry

def query (t : EquipmentType) : Inquiry → Query
  | list s scopes => (Listing.list t s scopes).query
  | get identifier scopes => (Listing.get t identifier scopes).query
  | children parent anchor s scopes => (Hierarchy.children parent t anchor s scopes).query

/-- With the texts emptied that a user gives: those that attributes are searched for, identifiers and scopes. -/
def emptied (t : EquipmentType) : Inquiry → Inquiry
  | list s scopes => list (emptiedSpec t s) (emptiedScopes scopes)
  | get _ scopes => get "" (emptiedScopes scopes)
  | children parent anchor s scopes => children parent anchor (emptiedSpec t s) (emptiedScopes scopes)

/-- What the literals of the query are made from, in their order. -/
def words (t : EquipmentType) : Inquiry → List Word
  | list s scopes => relatedWords s.related scopes ++ .text t.typeName :: scopeWords scopes ++
      s.filter.ordered.flatMap (searchWords .listed t)
  | get identifier scopes => .text identifier :: .text t.typeName :: scopeWords scopes
  | children parent _ s scopes => .text parent.typeName :: scopeWords scopes ++ .text t.typeName ::
      s.filter.ordered.flatMap (searchWords .related t) ++ scopeWords scopes

theorem reads (ht : Named t) (i : Inquiry) : Reads (i.query t).chars ((i.emptied t).query t).chars (i.words t) := by
  cases i with
  | list s scopes => exact reads_list ht s scopes
  | get identifier scopes => exact reads_get ht identifier scopes
  | children parent anchor s scopes => exact reads_children ht parent anchor s scopes

end Inquiry

/-- The queries of two inquiries that differ only in the texts a user gives, about a type whose names are safe: every
literal is closed, the texts are the same outside of literals and have as many of them, and the literals stand for just
what they were made from. -/
theorem literals_of_emptied {u : Unit} (h : Admission.checkNames t = .ok u) {i i' : Inquiry}
    (he : i.emptied t = i'.emptied t) : ∃ ps ps', scan .outside (i.query t).render.toList = some ps ∧
      scan .outside (i'.query t).render.toList = some ps' ∧ outside ps = outside ps' ∧
      (literals ps).length = (literals ps').length ∧ outline ps = outline ps' ∧
      Literals.words ps = i.words t ∧ Literals.words ps' = i'.words t := by
  have ht := named_of_checkNames h
  have hi := i.reads ht
  rw [he] at hi
  obtain ⟨ps, ps', hps, hps', ho, hw, hw'⟩ := hi.alike (i'.reads ht)
  refine ⟨ps, ps', ?_, ?_, outside_of_outline ho, length_literals_of_outline ho, ho, hw, hw'⟩
  · rw [Query.render, String.toList_ofList]
    exact hps
  · rw [Query.render, String.toList_ofList]
    exact hps'

/-- A type that is searched by its identifier. -/
def host : EquipmentType := (EquipmentType.new "host" "0x1").withAttribute (.identifier "host name" "id")

/-- The instances of a product whose identifier begins with a text. -/
def searchedFor (text product scope : String) : Inquiry :=
  .list (((ListingSpec.new 10).withProduct product).withFilter ⟨[.regex "host name" text]⟩) [scope]

theorem literals_hostile : ∃ ps ps',
    scan .outside ((searchedFor "a" "p" "s").query host).render.toList = some ps ∧
    scan .outside ((searchedFor "/i) OR (\"" "\\\"" "])) \x7b").query host).render.toList = some ps' ∧
    outside ps = outside ps' ∧ (literals ps).length = (literals ps').length ∧ outline ps = outline ps' ∧
    Literals.words ps = (searchedFor "a" "p" "s").words host ∧
    Literals.words ps' = (searchedFor "/i) OR (\"" "\\\"" "])) \x7b").words host := by
  have hchecked : Admission.checkNames host = .ok () := by decide +kernel
  exact literals_of_emptied hchecked rfl

end Inventory.QueryTexts
