import Inventory.Json.Decoder
import Inventory.Query.Basic

/-!
What a listing asks for.
-/

namespace Inventory

inductive Comparison
  | eq
  /-- Texts that begin with the value, whatever the case of letters. -/
  | regex
deriving DecidableEq, Inhabited

namespace Comparison

def name : Comparison → String
  | eq => "eq"
  | regex => "regex"

def words : List (String × Comparison) := [("eq", eq), ("regex", regex)]

end Comparison

/-- A search by the attribute of a name, for any of some values. -/
structure Search where
  key : String
  comparison : Comparison
  values : List Json
  priority : Int
deriving DecidableEq

namespace Search

def eq (key : String) (value : Json) : Search := ⟨key, .eq, [value], 0⟩

def regex (key value : String) : Search := ⟨key, .regex, [.str value], 0⟩

def anyOf (key : String) (comparison : Comparison) (values : List Json) : Search := ⟨key, comparison, values, 0⟩

def withPriority (s : Search) (priority : Int) : Search := { s with priority }

def fieldNames : List String := ["key", "operator", "values", "priority"]

def toJson (s : Search) : Json :=
  .ofFields [("key", .str s.key), ("operator", .str s.comparison.name), ("values", .arr s.values),
    ("priority", .num (.int s.priority))]

open Document in
/-- Values nest at most `depth` deep. -/
def ofDocument? (depth : Nat) (d : Document) : Option Search := do
  match ← d.record? fieldNames with
  | [key, comparison, values, priority] =>
    return {
      key := ← required text? key
      comparison := ← defaulted (word? Comparison.words) .eq comparison
      values := ← required (list? (toJson? depth)) values
      priority := ← defaulted (int? 32) 0 priority }
  | _ => none

end Search

/-- Searches that must all succeed. -/
structure SearchFilter where
  searches : List Search
deriving DecidableEq

namespace SearchFilter

def empty : SearchFilter := ⟨[]⟩

def isEmpty (f : SearchFilter) : Bool := f.searches.isEmpty

def add (f : SearchFilter) (s : Search) : SearchFilter := ⟨f.searches ++ [s]⟩

/-- The searches of higher priority first, and those of one priority as they were given. -/
def ordered (f : SearchFilter) : List Search := f.searches.mergeSort fun a b => b.priority ≤ a.priority

def toJson (f : SearchFilter) : Json := .ofFields [("predicates", .arr (f.searches.map Search.toJson))]

open Document in
def ofDocument? (depth : Nat) (d : Document) : Option SearchFilter := do
  match ← d.record? ["predicates"] with
  | [searches] => return ⟨← defaulted (list? (Search.ofDocument? (depth - 3))) [] searches⟩
  | _ => none

end SearchFilter

/-- Entities that the instances must be linked from. -/
structure Related where
  product : Option String
  application : Option String
  installation : Option String
deriving DecidableEq

namespace Related

def none : Related := ⟨.none, .none, .none⟩

def isEmpty (r : Related) : Bool := r.product.isNone && r.application.isNone && r.installation.isNone

def fieldNames : List String := ["product", "application", "instance"]

def toJson (r : Related) : Json :=
  .ofFields [("product", .ofOption .str r.product), ("application", .ofOption .str r.application),
    ("instance", .ofOption .str r.installation)]

open Document in
def ofDocument? (d : Document) : Option Related := do
  match ← d.record? fieldNames with
  | [product, application, installation] =>
    return {
      product := ← defaulted (nullable text?) .none product
      application := ← defaulted (nullable text?) .none application
      installation := ← defaulted (nullable text?) .none installation }
  | _ => .none

end Related

/-- A page of a sorted and filtered listing. -/
structure ListingSpec where
  offset : Nat
  pageSize : Nat
  sortBy : String
  sortOrder : Query.SortDirection
  filter : SearchFilter
  related : Related
deriving DecidableEq

namespace ListingSpec

def new (pageSize : Nat) : ListingSpec := ⟨0, pageSize, "", .asc, .empty, .none⟩

def withOffset (s : ListingSpec) (offset : Nat) : ListingSpec := { s with offset }

def sortedBy (s : ListingSpec) (sortBy : String) (sortOrder : Query.SortDirection) : ListingSpec :=
  { s with sortBy, sortOrder }

def withFilter (s : ListingSpec) (filter : SearchFilter) : ListingSpec := { s with filter }

def withProduct (s : ListingSpec) (id : String) : ListingSpec :=
  { s with related := { s.related with product := some id } }

def withApplication (s : ListingSpec) (id : String) : ListingSpec :=
  { s with related := { s.related with application := some id } }

def withInstallation (s : ListingSpec) (id : String) : ListingSpec :=
  { s with related := { s.related with installation := some id } }

def fieldNames : List String := ["offset", "page_size", "sort_by", "sort_order", "filter", "related"]

def toJson (s : ListingSpec) : Json :=
  .ofFields [("offset", .ofNat s.offset), ("page_size", .ofNat s.pageSize), ("sort_by", .str s.sortBy),
    ("sort_order", .str s.sortOrder.name), ("filter", s.filter.toJson), ("related", s.related.toJson)]

open Document in
def ofDocument? (d : Document) : Option ListingSpec := do
  match ← d.record? fieldNames with
  | [offset, pageSize, sortBy, sortOrder, filter, related] =>
    return {
      offset := ← defaulted (nat? 64) 0 offset
      pageSize := ← required (nat? 64) pageSize
      sortBy := ← defaulted text? "" sortBy
      sortOrder := ← defaulted (word? Query.SortDirection.words) .asc sortOrder
      filter := ← defaulted (SearchFilter.ofDocument? (maxDepth - 2)) .empty filter
      related := ← defaulted Related.ofDocument? .none related }
  | _ => none

end ListingSpec

end Inventory
