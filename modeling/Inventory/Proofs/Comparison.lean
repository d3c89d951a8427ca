import Inventory.Graph.Comparison
import Inventory.Listing.Filter

/-!
Texts among stored values. A stored text is only ever equal to itself, so that a match by text is membership.
-/

namespace Inventory

theorem Json.same_str_iff {s : String} {j : Json} : (Json.str s).same j = true ↔ j = .str s := by
  cases j with
  | str t => simp only [Json.same, Json.agree, beq_iff_eq, Json.str.injEq]; exact eq_comm
  | null | bool _ | num _ | arr _ | obj _ => simp [Json.same, Json.agree]

namespace Comparison

theorem valueEq_str_iff {j : Json} {s : String} : valueEq j (.str s) = true ↔ j = .str s := by
  cases j <;> simp [valueEq, Json.same, Json.agree]

theorem valuesMatch_str_iff {stored : List Json} {s : String} :
    valuesMatch stored (.str s) = true ↔ .str s ∈ stored := by
  simp [valuesMatch, valueEq_str_iff]

theorem valuesMatch_ofStrings_iff {stored : List Json} {ss : List String} :
    valuesMatch stored (.ofStrings ss) = true ↔ ∃ s ∈ ss, .str s ∈ stored := by
  simp [valuesMatch, Json.ofStrings, valueEq_str_iff]

end Comparison

end Inventory
