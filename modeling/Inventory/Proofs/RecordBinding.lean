import Inventory.Proofs.Record

/-!
Which payloads are records of a type with an identifier, and what these records say: every column that is present can be
read as its attribute's type, and the identifier is no blank text. Columns that no attribute is read from do not matter.
-/

namespace Inventory.RecordBinding

open Record Outcome

variable {t : EquipmentType} {as : List Attribute} {a key : Attribute} {parent : Option Attribute}
  {payload payload' : List (String × Json)} {read : List Reading} {r : Record} {v : FieldValue} {role : FieldRole}

/-- One attribute of a type is its identifier, and at most one other its parent identifier. -/
structure Keyed (t : EquipmentType) (key : Attribute) (parent : Option Attribute) : Prop where
  identifier : t.attributes.filter (·.isIdentifier) = [key]
  parentIdentifier : t.attributes.filter (·.isParentIdentifier) = parent.toList
  apart : ∀ a ∈ t.attributes, ¬(a.isIdentifier = true ∧ a.isParentIdentifier = true)

/-- What a payload has in the column of an attribute, if that is anything but `null`. -/
def cell? (payload : List (String × Json)) (a : Attribute) : Option Json :=
  (Entries.lookup a.mappedTo payload).filter (· ≠ .null)

/-- The column of an attribute is present and stands for a value of the attribute's type. -/
def Gives (payload : List (String × Json)) (a : Attribute) (v : FieldValue) : Prop :=
  ∃ raw, cell? payload a = some raw ∧ FieldValue.convert a.dataType raw = .ok v

/-- The column of an attribute stands for a value of the attribute's type, if it is present. -/
def Converts (payload : List (String × Json)) (a : Attribute) : Prop :=
  ∀ raw, cell? payload a = some raw → ∃ v, FieldValue.convert a.dataType raw = .ok v

/-- All columns that are present can be read, and that of the identifier is present and not blank. -/
structure Readable (t : EquipmentType) (key : Attribute) (payload : List (String × Json)) : Prop where
  columns : ∀ a ∈ t.attributes, Converts payload a
  identifier : ∃ v, Gives payload key v ∧ Text.Blank.isAllBlank v.display = false

/-- A record says what a payload does. -/
structure Describes (t : EquipmentType) (key : Attribute) (parent : Option Attribute)
    (payload : List (String × Json)) (r : Record) : Prop where
  typeName : r.typeName = t.typeName
  identifier : ∃ v, Gives payload key v ∧ r.identifier = v.display
  parentIdentifier : ∀ id, r.parentIdentifier = some id ↔
    ∃ a ∈ parent, ∃ v, Gives payload a v ∧ Text.Blank.isAllBlank v.display = false ∧ id = v.display
  values : ∃ plain, r.values = ⟨key.name, Listing.predicateOf t key, .string r.identifier⟩ :: plain ∧
    List.Forall₂ (fun a f => f.name = a.name ∧ f.predicate = Listing.predicateOf t a ∧ Gives payload a f.value)
      (t.attributes.filter fun a => a.isPlain && (cell? payload a).isSome) plain

section Columns

/-- What the column of an attribute stands for, if anything. -/
def value? (payload : List (String × Json)) (a : Attribute) : Option FieldValue :=
  (cell? payload a).bind fun raw => (FieldValue.convert a.dataType raw).toOption

instance (payload : List (String × Json)) (a : Attribute) : Decidable (Converts payload a) :=
  decidable_of_iff ((cell? payload a).all fun raw => (FieldValue.convert a.dataType raw).isOk) <| by
    rw [Option.all_eq_true]
    refine forall_congr' fun raw => imp_congr_right fun _ => ?_
    cases FieldValue.convert a.dataType raw <;> simp [Except.isOk, Except.toBool]

theorem value?_eq_some : value? payload a = some v ↔ Gives payload a v := by
  rw [value?, Option.bind_eq_some_iff]
  refine exists_congr fun raw => and_congr_right fun _ => ?_
  cases FieldValue.convert a.dataType raw <;> simp [Except.toOption]

theorem read?_of_empty (h : cell? payload a = none) : (Field.ofAttribute t a).read? payload = .ok none := by
  rw [cell?, Option.filter_eq_none_iff] at h
  simp only [Field.read?, Field.ofAttribute]
  cases hl : Entries.lookup a.mappedTo payload with
  | none => rfl
  | some raw =>
      obtain rfl : raw = .null := by simpa using h raw hl
      rfl

theorem read?_of_cell {raw : Json} (h : cell? payload a = some raw) : (Field.ofAttribute t a).read? payload =
    ((FieldValue.convert a.dataType raw).map some).mapError fun e => .invalidPayload a.mappedTo e.message := by
  obtain ⟨hl, hne⟩ := Option.filter_eq_some_iff.1 h
  simp only [Field.read?, Field.ofAttribute, hl]
  cases hc : FieldValue.convert a.dataType raw <;> cases raw <;> simp_all [Except.map, Except.mapError]

theorem read?_of_converts (h : Converts payload a) :
    (Field.ofAttribute t a).read? payload = .ok (value? payload a) := by
  rw [value?]
  cases hc : cell? payload a with
  | none => exact read?_of_empty hc
  | some raw =>
      obtain ⟨v, hv⟩ := h raw hc
      rw [read?_of_cell hc, hv, Option.bind_some, hv]
      rfl

theorem converts_of_read? {o : Option FieldValue} (h : (Field.ofAttribute t a).read? payload = .ok o) :
    Converts payload a := by
  intro raw hraw
  rw [read?_of_cell hraw] at h
  cases hc : FieldValue.convert a.dataType raw with
  | error e =>
      rw [hc] at h
      cases h
  | ok v => exact ⟨v, rfl⟩

/-- The attributes with what their columns stand for. -/
def readings (t : EquipmentType) (payload : List (String × Json)) (as : List Attribute) : List Reading :=
  as.map fun a => (.ofAttribute t a, value? payload a)

theorem readAll_of_converts (h : ∀ a ∈ as, Converts payload a) :
    readAll payload (as.map (Field.ofAttribute t)) = .ok (readings t payload as) := by
  induction as with
  | nil => rfl
  | cons a as ih =>
      obtain ⟨ha, has⟩ := List.forall_mem_cons.1 h
      rw [List.map_cons, readAll, read?_of_converts ha, ih has]
      rfl

theorem converts_of_readAll (h : readAll payload (as.map (Field.ofAttribute t)) = .ok read) :
    ∀ a ∈ as, Converts payload a := by
  induction as generalizing read with
  | nil => exact fun _ ha => absurd ha List.not_mem_nil
  | cons a as ih =>
      obtain ⟨o, ho, h⟩ := bind_ok_iff.1 h
      obtain ⟨rest, hr, -⟩ := bind_ok_iff.1 h
      exact List.forall_mem_cons.2 ⟨converts_of_read? ho, ih hr⟩

end Columns

section Roles

theorem role_eq_identifier : (Field.ofAttribute t a).role = .identifier ↔ a.isIdentifier = true := by
  simp only [Field.ofAttribute, FieldRole.ofAttribute]
  cases a.isIdentifier <;> cases a.isParentIdentifier <;> decide

theorem role_eq_parentIdentifier : (Field.ofAttribute t a).role = .parentIdentifier ↔
    a.isIdentifier = false ∧ a.isParentIdentifier = true := by
  simp only [Field.ofAttribute, FieldRole.ofAttribute]
  cases a.isIdentifier <;> cases a.isParentIdentifier <;> decide

theorem role_eq_plain : (Field.ofAttribute t a).role = .plain ↔ a.isPlain = true := by
  simp only [Field.ofAttribute, FieldRole.ofAttribute, Attribute.isPlain]
  cases a.isIdentifier <;> cases a.isParentIdentifier <;> decide

/-- The text of a value that is not blank. -/
def text? (v : FieldValue) : Option String := if Text.Blank.isAllBlank v.display then none else some v.display

theorem text?_eq_some {s : String} :
    text? v = some s ↔ Text.Blank.isAllBlank v.display = false ∧ s = v.display := by
  rw [text?]
  cases Text.Blank.isAllBlank v.display <;> simp [eq_comm]

theorem keyText_readings {o : Option Attribute}
    (h : (as.filter fun a => decide ((Field.ofAttribute t a).role = role)) = o.toList) :
    keyText role (readings t payload as) = o.bind fun a => (value? payload a).bind text? := by
  have hread : (readings t payload as).filter (·.1.role = role) = readings t payload o.toList := by
    rw [readings, List.filter_map, readings, ← h]
    rfl
  rw [keyText, hread]
  cases o with
  | none => rfl
  | some a =>
      simp only [readings, Option.toList_some, List.map_cons, List.map_nil, List.getLast?_singleton]
      cases hv : value? payload a with
      | none => simp [hv]
      | some v => simp [hv, text?]

theorem keyText_identifier (h : Keyed t key parent) :
    keyText .identifier (readings t payload t.attributes) = (value? payload key).bind text? := by
  refine keyText_readings (o := some key) ?_
  simp only [role_eq_identifier, Bool.decide_eq_true]
  exact h.identifier

theorem keyText_parentIdentifier (h : Keyed t key parent) :
    keyText .parentIdentifier (readings t payload t.attributes) =
      parent.bind fun a => (value? payload a).bind text? := by
  refine keyText_readings ?_
  rw [← h.parentIdentifier]
  refine List.filter_congr fun a ha => ?_
  have hapart := h.apart a ha
  rw [Bool.eq_iff_iff, decide_eq_true_iff, role_eq_parentIdentifier]
  cases hi : a.isIdentifier
  · simp
  · simpa [hi] using hapart

theorem find?_identifier (h : Keyed t key parent) :
    (Field.ofType t).find? (·.role = .identifier) = some (.ofAttribute t key) := by
  have hfilter : (Field.ofType t).filter (·.role = .identifier) = [.ofAttribute t key] := by
    rw [Field.ofType, List.filter_map]
    simp only [Function.comp_def, role_eq_identifier, Bool.decide_eq_true]
    rw [h.identifier]
    rfl
  rw [← List.head?_filter, hfilter]
  rfl

theorem plainFields_readings (h : ∀ a ∈ as, Converts payload a) :
    List.Forall₂ (fun a f => f.name = a.name ∧ f.predicate = Listing.predicateOf t a ∧ Gives payload a f.value)
      (as.filter fun a => a.isPlain && (cell? payload a).isSome) (plainFields (readings t payload as)) := by
  induction as with
  | nil => exact .nil
  | cons a as ih =>
      obtain ⟨ha, has⟩ := List.forall_mem_cons.1 h
      have hfields : plainFields (readings t payload (a :: as)) =
          ((if a.isPlain then (value? payload a).map fun v => ⟨a.name, Listing.predicateOf t a, v⟩ else none).toList ++
            plainFields (readings t payload as)) := by
        simp only [plainFields, readings, List.map_cons, List.filterMap_cons, role_eq_plain]
        cases a.isPlain
        · rfl
        · cases value? payload a <;> rfl
      rw [hfields, List.filter_cons]
      cases hplain : a.isPlain with
      | false => simpa using ih has
      | true =>
          cases hc : cell? payload a with
          | none => simpa [value?, hc] using ih has
          | some raw =>
              obtain ⟨v, hv⟩ := ha raw hc
              have hgives : Gives payload a v := ⟨raw, hc, hv⟩
              rw [value?_eq_some.2 hgives]
              exact .cons ⟨rfl, rfl, hgives⟩ (ih has)

end Roles

section Records

variable (h : Keyed t key parent)
include h

/-- A payload is a record if its columns can be read and give a text for the identifier. -/
theorem bind_ok_iff_readings : bind t payload = .ok r ↔ (∀ a ∈ t.attributes, Converts payload a) ∧
    ∃ id, (value? payload key).bind text? = some id ∧
      r = ⟨t.typeName, id, parent.bind fun a => (value? payload a).bind text?,
        ⟨key.name, Listing.predicateOf t key, .string id⟩ :: plainFields (readings t payload t.attributes)⟩ := by
  rw [Record.bind, find?_identifier h]
  constructor
  · intro hr
    obtain ⟨read, hread, hr⟩ := bind_ok_iff.1 hr
    have hconverts := converts_of_readAll hread
    have heq := hread.symm.trans (readAll_of_converts (t := t) hconverts)
    cases heq
    rw [keyText_identifier h] at hr
    cases hid : (value? payload key).bind text? with
    | none =>
        rw [hid] at hr
        cases hr
    | some id =>
        rw [hid] at hr
        cases hr
        exact ⟨hconverts, id, rfl, by rw [keyText_parentIdentifier h]; rfl⟩
  · rintro ⟨hconverts, id, hid, rfl⟩
    refine bind_ok_iff.2 ⟨_, readAll_of_converts hconverts, ?_⟩
    rw [keyText_identifier h, hid, keyText_parentIdentifier h]
    rfl

theorem readable_of_bind (hr : bind t payload = .ok r) : Readable t key payload := by
  obtain ⟨hconverts, id, hid, -⟩ := (bind_ok_iff_readings h).1 hr
  obtain ⟨v, hv, htext⟩ := Option.bind_eq_some_iff.1 hid
  exact ⟨hconverts, v, value?_eq_some.1 hv, (text?_eq_some.1 htext).1⟩

theorem Readable.bind (hp : Readable t key payload) : ∃ r, Record.bind t payload = .ok r := by
  obtain ⟨v, hv, hblank⟩ := hp.identifier
  have hid : (value? payload key).bind text? = some v.display :=
    Option.bind_eq_some_iff.2 ⟨v, value?_eq_some.2 hv, text?_eq_some.2 ⟨hblank, rfl⟩⟩
  exact ⟨_, (bind_ok_iff_readings h).2 ⟨hp.columns, _, hid, rfl⟩⟩

theorem describes_of_bind (hr : bind t payload = .ok r) : Describes t key parent payload r := by
  obtain ⟨hconverts, id, hid, rfl⟩ := (bind_ok_iff_readings h).1 hr
  obtain ⟨v, hv, htext⟩ := Option.bind_eq_some_iff.1 hid
  refine ⟨rfl, ⟨v, value?_eq_some.1 hv, (text?_eq_some.1 htext).2⟩, fun id => ?_, _, rfl, ?_⟩
  · simp only [Option.bind_eq_some_iff, value?_eq_some, text?_eq_some, Option.mem_def]
  · exact plainFields_readings hconverts

end Records

theorem readAll_congr {fs : List Field}
    (h : ∀ f ∈ fs, Entries.lookup f.column payload' = Entries.lookup f.column payload) :
    readAll payload' fs = readAll payload fs := by
  induction fs with
  | nil => rfl
  | cons f fs ih =>
      obtain ⟨hf, hfs⟩ := List.forall_mem_cons.1 h
      rw [readAll, readAll, ih hfs, Field.read?, Field.read?, hf]

theorem bind_congr
    (h : ∀ a ∈ t.attributes, Entries.lookup a.mappedTo payload' = Entries.lookup a.mappedTo payload) :
    bind t payload' = bind t payload := by
  have hfields : ∀ f ∈ Field.ofType t, Entries.lookup f.column payload' = Entries.lookup f.column payload :=
    List.forall_mem_map.2 h
  rw [Record.bind, Record.bind, readAll_congr hfields]

/-- A payload is a record of a type with an identifier if all its columns that are present can be read and the
identifier is not blank. The record says what these columns do, and no other column matters. -/
theorem bind_iff_readable (h : Keyed t key parent) (payload : List (String × Json)) :
    ((∃ r, bind t payload = .ok r) ↔ Readable t key payload) ∧
    (∀ r, bind t payload = .ok r → Describes t key parent payload r) ∧
    ∀ payload', (∀ a ∈ t.attributes, Entries.lookup a.mappedTo payload' = Entries.lookup a.mappedTo payload) →
      bind t payload' = bind t payload :=
  ⟨⟨fun ⟨_, hr⟩ => readable_of_bind h hr, Readable.bind h⟩, fun _ => describes_of_bind h, fun _ => bind_congr⟩

section Blades

def bladeKey : Attribute := .identifier "key" "id"

def bladeRack : Attribute := .parentIdentifier "rack" "up"

/-- A type whose identifier comes last. -/
def blade : EquipmentType :=
  ((((EquipmentType.new "blade" "0x1").withAttribute (.new "cores" .int "cores")).withAttribute bladeRack).withAttribute
    (.new "speed" .float "speed")).withAttribute bladeKey

theorem keyed_blade : Keyed blade bladeKey (some bladeRack) := by
  constructor <;> decide

def bladePayload : List (String × Json) :=
  [("cores", .str " 8 "), ("id", .num (.int 7)), ("speed", .null), ("up", .str " ")]

/-- The identifier of a blade is given as a number, and its rack is blank. -/
theorem bind_blade : Keyed blade bladeKey (some bladeRack) ∧ (∃ r, bind blade bladePayload = .ok r ∧
      Describes blade bladeKey (some bladeRack) bladePayload r ∧ r.parentIdentifier = none) ∧
    bind blade (("note", .bool true) :: bladePayload) = bind blade bladePayload := by
  obtain ⟨hreadable, hdescribes, hcongr⟩ := bind_iff_readable keyed_blade bladePayload
  obtain ⟨r, hr⟩ := hreadable.2 ⟨by decide +kernel, .string (Number.int 7).render, ⟨.num (.int 7), by decide, rfl⟩,
    by decide +kernel⟩
  refine ⟨keyed_blade, ⟨r, hr, hdescribes r hr, ?_⟩, hcongr _ (by decide)⟩
  rw [Option.eq_none_iff_forall_ne_some]
  intro id hid
  obtain ⟨a, ha, v, ⟨raw, hraw, hv⟩, hblank, -⟩ := ((hdescribes r hr).parentIdentifier id).1 hid
  cases ha
  cases hraw
  cases hv
  revert hblank
  decide +kernel

end Blades

end Inventory.RecordBinding
