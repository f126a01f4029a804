import Oecophylla.Json

namespace Oecophylla.Ingestion

/-!
# `jsonb` columns

The service writes the text that `serde_json` makes of a document, and PostgreSQL parses it.

* `jsonb` — the document that is stored; `none` when the cast fails, which is the case for
  the character `\u0000`;
* `jsonbLength` — `octet_length(column::text)`;
* `get_jsonbFields` — a stored object has the stored values of its fields.

The documents are parsed by `serde_json`, so their integers fit 64 bits.  The order in which
`jsonb` keeps the fields of an object matters to no reader, and is left as it is.
-/

/-- A float, which `serde_json` writes with its fewest digits and `numeric` keeps exactly.
    Beyond 16 digits before the point the text has an exponent and no point, so that
    `numeric` has no fraction digits; and `numeric` has no negative zero. -/
def numericOfFloat (d : Decimal) : Json :=
  if d.digits = 0 then .float ⟨false, 0, 0⟩
  else if 16 < d.point ∧ 0 ≤ d.exponent then .int d.toInt
  else .float d

/-- Whether `jsonb` accepts a text. -/
def jsonbText (s : String) : Bool := s.toList.all fun c => c.toNat != 0

mutual
/-- `text::jsonb`. -/
def jsonb : Json → Option Json
  | .null => some .null
  | .bool b => some (.bool b)
  | .int z => some (.int z)
  | .float d => some (numericOfFloat d)
  | .str s => if jsonbText s then some (.str s) else none
  | .arr items => (jsonbItems items).map .arr
  | .obj fields => (jsonbFields fields).map .obj

/-- The items of an array. -/
def jsonbItems : List Json → Option (List Json)
  | [] => some []
  | v :: vs => do
    let v ← jsonb v
    let vs ← jsonbItems vs
    some (v :: vs)

/-- The fields of an object. -/
def jsonbFields : List (String × Json) → Option Object
  | [] => some []
  | (k, v) :: fs => do
    let v ← jsonb v
    let fs ← jsonbFields fs
    if jsonbText k then some ((k, v) :: fs) else none
end

/-- The length of the text of a `numeric`: the digits are written out on both sides of the
    point. -/
def numericLength (d : Decimal) : Nat :=
  d.signText.length +
    if 0 ≤ d.exponent then d.digitText.length + d.exponent.toNat + 2
    else if d.point ≤ 0 then 2 + (-d.exponent).toNat
    else d.digitText.length + 1

mutual
/-- `octet_length(document::text)`: a blank follows every colon and every comma. -/
def jsonbLength : Json → Nat
  | .null => 4
  | .bool b => if b then 4 else 5
  | .int z => (toString z).utf8ByteSize
  | .float d => numericLength d
  | .str s => (quote s).utf8ByteSize
  | .arr items => 2 + itemsLength items
  | .obj fields => 2 + fieldsLength fields

/-- The items, with the separators between them. -/
def itemsLength : List Json → Nat
  | [] => 0
  | [v] => jsonbLength v
  | v :: vs => jsonbLength v + 2 + itemsLength vs

/-- The fields, with the separators between them. -/
def fieldsLength : List (String × Json) → Nat
  | [] => 0
  | [(k, v)] => (quote k).utf8ByteSize + 2 + jsonbLength v
  | (k, v) :: fs => (quote k).utf8ByteSize + 2 + jsonbLength v + 2 + fieldsLength fs
end

/-- A stored object has the stored values of its fields. -/
theorem get_jsonbFields {o o' : Object} (h : jsonbFields o = some o') (name : String) :
    o'.get name = (o.get name).bind jsonb := by
  induction o generalizing o' with
  | nil =>
    rw [jsonbFields, Option.some.injEq] at h
    subst h
    rfl
  | cons f o ih =>
    obtain ⟨k, v⟩ := f
    simp only [jsonbFields, Option.bind_eq_bind, Option.bind_eq_some_iff,
      Option.ite_none_right_eq_some, Option.some.injEq] at h
    obtain ⟨v', hv, fs, hfs, -, rfl⟩ := h
    rw [Object.get_cons, Object.get_cons, ih hfs]
    split
    · exact hv.symm
    · rfl

/-- Every field of a stored object was accepted. -/
theorem exists_jsonb_of_get {o o' : Object} (h : jsonbFields o = some o') {name : String} {v : Json}
    (hv : o.get name = some v) : ∃ v', jsonb v = some v' ∧ o'.get name = some v' := by
  have hget := get_jsonbFields h name
  rw [hv, Option.bind_some] at hget
  suffices hsome : (jsonb v).isSome by
    obtain ⟨v', hv'⟩ := Option.isSome_iff_exists.mp hsome
    exact ⟨v', hv', hget.trans hv'⟩
  clear hget
  induction o generalizing o' with
  | nil => simp at hv
  | cons f o ih =>
    obtain ⟨k, w⟩ := f
    simp only [jsonbFields, Option.bind_eq_bind, Option.bind_eq_some_iff] at h
    obtain ⟨w', hw, fs, hfs, -⟩ := h
    rw [Object.get_cons] at hv
    split at hv
    · rw [Option.some.injEq] at hv
      rw [← hv]
      exact Option.isSome_iff_exists.mpr ⟨w', hw⟩
    · exact ih hfs hv

/-- Only `null` is stored as `null`. -/
theorem eq_null_of_jsonb {v : Json} (h : jsonb v = some .null) : v = .null := by
  cases v with
  | null => rfl
  | float d =>
    simp only [jsonb, numericOfFloat, Option.some.injEq] at h
    split_ifs at h
  | str s => simp [jsonb] at h
  | _ => simp [jsonb] at h

end Oecophylla.Ingestion
