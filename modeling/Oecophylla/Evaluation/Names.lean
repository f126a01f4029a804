import Oecophylla.Evaluation.ReleaseGate

namespace Oecophylla.Evaluation.Document

open Lib (OrderedDict)

/-!
# The names of a document

* `Distinct` — no dictionary of a document has a name twice, as in what `json.loads` gives;
* `sortKeys` — what comes back from `json.dumps(d, sort_keys=True)`;
* `item_sortKeys` — a look-up does not see the order of the names;
* `number?`, `eqNumbers` — numbers, and `==` with a dictionary of numbers.
-/

variable {F : Type}

/-! ### Distinct names -/

mutual
/-- No dictionary has a name twice. -/
def Distinct : Document F → Prop
  | .none => True
  | .bool _ => True
  | .int _ => True
  | .float _ => True
  | .str _ => True
  | .list items => DistinctItems items
  | .dict fields => (fields.map Prod.fst).Nodup ∧ DistinctFields fields

/-- The items of a list. -/
def DistinctItems : List (Document F) → Prop
  | [] => True
  | v :: vs => Distinct v ∧ DistinctItems vs

/-- The values of a dictionary. -/
def DistinctFields : List (String × Document F) → Prop
  | [] => True
  | (_, v) :: fs => Distinct v ∧ DistinctFields fs
end

mutual
/-- `json.loads(json.dumps(d, sort_keys=True))`. -/
def sortKeys : Document F → Document F
  | .none => .none
  | .bool b => .bool b
  | .int z => .int z
  | .float x => .float x
  | .str s => .str s
  | .list items => .list (sortItems items)
  | .dict fields => .dict ((sortFields fields).insertionSort fun f g => f.1 ≤ g.1)

/-- The items of a list. -/
def sortItems : List (Document F) → List (Document F)
  | [] => []
  | v :: vs => sortKeys v :: sortItems vs

/-- The values of a dictionary, whose names stay in their places. -/
def sortFields : List (String × Document F) → List (String × Document F)
  | [] => []
  | (k, v) :: fs => (k, sortKeys v) :: sortFields fs
end

theorem distinctFields_iff {fields : List (String × Document F)} :
    DistinctFields fields ↔ ∀ f ∈ fields, f.2.Distinct := by
  induction fields with
  | nil => simp [DistinctFields]
  | cons f fs ih => simp [DistinctFields, ih]

theorem sortFields_eq_map (fields : List (String × Document F)) :
    sortFields fields = fields.map (Prod.map id sortKeys) := by
  induction fields with
  | nil => rfl
  | cons f fs ih =>
    rw [sortFields, List.map_cons, ih]
    rfl

/-- The fields of a sorted dictionary. -/
def sortedFields (fields : List (String × Document F)) : List (String × Document F) :=
  (sortFields fields).insertionSort fun f g => f.1 ≤ g.1

@[simp] theorem sortKeys_dict (fields : List (String × Document F)) :
    (Document.dict fields).sortKeys = .dict (sortedFields fields) := by
  rw [sortKeys, sortedFields]

/-- Sorting moves the fields. -/
theorem perm_sortedFields (fields : List (String × Document F)) :
    (sortedFields fields).Perm (fields.map (Prod.map id sortKeys)) := by
  rw [sortedFields, sortFields_eq_map]
  exact List.perm_insertionSort _ _

/-- The names stay. -/
theorem names_sortedFields (fields : List (String × Document F)) :
    ((sortedFields fields).map Prod.fst).Perm (fields.map Prod.fst) := by
  have hnames : (fields.map (Prod.map id sortKeys)).map Prod.fst = fields.map Prod.fst := by
    rw [List.map_map]
    rfl
  rw [← hnames]
  exact (perm_sortedFields fields).map Prod.fst

mutual
/-- Sorted names are distinct when the names are. -/
theorem Distinct.sortKeys : ∀ {d : Document F}, d.Distinct → d.sortKeys.Distinct
  | .none, h => h
  | .bool _, h => h
  | .int _, h => h
  | .float _, h => h
  | .str _, h => h
  | .list items, h => by
    have hitems : DistinctItems items := h
    exact hitems.sortItems
  | .dict fields, h => by
    rw [sortKeys_dict]
    refine ⟨(names_sortedFields fields).nodup_iff.mpr h.1, ?_⟩
    have hfields : DistinctFields fields := h.2
    have hvalues := distinctFields_iff.mp hfields.sortFields
    refine distinctFields_iff.mpr fun f hf => hvalues f ?_
    exact (List.mem_insertionSort _).mp hf

theorem DistinctItems.sortItems : ∀ {items : List (Document F)},
    DistinctItems items → DistinctItems (Document.sortItems items)
  | [], h => h
  | _ :: _, h => ⟨h.1.sortKeys, h.2.sortItems⟩

theorem DistinctFields.sortFields : ∀ {fields : List (String × Document F)},
    DistinctFields fields → DistinctFields (Document.sortFields fields)
  | [], h => h
  | _ :: _, h => ⟨h.1.sortKeys, h.2.sortFields⟩
end

/-- **A look-up** does not see the order of the names. -/
theorem lookup_sortedFields {fields : List (String × Document F)}
    (h : (fields.map Prod.fst).Nodup) (name : String) :
    (sortedFields fields).lookup name = (fields.lookup name).map sortKeys := by
  have hnodup := (names_sortedFields fields).nodup_iff.mpr h
  have hmap : OrderedDict.get (fields.map (Prod.map id sortKeys)) name
      = (OrderedDict.get fields name).map sortKeys :=
    OrderedDict.get_map_value sortKeys fields name
  exact (OrderedDict.get_eq_of_perm hnodup (perm_sortedFields fields) name).trans hmap

theorem item_sortKeys {d : Document F} (h : d.Distinct) (name : String) :
    d.sortKeys.item name = (d.item name).map sortKeys := by
  cases d with
  | dict fields =>
    rw [sortKeys_dict]
    exact lookup_sortedFields h.1 name
  | _ => rfl

/-! ### Texts and numbers -/

/-- `v == s` for a text. -/
def isText (v : Option (Document F)) (s : String) : Bool :=
  match v with
  | some (.str t) => t = s
  | _ => false

section Numbers

variable [Field F] [LinearOrder F]

/-- The number that a document is for `==`. -/
def number? : Document F → Option F
  | .bool b => some (if b then 1 else 0)
  | .int z => some z
  | .float x => some x
  | _ => Option.none

/-- `bool(v)`, of numbers without a NaN. -/
def isTruthy : Document F → Bool
  | .none => false
  | .str s => s ≠ ""
  | .list items => !items.isEmpty
  | .dict fields => !fields.isEmpty
  | .bool b => b
  | .int z => z ≠ 0
  | .float x => x ≠ 0

/-- `fields[name]`, when it is there and a number. -/
def numberAt (fields : List (String × Document F)) (name : String) : Option F :=
  (fields.lookup name).bind number?

/-- The number of `fields.get(name, default)`. -/
def numberOr (fields : List (String × Document F)) (name : String) (default : F) : Option F :=
  match fields.lookup name with
  | Option.none => some default
  | some v => v.number?

/-- `d == expected` for a dictionary of numbers. -/
def eqNumbers (d : Option (Document F)) (expected : List (String × F)) : Bool :=
  match d with
  | some (.dict fields) =>
    fields.length = expected.length
      && expected.all fun e => numberAt fields e.1 = some e.2
  | _ => false

omit [LinearOrder F] in
@[simp] theorem number?_sortKeys (d : Document F) : d.sortKeys.number? = d.number? := by
  cases d <;> rfl

theorem isTruthy_sortKeys (d : Document F) : d.sortKeys.isTruthy = d.isTruthy := by
  cases d with
  | list items =>
    cases items <;> rfl
  | dict fields =>
    rw [sortKeys_dict]
    have hlength := (perm_sortedFields fields).length_eq
    cases fields with
    | nil => rfl
    | cons f fs =>
      cases hsorted : sortedFields (f :: fs) with
      | nil =>
        rw [hsorted] at hlength
        simp at hlength
      | cons g gs => rfl
  | _ => rfl

omit [LinearOrder F] in
theorem numberAt_sortedFields {fields : List (String × Document F)}
    (h : (fields.map Prod.fst).Nodup) (name : String) :
    numberAt (sortedFields fields) name = numberAt fields name := by
  rw [numberAt, lookup_sortedFields h, numberAt]
  cases fields.lookup name <;> simp

omit [LinearOrder F] in
theorem numberOr_sortedFields {fields : List (String × Document F)}
    (h : (fields.map Prod.fst).Nodup) (name : String) (default : F) :
    numberOr (sortedFields fields) name default = numberOr fields name default := by
  rw [numberOr, lookup_sortedFields h, numberOr]
  cases fields.lookup name <;> simp

omit [LinearOrder F] in
/-- An absent number is the default one: it is expected when it is another, or when it is there. -/
theorem numberOr_eq_some_iff {fields : List (String × Document F)} {name : String}
    {default x : F} :
    numberOr fields name default = some x
      ↔ (x ≠ default ∨ (fields.lookup name).isSome → numberAt fields name = some x) := by
  rw [numberOr, numberAt]
  cases fields.lookup name with
  | none => simp [eq_comm]
  | some v => simp

omit [LinearOrder F] in
/-- The names of numbers that are there. -/
theorem names_subset {fields : List (String × Document F)} {expected : List (String × F)}
    (h : ∀ e ∈ expected, numberAt fields e.1 = some e.2) :
    expected.map Prod.fst ⊆ fields.map Prod.fst := by
  intro name hname
  obtain ⟨e, he, rfl⟩ := List.mem_map.mp hname
  obtain ⟨v, hv, -⟩ := Option.bind_eq_some_iff.mp (h e he)
  exact List.mem_map_of_mem (OrderedDict.mem_of_get hv)

/-- Only a dictionary is equal to one. -/
theorem exists_dict_of_eqNumbers {d : Option (Document F)} {expected : List (String × F)}
    (h : eqNumbers d expected = true) : ∃ fields, d = some (.dict fields) := by
  match d with
  | some (.dict fields) => exact ⟨fields, rfl⟩

/-- Equal dictionaries have the same names, with the same numbers. -/
theorem eqNumbers_dict_iff {fields : List (String × Document F)} {expected : List (String × F)}
    (hfields : (fields.map Prod.fst).Nodup) (hexpected : (expected.map Prod.fst).Nodup) :
    eqNumbers (some (.dict fields)) expected = true
      ↔ (∀ e ∈ expected, numberAt fields e.1 = some e.2)
        ∧ ∀ name ∈ fields.map Prod.fst, name ∈ expected.map Prod.fst := by
  simp only [eqNumbers, Bool.and_eq_true, decide_eq_true_eq, List.all_eq_true]
  constructor
  · rintro ⟨hlength, hvalues⟩
    refine ⟨hvalues, fun name hname => ?_⟩
    -- the names that are expected are there, and there are no more of them
    have hperm : (expected.map Prod.fst).Perm (fields.map Prod.fst) :=
      (hexpected.subperm (names_subset hvalues)).perm_of_length_le (by simp [hlength])
    exact hperm.mem_iff.mpr hname
  · rintro ⟨hvalues, hnames⟩
    have hperm : (fields.map Prod.fst).Perm (expected.map Prod.fst) :=
      (List.perm_ext_iff_of_nodup hfields hexpected).mpr
        fun name => ⟨hnames name, fun hname => names_subset hvalues hname⟩
    exact ⟨by simpa using hperm.length_eq, hvalues⟩

end Numbers

end Oecophylla.Evaluation.Document
