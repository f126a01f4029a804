import Oecophylla.Ingestion.Database

namespace Oecophylla.Ingestion

/-!
# From an accepted event to its row

The validator measures the metadata as `serde_json` writes it; the column is cast and measured by
PostgreSQL, with the label version in it.

* `noNul` — no text of the document has the character that `jsonb` refuses;
* `storedLength`, `fieldLength` — the octets that a value and a field take in the stored text;
* `Fits` — the condition: what the validator did not look at leaves room for the rest;
* `insertable_iff` — an accepted event has an insertable row exactly when its metadata fits;
* `not_insertable_nul` — one that does not.
-/

/-! ### What `jsonb` accepts -/

mutual
/-- No text and no name in the document has the character `\u0000`. -/
def noNul : Json → Bool
  | .null | .bool _ | .int _ | .float _ => true
  | .str s => jsonbText s
  | .arr items => noNulItems items
  | .obj fields => noNulFields fields

/-- The items of an array. -/
def noNulItems : List Json → Bool
  | [] => true
  | v :: vs => noNul v && noNulItems vs

/-- The fields of an object. -/
def noNulFields : List (String × Json) → Bool
  | [] => true
  | (k, v) :: fs => jsonbText k && noNul v && noNulFields fs
end

mutual
/-- The cast accepts a document exactly when it has no such character. -/
theorem isSome_jsonb : (v : Json) → (jsonb v).isSome = noNul v
  | .null | .bool _ | .int _ | .float _ => rfl
  | .str s => by
    unfold jsonb noNul
    cases jsonbText s <;> rfl
  | .arr items => by
    unfold jsonb noNul
    rw [Option.isSome_map, isSome_jsonbItems items]
  | .obj fields => by
    unfold jsonb noNul
    rw [Option.isSome_map, isSome_jsonbFields fields]

theorem isSome_jsonbItems : (items : List Json) → (jsonbItems items).isSome = noNulItems items
  | [] => rfl
  | v :: vs => by
    have hv := isSome_jsonb v
    have hvs := isSome_jsonbItems vs
    unfold jsonbItems noNulItems
    rw [← hv, ← hvs]
    cases jsonb v <;> cases jsonbItems vs <;> rfl

theorem isSome_jsonbFields : (fields : List (String × Json)) →
    (jsonbFields fields).isSome = noNulFields fields
  | [] => rfl
  | (k, v) :: fs => by
    have hv := isSome_jsonb v
    have hfs := isSome_jsonbFields fs
    unfold jsonbFields noNulFields
    rw [← hv, ← hfs]
    cases jsonb v <;> cases jsonbFields fs <;> cases jsonbText k <;> rfl
end

theorem noNulFields_iff {o : Object} :
    noNulFields o = true ↔ ∀ f ∈ o, jsonbText f.1 = true ∧ noNul f.2 = true := by
  induction o with
  | nil => simp [noNulFields]
  | cons f o ih =>
    obtain ⟨k, v⟩ := f
    rw [noNulFields, Bool.and_eq_true, Bool.and_eq_true, ih, List.forall_mem_cons]

/-! ### The length of a stored object -/

/-- The octets of the stored text of a value. -/
def storedLength (v : Json) : Nat := ((jsonb v).map jsonbLength).getD 0

/-- The octets of a field, with its colon and one separator. -/
def fieldLength (f : String × Json) : Nat := (quote f.1).utf8ByteSize + 4 + storedLength f.2

theorem storedLength_eq {v v' : Json} (h : jsonb v = some v') : storedLength v = jsonbLength v' := by
  unfold storedLength
  rw [h]
  rfl

/-- The length of an object that is not empty is the sum of the lengths of its fields. -/
theorem fieldsLength_add_two {o o' : Object} (hne : o ≠ []) (h : jsonbFields o = some o') :
    2 + fieldsLength o' = (o.map fieldLength).sum := by
  induction o generalizing o' with
  | nil => contradiction
  | cons f o ih =>
    obtain ⟨k, v⟩ := f
    simp only [jsonbFields, Option.bind_eq_bind, Option.bind_eq_some_iff,
      Option.ite_none_right_eq_some, Option.some.injEq] at h
    obtain ⟨v', hv, fs, hfs, -, rfl⟩ := h
    have hlength : fieldLength (k, v) = (quote k).utf8ByteSize + 4 + jsonbLength v' := by
      unfold fieldLength
      rw [storedLength_eq hv]
    rw [List.map_cons, List.sum_cons, hlength]
    cases o with
    | nil =>
      rw [jsonbFields, Option.some.injEq] at hfs
      subst hfs
      rw [fieldsLength, List.map_nil, List.sum_nil]
      omega
    | cons g o =>
      have hrest := ih (List.cons_ne_nil g o) hfs
      have hfsNe : fs ≠ [] := by
        intro hnil
        subst hnil
        obtain ⟨k', w⟩ := g
        simp [jsonbFields, Option.bind_eq_some_iff] at hfs
      obtain ⟨g', fs', rfl⟩ := List.exists_cons_of_ne_nil hfsNe
      rw [fieldsLength]
      · omega
      · exact List.cons_ne_nil g' fs'

/-- **When a document that is not empty can be stored.** -/
theorem storable_iff {o : Object} (hne : o ≠ []) :
    (∃ m, jsonb (.obj o) = some m ∧ jsonbLength m ≤ 8192) ↔
      (∀ f ∈ o, jsonbText f.1 = true ∧ noNul f.2 = true) ∧ (o.map fieldLength).sum ≤ 8192 := by
  rw [← noNulFields_iff, ← isSome_jsonbFields]
  unfold jsonb
  cases hfields : jsonbFields o with
  | none => simp
  | some o' =>
    have hlength : jsonbLength (.obj o') = (o.map fieldLength).sum := by
      rw [jsonbLength, fieldsLength_add_two hne hfields]
    simp [hlength]

/-- The fields of an object with distinct names, in the order of some names. -/
theorem perm_fields {o : Object} {names : List String} (hnames : (o.map Prod.fst).Nodup)
    (hnodup : names.Nodup) (hkeys : ∀ key ∈ o.map Prod.fst, key ∈ names) :
    o.Perm (names.filterMap fun key => (o.get key).map (Prod.mk key)) := by
  have hget : ∀ f : String × Json, f ∈ o ↔ o.get f.1 = some f.2 := by
    clear hkeys
    intro f
    induction o with
    | nil => simp
    | cons g o ih =>
      rw [List.map_cons, List.nodup_cons] at hnames
      rw [Object.get_cons, List.mem_cons, ih hnames.2]
      by_cases hname : f.1 = g.1
      · rw [if_pos hname, Option.some.injEq]
        have hnone : Object.get o f.1 ≠ some f.2 := by
          intro hsome
          have hmem : f ∈ o := (ih hnames.2).mpr hsome
          exact hnames.1 (hname ▸ List.mem_map_of_mem hmem)
        constructor
        · rintro (rfl | h)
          · rfl
          · exact absurd h hnone
        · exact fun h => .inl (Prod.ext hname h.symm)
      · rw [if_neg hname]
        constructor
        · rintro (rfl | h)
          · exact absurd rfl hname
          · exact h
        · exact .inr
  have hright : (names.filterMap fun key => (o.get key).map (Prod.mk key)).Nodup := by
    refine hnodup.filterMap ?_
    intro a b f ha hb
    obtain ⟨_, -, rfl⟩ := Option.map_eq_some_iff.mp ha
    obtain ⟨_, -, hb'⟩ := Option.map_eq_some_iff.mp hb
    exact (congrArg Prod.fst hb').symm
  rw [List.perm_ext_iff_of_nodup (hnames.of_map _) hright]
  intro f
  rw [hget, List.mem_filterMap]
  constructor
  · intro hf
    refine ⟨f.1, hkeys f.1 (List.mem_map_of_mem ((hget f).mpr hf)), ?_⟩
    rw [hf, Option.map_some]
  · rintro ⟨key, -, hkey⟩
    obtain ⟨v, hv, rfl⟩ := Option.map_eq_some_iff.mp hkey
    exact hv

/-! ### The texts of accepted metadata -/

/-- The characters of the texts that `Uuid::parse_str` reads: hexadecimal digits, dashes, braces
    and those of `urn:uuid:`. -/
def uuidChars : List Char :=
  "0123456789abcdefABCDEFurni-:\x7b\x7d".toList

/-- `Uuid::parse_str` reads at most 45 characters. -/
def UuidTexts (parseUuid : String → Option Uuid) : Prop :=
  ∀ text id, parseUuid text = some id → text.toList.length ≤ 45 ∧ ∀ c ∈ text.toList, c ∈ uuidChars

/-- What `serde_json` makes of a document: a map has each name once, and the shortest text of a
    double has at most 17 digits. -/
structure Parsed (metadata : Object) : Prop where
  names : (metadata.map Prod.fst).Nodup
  digits : ∀ d, metadata.get "viewport_ratio" = some (.float d) → d.digits < 10 ^ 17

/-- Such a character is written as it is. -/
theorem escapeChar_of_uuidChar (c : Char) (hc : c ∈ uuidChars) :
    (escapeChar c).utf8ByteSize = 1 ∧ (c.toNat != 0) = true := by
  have hall : uuidChars.all (fun c => (escapeChar c).utf8ByteSize == 1 && c.toNat != 0) = true := by
    decide +kernel
  have hchar := List.all_eq_true.mp hall c hc
  rw [Bool.and_eq_true, beq_iff_eq] at hchar
  exact hchar

/-- The text of a UUID is stored, and its literal is short. -/
theorem uuidText_stored {parseUuid : String → Option Uuid} (huuid : UuidTexts parseUuid)
    {text : String} {id : Uuid} (h : parseUuid text = some id) :
    jsonbText text = true ∧ (quote text).utf8ByteSize ≤ 47 := by
  obtain ⟨hlength, hchars⟩ := huuid text id h
  constructor
  · unfold jsonbText
    rw [List.all_eq_true]
    intro c hc
    exact (escapeChar_of_uuidChar c (hchars c hc)).2
  · have hjoin : ∀ l : List Char, (∀ c ∈ l, c ∈ uuidChars) →
        (String.join (l.map escapeChar)).utf8ByteSize = l.length := by
      intro l
      induction l with
      | nil => intro _; rfl
      | cons c l ih =>
        intro hl
        rw [List.map_cons, String.join_cons, String.utf8ByteSize_append,
          ih fun c' hc' => hl c' (List.mem_cons_of_mem c hc'),
          (escapeChar_of_uuidChar c (hl c List.mem_cons_self)).1, List.length_cons]
        omega
    unfold quote
    rw [String.utf8ByteSize_append, String.utf8ByteSize_append, hjoin _ hchars]
    have hquote : ("\"" : String).utf8ByteSize = 1 := rfl
    omega

/-- A ratio between a half and one has a short text. -/
theorem storedLength_ratio {v : Json} (hratio : inHalfToOne v = some true)
    (hdigits : ∀ d, v = .float d → d.digits < 10 ^ 17) :
    noNul v = true ∧ storedLength v ≤ 20 := by
  cases v with
  | int z =>
    simp only [inHalfToOne, Option.some.injEq, decide_eq_true_eq] at hratio
    subst hratio
    exact ⟨rfl, by decide⟩
  | float d =>
    have hsmall := hdigits d rfl
    simp only [inHalfToOne, Option.some.injEq, Bool.and_eq_true, Bool.not_eq_true',
      decide_eq_true_eq] at hratio
    obtain ⟨hsign, hhalf, hone⟩ := hratio
    have hscale : 0 < 10 ^ (-d.exponent).toNat := Nat.pow_pos (by decide)
    have hzero : d.digits ≠ 0 := by
      intro h
      rw [h, Nat.zero_mul] at hhalf
      omega
    have htext : d.digitText.length ≤ 17 :=
      (Nat.length_repr_le_iff (by decide)).mpr hsmall
    have hfloat : storedLength (.float d) = numericLength d ∧ numericLength d ≤ 20 := by
      have hnotInt : ¬ (16 < d.point ∧ 0 ≤ d.exponent) := by
        rintro ⟨hpoint, hexponent⟩
        obtain ⟨e, he⟩ := Int.eq_ofNat_of_zero_le hexponent
        have hneg : (-d.exponent).toNat = 0 := by omega
        have hnat : d.exponent.toNat = e := by omega
        rw [hneg, hnat, Nat.pow_zero] at hone
        have hpow : 0 < 10 ^ e := Nat.pow_pos (by decide)
        -- the number is at most one, so that its point is not that far
        have hdigitsOne : d.digits = 1 := by
          have hle : d.digits * 1 ≤ d.digits * 10 ^ e := Nat.mul_le_mul_left _ hpow
          omega
        have heZero : e = 0 := by
          by_contra hne
          have hle : 10 ^ 1 ≤ 10 ^ e := Nat.pow_le_pow_right (by decide) (by omega)
          rw [hdigitsOne] at hone
          omega
        unfold Decimal.point Decimal.digitText at hpoint
        rw [hdigitsOne] at hpoint
        have hlength : (toString 1 : String).length = 1 := rfl
        omega
      refine ⟨?_, ?_⟩
      · unfold storedLength jsonb numericOfFloat
        rw [if_neg hzero, if_neg hnotInt]
        rfl
      · unfold numericLength Decimal.signText
        have hempty : ("" : String).length = 0 := rfl
        rw [hsign, if_neg Bool.false_ne_true, hempty, Nat.zero_add]
        split
        · next hexponent =>
          have hneg : (-d.exponent).toNat = 0 := by omega
          rw [hneg, Nat.pow_zero] at hone
          have hexp : d.exponent.toNat = 0 := by
            by_contra hne
            have hle : 10 ^ 1 ≤ 10 ^ d.exponent.toNat :=
              Nat.pow_le_pow_right (by decide) (by omega)
            have hmul : 1 * 10 ^ d.exponent.toNat ≤ d.digits * 10 ^ d.exponent.toNat :=
              Nat.mul_le_mul_right _ (by omega)
            omega
          omega
        · next hexponent =>
          have hnat : d.exponent.toNat = 0 := by omega
          rw [hnat, Nat.pow_zero, Nat.mul_one] at hhalf
          have hlt : (-d.exponent).toNat < 18 := by
            by_contra hge
            have hle : 10 ^ 18 ≤ 10 ^ (-d.exponent).toNat :=
              Nat.pow_le_pow_right (by decide) (by omega)
            omega
          split <;> omega
    exact ⟨rfl, hfloat.1 ▸ hfloat.2⟩
  | _ => simp [inHalfToOne] at hratio

/-! ### What the validator knows of the metadata -/

section Accepted

variable {parseUuid : String → Option Uuid} {metadata : Object}

/-- A visit id, if there is one, is the text of a UUID. -/
theorem visitId_of_validateVisitId {u : Unit} (h : validateVisitId parseUuid metadata = .ok u)
    {v : Json} (hv : metadata.get "visit_id" = some v) :
    ∃ text id, v = .str text ∧ parseUuid text = some id := by
  unfold validateVisitId refuseIf at h
  split_ifs at h with hrefused
  have hsome : (visitIdOf parseUuid metadata).isSome := by
    by_contra hnone
    exact hrefused ⟨by rw [hv]; rfl, by simpa using hnone⟩
  obtain ⟨id, hid⟩ := Option.isSome_iff_exists.mp hsome
  unfold visitIdOf at hid
  rw [hv, Option.bind_some] at hid
  obtain ⟨text, htext, hparse⟩ := Option.bind_eq_some_iff.mp hid
  refine ⟨text, id, ?_, hparse⟩
  cases v with
  | str s =>
    rw [Json.asStr, Option.some.injEq] at htext
    rw [htext]
  | _ => simp [Json.asStr] at htext

/-- A field whose text is known. -/
theorem eq_str_of_asStr {name text : String} (h : (metadata.get name).bind Json.asStr = some text) :
    metadata.get name = some (.str text) := by
  obtain ⟨v, hv, htext⟩ := Option.bind_eq_some_iff.mp h
  cases v with
  | str s =>
    rw [Json.asStr, Option.some.injEq] at htext
    rw [hv, htext]
  | _ => simp [Json.asStr] at htext

/-- The names that the validator lets pass, apart from the one whose value may be anything. -/
def knownKeys : List String := ["viewport_ratio", "trigger", "visit_id", "target"]

/-- The values that the validator has looked at. -/
structure Known (parseUuid : String → Option Uuid) (metadata : Object) : Prop where
  keys : ∀ key ∈ metadata.map Prod.fst, key ∈ "continuous_visible_ms" :: knownKeys
  ratio : ∀ v, metadata.get "viewport_ratio" = some v → inHalfToOne v = some true
  trigger : ∀ v, metadata.get "trigger" = some v →
    v ∈ ["feed", "detail", "viewport_exit", "page_hidden", "destroy"].map Json.str
  visitId : ∀ v, metadata.get "visit_id" = some v →
    ∃ text id, v = .str text ∧ parseUuid text = some id
  target : ∀ v, metadata.get "target" = some v → v = .str "post_detail"

/-- A known field is stored, and it is short. -/
theorem fieldLength_known (huuid : UuidTexts parseUuid) (hparsed : Parsed metadata)
    (hknown : Known parseUuid metadata) {key : String} {v : Json} (hkey : key ∈ knownKeys)
    (hv : metadata.get key = some v) :
    jsonbText key = true ∧ noNul v = true ∧ fieldLength (key, v) ≤ 61 := by
  unfold fieldLength
  have hcases : key = "viewport_ratio" ∨ key = "trigger" ∨ key = "visit_id" ∨ key = "target" := by
    simpa [knownKeys] using hkey
  rcases hcases with rfl | rfl | rfl | rfl
  · obtain ⟨hnul, hlength⟩ := storedLength_ratio (hknown.ratio v hv)
      fun d hd => hparsed.digits d (hd ▸ hv)
    have hname : (quote "viewport_ratio").utf8ByteSize = 16 := by decide
    exact ⟨by decide, hnul, by dsimp only; omega⟩
  · have hbound : ∀ v ∈ ["feed", "detail", "viewport_exit", "page_hidden", "destroy"].map Json.str,
        noNul v = true ∧ storedLength v ≤ 15 := by decide
    obtain ⟨hnul, hlength⟩ := hbound v (hknown.trigger v hv)
    have hname : (quote "trigger").utf8ByteSize = 9 := by decide
    exact ⟨by decide, hnul, by dsimp only; omega⟩
  · obtain ⟨text, id, rfl, hparse⟩ := hknown.visitId v hv
    obtain ⟨hnul, hlength⟩ := uuidText_stored huuid hparse
    have hstored : storedLength (.str text) = (quote text).utf8ByteSize := by
      unfold storedLength jsonb
      rw [if_pos hnul]
      rfl
    have hname : (quote "visit_id").utf8ByteSize = 10 := by decide
    exact ⟨by decide, hnul, by dsimp only; omega⟩
  · obtain rfl := hknown.target v hv
    exact ⟨by decide, by decide, by decide⟩

/-- The length of some fields with short values. -/
theorem sum_fields_le (names : List String)
    (h : ∀ key ∈ names, ∀ v, metadata.get key = some v → fieldLength (key, v) ≤ 61) :
    ((names.filterMap fun key => (metadata.get key).map (Prod.mk key)).map fieldLength).sum
      ≤ 61 * names.length := by
  induction names with
  | nil => exact Nat.zero_le _
  | cons key names ih =>
    have hrest := ih fun key' hkey' => h key' (List.mem_cons_of_mem key hkey')
    rw [List.length_cons]
    cases hv : metadata.get key with
    | none =>
      rw [List.filterMap_cons_none (by rw [hv]; rfl)]
      omega
    | some v =>
      have hfield := h key List.mem_cons_self v hv
      rw [List.filterMap_cons_some (b := (key, v)) (by rw [hv]; rfl), List.map_cons, List.sum_cons]
      omega

/-- What the checks of a row ask of the type and the duration. -/
def RowAllowed (eventType : String) (dwellMs : Option Int) : Prop :=
  eventType ∈ Label.eventTypes ∧ (∀ d ∈ dwellMs, 0 ≤ d ∧ d ≤ 1800000)
    ∧ (eventType = "dwell" → dwellMs.isSome)
    ∧ (dwellMs.isSome → eventType = "view" ∨ eventType = "dwell")

/-- Only the names that are allowed have to be looked at. -/
theorem known_of_requireMetadataKeys {allowed : List String} {u : Unit}
    (h : requireMetadataKeys metadata allowed = .ok u)
    (hallowed : allowed ⊆ "continuous_visible_ms" :: knownKeys)
    (hratio : "viewport_ratio" ∈ allowed →
      ∀ v, metadata.get "viewport_ratio" = some v → inHalfToOne v = some true)
    (htrigger : "trigger" ∈ allowed → ∀ v, metadata.get "trigger" = some v →
      v ∈ ["feed", "detail", "viewport_exit", "page_hidden", "destroy"].map Json.str)
    (hvisit : "visit_id" ∈ allowed → ∃ u, validateVisitId parseUuid metadata = .ok u)
    (htarget : "target" ∈ allowed → ∀ v, metadata.get "target" = some v → v = .str "post_detail") :
    Known parseUuid metadata := by
  have hmem : ∀ name v, metadata.get name = some v → name ∈ allowed := by
    intro name v hv
    by_contra hname
    rw [get_eq_none_of_requireMetadataKeys h hname] at hv
    contradiction
  refine ⟨fun key hkey => hallowed (requireMetadataKeys_eq_ok h key hkey),
    fun v hv => hratio (hmem _ v hv) v hv, fun v hv => htrigger (hmem _ v hv) v hv, fun v hv => ?_,
    fun v hv => htarget (hmem _ v hv) v hv⟩
  obtain ⟨u, hu⟩ := hvisit (hmem _ v hv)
  exact visitId_of_validateVisitId hu hv

/-- An accepted `visible`. -/
theorem known_of_validateVisible {dwellMs : Option Int} {r : Option Int × Bool}
    (h : validateVisible metadata dwellMs = .ok r) :
    Known parseUuid metadata ∧ metadata.get "continuous_visible_ms" = none
      ∧ RowAllowed "visible" r.1 := by
  unfold validateVisible at h
  rw [Lib.except_bind_eq_ok] at h
  obtain ⟨_, hkeys, h⟩ := h
  rw [refuseIf_bind_eq_ok] at h
  obtain ⟨hdwell, h⟩ := h
  have hdwellNone : dwellMs = none := by simpa using hdwell
  split at h
  · contradiction
  · contradiction
  · next hratio =>
    rw [Except.ok.injEq] at h
    subst h
    refine ⟨known_of_requireMetadataKeys hkeys (by decide) (fun _ v hv => ?_)
      (fun h => absurd h (by decide)) (fun h => absurd h (by decide))
      (fun h => absurd h (by decide)), get_eq_none_of_requireMetadataKeys hkeys (by decide), ?_⟩
    · rwa [hv, Option.bind_some] at hratio
    · rw [hdwellNone]
      unfold RowAllowed
      decide

/-- An accepted `click`. -/
theorem known_of_validateClick {dwellMs : Option Int} {r : Option Int × Bool}
    (h : validateClick metadata dwellMs = .ok r) :
    Known parseUuid metadata ∧ metadata.get "continuous_visible_ms" = none
      ∧ RowAllowed "click" r.1 := by
  unfold validateClick at h
  rw [Lib.except_bind_eq_ok] at h
  obtain ⟨_, hkeys, h⟩ := h
  rw [refuseIf_bind_eq_ok, Except.ok.injEq] at h
  obtain ⟨hrefused, rfl⟩ := h
  rw [not_or, not_not] at hrefused
  obtain ⟨hdwell, htarget⟩ := hrefused
  have hdwellNone : dwellMs = none := by simpa using hdwell
  refine ⟨known_of_requireMetadataKeys hkeys (by decide) (fun h => absurd h (by decide))
    (fun h => absurd h (by decide)) (fun h => absurd h (by decide))
    (fun _ v hv => ?_), get_eq_none_of_requireMetadataKeys hkeys (by decide), ?_⟩
  · rw [eq_str_of_asStr htarget, Option.some.injEq] at hv
    exact hv.symm
  · rw [hdwellNone]
    unfold RowAllowed
    decide

/-- An accepted `dwell`. -/
theorem known_of_validateDwell {dwellMs : Option Int} {qualifiedReadMs : Int} {r : Option Int × Bool}
    (hrange : 0 ≤ dwellMs.getD 0 ∧ dwellMs.getD 0 ≤ maxDwellMs)
    (h : validateDwell parseUuid metadata dwellMs qualifiedReadMs = .ok r) :
    Known parseUuid metadata ∧ metadata.get "continuous_visible_ms" = none
      ∧ RowAllowed "dwell" r.1 := by
  obtain ⟨hcontinuous, hdwell, hr⟩ := validateDwell_eq_ok h
  unfold validateDwell at h
  rw [Lib.except_bind_eq_ok] at h
  obtain ⟨_, hkeys, h⟩ := h
  rw [Lib.except_bind_eq_ok] at h
  obtain ⟨u, hvisit, h⟩ := h
  rw [refuseIf_bind_eq_ok, refuseIf_bind_eq_ok] at h
  obtain ⟨-, htrigger, -⟩ := h
  refine ⟨known_of_requireMetadataKeys hkeys (by decide) (fun h => absurd h (by decide))
    (fun _ v hv => ?_) (fun _ => ⟨u, hvisit⟩) (fun h => absurd h (by decide)), hcontinuous, ?_⟩
  · rw [not_not] at htrigger
    have hstr : ∀ text ∈ ["viewport_exit", "page_hidden", "destroy"],
        Json.str text ∈ ["feed", "detail", "viewport_exit", "page_hidden", "destroy"].map Json.str := by
      intro text htext
      exact List.mem_map_of_mem ((by decide : ["viewport_exit", "page_hidden", "destroy"]
        ⊆ ["feed", "detail", "viewport_exit", "page_hidden", "destroy"]) htext)
    have hsome : ∃ text ∈ ["viewport_exit", "page_hidden", "destroy"],
        (metadata.get "trigger").bind Json.asStr = some text := by
      simp only [List.mem_cons, List.not_mem_nil, or_false] at htrigger
      rcases htrigger with h | h | h
      · exact ⟨_, by decide, h⟩
      · exact ⟨_, by decide, h⟩
      · exact ⟨_, by decide, h⟩
    obtain ⟨text, htext, heq⟩ := hsome
    rw [eq_str_of_asStr heq, Option.some.injEq] at hv
    exact hv ▸ hstr text htext
  · rw [hr]
    refine ⟨by decide, fun d hd => ?_, fun _ => hdwell, fun _ => .inr rfl⟩
    have hsome : dwellMs = some d := hd
    rw [hsome, Option.getD_some] at hrange
    exact hrange

/-- An accepted `view`: the continuous duration may be anything. -/
theorem known_of_validateView {labelVersion : String} {dwellMs : Option Int} {qualifiedReadMs : Int}
    {r : Option Int × Bool} (hrange : 0 ≤ dwellMs.getD 0 ∧ dwellMs.getD 0 ≤ maxDwellMs)
    (h : validateView parseUuid metadata labelVersion dwellMs qualifiedReadMs = .ok r) :
    Known parseUuid metadata ∧ RowAllowed "view" r.1 := by
  obtain ⟨hcontinuous, -, hr⟩ := validateView_eq_ok h
  unfold validateView at h
  rw [Lib.except_bind_eq_ok] at h
  obtain ⟨_, hkeys, h⟩ := h
  rw [Lib.except_bind_eq_ok] at h
  obtain ⟨u, hvisit, h⟩ := h
  split at h
  · contradiction
  · next trigger htrigger =>
    rw [refuseIf_bind_eq_ok] at h
    obtain ⟨hfeed, -⟩ := h
    refine ⟨known_of_requireMetadataKeys hkeys (by decide) (fun h => absurd h (by decide))
      (fun _ v hv => ?_) (fun _ => ⟨u, hvisit⟩) (fun h => absurd h (by decide)), ?_⟩
    · rw [not_not] at hfeed
      rw [eq_str_of_asStr htrigger, Option.some.injEq] at hv
      have hsub : ["feed", "detail"] ⊆ ["feed", "detail", "viewport_exit", "page_hidden", "destroy"] :=
        by decide
      exact hv ▸ List.mem_map_of_mem (hsub hfeed)
    · rw [hr]
      refine ⟨by decide, fun d hd => ?_, fun h => absurd h (by decide), fun _ => .inl rfl⟩
      rw [Option.mem_def, Option.some.injEq] at hd
      subst hd
      have hmax : maxDwellMs = 1800000 := rfl
      omega

/-- **What the validator knows.** -/
theorem known_of_validateKind {eventType labelVersion : String} {dwellMs : Option Int}
    {qualifiedReadMs : Int} {r : Option Int × Bool}
    (hrange : 0 ≤ dwellMs.getD 0 ∧ dwellMs.getD 0 ≤ maxDwellMs)
    (h : validateKind parseUuid metadata eventType labelVersion dwellMs qualifiedReadMs = .ok r) :
    Known parseUuid metadata ∧ RowAllowed eventType r.1
      ∧ (eventType ≠ "view" → metadata.get "continuous_visible_ms" = none) := by
  unfold validateKind at h
  split_ifs at h with hvisible hview hclick hdwell
  · obtain ⟨hknown, hnone, hrow⟩ := known_of_validateVisible h
    exact ⟨hknown, hvisible ▸ hrow, fun _ => hnone⟩
  · obtain ⟨hknown, hrow⟩ := known_of_validateView hrange h
    exact ⟨hknown, hview ▸ hrow, fun hne => absurd hview hne⟩
  · obtain ⟨hknown, hnone, hrow⟩ := known_of_validateClick h
    exact ⟨hknown, hclick ▸ hrow, fun _ => hnone⟩
  · obtain ⟨hknown, hnone, hrow⟩ := known_of_validateDwell hrange h
    exact ⟨hknown, hdwell ▸ hrow, fun _ => hnone⟩

end Accepted

/-! ### The condition -/

/-- The octets of the fields beside `continuous_visible_ms`. -/
def othersLength (metadata : Object) : Nat :=
  ((metadata.filter fun f => f.1 ≠ "continuous_visible_ms").map fieldLength).sum

/-- **The condition.**  In a view, the value of `continuous_visible_ms` has no character `\u0000`,
    and its stored text leaves room for the other fields, its own name and the label version. -/
def Fits (raw : RawBehaviorEvent) : Prop :=
  raw.eventType = "view" → ∀ metadata value, raw.metadata = .obj metadata →
    Object.get metadata "continuous_visible_ms" = some value →
      noNul value = true ∧ storedLength value + othersLength metadata + 50 ≤ 8192

section Row

variable {parseUuid : String → Option Uuid} {metadata : Object}

/-- The length of the fields, with and without the continuous duration. -/
theorem sum_fieldLength (hparsed : Parsed metadata) :
    (metadata.map fieldLength).sum = othersLength metadata
      + ((metadata.get "continuous_visible_ms").map fun v => 27 + storedLength v).getD 0 := by
  have hname : (quote "continuous_visible_ms").utf8ByteSize = 23 := by decide
  have hsplit : ∀ o : Object, (o.map Prod.fst).Nodup →
      (o.map fieldLength).sum = othersLength o
        + ((Object.get o "continuous_visible_ms").map fun v => 27 + storedLength v).getD 0 := by
    intro o hnames
    induction o with
    | nil => rfl
    | cons f o ih =>
      rw [List.map_cons, List.nodup_cons] at hnames
      have hrest := ih hnames.2
      unfold othersLength at hrest ⊢
      rw [Object.get_cons, List.map_cons, List.sum_cons, hrest]
      by_cases hf : f.1 = "continuous_visible_ms"
      · have hnone : Object.get o "continuous_visible_ms" = none := by
          unfold Object.get
          rw [List.lookup_eq_none_iff]
          intro g hg
          have hne : "continuous_visible_ms" ≠ g.1 := fun heq =>
            hnames.1 (hf ▸ heq ▸ List.mem_map_of_mem hg)
          simpa using hne
        rw [List.filter_cons_of_neg (by simpa using hf), if_pos hf.symm, hnone, Option.map_none,
          Option.map_some, Option.getD_none, Option.getD_some]
        unfold fieldLength
        rw [hf, hname]
        omega
      · rw [List.filter_cons_of_pos (by simpa using hf), if_neg fun h => hf h.symm, List.map_cons,
          List.sum_cons]
        omega
  exact hsplit metadata hparsed.names

/-- The document that is stored: the metadata, and the label version at its end. -/
theorem set_eventVersion (hknown : Known parseUuid metadata) (version : Json) :
    Object.set metadata "event_version" version = metadata ++ [("event_version", version)] := by
  have hnone : (metadata.lookup "event_version").isSome ≠ true := by
    intro hsome
    obtain ⟨v, hv⟩ := Option.isSome_iff_exists.mp hsome
    have hmem : "event_version" ∈ metadata.map Prod.fst := by
      by_contra hnot
      have hlookup : metadata.lookup "event_version" = none := by
        rw [List.lookup_eq_none_iff]
        intro f hf
        have hne : "event_version" ≠ f.1 := fun heq => hnot (heq ▸ List.mem_map_of_mem hf)
        simpa using hne
      rw [hlookup] at hv
      contradiction
    exact absurd (hknown.keys _ hmem) (by decide)
  unfold Object.set
  rw [if_neg hnone]

/-- **When the stored document is accepted.** -/
theorem storable_set_iff (huuid : UuidTexts parseUuid) (hparsed : Parsed metadata)
    (hknown : Known parseUuid metadata) {version : String} (hversion : version = "v1" ∨ version = "v2") :
    (∃ m, jsonb (.obj (Object.set metadata "event_version" (.str version))) = some m
        ∧ jsonbLength m ≤ 8192) ↔
      ∀ value, metadata.get "continuous_visible_ms" = some value →
        noNul value = true ∧ storedLength value + othersLength metadata + 50 ≤ 8192 := by
  have hfield : jsonbText "event_version" = true ∧ noNul (.str version) = true
      ∧ fieldLength ("event_version", .str version) = 23 := by
    rcases hversion with rfl | rfl <;> decide
  have hperm := perm_fields hparsed.names (by decide) hknown.keys
  -- the fields that are known are stored, and short
  have hshort : ∀ key ∈ knownKeys, ∀ v, metadata.get key = some v →
      jsonbText key = true ∧ noNul v = true ∧ fieldLength (key, v) ≤ 61 := fun key hkey v hv =>
    fieldLength_known huuid hparsed hknown hkey hv
  rw [set_eventVersion hknown, storable_iff (by simp), List.forall_mem_append, List.map_append,
    List.sum_append, sum_fieldLength hparsed, List.forall_mem_singleton]
  have hversionSum : ([("event_version", Json.str version)].map fieldLength).sum = 23 := by
    rw [List.map_singleton, List.sum_singleton, hfield.2.2]
  rw [hversionSum]
  have hmem : ∀ f : String × Json, f ∈ metadata ↔
      f.1 ∈ "continuous_visible_ms" :: knownKeys ∧ metadata.get f.1 = some f.2 := by
    intro f
    rw [hperm.mem_iff, List.mem_filterMap]
    constructor
    · rintro ⟨key, hkey, hf⟩
      obtain ⟨v, hv, rfl⟩ := Option.map_eq_some_iff.mp hf
      exact ⟨hkey, hv⟩
    · rintro ⟨hkey, hf⟩
      exact ⟨f.1, hkey, by rw [hf]; rfl⟩
  cases hvalue : metadata.get "continuous_visible_ms" with
  | none =>
    have hothers : othersLength metadata ≤ 61 * 5 := by
      have hle : (metadata.map fieldLength).sum ≤ 61 * 5 := by
        rw [(hperm.map fieldLength).sum_nat]
        refine sum_fields_le _ fun key hkey v hv => ?_
        rcases List.mem_cons.mp hkey with rfl | hkey
        · rw [hvalue] at hv
          contradiction
        · exact (hshort key hkey v hv).2.2
      rw [sum_fieldLength hparsed, hvalue] at hle
      exact hle
    refine iff_of_true ⟨⟨fun f hf => ?_, hfield.1, hfield.2.1⟩, ?_⟩ (by simp)
    · obtain ⟨hkey, hget⟩ := (hmem f).mp hf
      rcases List.mem_cons.mp hkey with hkey | hkey
      · rw [hkey, hvalue] at hget
        contradiction
      · exact ⟨(hshort f.1 hkey f.2 hget).1, (hshort f.1 hkey f.2 hget).2.1⟩
    · rw [Option.map_none, Option.getD_none]
      omega
  | some value =>
    rw [Option.map_some, Option.getD_some]
    constructor
    · rintro ⟨⟨hall, -⟩, hsum⟩ v hv
      rw [Option.some.injEq] at hv
      subst hv
      have hf := (hmem ("continuous_visible_ms", value)).mpr ⟨List.mem_cons_self, hvalue⟩
      exact ⟨(hall _ hf).2, by omega⟩
    · intro h
      obtain ⟨hnul, hlength⟩ := h value rfl
      refine ⟨⟨fun f hf => ?_, hfield.1, hfield.2.1⟩, by omega⟩
      obtain ⟨hkey, hget⟩ := (hmem f).mp hf
      rcases List.mem_cons.mp hkey with hkey | hkey
      · rw [hkey, hvalue, Option.some.injEq] at hget
        exact ⟨hkey ▸ (by decide), hget ▸ hnul⟩
      · exact ⟨(hshort f.1 hkey f.2 hget).1, (hshort f.1 hkey f.2 hget).2.1⟩

/-- The stored document of an object is an object. -/
theorem asObject_of_jsonb {o : Object} {m : Json} (h : jsonb (.obj o) = some m) :
    m.asObject.isSome := by
  unfold jsonb at h
  obtain ⟨o', -, rfl⟩ := Option.map_eq_some_iff.mp h
  rfl

/-- The row of an event is accepted when its type and duration are allowed and its metadata is
    stored. -/
theorem insertable_iff_storable {db : Database} {userId : Uuid} {dbNow : Instant}
    {event : NewBehaviorEvent} {o : Object} (hpost : (db.post event.postId).isSome)
    (hrow : RowAllowed event.eventType event.dwellMs) (hmetadata : event.metadata = .obj o) :
    Insertable db userId dbNow event ↔ ∃ m, jsonb (.obj o) = some m ∧ jsonbLength m ≤ 8192 := by
  obtain ⟨post, hp⟩ := Option.isSome_iff_exists.mp hpost
  obtain ⟨htype, hrange, hrequired, honly⟩ := hrow
  unfold Insertable candidateRow
  rw [hp, hmetadata]
  cases hjsonb : jsonb (.obj o) with
  | none => simp
  | some m =>
    have hobject := asObject_of_jsonb hjsonb
    have hchecks : ∀ row : BehaviorRow, row.eventType = event.eventType →
        row.dwellMs = event.dwellMs → row.metadata = m →
          (row.checks = true ↔ jsonbLength m ≤ 8192) := by
      intro row h₁ h₂ h₃
      unfold BehaviorRow.checks
      rw [h₁, h₂, h₃]
      simp only [Bool.and_eq_true, decide_eq_true_eq]
      constructor
      · rintro ⟨⟨⟨-, h⟩, -⟩, -⟩
        exact h
      · intro h
        exact ⟨⟨⟨⟨⟨htype, hrange⟩, hobject⟩, h⟩, hrequired⟩, honly⟩
    dsimp only
    split
    · next hok =>
      have hle := (hchecks _ rfl rfl rfl).mp hok
      exact iff_of_true ⟨_, rfl⟩ ⟨m, rfl, hle⟩
    · next hbad =>
      refine iff_of_false ?_ ?_
      · rintro ⟨row, hrow⟩
        contradiction
      · rintro ⟨m', hm', hle⟩
        rw [Option.some.injEq] at hm'
        subst hm'
        exact hbad ((hchecks _ rfl rfl rfl).mpr hle)

end Row

/-- **Accepted events and their rows.**  The row of an accepted event converts to `jsonb` and
    satisfies the checks of the table exactly when its metadata fits. -/
theorem insertable_iff {parseUuid : String → Option Uuid} (huuid : UuidTexts parseUuid)
    {index : Nat} {raw : RawBehaviorEvent} {now : Instant} {qualifiedReadMs : Int} {id : Uuid}
    {v : ValidatedBehaviorEvent}
    (hparsed : ∀ metadata, raw.metadata = .obj metadata → Parsed metadata)
    (h : validateBehaviorEvent parseUuid index raw now qualifiedReadMs id = .ok v)
    {db : Database} (userId : Uuid) (dbNow : Instant) (hpost : (db.post raw.postId).isSome) :
    Insertable db userId dbNow v.event ↔ Fits raw := by
  obtain ⟨hversion, hrange, metadata, dwellMs, hmetadata, hkind, hv⟩ :=
    validateBehaviorEvent_eq_ok h
  obtain ⟨hknown, hrow, hview⟩ := known_of_validateKind hrange hkind
  have hparsed' := hparsed metadata hmetadata
  rw [hv, insertable_iff_storable hpost hrow rfl, storable_set_iff huuid hparsed' hknown hversion]
  unfold Fits
  constructor
  · intro hfits htype metadata' value hmetadata' hvalue
    rw [hmetadata, Json.obj.injEq] at hmetadata'
    subst hmetadata'
    exact hfits value hvalue
  · intro hfits value hvalue
    by_cases htype : raw.eventType = "view"
    · exact hfits htype metadata value hmetadata hvalue
    · rw [hview htype] at hvalue
      contradiction

/-- A view of the post 1 whose continuous duration is any value. -/
private def rawViewOf (clientEventId : Uuid) (continuous : Json) : RawBehaviorEvent where
  clientEventId := clientEventId
  postId := 1
  impressionId := none
  sessionId := none
  eventType := "view"
  eventVersion := none
  dwellMs := some 12000
  metadata := .obj [("continuous_visible_ms", continuous), ("trigger", .str "detail")]
  occurredAt := 0

private def acceptedView (clientEventId id : Uuid) (continuous : Json) : ValidatedBehaviorEvent where
  index := 0
  event := ⟨id, clientEventId, 1, none, none, "view", some 12000,
    .obj [("continuous_visible_ms", continuous), ("trigger", .str "detail"),
      ("event_version", .str "v1")], 0⟩
  qualifiedSignal := true
  visitId := none

private def onePost : Database := ⟨[⟨1, [], [], 0⟩], [], [], []⟩

private theorem accepted_number :
    validateBehaviorEvent (fun _ => none) 0 (rawViewOf 2 (.int 12000)) 0 10000 3
      = .ok (acceptedView 2 3 (.int 12000)) := by rfl

/-- A view with a number for its duration. -/
theorem insertable_iff_number :
    Insertable onePost 7 0 (acceptedView 2 3 (.int 12000)).event
      ↔ Fits (rawViewOf 2 (.int 12000)) := by
  have huuid : UuidTexts fun _ => none := fun _ _ h => by contradiction
  refine insertable_iff huuid
    (fun metadata hmetadata => ?_) accepted_number 7 0 (by decide)
  have hobject : metadata = [("continuous_visible_ms", .int 12000), ("trigger", .str "detail")] :=
    (Json.obj.inj hmetadata).symm
  subst hobject
  exact ⟨by decide, fun d hd => by simp [Object.get, List.lookup_cons] at hd⟩

/-- **Counterexample.**  A view whose `continuous_visible_ms` is the text `\u0000` is accepted, its
    row cannot be built, and with it no event of its batch is inserted. -/
theorem not_insertable_nul :
    validateBehaviorEvent (fun _ => none) 0 (rawViewOf 4 (.str "\x00")) 0 10000 5
        = .ok (acceptedView 4 5 (.str "\x00"))
      ∧ ¬ Insertable onePost 7 0 (acceptedView 4 5 (.str "\x00")).event
      ∧ insertBehaviorEvents onePost 7 0
          [(acceptedView 2 3 (.int 12000)).event, (acceptedView 4 5 (.str "\x00")).event]
        = .error .cast :=
  ⟨by rfl, by decide, by rfl⟩

end Oecophylla.Ingestion
