import Oecophylla.Lib.TopK
import Oecophylla.Lib.Utf8
import Oecophylla.Mind.Large

namespace Oecophylla.Mind

open Lib (stableSort keep keepStep reverse_keep stableSort_map stableSort_eq_of_perm_of_lawful
  mapM_eq_ok_iff)

/-!
# Sampling is sorting and taking — `sample_behaviors`

* `WellFormed` — a line with five fields and a text;
* `ranking` — the lines that are not excluded, by the order of their requests;
* `foldlM_observe` — the loop keeps `Lib.keep` of them;
* `sampleBehaviors_eq` — what a call returns or raises;
* `sampleBehaviors_laws` — the sample in terms of the ranking, of permuted files and of limits.
-/

theorem encode_eq (text : String) : encode text = Lib.utf8 text.toList := Lib.toList_toUTF8 text

theorem decode_utf8 (cs : List Char) : decode (Lib.utf8 cs) = .ok (String.ofList cs) := by
  rw [decode, Lib.fromUTF8?_utf8]

theorem decode_encode (text : String) : decode (encode text) = .ok text := by
  rw [encode_eq, decode_utf8, String.ofList_toList]

/-- Five fields, and the bytes are a text. -/
structure WellFormed (line : Bytes) : Prop where
  fields : (fieldsOfBytes line).length = 5
  text : ∃ text, decode line = .ok text

/-- Whether a line is excluded. -/
def skips (exclude : Option (List Bytes → Except Raised Bool)) (line : Bytes) :
    Except Raised Bool :=
  match exclude with
  | none => .ok false
  | some exclude => exclude (fieldsOfBytes line)

/-- The row of a line. -/
def rowOf (line : Bytes) : List String :=
  match decode line with
  | .ok text => fieldsOfText text
  | .error _ => []

/-- The error when there are not as many requests as asked for. -/
def tooFew (limit available : Int) : Raised :=
  .valueError s!"requested {limit} requests, but only {available} are available"

section Sampling

variable (rt : Runtime) (seed : Int)

/-- The entry of a line in the heap. -/
def itemOf (line : Bytes) : Item := (-priority rt seed (fieldsOfBytes line), line)

/-- By increasing hash, and lines with one hash by decreasing bytes. -/
def compareRequests (a b : Bytes) : Ordering :=
  (compare (priority rt seed (fieldsOfBytes a)) (priority rt seed (fieldsOfBytes b))).then
    (compare b a)

/-- The lines that are not excluded, as sorting the whole file gives them. -/
def ranking (excluded : Bytes → Bool) (lines : List Bytes) : List Bytes :=
  stableSort (compareRequests rt seed) (lines.filter fun line => !excluded line)

instance : Std.TransCmp compareItem :=
  inferInstanceAs (Std.TransCmp (compareLex (Lib.compareBy compare fun a : Item => a.1)
    (Lib.compareBy compare fun a : Item => a.2)))

instance : Std.LawfulEqCmp compareItem where
  eq_of_compare := by
    intro a b h
    rw [compareItem, Ordering.then_eq_eq] at h
    exact Prod.ext (Std.LawfulEqCmp.eq_of_compare h.1) (Std.LawfulEqCmp.eq_of_compare h.2)

theorem compareItem_itemOf (a b : Bytes) :
    compareItem (itemOf rt seed b) (itemOf rt seed a) = compareRequests rt seed a b := by
  have hneg : ∀ m n : Int, compare (-n) (-m) = compare m n := by
    intro m n
    rcases lt_trichotomy m n with h | rfl | h
    · rw [compare_lt_iff_lt.mpr h, compare_lt_iff_lt.mpr (by omega)]
    · rw [compare_eq_iff_eq.mpr rfl, compare_eq_iff_eq.mpr rfl]
    · rw [compare_gt_iff_gt.mpr h, compare_gt_iff_gt.mpr (by omega)]
  rw [compareItem, itemOf, itemOf, compareRequests, hneg]

/-- The sample, from the first request down. -/
theorem reverse_keep_itemOf {k : ℕ} (hk : 0 < k) (lines : List Bytes) :
    (keep compareItem k (lines.map (itemOf rt seed))).reverse
      = ((stableSort (compareRequests rt seed) lines).take k).map (itemOf rt seed) := by
  have hcmp : (fun a b => compareItem (itemOf rt seed b) (itemOf rt seed a))
      = compareRequests rt seed := by
    ext a b : 2
    exact compareItem_itemOf rt seed a b
  rw [reverse_keep hk, stableSort_map, hcmp, List.map_take]

/-! ### The loop -/

variable {exclude : Option (List Bytes → Except Raised Bool)} {excluded : Bytes → Bool}

theorem observe_eq (limit : Int) (s : Sample) {line : Bytes} (hline : WellFormed line)
    (hskip : skips exclude line = .ok (excluded line)) :
    observe rt limit seed exclude s line
      = .ok (if excluded line then
          { s with count := s.count + 1, excluded := s.excluded + 1 }
        else
          { s with
            count := s.count + 1
            heap := keepStep compareItem limit.toNat s.heap (itemOf rt seed line) }) := by
  have hroom : ((s.heap.length : Int) < limit) ↔ s.heap.length < limit.toNat := by omega
  -- what follows the test of the predicate
  have hrest : (if excluded line = true then
        (.ok { s with count := s.count + 1, excluded := s.excluded + 1 } : Except Raised Sample)
      else if (s.heap.length : Int) < limit then
        .ok { s with count := s.count + 1, heap := heappush s.heap (itemOf rt seed line) }
      else if ∃ least ∈ s.heap.head?, compareItem (itemOf rt seed line) least = .gt then
        .ok { s with count := s.count + 1, heap := heapreplace s.heap (itemOf rt seed line) }
      else .ok { s with count := s.count + 1 })
      = .ok (if excluded line then
          { s with count := s.count + 1, excluded := s.excluded + 1 }
        else
          { s with
            count := s.count + 1
            heap := keepStep compareItem limit.toNat s.heap (itemOf rt seed line) }) := by
    simp only [hroom, keepStep, heappush, heapreplace, Lib.insertSorted]
    split
    · rfl
    · split
      · rfl
      · split <;> rfl
  simp only [observe, hline.fields, ne_eq, not_true, if_false]
  cases exclude with
  | none =>
    have hnot : false = excluded line := Except.ok.inj hskip
    rw [← hrest, ← hnot]
    rfl
  | some exclude =>
    have hcall : exclude (fieldsOfBytes line) = .ok (excluded line) := hskip
    rw [← hrest]
    simp only [hcall]
    rfl

theorem foldlM_observe (limit : Int) (s : Sample) {lines : List Bytes}
    (hlines : ∀ line ∈ lines, WellFormed line)
    (hskips : ∀ line ∈ lines, skips exclude line = .ok (excluded line)) :
    lines.foldlM (observe rt limit seed exclude) s
      = .ok {
          heap := ((lines.filter fun line => !excluded line).map (itemOf rt seed)).foldl
            (keepStep compareItem limit.toNat) s.heap
          count := s.count + lines.length
          excluded := s.excluded + lines.countP excluded } := by
  induction lines generalizing s with
  | nil => rfl
  | cons line lines ih =>
    -- the induction goes over the file; the sample so far is arbitrary
    have hrest := fun s => ih s (fun l hl => hlines l (List.mem_cons_of_mem line hl))
      (fun l hl => hskips l (List.mem_cons_of_mem line hl))
    rw [List.foldlM_cons, observe_eq rt seed limit s (hlines line List.mem_cons_self)
      (hskips line List.mem_cons_self)]
    show lines.foldlM (observe rt limit seed exclude) _ = _
    rw [hrest]
    by_cases hexcluded : excluded line = true
    · simp [hexcluded, Nat.add_assoc, Nat.add_comm 1]
    · simp [hexcluded, Nat.add_assoc, Nat.add_comm 1]

/-! ### A call -/

variable {rt seed} {lines : List Bytes} (hlines : ∀ line ∈ lines, WellFormed line)
  (hskips : ∀ line ∈ lines, skips exclude line = .ok (excluded line))
include hlines hskips

/-- What a call returns or raises. -/
theorem sampleBehaviors_eq (limit : Int) :
    sampleBehaviors rt lines limit seed exclude
      = if limit < 1 then .error (.valueError "request limit must be positive")
        else if ((ranking rt seed excluded lines).length : Int) < limit then
          .error (tooFew limit (ranking rt seed excluded lines).length)
        else .ok (((ranking rt seed excluded lines).take limit.toNat).map rowOf, {
          requests := lines.length
          selected := limit.toNat
          sha256 := rt.sha256Hex lines.flatten
          excludedRequests := lines.countP excluded }) := by
  -- every line is ranked or excluded
  have hlength : (ranking rt seed excluded lines).length + lines.countP excluded = lines.length := by
    have hsplit := List.length_eq_countP_add_countP excluded (l := lines)
    have hnot : lines.countP (fun line => decide ¬ excluded line = true)
        = (ranking rt seed excluded lines).length := by
      rw [ranking, Lib.length_stableSort, ← List.countP_eq_length_filter]
      congr 1
      ext line
      simp
    omega
  unfold sampleBehaviors
  by_cases hlimit : limit < 1
  · rw [if_pos hlimit, if_pos hlimit]
  · rw [if_neg hlimit, if_neg hlimit, foldlM_observe rt seed limit ⟨[], 0, 0⟩ hlines hskips]
    -- what the code counts as available is the length of the ranking
    have havailable : ((0 + lines.length : ℕ) : Int) - ((0 + lines.countP excluded : ℕ) : Int)
        = (ranking rt seed excluded lines).length := by omega
    show (if ((0 + lines.length : ℕ) : Int) - ((0 + lines.countP excluded : ℕ) : Int) < limit then
        Except.error (tooFew limit
          (((0 + lines.length : ℕ) : Int) - ((0 + lines.countP excluded : ℕ) : Int)))
      else _) = _
    rw [havailable]
    by_cases hfew : ((ranking rt seed excluded lines).length : Int) < limit
    · rw [if_pos hfew, if_pos hfew]
    · rw [if_neg hfew, if_neg hfew]
      -- the heap, read from its end, is the start of the ranking
      have hheap := reverse_keep_itemOf rt seed (show 0 < limit.toNat by omega)
        (lines.filter fun line => !excluded line)
      have hrows : (((ranking rt seed excluded lines).take limit.toNat).map (itemOf rt seed)).mapM
          (fun item => do
            let text ← decode item.2
            pure (fieldsOfText text))
          = (.ok (((ranking rt seed excluded lines).take limit.toNat).map rowOf)
            : Except Raised (List (List String))) := by
        rw [mapM_eq_ok_iff, List.map_map, List.map_map]
        apply List.map_congr_left
        intro line hline
        have hmem : line ∈ lines :=
          List.mem_of_mem_filter (Lib.mem_stableSort.mp (List.mem_of_mem_take hline))
        obtain ⟨text, htext⟩ := (hlines line hmem).text
        show (decode line >>= fun text => pure (fieldsOfText text)) = .ok (rowOf line)
        rw [rowOf, htext]
        rfl
      have hsample := (congrArg (List.mapM fun item : Item => do
        let text ← decode item.2
        pure (fieldsOfText text)) hheap).trans hrows
      refine Lib.except_bind_eq_ok.mpr ⟨_, hsample, ?_⟩
      -- there are enough lines for a full sample
      have hselected : (((ranking rt seed excluded lines).take limit.toNat).map rowOf).length
          = limit.toNat := by
        rw [List.length_map, List.length_take]
        omega
      simp only [Nat.zero_add, hselected]
      rfl

theorem sampleBehaviors_eq_ok {limit : Int} {rows : List (List String)} {audit : Audit}
    (h : sampleBehaviors rt lines limit seed exclude = .ok (rows, audit)) :
    rows = ((ranking rt seed excluded lines).take limit.toNat).map rowOf := by
  rw [sampleBehaviors_eq hlines hskips] at h
  split at h
  · cases h
  · split at h
    · cases h
    · cases h
      rfl

end Sampling

/-! ### The laws -/

section Laws

variable {rt : Runtime} {seed : Int} {exclude : Option (List Bytes → Except Raised Bool)}
  {excluded : Bytes → Bool} {lines : List Bytes}

instance (rt : Runtime) (seed : Int) : Std.TransCmp (compareRequests rt seed) :=
  inferInstanceAs (Std.TransCmp (compareLex
    (Lib.compareBy compare fun line => priority rt seed (fieldsOfBytes line))
    fun a b : Bytes => compare b a))

instance (rt : Runtime) (seed : Int) : Std.LawfulEqCmp (compareRequests rt seed) where
  eq_of_compare := by
    intro a b h
    rw [compareRequests, Ordering.then_eq_eq] at h
    exact (Std.LawfulEqCmp.eq_of_compare h.2).symm

/-- The ranking does not depend on the order of the file. -/
theorem ranking_perm {lines' : List Bytes} (hperm : lines.Perm lines') :
    ranking rt seed excluded lines = ranking rt seed excluded lines' :=
  stableSort_eq_of_perm_of_lawful (hperm.filter _)

theorem length_ranking (lines : List Bytes) :
    (ranking rt seed excluded lines).length
      = (lines.filter fun line => !excluded line).length := Lib.length_stableSort

/-- A sample of a file of well-formed lines, under a predicate that returns on its lines: it raises
    exactly if the limit is not positive or there are fewer lines that are not excluded; else it is
    the start of their ranking.  So it is the same for every order of the lines, and a smaller
    sample is the start of a larger one. -/
theorem sampleBehaviors_laws (hlines : ∀ line ∈ lines, WellFormed line)
    (hskips : ∀ line ∈ lines, skips exclude line = .ok (excluded line)) :
    (∀ limit : Int, (∃ raised, sampleBehaviors rt lines limit seed exclude = .error raised)
        ↔ limit < 1 ∨ ((lines.filter fun line => !excluded line).length : Int) < limit)
      ∧ (∀ (limit : Int) rows audit,
          sampleBehaviors rt lines limit seed exclude = .ok (rows, audit) →
            rows = ((ranking rt seed excluded lines).take limit.toNat).map rowOf)
      ∧ (∀ (lines' : List Bytes) (limit : Int), lines.Perm lines' →
          (sampleBehaviors rt lines' limit seed exclude).map Prod.fst
            = (sampleBehaviors rt lines limit seed exclude).map Prod.fst)
      ∧ ∀ (limit limit' : Int) rows rows' audit audit', limit ≤ limit' →
          sampleBehaviors rt lines limit seed exclude = .ok (rows, audit) →
          sampleBehaviors rt lines limit' seed exclude = .ok (rows', audit') → rows <+: rows' := by
  refine ⟨?_, fun limit rows audit h => sampleBehaviors_eq_ok hlines hskips h, ?_, ?_⟩
  · intro limit
    rw [sampleBehaviors_eq hlines hskips, length_ranking]
    by_cases hlimit : limit < 1
    · simp [hlimit]
    · by_cases hfew : ((lines.filter fun line => !excluded line).length : Int) < limit
      · rw [if_neg hlimit, if_pos hfew]
        exact ⟨fun _ => .inr hfew, fun _ => ⟨_, rfl⟩⟩
      · rw [if_neg hlimit, if_neg hfew]
        constructor
        · rintro ⟨raised, h⟩
          cases h
        · rintro (h | h)
          · exact absurd h hlimit
          · exact absurd h hfew
  · intro lines' limit hperm
    -- the other order has the same lines, and their ranking is the same
    have hlines' : ∀ line ∈ lines', WellFormed line :=
      fun line hline => hlines line (hperm.mem_iff.mpr hline)
    have hskips' : ∀ line ∈ lines', skips exclude line = .ok (excluded line) :=
      fun line hline => hskips line (hperm.mem_iff.mpr hline)
    rw [sampleBehaviors_eq hlines hskips, sampleBehaviors_eq hlines' hskips',
      ← ranking_perm hperm]
    split
    · rfl
    · split <;> rfl
  · intro limit limit' rows rows' audit audit' hle h h'
    rw [sampleBehaviors_eq_ok hlines hskips h, sampleBehaviors_eq_ok hlines hskips h']
    apply List.IsPrefix.map
    -- both are starts of one ranking
    rw [← Nat.min_eq_left (Int.toNat_le_toNat hle), ← List.take_take]
    exact List.take_prefix _ _

/-! ### Two requests -/

/-- A runtime whose hash is its input. -/
def plainRuntime : Runtime where
  unicode := ⟨fun s => s, fun s => s, fun s => s⟩
  sha256 data := data
  sha256Hex data := (decode data).toOption.getD ""
  hmacSha256 salt text := salt ++ text

/-- A limit that is not positive raises, however many lines there are. -/
theorem sampleBehaviors_zero : ¬ ∀ (rt : Runtime) (lines : List Bytes) (limit seed : Int)
    (exclude : Option (List Bytes → Except Raised Bool)) (excluded : Bytes → Bool),
    (∀ line ∈ lines, WellFormed line) →
    (∀ line ∈ lines, skips exclude line = .ok (excluded line)) →
    ((∃ raised, sampleBehaviors rt lines limit seed exclude = .error raised)
      ↔ ((lines.filter fun line => !excluded line).length : Int) < limit) := by
  intro h
  have hiff := h plainRuntime [] 0 0 none (fun _ => false) (by simp) (by simp)
  exact absurd (hiff.mp ⟨_, rfl⟩) (by decide)

/-- Two lines of a behaviors file, in either order. -/
theorem sampleBehaviors_two :
    (sampleBehaviors plainRuntime [encode "2\tU2\tt\tN1\tN2-1 N3-0\n",
        encode "1\tU1\tt\tN1\tN2-0 N3-1\n"] 1 7 none).map Prod.fst
      = (sampleBehaviors plainRuntime [encode "1\tU1\tt\tN1\tN2-0 N3-1\n",
        encode "2\tU2\tt\tN1\tN2-1 N3-0\n"] 1 7 none).map Prod.fst := by
  have hwell : ∀ line ∈ [encode "1\tU1\tt\tN1\tN2-0 N3-1\n", encode "2\tU2\tt\tN1\tN2-1 N3-0\n"],
      WellFormed line := by
    intro line hline
    simp only [List.mem_cons, List.not_mem_nil, or_false] at hline
    rcases hline with rfl | rfl
    · exact ⟨by decide +kernel, _, decode_encode _⟩
    · exact ⟨by decide +kernel, _, decode_encode _⟩
  have hlaws := @sampleBehaviors_laws plainRuntime 7 none (fun _ => false) _ hwell (fun _ _ => rfl)
  exact hlaws.2.2.1 _ 1 (List.Perm.swap _ _ _)

end Laws

end Oecophylla.Mind
