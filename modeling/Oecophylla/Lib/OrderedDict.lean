import Mathlib.Data.List.Induction
import Mathlib.Data.List.Nodup

namespace Oecophylla.Lib

/-!
# Library — dictionaries that keep the order of insertion

`OrderedDict κ ν` is a list of entries.  Setting a key that exists keeps its place, a new key
goes to the end, and `pop` removes a key.

* `get_set` / `get_pop` — lookups after an update;
* `get_filter` — lookups in the part of the dictionary whose keys meet a condition;
* `filter_set` / `filter_pop` — updates of such a part;
* `nodup_set` / `nodup_pop`, `filter_key` — keys are not repeated;
* `map_set` / `map_pop` — updates of a dictionary whose values are rewritten;
* `get_groupBy` / `groupBy_flatMap` — the items of a list under their keys;
* `get_update` — several keys set at once;
* `get_combine` — the values of several keys changed at once.
-/

/-- A dictionary. -/
abbrev OrderedDict (κ ν : Type*) := List (κ × ν)

namespace OrderedDict

variable {κ ν : Type*} [DecidableEq κ]

/-- The value of a key. -/
def get (d : OrderedDict κ ν) (k : κ) : Option ν := d.lookup k

/-- Set a key. -/
def set (d : OrderedDict κ ν) (k : κ) (v : ν) : OrderedDict κ ν :=
  if (d.get k).isSome then d.map fun e => if e.1 = k then (k, v) else e else d ++ [(k, v)]

/-- Remove a key. -/
def pop (d : OrderedDict κ ν) (k : κ) : OrderedDict κ ν := d.filter fun e => e.1 ≠ k

@[simp] theorem get_nil (k : κ) : get ([] : OrderedDict κ ν) k = none := rfl

theorem get_cons (e : κ × ν) (d : OrderedDict κ ν) (k : κ) :
    get (e :: d) k = if k = e.1 then some e.2 else get d k := by
  obtain ⟨k', v⟩ := e
  unfold get
  by_cases h : k = k'
  · simp [h]
  · have hbeq : (k == k') = false := by simpa using h
    simp [List.lookup_cons, hbeq, h]

/-- A value that is found is an entry. -/
theorem mem_of_get {d : OrderedDict κ ν} {k : κ} {v : ν} (h : d.get k = some v) : (k, v) ∈ d := by
  induction d with
  | nil => cases h
  | cons e d ih =>
    rw [get_cons] at h
    split_ifs at h with hk
    · obtain rfl := Option.some.inj h
      exact hk ▸ List.mem_cons_self
    · exact List.mem_cons_of_mem _ (ih h)

theorem get_append_singleton (d : OrderedDict κ ν) (e : κ × ν) (k : κ) :
    get (d ++ [e]) k = (get d k).or (if k = e.1 then some e.2 else none) := by
  induction d with
  | nil => rw [List.nil_append, get_cons, get_nil, Option.none_or]
  | cons f d ih =>
    rw [List.cons_append, get_cons, get_cons, ih]
    split <;> rfl

/-- Replacing the value of a key that exists. -/
private theorem get_map (d : OrderedDict κ ν) (k : κ) (v : ν) (k' : κ) :
    get (d.map fun e => if e.1 = k then (k, v) else e) k'
      = if k' = k then (get d k).map fun _ => v else get d k' := by
  induction d with
  | nil => simp
  | cons e d ih =>
    rw [List.map_cons, get_cons, get_cons, get_cons, ih]
    by_cases he : e.1 = k
    · by_cases hk : k' = k
      · simp [he, hk]
      · simp [he, hk]
    · by_cases hk : k' = k
      · subst hk
        have hne : ¬ k' = e.1 := fun h => he h.symm
        simp [he, hne]
      · simp [he, hk]

/-- **Lookup after setting.** -/
theorem get_set (d : OrderedDict κ ν) (k : κ) (v : ν) (k' : κ) :
    (d.set k v).get k' = if k' = k then some v else d.get k' := by
  unfold set
  by_cases hsome : (d.get k).isSome
  · obtain ⟨w, hw⟩ := Option.isSome_iff_exists.mp hsome
    rw [if_pos hsome, get_map, hw]
    rfl
  · have hnone : d.get k = none := Option.not_isSome_iff_eq_none.mp hsome
    rw [if_neg hsome, get_append_singleton]
    by_cases hk : k' = k
    · rw [if_pos hk, if_pos hk, hk, hnone, Option.none_or]
    · rw [if_neg hk, if_neg hk, Option.or_none]

/-- What is in a dictionary after setting a key. -/
theorem mem_set {d : OrderedDict κ ν} {k : κ} {v : ν} {e : κ × ν} (h : e ∈ d.set k v) :
    e ∈ d ∨ e = (k, v) := by
  unfold set at h
  split at h
  · obtain ⟨f, hf, rfl⟩ := List.mem_map.mp h
    split
    · exact .inr rfl
    · exact .inl hf
  · rcases List.mem_append.mp h with h | h
    · exact .inl h
    · exact .inr (List.mem_singleton.mp h)

/-- **Lookup in a part.** -/
theorem get_filter (d : OrderedDict κ ν) (p : κ → Bool) (k : κ) :
    get (d.filter fun e => p e.1) k = if p k then d.get k else none := by
  induction d with
  | nil => simp
  | cons e d ih =>
    rw [List.filter_cons, get_cons]
    by_cases hk : k = e.1
    · subst hk
      by_cases hp : p e.1 = true
      · rw [if_pos hp, if_pos hp, get_cons, if_pos rfl, if_pos rfl]
      · rw [if_neg hp, if_neg hp, ih, if_neg hp]
    · rw [if_neg hk, ← ih]
      split
      · rw [get_cons, if_neg hk]
      · rfl

/-- **Lookup after removing.** -/
theorem get_pop (d : OrderedDict κ ν) (k k' : κ) :
    (d.pop k).get k' = if k' = k then none else d.get k' := by
  unfold pop
  rw [get_filter d (fun j => decide (j ≠ k)) k']
  by_cases hk : k' = k <;> simp [hk]

/-- Setting a key, seen in a part. -/
theorem filter_set (d : OrderedDict κ ν) (p : κ → Bool) (k : κ) (v : ν) :
    (d.set k v).filter (fun e => p e.1)
      = if p k then set (d.filter fun e => p e.1) k v else d.filter fun e => p e.1 := by
  have hkey : ∀ e : κ × ν, (if e.1 = k then (k, v) else e).1 = e.1 := by
    intro e
    split
    · next h => exact h.symm
    · rfl
  unfold set
  by_cases hp : p k = true
  · rw [if_pos hp, get_filter, if_pos hp]
    split
    · simp only [List.filter_map, Function.comp_def, hkey]
    · rw [List.filter_append, List.filter_cons_of_pos (by simpa using hp), List.filter_nil]
  · rw [if_neg hp]
    split
    · rw [List.filter_map]
      simp only [Function.comp_def, hkey]
      -- the entry of the key is not in the part
      refine (List.map_congr_left fun e he => ?_).trans (List.map_id _)
      have hne : ¬ e.1 = k := fun h => hp (h ▸ (List.mem_filter.mp he).2)
      rw [if_neg hne]
      rfl
    · rw [List.filter_append, List.filter_cons_of_neg (by simpa using hp), List.filter_nil,
        List.append_nil]

/-- Removing a key, seen in a part. -/
theorem filter_pop (d : OrderedDict κ ν) (p : κ → Bool) (k : κ) :
    (d.pop k).filter (fun e => p e.1) = pop (d.filter fun e => p e.1) k := by
  unfold pop
  rw [List.filter_filter, List.filter_filter]
  apply List.filter_congr
  intro e _
  exact Bool.and_comm _ _

/-- Setting a key does not repeat it. -/
theorem nodup_set {d : OrderedDict κ ν} (h : (d.map Prod.fst).Nodup) (k : κ) (v : ν) :
    ((d.set k v).map Prod.fst).Nodup := by
  unfold set
  split
  · rw [List.map_map]
    have hkeys : d.map (Prod.fst ∘ fun e => if e.1 = k then (k, v) else e) = d.map Prod.fst := by
      apply List.map_congr_left
      intro e _
      show (if e.1 = k then (k, v) else e).1 = e.1
      split
      · next hk => exact hk.symm
      · rfl
    rwa [hkeys]
  · next hnone =>
    rw [List.map_append, List.nodup_append]
    refine ⟨h, List.nodup_singleton _, ?_⟩
    intro a ha b hb heq
    rw [List.map_singleton, List.mem_singleton] at hb
    obtain ⟨e, he, rfl⟩ := List.mem_map.mp ha
    exact hnone (List.lookup_isSome_iff.mpr ⟨e, he, by simp [heq, hb]⟩)

theorem nodup_pop {d : OrderedDict κ ν} (h : (d.map Prod.fst).Nodup) (k : κ) :
    ((d.pop k).map Prod.fst).Nodup := h.sublist (List.filter_sublist.map _)

/-- The entries of a key. -/
theorem filter_key {d : OrderedDict κ ν} (h : (d.map Prod.fst).Nodup) (k : κ) :
    d.filter (fun e => e.1 = k) = (d.get k).toList.map fun v => (k, v) := by
  induction d with
  | nil => rfl
  | cons e d ih =>
    rw [List.map_cons, List.nodup_cons] at h
    rw [get_cons, List.filter_cons]
    by_cases hk : e.1 = k
    · have hnone : d.filter (fun e => decide (e.1 = k)) = [] := by
        apply List.filter_eq_nil_iff.mpr
        intro f hf hfk
        exact h.1 (List.mem_map.mpr ⟨f, hf, (of_decide_eq_true hfk).trans hk.symm⟩)
      subst hk
      simp [hnone]
    · have hk' : ¬ k = e.1 := fun heq => hk heq.symm
      rw [if_neg (by simpa using hk), if_neg hk', ih h.2]

section Map

variable {μ : Type*} (g : ν → μ)

theorem get_map_value (d : OrderedDict κ ν) (k : κ) :
    get (d.map (Prod.map id g)) k = (d.get k).map g := by
  induction d with
  | nil => rfl
  | cons e d ih =>
    rw [List.map_cons, get_cons, get_cons, ih]
    show (if k = e.1 then some (g e.2) else _) = _
    split <;> rfl

/-- Lookup in a dictionary whose keys are renamed apart and whose values are rewritten. -/
theorem lookup_map_injective {κ' : Type*} [DecidableEq κ'] {f : κ → κ'} (hf : f.Injective)
    (d : OrderedDict κ ν) (k : κ) :
    (d.map (Prod.map f g)).lookup (f k) = (d.get k).map g := by
  induction d with
  | nil => rfl
  | cons e d ih =>
    show get (Prod.map f g e :: d.map (Prod.map f g)) (f k) = _
    rw [get_cons, get_cons]
    by_cases hk : k = e.1
    · subst hk
      simp
    · have hne : ¬ f k = f e.1 := fun h => hk (hf h)
      rw [Prod.map_fst, if_neg hne, if_neg hk]
      exact ih

/-- Rewriting the values of a dictionary after setting a key. -/
theorem map_set (d : OrderedDict κ ν) (k : κ) (v : ν) :
    (d.set k v).map (Prod.map id g) = set (d.map (Prod.map id g)) k (g v) := by
  unfold set
  rw [get_map_value, Option.isSome_map]
  split
  · rw [List.map_map, List.map_map]
    apply List.map_congr_left
    intro e _
    show Prod.map id g (if e.1 = k then (k, v) else e) = if e.1 = k then (k, g v) else (e.1, g e.2)
    split <;> rfl
  · simp

theorem map_pop (d : OrderedDict κ ν) (k : κ) :
    (d.pop k).map (Prod.map id g) = pop (d.map (Prod.map id g)) k := by
  unfold pop
  rw [List.filter_map]
  rfl

end Map

section GroupBy

variable {α ι : Type*} (key : α → κ)

/-- The items under their keys, in the order the keys come: a loop over a `defaultdict(list)`. -/
def groupBy (items : List α) : OrderedDict κ (List α) :=
  items.foldl (fun d a => d.set (key a) ((d.get (key a)).getD [] ++ [a])) []

theorem groupBy_append_singleton (l : List α) (a : α) :
    groupBy key (l ++ [a])
      = (groupBy key l).set (key a) (((groupBy key l).get (key a)).getD [] ++ [a]) := by
  unfold groupBy
  rw [List.foldl_append, List.foldl_cons, List.foldl_nil]

/-- **The group of a key** is the items of the key, when there are any. -/
theorem get_groupBy (l : List α) (k : κ) :
    (groupBy key l).get k
      = if l.filter (fun a => key a = k) = [] then none
        else some (l.filter fun a => key a = k) := by
  induction l using List.reverseRecOn with
  | nil => rfl
  | append_singleton l a ih =>
    rw [groupBy_append_singleton, get_set, List.filter_append, List.filter_singleton]
    by_cases hk : k = key a
    · subst hk
      rw [ih]
      by_cases hnil : l.filter (fun b => key b = key a) = []
      · simp [hnil]
      · simp [hnil]
    · have hk' : ¬ key a = k := fun h => hk h.symm
      simp [hk, hk', ih]

theorem getD_groupBy (l : List α) (k : κ) :
    ((groupBy key l).get k).getD [] = l.filter fun a => key a = k := by
  rw [get_groupBy]
  split
  · next h => rw [h]; rfl
  · rfl

theorem nodup_groupBy (l : List α) : ((groupBy key l).map Prod.fst).Nodup := by
  induction l using List.reverseRecOn with
  | nil => exact List.nodup_nil
  | append_singleton l a ih =>
    rw [groupBy_append_singleton]
    exact nodup_set ih _ _

/-- What is in a dictionary without repeated keys is found. -/
theorem get_of_mem {d : OrderedDict κ ν} (h : (d.map Prod.fst).Nodup) {k : κ} {v : ν}
    (hmem : (k, v) ∈ d) : d.get k = some v := by
  have hin : (k, v) ∈ d.filter fun e => e.1 = k := List.mem_filter.mpr ⟨hmem, by simp⟩
  rw [filter_key h k] at hin
  obtain ⟨w, hw, heq⟩ := List.mem_map.mp hin
  rw [Option.mem_toList] at hw
  rw [hw, (Prod.mk.inj heq).2]

/-- A look-up does not see the order of the entries. -/
theorem get_eq_of_perm {d d' : OrderedDict κ ν} (h : (d.map Prod.fst).Nodup) (hperm : d.Perm d')
    (k : κ) : d.get k = d'.get k := by
  have h' : (d'.map Prod.fst).Nodup := (hperm.map Prod.fst).nodup_iff.mp h
  ext v
  constructor
  · intro hget
    exact get_of_mem h' (hperm.mem_iff.mp (mem_of_get hget))
  · intro hget
    exact get_of_mem h (hperm.mem_iff.mpr (mem_of_get hget))

theorem mem_groupBy {l : List α} {k : κ} {group : List α} (h : (k, group) ∈ groupBy key l) :
    group ≠ [] ∧ group = l.filter fun a => key a = k := by
  have hget := get_of_mem (nodup_groupBy key l) h
  rw [get_groupBy] at hget
  split at hget
  · cases hget
  · next hne =>
    obtain rfl := Option.some.inj hget
    exact ⟨hne, rfl⟩

/-- Every item is in a group. -/
theorem exists_mem_groupBy {l : List α} {a : α} (h : a ∈ l) :
    (key a, l.filter fun b => key b = key a) ∈ groupBy key l := by
  have hne : l.filter (fun b => key b = key a) ≠ [] :=
    List.ne_nil_of_mem (List.mem_filter.mpr ⟨h, by simp⟩)
  apply mem_of_get
  rw [get_groupBy, if_neg hne]

/-- The items of one new key, `old` of which are in the dictionary already. -/
theorem foldl_group {d : OrderedDict κ (List α)} {k : κ} (hnone : d.get k = none) {old new : List α}
    (hnew : ∀ a ∈ new, key a = k) (hne : old ++ new ≠ []) :
    new.foldl (fun d a => d.set (key a) ((d.get (key a)).getD [] ++ [a]))
        (if old = [] then d else d ++ [(k, old)]) = d ++ [(k, old ++ new)] := by
  induction new generalizing old with
  | nil =>
    rw [List.append_nil] at hne ⊢
    rw [List.foldl_nil, if_neg hne]
  | cons a new ih =>
    obtain ⟨ha, hnew⟩ := List.forall_mem_cons.mp hnew
    have hstep : set (if old = [] then d else d ++ [(k, old)]) k
        ((get (if old = [] then d else d ++ [(k, old)]) k).getD [] ++ [a])
          = if old ++ [a] = [] then d else d ++ [(k, old ++ [a])] := by
      rw [if_neg (show ¬ old ++ [a] = [] by simp)]
      by_cases hold : old = []
      · simp [hold, set, hnone]
      · have hmap : d.map (fun e => if e.1 = k then (k, old ++ [a]) else e) = d := by
          refine (List.map_congr_left fun e he => ?_).trans (List.map_id _)
          have hk : e.1 ≠ k := by
            intro heq
            have hsome : (d.get k).isSome := List.lookup_isSome_iff.mpr ⟨e, he, by simp [heq]⟩
            rw [hnone] at hsome
            cases hsome
          rw [if_neg hk]
          rfl
        rw [if_neg hold, get_append_singleton, hnone]
        simp [set, get_append_singleton, hnone, hmap]
    rw [List.foldl_cons, ha, hstep, ih hnew (by simp), List.append_assoc]
    rfl

/-- Items that come group by group. -/
theorem groupBy_flatMap {is : List ι} {name : ι → κ} {group : ι → List α}
    (hnodup : (is.map name).Nodup) (hne : ∀ i ∈ is, group i ≠ [])
    (hkey : ∀ i ∈ is, ∀ a ∈ group i, key a = name i) :
    groupBy key (is.flatMap group) = is.map fun i => (name i, group i) := by
  induction is using List.reverseRecOn with
  | nil => rfl
  | append_singleton is i ih =>
    rw [List.map_append, List.nodup_append] at hnodup
    have hin : ∀ j ∈ is, j ∈ is ++ [i] := fun j hj => List.mem_append_left _ hj
    have hi : i ∈ is ++ [i] := List.mem_append_right _ (List.mem_singleton.mpr rfl)
    have hprev := ih hnodup.1 (fun j hj => hne j (hin j hj)) fun j hj => hkey j (hin j hj)
    have hnone : get (is.map fun j => (name j, group j)) (name i) = none := by
      apply Option.eq_none_iff_forall_ne_some.mpr
      intro v hv
      obtain ⟨j, hj, heq⟩ := List.mem_map.mp (mem_of_get hv)
      exact hnodup.2.2 (name j) (List.mem_map_of_mem hj) (name i) (by simp) (Prod.mk.inj heq).1
    have hgroup : [] ++ group i ≠ [] := hne i hi
    have hfold := foldl_group key hnone (hkey i hi) hgroup
    rw [if_pos rfl] at hfold
    unfold groupBy at hprev ⊢
    rw [List.flatMap_append, List.foldl_append, hprev, List.flatMap_singleton, hfold,
      List.map_append, List.nil_append]
    rfl

/-- Items with one key are one group. -/
theorem groupBy_of_forall_eq {l : List α} {k : κ} (hne : l ≠ []) (hkey : ∀ a ∈ l, key a = k) :
    groupBy key l = [(k, l)] := by
  have h := @groupBy_flatMap κ _ α Unit key [()] (fun _ => k) (fun _ => l) (List.nodup_singleton k)
    (fun _ _ => hne) fun _ _ => hkey
  rwa [List.flatMap_singleton] at h

end GroupBy

section Update

/-- `{k: v for … in …}`: the last entry of a key stands. -/
def update (d : OrderedDict κ ν) (entries : List (κ × ν)) : OrderedDict κ ν :=
  entries.foldl (fun d e => d.set e.1 e.2) d

theorem isSome_get_update (d : OrderedDict κ ν) (entries : List (κ × ν)) (k : κ) :
    ((update d entries).get k).isSome
      = (decide (k ∈ entries.map Prod.fst) || (d.get k).isSome) := by
  induction entries using List.reverseRecOn with
  | nil => simp [update]
  | append_singleton entries e ih =>
    unfold update at ih ⊢
    rw [List.foldl_append, List.foldl_cons, List.foldl_nil, get_set]
    by_cases hk : k = e.1
    · simp [hk]
    · rw [if_neg hk, ih, List.map_append, List.map_singleton]
      simp only [List.mem_append, List.mem_singleton, hk, or_false]

/-- **Lookup after an update** whose entries give every key one value. -/
theorem get_update {value : κ → ν} {entries : List (κ × ν)} (hvalue : ∀ e ∈ entries, e.2 = value e.1)
    (d : OrderedDict κ ν) (k : κ) :
    (update d entries).get k = if k ∈ entries.map Prod.fst then some (value k) else d.get k := by
  induction entries using List.reverseRecOn with
  | nil => simp [update]
  | append_singleton entries e ih =>
    have hprev := ih fun f hf => hvalue f (List.mem_append_left _ hf)
    have he : e.2 = value e.1 := hvalue e (List.mem_append_right _ (List.mem_singleton.mpr rfl))
    unfold update at hprev ⊢
    rw [List.foldl_append, List.foldl_cons, List.foldl_nil, get_set, hprev, he]
    by_cases hk : k = e.1
    · simp [hk]
    · rw [if_neg hk, List.map_append, List.map_singleton]
      simp only [List.mem_append, List.mem_singleton, hk, or_false]

/-- An entry is found after an update whose keys differ. -/
theorem get_update_of_mem {entries : List (κ × ν)} (hnodup : (entries.map Prod.fst).Nodup)
    (d : OrderedDict κ ν) {k : κ} {v : ν} (hmem : (k, v) ∈ entries) :
    (update d entries).get k = some v := by
  have hvalue : ∀ e ∈ entries, e.2 = ((get entries e.1).getD v) := by
    intro e he
    rw [get_of_mem hnodup he]
    rfl
  have hget := @get_update κ ν _ (fun k => (get entries k).getD v) entries hvalue d k
  rw [hget, if_pos (List.mem_map.mpr ⟨(k, v), hmem, rfl⟩), get_of_mem hnodup hmem]
  rfl

end Update

section Combine

variable {μ : Type*} (f : ν → μ → ν) (zero : ν)

/-- `for k, v in …: d[k] = f(d.get(k, zero), v)`. -/
def combine (d : OrderedDict κ ν) (entries : List (κ × μ)) : OrderedDict κ ν :=
  entries.foldl (fun d e => d.set e.1 (f ((d.get e.1).getD zero) e.2)) d

/-- **Lookup after a change** by entries with different keys. -/
theorem get_combine {entries : OrderedDict κ μ} (hnodup : (entries.map Prod.fst).Nodup)
    (d : OrderedDict κ ν) (k : κ) : (combine f zero d entries).get k
      = match entries.get k with
        | none => d.get k
        | some v => some (f ((d.get k).getD zero) v) := by
  induction entries generalizing d with
  | nil => rfl
  | cons e entries ih =>
    obtain ⟨hfresh, hnodup⟩ := List.nodup_cons.mp hnodup
    show (combine f zero (d.set e.1 _) entries).get k = _
    rw [ih hnodup, get_cons, get_set]
    by_cases hk : k = e.1
    · have hnone : get entries k = none := by
        apply Option.eq_none_iff_forall_ne_some.mpr
        intro v hv
        exact hfresh (hk ▸ List.mem_map.mpr ⟨_, mem_of_get hv, rfl⟩)
      rw [hnone, if_pos hk, if_pos hk, hk]
    · rw [if_neg hk, if_neg hk]

theorem nodup_combine {d : OrderedDict κ ν} (h : (d.map Prod.fst).Nodup) (entries : List (κ × μ)) :
    ((combine f zero d entries).map Prod.fst).Nodup := by
  induction entries generalizing d with
  | nil => exact h
  | cons e entries ih => exact ih (nodup_set h _ _)

end Combine

end OrderedDict

end Oecophylla.Lib
