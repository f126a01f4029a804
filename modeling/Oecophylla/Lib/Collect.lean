import Mathlib.Data.List.Find
import Mathlib.Data.List.Induction
import Mathlib.Data.List.Nodup

namespace Oecophylla.Lib

/-!
# Library — collecting keyed entries, first one wins, conflicts rejected

A list of entries is read from left to right.  An entry without a key is kept apart; an
entry with a new key is kept; an entry whose key was seen before is counted as a duplicate
when it is the *same* as the first entry of the key, and otherwise the list is rejected.

* `collect` — the loop itself;
* `collected` — what the loop builds when nothing conflicts; it does not look at `same`;
* `Conflicting` — some entry differs from the first entry of its key;
* `collect_eq_ok_iff` — the loop returns `collected`, or rejects, exactly as `Conflicting` says;
* `map_unique_perm` — which entries are kept depends only on the set of them.

Two programs that differ only in when they call two entries the same therefore build the
same collection whenever both accept.
-/

variable {α κ : Type*} [DecidableEq κ]

/-- What the loop has read so far. -/
structure Collected (α : Type*) where
  /-- The first entry of each key, in the order they came. -/
  unique : List α
  /-- The entries without a key. -/
  anonymous : List α
  /-- How many entries repeated an earlier one. -/
  duplicates : Nat
  deriving Repr, DecidableEq

namespace Collected

/-- Nothing read yet. -/
def empty : Collected α := ⟨[], [], 0⟩

/-- The entries that were kept. -/
def accepted (c : Collected α) : List α := c.unique ++ c.anonymous

/-- The kept entry of a key. -/
def find (key : α → Option κ) (c : Collected α) (k : κ) : Option α :=
  c.unique.find? fun f => key f = some k

end Collected

variable (key : α → Option κ) (same : α → α → Bool)

/-- One round of the loop; the error names the key of the conflict. -/
def collectStep (c : Collected α) (e : α) : Except κ (Collected α) :=
  match key e with
  | none => .ok { c with anonymous := c.anonymous ++ [e] }
  | some k =>
    match c.find key k with
    | none => .ok { c with unique := c.unique ++ [e] }
    | some f => if same f e then .ok { c with duplicates := c.duplicates + 1 } else .error k

/-- The whole loop. -/
def collect (l : List α) : Except κ (Collected α) :=
  l.foldlM (collectStep key same) .empty

/-- One round when nothing conflicts. -/
def collectedStep (c : Collected α) (e : α) : Collected α :=
  match key e with
  | none => { c with anonymous := c.anonymous ++ [e] }
  | some k =>
    match c.find key k with
    | none => { c with unique := c.unique ++ [e] }
    | some _ => { c with duplicates := c.duplicates + 1 }

/-- What the loop builds when nothing conflicts. -/
def collected (l : List α) : Collected α := l.foldl (collectedStep key) .empty

/-- The first entry of the list with the key of `e`. -/
def firstOf (l : List α) (e : α) : Option α :=
  (key e).bind ((collected key l).find key)

/-- Some entry differs from the first entry of its key. -/
def Conflicting (l : List α) : Prop :=
  ∃ e ∈ l, ∃ f ∈ firstOf key l e, same f e = false

instance (l : List α) : Decidable (Conflicting key same l) :=
  inferInstanceAs (Decidable (∃ e ∈ l, ∃ f ∈ firstOf key l e, same f e = false))

variable {key same}

@[simp] theorem collected_nil : collected key ([] : List α) = .empty := rfl

theorem collected_append_singleton (l : List α) (e : α) :
    collected key (l ++ [e]) = collectedStep key (collected key l) e := by
  simp [collected]

theorem collect_append_singleton (l : List α) (e : α) :
    collect key same (l ++ [e]) = (collect key same l).bind fun c => collectStep key same c e := by
  simp only [collect, List.foldlM_append, List.foldlM_cons, List.foldlM_nil]
  cases List.foldlM (collectStep key same) Collected.empty l with
  | error k => rfl
  | ok c => cases h : collectStep key same c e <;> simp [bind, Except.bind, pure, Except.pure, h]

theorem find_eq_none_iff {c : Collected α} {k : κ} :
    c.find key k = none ↔ ∀ f ∈ c.unique, key f ≠ some k := by
  simp [Collected.find]

theorem find_eq_some {c : Collected α} {k : κ} {f : α} (h : c.find key k = some f) :
    f ∈ c.unique ∧ key f = some k :=
  ⟨List.mem_of_find?_eq_some h, by simpa using List.find?_some h⟩

theorem collectedStep_of_none {c : Collected α} {e : α} (hk : key e = none) :
    collectedStep key c e = { c with anonymous := c.anonymous ++ [e] } := by
  simp only [collectedStep, hk]

theorem collectedStep_of_new {c : Collected α} {e : α} {k : κ} (hk : key e = some k)
    (hfind : c.find key k = none) :
    collectedStep key c e = { c with unique := c.unique ++ [e] } := by
  simp only [collectedStep, hk, hfind]

theorem collectedStep_of_old {c : Collected α} {e f : α} {k : κ} (hk : key e = some k)
    (hfind : c.find key k = some f) :
    collectedStep key c e = { c with duplicates := c.duplicates + 1 } := by
  simp only [collectedStep, hk, hfind]

/-- One round keeps the first entries, and adds its entry only when the key is new. -/
theorem collectedStep_unique (key : α → Option κ) (c : Collected α) (e : α) :
    (collectedStep key c e).unique = c.unique ∨
      ∃ k, key e = some k ∧ c.find key k = none ∧
        (collectedStep key c e).unique = c.unique ++ [e] := by
  cases hk : key e with
  | none => exact .inl (by rw [collectedStep_of_none hk])
  | some k =>
    cases hfind : c.find key k with
    | none => exact .inr ⟨k, rfl, hfind, by rw [collectedStep_of_new hk hfind]⟩
    | some f => exact .inl (by rw [collectedStep_of_old hk hfind])

/-- Every kept keyed entry has a key, and comes from the list. -/
theorem mem_collected_unique {l : List α} {f : α} (hf : f ∈ (collected key l).unique) :
    f ∈ l ∧ (key f).isSome := by
  induction l using List.reverseRecOn with
  | nil => simp [Collected.empty] at hf
  | append_singleton l e ih =>
    rw [collected_append_singleton] at hf
    rcases collectedStep_unique key (collected key l) e with heq | ⟨k, hk, -, heq⟩
    · rw [heq] at hf
      exact ⟨by simp [(ih hf).1], (ih hf).2⟩
    · rw [heq, List.mem_append, List.mem_singleton] at hf
      rcases hf with hf | rfl
      · exact ⟨by simp [(ih hf).1], (ih hf).2⟩
      · exact ⟨by simp, by simp [hk]⟩

/-- The first entries have distinct keys. -/
theorem nodup_collected_keys (l : List α) : ((collected key l).unique.map key).Nodup := by
  induction l using List.reverseRecOn with
  | nil => simp [Collected.empty]
  | append_singleton l e ih =>
    rw [collected_append_singleton]
    rcases collectedStep_unique key (collected key l) e with heq | ⟨k, hk, hnew, heq⟩
    · rwa [heq]
    · rw [heq, List.map_append]
      refine List.nodup_append.mpr ⟨ih, List.nodup_singleton _, ?_⟩
      intro k₁ hk₁ k₂ hk₂
      obtain ⟨f, hf, rfl⟩ := List.mem_map.mp hk₁
      rw [List.map_singleton, List.mem_singleton] at hk₂
      rw [hk₂, hk]
      exact find_eq_none_iff.mp hnew f hf

/-- Reading on does not change the first entry of a key. -/
theorem find_append_singleton {l : List α} {e f : α} {k : κ}
    (h : (collected key l).find key k = some f) :
    (collected key (l ++ [e])).find key k = some f := by
  rw [Collected.find] at h
  rw [collected_append_singleton, Collected.find]
  rcases collectedStep_unique key (collected key l) e with heq | ⟨k', -, -, heq⟩
  · rwa [heq]
  · rw [heq, List.find?_append, h, Option.some_or]

/-- Every keyed entry of the list has a first entry. -/
theorem exists_find_of_mem {l : List α} {e : α} (he : e ∈ l) {k : κ} (hk : key e = some k) :
    ∃ f, (collected key l).find key k = some f := by
  induction l using List.reverseRecOn with
  | nil => simp at he
  | append_singleton l a ih =>
    rcases List.mem_append.mp he with hel | hea
    · obtain ⟨f, hf⟩ := ih hel
      exact ⟨f, find_append_singleton hf⟩
    · rw [List.mem_singleton] at hea
      subst hea
      cases hfind : (collected key l).find key k with
      | some g => exact ⟨g, find_append_singleton hfind⟩
      | none =>
        refine ⟨e, ?_⟩
        rw [collected_append_singleton, collectedStep_of_new hk hfind]
        rw [Collected.find] at hfind ⊢
        simp only [List.find?_append, hfind, Option.none_or]
        simp [hk]

/-- A list of entries that all have distinct keys is collected as it is. -/
theorem collected_of_nodup {l : List α} (hkey : ∀ e ∈ l, (key e).isSome)
    (hdistinct : (l.map key).Nodup) : collected key l = ⟨l, [], 0⟩ := by
  induction l using List.reverseRecOn with
  | nil => rfl
  | append_singleton l e ih =>
    rw [List.map_append] at hdistinct
    obtain ⟨hl, -, hle⟩ := List.nodup_append.mp hdistinct
    obtain ⟨k, hk⟩ := Option.isSome_iff_exists.mp (hkey e (by simp))
    have ih' := ih (fun a ha => hkey a (by simp [ha])) hl
    have hnew : (collected key l).find key k = none := by
      rw [find_eq_none_iff, ih']
      exact fun f hf => hk ▸ hle _ (List.mem_map_of_mem hf) _ (by simp)
    rw [collected_append_singleton, collectedStep_of_new hk hnew, ih']

/-- Entries with distinct keys are never compared. -/
theorem collect_of_nodup {l : List α} (hkey : ∀ e ∈ l, (key e).isSome)
    (hdistinct : (l.map key).Nodup) : collect key same l = .ok ⟨l, [], 0⟩ := by
  induction l using List.reverseRecOn with
  | nil => rfl
  | append_singleton l e ih =>
    rw [List.map_append] at hdistinct
    obtain ⟨hl, -, hle⟩ := List.nodup_append.mp hdistinct
    obtain ⟨k, hk⟩ := Option.isSome_iff_exists.mp (hkey e (by simp))
    have ih' := ih (fun a ha => hkey a (by simp [ha])) hl
    have hnew : (⟨l, [], 0⟩ : Collected α).find key k = none := by
      rw [find_eq_none_iff]
      exact fun f hf => hk ▸ hle _ (List.mem_map_of_mem hf) _ (by simp)
    rw [collect_append_singleton, ih']
    show collectStep key same ⟨l, [], 0⟩ e = _
    simp only [collectStep, hk, hnew]

/-- When every entry has a key nothing is kept apart. -/
theorem collected_anonymous {l : List α} (hkey : ∀ e ∈ l, (key e).isSome) :
    (collected key l).anonymous = [] := by
  induction l using List.reverseRecOn with
  | nil => rfl
  | append_singleton l e ih =>
    have ih' := ih fun a ha => hkey a (by simp [ha])
    obtain ⟨k, hk⟩ := Option.isSome_iff_exists.mp (hkey e (by simp))
    rw [collected_append_singleton]
    cases hfind : (collected key l).find key k with
    | none => rw [collectedStep_of_new hk hfind]; exact ih'
    | some f => rw [collectedStep_of_old hk hfind]; exact ih'

/-- Reading one more entry: either the old ones conflict, or the new one does. -/
private theorem conflicting_append_singleton (hrefl : ∀ e, same e e = true) (l : List α) (e : α) :
    Conflicting key same (l ++ [e]) ↔
      Conflicting key same l ∨ ∃ f ∈ firstOf key l e, same f e = false := by
  have hmono : ∀ a f, f ∈ firstOf key l a → f ∈ firstOf key (l ++ [e]) a := by
    intro a f hf
    obtain ⟨k, hk, hfind⟩ := Option.bind_eq_some_iff.mp hf
    exact Option.bind_eq_some_iff.mpr ⟨k, hk, find_append_singleton hfind⟩
  constructor
  · rintro ⟨a, ha, f, hf, hsame⟩
    obtain ⟨k, hk, hfind⟩ := Option.bind_eq_some_iff.mp hf
    cases hold : (collected key l).find key k with
    | some g =>
      -- the first entry of the key was read before `e`
      obtain rfl : g = f := by simpa [find_append_singleton hold] using hfind
      have hmem : g ∈ firstOf key l a := Option.bind_eq_some_iff.mpr ⟨k, hk, hold⟩
      rcases List.mem_append.mp ha with hal | hae
      · exact .inl ⟨a, hal, g, hmem, hsame⟩
      · rw [List.mem_singleton] at hae
        exact .inr ⟨g, hae ▸ hmem, hae ▸ hsame⟩
    | none =>
      -- then `e` itself is the first entry of its key, and is the same as itself
      have hae : a = e := by
        rcases List.mem_append.mp ha with hal | hae
        · obtain ⟨g, hg⟩ := exists_find_of_mem hal hk
          simp [hold] at hg
        · simpa using hae
      subst hae
      have hfa : f = a := by
        rw [collected_append_singleton, collectedStep_of_new hk hold] at hfind
        rw [Collected.find] at hold hfind
        simp only [List.find?_append, hold, Option.none_or] at hfind
        simpa [hk, eq_comm] using hfind
      simp [hfa, hrefl] at hsame
  · rintro (⟨a, ha, f, hf, hsame⟩ | ⟨f, hf, hsame⟩)
    · exact ⟨a, by simp [ha], f, hmono a f hf, hsame⟩
    · exact ⟨e, by simp, f, hmono e f hf, hsame⟩

/-- **What the loop returns.**  It builds `collected`, unless some entry differs from the
    first entry of its key. -/
theorem collect_eq_ok_iff (hrefl : ∀ e, same e e = true) {l : List α} {c : Collected α} :
    collect key same l = .ok c ↔ ¬ Conflicting key same l ∧ c = collected key l := by
  induction l using List.reverseRecOn generalizing c with
  | nil =>
    constructor
    · intro h
      exact ⟨by simp [Conflicting], by simpa [collect, pure, Except.pure] using h.symm⟩
    · rintro ⟨-, rfl⟩
      rfl
  | append_singleton l e ih =>
    rw [collect_append_singleton, conflicting_append_singleton hrefl, collected_append_singleton]
    cases hl : collect key same l with
    | error k =>
      have : Conflicting key same l := by
        by_contra hno
        simpa [hl] using (ih (c := collected key l)).mpr ⟨hno, rfl⟩
      simp [Except.bind, this]
    | ok d =>
      obtain ⟨hno, rfl⟩ := ih.mp hl
      simp only [Except.bind, hno, false_or, collectStep, firstOf]
      cases hk : key e with
      | none => rw [collectedStep_of_none hk]; simpa using eq_comm
      | some k =>
        cases hfind : (collected key l).find key k with
        | none => rw [collectedStep_of_new hk hfind]; simpa [hfind] using eq_comm
        | some f =>
          rw [collectedStep_of_old hk hfind]
          cases hs : same f e with
          | true => simpa [hfind, hs] using eq_comm
          | false => simp [hfind, hs]

theorem collect_isOk_iff (hrefl : ∀ e, same e e = true) {l : List α} :
    (∃ c, collect key same l = .ok c) ↔ ¬ Conflicting key same l := by
  simp [collect_eq_ok_iff hrefl]

/-! ### Other keys, other entries -/

theorem Collected.find_congr {key' : α → Option κ} {c : Collected α}
    (h : ∀ f ∈ c.unique, key f = key' f) (k : κ) : c.find key k = c.find key' k :=
  List.find?_congr fun f hf => by rw [h f hf]

/-- Only the keys of the entries matter. -/
theorem collected_congr {key' : α → Option κ} {l : List α} (h : ∀ e ∈ l, key e = key' e) :
    collected key l = collected key' l := by
  induction l using List.reverseRecOn with
  | nil => rfl
  | append_singleton l e ih =>
    have ih' := ih fun a ha => h a (by simp [ha])
    have hfind := (collected key' l).find_congr fun f hf =>
      h f (by simp [(mem_collected_unique hf).1])
    rw [collected_append_singleton, collected_append_singleton, ih']
    unfold collectedStep
    rw [h e (by simp)]
    simp only [hfind]

section Map

variable {β : Type*} (g : β → α)

/-- Rewrite every kept entry. -/
def Collected.map (c : Collected β) : Collected α :=
  ⟨c.unique.map g, c.anonymous.map g, c.duplicates⟩

theorem Collected.find_map (c : Collected β) (k : κ) :
    (c.map g).find key k = (c.find (fun b => key (g b)) k).map g := by
  unfold Collected.find Collected.map
  exact List.find?_map

theorem collected_map (l : List β) :
    collected key (l.map g) = (collected (fun b => key (g b)) l).map g := by
  induction l using List.reverseRecOn with
  | nil => rfl
  | append_singleton l e ih =>
    rw [List.map_append, List.map_singleton, collected_append_singleton,
      collected_append_singleton, ih]
    cases hk : key (g e) with
    | none => simp [collectedStep, hk, Collected.map]
    | some k =>
      simp only [collectedStep, hk, Collected.find_map]
      cases (collected (fun b => key (g b)) l).find (fun b => key (g b)) k <;>
        simp [Collected.map]

theorem conflicting_map (l : List β) :
    Conflicting key same (l.map g)
      ↔ Conflicting (fun b => key (g b)) (fun a b => same (g a) (g b)) l := by
  have hfirst : ∀ e, firstOf key (l.map g) (g e) = (firstOf (fun b => key (g b)) l e).map g := by
    intro e
    unfold firstOf
    rw [collected_map]
    cases hk : key (g e) with
    | none => simp [hk]
    | some k => simpa [hk] using Collected.find_map g _ k
  unfold Conflicting
  simp [hfirst]

end Map

theorem conflicting_congr {key' : α → Option κ} {l : List α} (h : ∀ e ∈ l, key e = key' e) :
    Conflicting key same l ↔ Conflicting key' same l := by
  have hfirst : ∀ e ∈ l, firstOf key l e = firstOf key' l e := by
    intro e he
    unfold firstOf
    rw [h e he, collected_congr h]
    cases key' e with
    | none => rfl
    | some k => exact Collected.find_congr (fun f hf => h f (mem_collected_unique hf).1) k
  unfold Conflicting
  constructor
  · rintro ⟨e, he, f, hf, hs⟩
    exact ⟨e, he, f, hfirst e he ▸ hf, hs⟩
  · rintro ⟨e, he, f, hf, hs⟩
    exact ⟨e, he, f, (hfirst e he).symm ▸ hf, hs⟩

/-- Entries with distinct keys do not conflict. -/
theorem not_conflicting_of_nodup (hrefl : ∀ e, same e e = true) {l : List α}
    (hkey : ∀ e ∈ l, (key e).isSome) (hdistinct : (l.map key).Nodup) :
    ¬ Conflicting key same l := by
  rintro ⟨e, he, f, hf, hsame⟩
  obtain ⟨k, hk, hfind⟩ := Option.bind_eq_some_iff.mp hf
  obtain ⟨hmem, hkf⟩ := find_eq_some hfind
  rw [collected_of_nodup hkey hdistinct] at hmem
  have hfe : f = e := List.inj_on_of_nodup_map hdistinct hmem he (hkf.trans hk.symm)
  rw [hfe, hrefl] at hsame
  simp at hsame

/-! ### Lists with the same entries -/

/-- Every entry is kept, kept apart or counted. -/
theorem length_collected (key : α → Option κ) (l : List α) :
    (collected key l).accepted.length + (collected key l).duplicates = l.length := by
  induction l using List.reverseRecOn with
  | nil => rfl
  | append_singleton l e ih =>
    unfold Collected.accepted at ih ⊢
    rw [collected_append_singleton]
    cases hk : key e with
    | none =>
      rw [collectedStep_of_none hk]
      simp only [List.length_append, List.length_singleton] at ih ⊢
      omega
    | some k =>
      cases hfind : (collected key l).find key k with
      | none =>
        rw [collectedStep_of_new hk hfind]
        simp only [List.length_append, List.length_singleton] at ih ⊢
        omega
      | some f =>
        rw [collectedStep_of_old hk hfind]
        simp only [List.length_append, List.length_singleton] at ih ⊢
        omega

/-- When entries are compared by an image, two of them conflict wherever they stand. -/
theorem conflicting_iff_exists {β : Type*} [DecidableEq β] {image : α → β} {l : List α} :
    Conflicting key (fun e f => image e == image f) l
      ↔ ∃ e ∈ l, ∃ f ∈ l, (key e).isSome ∧ key e = key f ∧ image e ≠ image f := by
  constructor
  · rintro ⟨e, he, f, hf, hsame⟩
    obtain ⟨k, hk, hfind⟩ := Option.bind_eq_some_iff.mp hf
    obtain ⟨hmem, hkf⟩ := find_eq_some hfind
    exact ⟨e, he, f, (mem_collected_unique hmem).1, by rw [hk]; rfl, hk.trans hkf.symm,
      fun h => by simp [h] at hsame⟩
  · rintro ⟨e, he, f, hf, hsome, hkey, hne⟩
    obtain ⟨k, hk⟩ := Option.isSome_iff_exists.mp hsome
    obtain ⟨g, hg⟩ := exists_find_of_mem he hk
    have hge : g ∈ firstOf key l e := Option.bind_eq_some_iff.mpr ⟨k, hk, hg⟩
    have hgf : g ∈ firstOf key l f := Option.bind_eq_some_iff.mpr ⟨k, hkey ▸ hk, hg⟩
    -- the first entry of the key differs from one of the two
    by_cases hsame : image g = image e
    · exact ⟨f, hf, g, hgf, by simpa using fun h => hne (hsame.symm.trans h)⟩
    · exact ⟨e, he, g, hge, by simpa using hsame⟩

section Images

variable {β : Type*} {g : α → β}

/-- Where the entries of one key have one image, the kept entries have the images of all. -/
theorem mem_map_unique_iff {l : List α} (hkey : ∀ e ∈ l, (key e).isSome)
    (himage : ∀ e ∈ l, ∀ f ∈ l, key e = key f → g e = g f) {b : β} :
    b ∈ (collected key l).unique.map g ↔ b ∈ l.map g := by
  rw [List.mem_map, List.mem_map]
  constructor
  · rintro ⟨e, he, rfl⟩
    exact ⟨e, (mem_collected_unique he).1, rfl⟩
  · rintro ⟨e, he, rfl⟩
    obtain ⟨k, hk⟩ := Option.isSome_iff_exists.mp (hkey e he)
    obtain ⟨f, hf⟩ := exists_find_of_mem he hk
    obtain ⟨hmem, hkf⟩ := find_eq_some hf
    exact ⟨f, hmem, himage f (mem_collected_unique hmem).1 e he (hkf.trans hk.symm)⟩

/-- Where an image tells the key, the images of the kept entries are distinct. -/
theorem nodup_map_unique {l : List α} (hinj : ∀ e ∈ l, ∀ f ∈ l, g e = g f → key e = key f) :
    ((collected key l).unique.map g).Nodup := by
  have hkeys : ((collected key l).unique.map key).Nodup := nodup_collected_keys l
  rw [List.Nodup, List.pairwise_map] at hkeys ⊢
  exact hkeys.imp_of_mem fun he hf hne heq =>
    hne (hinj _ (mem_collected_unique he).1 _ (mem_collected_unique hf).1 heq)

/-- **Only the set of the images matters.**  Two lists whose entries have the same images keep
    the same images, in some order. -/
theorem map_unique_perm {l l' : List α} (hkey : ∀ e ∈ l, (key e).isSome)
    (hkey' : ∀ e ∈ l', (key e).isSome)
    (himage : ∀ e ∈ l, ∀ f ∈ l, g e = g f ↔ key e = key f)
    (himage' : ∀ e ∈ l', ∀ f ∈ l', g e = g f ↔ key e = key f)
    (hmem : ∀ b, b ∈ l.map g ↔ b ∈ l'.map g) :
    ((collected key l).unique.map g).Perm ((collected key l').unique.map g) := by
  apply (List.perm_ext_iff_of_nodup _ _).mpr
  · intro b
    rw [mem_map_unique_iff hkey fun e he f hf => (himage e he f hf).mpr,
      mem_map_unique_iff hkey' fun e he f hf => (himage' e he f hf).mpr, hmem]
  · exact nodup_map_unique fun e he f hf => (himage e he f hf).mp
  · exact nodup_map_unique fun e he f hf => (himage' e he f hf).mp

end Images

end Oecophylla.Lib
