import Mathlib.Data.List.Dedup
import Mathlib.Data.List.Perm.Basic

namespace Oecophylla.Lib

/-!
# Library — grouping a list by a key

`groupsBy key l` has one group for each key, in the order in which the keys first appear, with the
items of the key in the order of the list.

* `flatten_groupsBy_perm` — the groups together are the list;
* `mem_group` — a group has the items of one key, all of them;
* `pairwise_groupsBy` — different groups have different keys.
-/

variable {α κ : Type*} [DecidableEq κ] {key : α → κ} {l : List α}

/-- The items of each key. -/
def groupsBy (key : α → κ) (l : List α) : List (List α) :=
  (l.map key).eraseDups.map fun k => l.filter fun a => key a = k

theorem nodup_eraseDups (ks : List κ) : ks.eraseDups.Nodup := by
  induction hlength : ks.length using Nat.strongRecOn generalizing ks with
  | ind n ih =>
    cases ks with
    | nil => exact List.nodup_nil
    | cons k ks =>
      rw [List.eraseDups_cons]
      refine List.nodup_cons.mpr ⟨?_, ih _ ?_ _ rfl⟩
      · rw [List.mem_eraseDups, List.mem_filter]
        rintro ⟨-, h⟩
        simp at h
      · rw [← hlength, List.length_cons]
        exact Nat.lt_succ_of_le (List.length_filter_le _ _)

/-- The fibers over distinct keys that cover a list. -/
private theorem flatten_fibers_perm {ks : List κ} (hnodup : ks.Nodup)
    (hcover : ∀ a ∈ l, key a ∈ ks) :
    ((ks.map fun k => l.filter fun a => key a = k).flatten).Perm l := by
  induction ks generalizing l with
  | nil =>
    obtain rfl : l = [] := List.eq_nil_iff_forall_not_mem.mpr fun a ha => by simpa using hcover a ha
    exact .refl _
  | cons k ks ih =>
    obtain ⟨hk, hks⟩ := List.nodup_cons.mp hnodup
    -- the items of the other keys
    have hrest : ∀ a ∈ l.filter (fun a => !decide (key a = k)), key a ∈ ks := by
      intro a ha
      obtain ⟨hl, hne⟩ := List.mem_filter.mp ha
      exact (List.mem_cons.mp (hcover a hl)).resolve_left (by simpa using hne)
    have hsame : (ks.map fun k' => (l.filter fun a => !decide (key a = k)).filter
        fun a => key a = k') = ks.map fun k' => l.filter fun a => key a = k' := by
      apply List.map_congr_left
      intro k' hk'
      rw [List.filter_filter]
      apply List.filter_congr
      intro a _
      have hne : k' ≠ k := fun heq => hk (heq ▸ hk')
      by_cases h : key a = k'
      · simp [h, hne]
      · simp [h]
    rw [List.map_cons, List.flatten_cons, ← hsame]
    exact ((ih hks hrest).append_left _).trans (List.filter_append_perm _ l)

/-- **The groups together are the list.** -/
theorem flatten_groupsBy_perm (key : α → κ) (l : List α) : (groupsBy key l).flatten.Perm l := by
  apply flatten_fibers_perm (nodup_eraseDups _)
  intro a ha
  rw [List.mem_eraseDups]
  exact List.mem_map_of_mem ha

/-- A group has the items of one key. -/
theorem mem_group {group : List α} (h : group ∈ groupsBy key l) :
    ∃ k, ∀ a, a ∈ group ↔ a ∈ l ∧ key a = k := by
  obtain ⟨k, -, rfl⟩ := List.mem_map.mp h
  refine ⟨k, fun a => ?_⟩
  rw [List.mem_filter, decide_eq_true_iff]

/-- Different groups have different keys. -/
theorem pairwise_groupsBy :
    (groupsBy key l).Pairwise fun g h => ∀ a ∈ g, ∀ b ∈ h, key a ≠ key b := by
  unfold groupsBy
  rw [List.pairwise_map]
  refine (nodup_eraseDups _).imp fun {k k'} hne a ha b hb => ?_
  have hka := (List.mem_filter.mp ha).2
  have hkb := (List.mem_filter.mp hb).2
  rw [decide_eq_true_iff] at hka hkb
  rwa [hka, hkb]

/-- No group is empty. -/
theorem ne_nil_of_mem_groupsBy {group : List α} (h : group ∈ groupsBy key l) : group ≠ [] := by
  obtain ⟨k, hk, rfl⟩ := List.mem_map.mp h
  rw [List.mem_eraseDups] at hk
  obtain ⟨a, ha, rfl⟩ := List.mem_map.mp hk
  exact List.ne_nil_of_mem (List.mem_filter.mpr ⟨ha, by simp⟩)

end Oecophylla.Lib
