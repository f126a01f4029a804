import Oecophylla.Ingestion.Conflicts
import Mathlib.Data.List.Dedup

namespace Oecophylla.Ingestion

/-!
# Accounting for the items of a request

An item can be dropped when it is read, as a repetition within the request, for its post, for its
impression, and as a repetition of a stored event.

* `perm_map_errorsOf_oks` — reading loses nothing;
* `nodup_index_errors` — no item is reported twice;
* `length_items` — every item is accepted, counted as a duplicate or rejected;
* `ingestBehaviorEvents_accounting` — the counters and the error list of a response.
-/

variable {cfg : Config} {pkg : Packages} {db db' : Database} {req : Request}
  {response : BehaviorBatchResponse}

/-! ### Reading -/

/-- Every outcome is an error or a success. -/
theorem perm_map_errorsOf_oks {ε α κ : Type} (f : ε → κ) (g : α → κ) (l : List (Except ε α)) :
    ((errorsOf l).map f ++ (oks l).map g).Perm
      (l.map fun
        | .error e => f e
        | .ok a => g a) := by
  induction l with
  | nil => exact .refl _
  | cons x l ih =>
    cases x with
    | error e => exact ih.cons (f e)
    | ok a =>
      show ((errorsOf l).map f ++ g a :: (oks l).map g).Perm _
      exact List.perm_middle.trans (ih.cons (g a))

/-- The positions of the unreadable items and of the read ones are all of them. -/
theorem perm_index_readItems :
    ((errorsOf (readItems cfg pkg req.now req.items)).map BehaviorEventError.index
        ++ (req.parsed cfg pkg).map ValidatedBehaviorEvent.index).Perm
      (List.range req.items.length) := by
  refine (perm_map_errorsOf_oks BehaviorEventError.index ValidatedBehaviorEvent.index _).trans ?_
  -- an item keeps its position, whether it is read or refused
  rw [List.range_eq_range', ← List.zipIdx_map_snd 0 req.items]
  unfold readItems
  rw [List.map_map]
  apply List.Perm.of_eq
  apply List.map_congr_left
  intro p _
  rw [Function.comp_apply]
  cases hread : readItem cfg pkg req.now p.2 p.1 with
  | error e => exact index_of_readItem_eq_error hread
  | ok v => exact (readItem_eq_ok hread).1

/-! ### The checks -/

/-- A check splits the items into those that pass and those that do not. -/
theorem perm_index_filter (p : ValidatedBehaviorEvent → Bool) (l : List ValidatedBehaviorEvent) :
    ((l.filter fun v => !p v).map ValidatedBehaviorEvent.index
        ++ (l.filter p).map ValidatedBehaviorEvent.index).Perm
      (l.map ValidatedBehaviorEvent.index) := by
  rw [← List.map_append]
  exact (List.perm_append_comm.trans (List.filter_append_perm p l)).map _

/-- The errors of a request and the items that are left are the unreadable items and the first
    items of the client event ids. -/
theorem perm_index_errors :
    ((req.errors cfg pkg db).map BehaviorEventError.index
        ++ (req.retained cfg pkg db).map ValidatedBehaviorEvent.index).Perm
      ((errorsOf (readItems cfg pkg req.now req.items)).map BehaviorEventError.index
        ++ (req.distinct cfg pkg).map ValidatedBehaviorEvent.index) := by
  have hposts := perm_index_filter (postExists db (req.distinct cfg pkg)) (req.distinct cfg pkg)
  have himpressions := perm_index_filter
    (impressionAllowed (req.validImpressions cfg pkg db)) (req.ready cfg pkg db)
  unfold Request.errors
  rw [List.map_append, List.map_append, List.map_map, List.map_map, List.append_assoc,
    List.append_assoc]
  -- the impressions are checked after the posts, so the two filters are undone in turn
  refine List.Perm.append_left _ ?_
  exact (himpressions.append_left _).trans hposts

/-- **No item is reported twice.** -/
theorem nodup_index_errors : ((req.errors cfg pkg db).map BehaviorEventError.index).Nodup := by
  have hread : ((errorsOf (readItems cfg pkg req.now req.items)).map BehaviorEventError.index
      ++ (req.parsed cfg pkg).map ValidatedBehaviorEvent.index).Nodup :=
    perm_index_readItems.nodup_iff.mpr List.nodup_range
  -- a second item of a client event id is a duplicate, not an error
  have hsub : ((req.distinct cfg pkg).map ValidatedBehaviorEvent.index).Sublist
      ((req.parsed cfg pkg).map ValidatedBehaviorEvent.index) := Lib.newRows_sublist.map _
  have hdistinct := hread.sublist (hsub.append_left _)
  exact (perm_index_errors.nodup_iff.mpr hdistinct).of_append_left

/-- The errors of a request and the items that are left are as many as the unreadable items and
    the first items of the client event ids. -/
theorem length_errors :
    (req.errors cfg pkg db).length + (req.retained cfg pkg db).length
        + ((req.parsed cfg pkg).length - (req.distinct cfg pkg).length) = req.items.length := by
  have hread : (errorsOf (readItems cfg pkg req.now req.items)).length + (req.parsed cfg pkg).length
      = req.items.length := by
    simpa using (@perm_index_readItems cfg pkg req).length_eq
  have herrors := (@perm_index_errors cfg pkg db req).length_eq
  have hdistinct : (req.distinct cfg pkg).length ≤ (req.parsed cfg pkg).length :=
    Lib.newRows_sublist.length_le
  simp only [List.length_append, List.length_map] at herrors
  omega

/-! ### The response -/

section Response

variable (h : ingestBehaviorEvents cfg pkg db req = .ok (db', response))

include h

/-- **New rows.**  A response counts the rows that its request has added. -/
theorem exists_behaviorEvents_eq :
    ∃ rows, db'.behaviorEvents = db.behaviorEvents ++ rows ∧ response.accepted = rows.length
      ∧ response.duplicate = ((req.parsed cfg pkg).length - (req.distinct cfg pkg).length)
          + ((req.retained cfg pkg db).length - rows.length)
      ∧ rows.length ≤ (req.retained cfg pkg db).length := by
  obtain ⟨db₁, inserted, hinsert, -, rfl, haccepted, hduplicate, -, -⟩ :=
    exists_of_ingestBehaviorEvents_eq_ok h
  obtain ⟨hrows, hnodup, hlength⟩ := of_insertBehaviorEvents_eq_ok hinsert
  refine ⟨inserted, ?_, ?_, hduplicate, by simpa using hlength⟩
  · rw [behaviorEvents_enqueueOutboxEvents, ← hrows]
    split <;> rfl
  · -- the client event ids of the new rows are distinct, so that their set is as large
    rw [haccepted, hnodup.dedup, List.length_map]

/-- The errors are those of the request, in the order of their items. -/
theorem errors_eq :
    response.rejected = response.errors.length
      ∧ response.errors = Lib.stableSort (Lib.compareBy compare BehaviorEventError.index)
          (req.errors cfg pkg db) := by
  obtain ⟨_, _, -, -, -, -, -, hrejected, herrors⟩ := exists_of_ingestBehaviorEvents_eq_ok h
  exact ⟨hrejected, herrors⟩

/-- **Every item is counted once**: as accepted, as a duplicate or as rejected. -/
theorem length_items :
    response.accepted + response.duplicate + response.rejected = req.items.length := by
  obtain ⟨rows, -, haccepted, hduplicate, hle⟩ := exists_behaviorEvents_eq h
  obtain ⟨hrejected, herrors⟩ := errors_eq h
  have hlength := @length_errors cfg pkg db req
  rw [hrejected, herrors, Lib.length_stableSort, haccepted, hduplicate]
  omega

/-- The items of the errors, in ascending order. -/
theorem pairwise_index_response :
    (response.errors.map BehaviorEventError.index).Pairwise (· < ·) := by
  rw [(errors_eq h).2, List.pairwise_map]
  -- the sort is strict, as no two errors name one item
  have hties : (req.errors cfg pkg db).Pairwise fun a b =>
      Lib.compareBy compare BehaviorEventError.index a b ≠ .eq := by
    have hnodup := @nodup_index_errors cfg pkg db req
    rw [List.Nodup, List.pairwise_map] at hnodup
    apply hnodup.imp
    intro a b hab heq
    exact hab (Nat.compare_eq_eq.mp heq)
  apply (Lib.pairwise_lt_stableSort hties).imp
  intro a b hab
  exact Nat.compare_eq_lt.mp hab

/-- **Accounting.**  Every item of a request that succeeds is accepted, counted as a duplicate or
    rejected; the errors name the rejected items, once each and in order; and the accepted items
    are as many as the rows that were added. -/
theorem ingestBehaviorEvents_accounting :
    response.accepted + response.duplicate + response.rejected = req.items.length
      ∧ response.rejected = response.errors.length
      ∧ (response.errors.map BehaviorEventError.index).Pairwise (· < ·)
      ∧ (∀ position, position ∈ response.errors.map BehaviorEventError.index
          ↔ Refused cfg pkg db req position)
      ∧ ∃ rows, db'.behaviorEvents = db.behaviorEvents ++ rows
          ∧ response.accepted = rows.length := by
  obtain ⟨rows, hrows, haccepted, -, -⟩ := exists_behaviorEvents_eq h
  refine ⟨length_items h, (errors_eq h).1, pairwise_index_response h, fun position => ?_,
    rows, hrows, haccepted⟩
  rw [← exists_error_iff_refused, List.mem_map, (errors_eq h).2]
  simp only [Lib.mem_stableSort]

end Response

/-! ### A request of which every counter is one -/

/-- A click, its retry, and an item that is no event. -/
def threeClicks : Request where
  userId := 7
  now := 0
  dbNow := 0
  items := [clickOf 1 100, clickOf 1 101, ⟨.null, 102⟩]

private theorem threeClicks_answered :
    (ingestBehaviorEvents ingestConfig smallPackages twoPosts threeClicks).toOption.isSome := by
  rfl

/-- One item is accepted, one a duplicate and one rejected. -/
theorem ingestBehaviorEvents_accounting_three :
    (Option.get _ threeClicks_answered).2.accepted = 1
      ∧ (Option.get _ threeClicks_answered).2.accepted
          + (Option.get _ threeClicks_answered).2.duplicate
          + (Option.get _ threeClicks_answered).2.rejected = 3 :=
  ⟨rfl,
    (@ingestBehaviorEvents_accounting ingestConfig smallPackages twoPosts _ threeClicks _ rfl).1⟩

end Oecophylla.Ingestion
