import Oecophylla.Worker.Delivery

namespace Oecophylla.Worker

open Lib (Taken)
open Oecophylla.Python (str)

/-!
# Exactly-once application

* `step_effect` — what a step can do to the log, the tables and the history of deltas;
* `Recorded` — receipts, history and vectors agree;
* `recorded_commitUser`, `recorded_step` — every step preserves that;
* `exactly_once` — runs without a cancellation whose envelopes share an id only when they are copies;
* `shared_visit_lost` — two posts read under one visit id;
* `committed_handled` — runs in which a task is only cancelled where it loses nothing.
-/

section

variable {F : Type} {cfg : Config F}

/-! ### What a step can do -/

/-- The process is at the transaction of a user. -/
def AtUser (s : State F) (user : Uuid) (events : List Envelope) : Prop :=
  ∃ p ∈ s.worker, ∃ queue failed trending, p.pc = .applying ((user, events) :: queue) failed trending

/-- **One step.**  It leaves log, tables and history alone, or it is one of four. -/
theorem step_effect {s t : State F} {a : Action} (h : step cfg s a = some t) :
    (t.log = s.log ∧ t.store = s.store ∧ t.applied = s.applied)
    ∨ (∃ k record, t.log = Function.update s.log k (s.log k ++ [record]) ∧ t.store = s.store
        ∧ t.applied = s.applied)
    ∨ (∃ posts, t.log = s.log ∧ t.store = { s.store with posts := posts } ∧ t.applied = s.applied)
    ∨ (∃ user, t.log = s.log ∧ t.store = s.store.deleteUser user ∧ t.applied = s.applied)
    ∨ ∃ user events s' applied, AtUser s user events
        ∧ commitUser cfg s user events = some (s', applied)
        ∧ t.log = s'.log ∧ t.store = s'.store ∧ t.applied = s'.applied := by
  cases a with
  | produce k record =>
    obtain rfl := Option.some.inj h
    exact .inr (.inl ⟨k, record, rfl, rfl, rfl⟩)
  | editPosts posts =>
    obtain rfl := Option.some.inj h
    exact .inr (.inr (.inl ⟨posts, rfl, rfl, rfl⟩))
  | deleteUser user =>
    obtain rfl := Option.some.inj h
    exact .inr (.inr (.inr (.inl ⟨user, rfl, rfl, rfl⟩)))
  | crash =>
    obtain ⟨p, -, rfl⟩ := Option.map_eq_some_iff.mp h
    exact .inl ⟨rfl, rfl, rfl⟩
  | restart =>
    simp only [step] at h
    split at h
    · obtain rfl := Option.some.inj h
      exact .inl ⟨rfl, rfl, rfl⟩
    · contradiction
  | poll batches elapsed =>
    obtain ⟨p, hp, h⟩ := Option.bind_eq_some_iff.mp h
    split at h
    · obtain ⟨r, -, rfl⟩ := Option.map_eq_some_iff.mp h
      exact .inl ⟨rfl, rfl, rfl⟩
    · contradiction
  | applyUser outcome =>
    obtain ⟨p, hp, h⟩ := Option.bind_eq_some_iff.mp h
    unfold stepApply at h
    split at h
    · next user events queue failed trending hpc =>
      have hat : AtUser s user events := ⟨p, hp, queue, failed, trending, hpc⟩
      cases outcome with
      | rolledBack =>
        obtain rfl := Option.some.inj h
        exact .inl ⟨rfl, rfl, rfl⟩
      | committed =>
        obtain ⟨⟨s', applied⟩, hcommit, rfl⟩ := Option.map_eq_some_iff.mp h
        exact .inr (.inr (.inr (.inr ⟨user, events, s', applied, hat, hcommit, rfl, rfl, rfl⟩)))
      | raisedAfterCommit =>
        obtain ⟨⟨s', applied⟩, hcommit, rfl⟩ := Option.map_eq_some_iff.mp h
        exact .inr (.inr (.inr (.inr ⟨user, events, s', applied, hat, hcommit, rfl, rfl, rfl⟩)))
    · contradiction
  | updateTrending | commit | commitRaises | refreshed =>
    obtain ⟨p, hp, h⟩ := Option.bind_eq_some_iff.mp h
    split at h
    · obtain rfl := Option.some.inj h
      exact .inl ⟨rfl, rfl, rfl⟩
    · contradiction
  | cancel done =>
    obtain ⟨p, hp, h⟩ := Option.bind_eq_some_iff.mp h
    unfold stepCancel at h
    dsimp only at h
    split at h
    · contradiction
    · split at h
      · next user events queue failed trending hpc =>
        split at h
        · obtain ⟨⟨s', applied⟩, hcommit, rfl⟩ := Option.map_eq_some_iff.mp h
          exact .inr (.inr (.inr (.inr ⟨user, events, s', applied,
            ⟨p, hp, queue, failed, trending, hpc⟩, hcommit, rfl, rfl, rfl⟩)))
        · obtain rfl := Option.some.inj h
          exact .inl ⟨rfl, rfl, rfl⟩
      · contradiction
      · obtain rfl := Option.some.inj h
        exact .inl ⟨rfl, rfl, rfl⟩
      · split at h
        · contradiction
        · obtain rfl := Option.some.inj h
          exact .inl ⟨rfl, rfl, rfl⟩

/-! ### Receipts, history and vectors -/

/-- The event ids of the deltas applied so far. -/
def appliedIds (applied : List Delta) : List (Option Uuid) := applied.map fun d => eventId d.event

/-- The vector that the deltas of a user make of an initial one. -/
def replay (cfg : Config F) (applied : List Delta) (user : Uuid) (vec : TopicWeights F) :
    TopicWeights F :=
  (applied.filter fun d => d.userId = user).foldl (applyDelta cfg) vec

/-- **Receipts, history and vectors agree.**  `initial` are the vectors of the start. -/
structure Recorded (cfg : Config F) (initial : Uuid → TopicWeights F) (s : State F) : Prop where
  nodup : (appliedIds s.applied).Nodup
  receipt_of_applied : ∀ d ∈ s.applied, ∃ r ∈ s.store.receipts, eventId d.event = some r.eventId
  applied_of_receipt : ∀ r ∈ s.store.receipts, r.userId ∈ s.store.users →
    ∃ d ∈ s.applied, eventId d.event = some r.eventId ∧ d.userId = r.userId
  event_of_receipt : ∀ r ∈ s.store.receipts, ∃ env, Logged s.log env
    ∧ classify cfg.qualifiedReadMs env = .feature r.userId r.eventId
  event_of_applied : ∀ d ∈ s.applied, Logged s.log d.event
    ∧ ∃ id, classify cfg.qualifiedReadMs d.event = .feature d.userId id
  weights_eq : ∀ u ∈ s.store.users,
    s.store.topicWeights u = replay cfg s.applied u (initial u)

theorem appliedIds_deltas (store : Store F) (user : Uuid) (applied : List Envelope) :
    appliedIds (deltas cfg store user applied) = applied.map eventId := by
  simp only [appliedIds, deltas, List.map_map, Function.comp_def]

theorem replay_append_deltas (store : Store F) (user u : Uuid) (applied : List Delta)
    (new : List Envelope) (vec : TopicWeights F) :
    replay cfg (applied ++ deltas cfg store user new) u vec
      = if u = user then (deltas cfg store user new).foldl (applyDelta cfg) (replay cfg applied u vec)
        else replay cfg applied u vec := by
  have hmine : ∀ d ∈ deltas cfg store user new, d.userId = user := by
    intro d hd
    obtain ⟨env, -, rfl⟩ := List.mem_map.mp hd
    rfl
  unfold replay
  rw [List.filter_append, List.foldl_append]
  by_cases hu : u = user
  · subst hu
    have hall : (deltas cfg store u new).filter (fun d => d.userId = u) = deltas cfg store u new :=
      List.filter_eq_self.mpr fun d hd => by simp [hmine d hd]
    rw [if_pos rfl, hall]
  · have hnone : (deltas cfg store user new).filter (fun d => d.userId = u) = [] :=
      List.filter_eq_nil_iff.mpr fun d hd => by
        simpa [hmine d hd] using fun h : user = u => hu h.symm
    rw [if_neg hu, hnone, List.foldl_nil]

/-- An id that occurs once picks one delta. -/
theorem filter_eq_singleton {applied : List Delta} {d : Delta} {id : Uuid}
    (hnodup : (appliedIds applied).Nodup) (hd : d ∈ applied) (hid : eventId d.event = some id) :
    applied.filter (fun d => eventId d.event = some id) = [d] := by
  induction applied with
  | nil => simp at hd
  | cons e applied ih =>
    obtain ⟨he, hrest⟩ := List.nodup_cons.mp hnodup
    rcases List.mem_cons.mp hd with rfl | hd
    · have hnone : applied.filter (fun d => eventId d.event = some id) = [] := by
        apply List.filter_eq_nil_iff.mpr
        intro e' he' heq
        exact he (List.mem_map.mpr ⟨e', he', (of_decide_eq_true heq).trans hid.symm⟩)
      rw [List.filter_cons_of_pos (by simpa using hid), hnone]
    · have hne : ¬ eventId e.event = some id := fun heq =>
        he (List.mem_map.mpr ⟨d, hd, hid.trans heq.symm⟩)
      rw [List.filter_cons_of_neg (by simpa using hne), ih hrest hd]

/-- **The transaction of a user.** -/
theorem recorded_commitUser {initial : Uuid → TopicWeights F} {s s' : State F} {user : Uuid}
    {events applied : List Envelope} (hs : Recorded cfg initial s)
    (hlogged : ∀ env ∈ events, Logged s.log env)
    (hgroup : ∀ env ∈ events, ∃ id, classify cfg.qualifiedReadMs env = .feature user id)
    (h : commitUser cfg s user events = some (s', applied)) : Recorded cfg initial s' := by
  unfold commitUser at h
  obtain ⟨⟨store', applied'⟩, hstore, h⟩ := Option.map_eq_some_iff.mp h
  rw [Prod.mk.injEq] at h
  obtain ⟨rfl, rfl⟩ := h
  obtain ⟨happlied, husers, -, hreceipts, hweights⟩ := applyForUser_eq_some hstore
  have hunique := nodup_uniqueEvents events
  -- an applied event is one of the group, and its id had no receipt
  have hclaimed : ∀ env ∈ applied', env ∈ uniqueEvents events
      ∧ ∃ id, eventId env = some id ∧ ¬ Taken Receipt.eventId s.store.receipts id := by
    intro env henv
    rw [happlied] at henv
    split_ifs at henv
    · exact (mem_claimedEvents hunique).mp henv
    · simp at henv
  have hevent : ∀ env ∈ uniqueEvents events, ∀ id, eventId env = some id →
      Logged s.log env ∧ classify cfg.qualifiedReadMs env = .feature user id := by
    intro env henv id hid
    have hmem := (mem_uniqueEvents henv).1
    obtain ⟨id', hclass⟩ := hgroup env hmem
    obtain rfl : id = id' := Option.some.inj (hid.symm.trans (of_classify_eq_feature hclass).2)
    exact ⟨hlogged env hmem, hclass⟩
  have hrow : ∀ r, r ∈ store'.receipts ↔ r ∈ s.store.receipts
      ∨ (∃ env ∈ uniqueEvents events, receiptOf user env = some r)
        ∧ ¬ Taken Receipt.eventId s.store.receipts r.eventId := by
    intro r
    rw [hreceipts, List.mem_append, mem_claimReceipts hunique]
  constructor
  case nodup =>
    show (appliedIds (s.applied ++ deltas cfg s.store user applied')).Nodup
    unfold appliedIds
    rw [List.map_append]
    show (appliedIds s.applied ++ appliedIds (deltas cfg s.store user applied')).Nodup
    rw [appliedIds_deltas, List.nodup_append]
    refine ⟨hs.nodup, ?_, ?_⟩
    · rw [happlied]
      split_ifs
      · exact hunique.sublist (List.filter_sublist.map _)
      · exact List.nodup_nil
    · intro i hi j hj hij
      obtain ⟨d, hd, rfl⟩ := List.mem_map.mp hi
      obtain ⟨env, henv, rfl⟩ := List.mem_map.mp hj
      obtain ⟨r, hr, hid⟩ := hs.receipt_of_applied d hd
      obtain ⟨-, id, hid', hfree⟩ := hclaimed env henv
      rw [hid, hid', Option.some.injEq] at hij
      exact hfree ⟨r, hr, hij⟩
  case receipt_of_applied =>
    intro d hd
    rcases List.mem_append.mp hd with hd | hd
    · obtain ⟨r, hr, hid⟩ := hs.receipt_of_applied d hd
      exact ⟨r, (hrow r).mpr (.inl hr), hid⟩
    · obtain ⟨env, henv, rfl⟩ := List.mem_map.mp hd
      obtain ⟨hmem, id, hid, hfree⟩ := hclaimed env henv
      refine ⟨⟨id, user, eventType env⟩, (hrow _).mpr (.inr ⟨⟨env, hmem, ?_⟩, hfree⟩), hid⟩
      rw [receiptOf, hid, Option.map_some]
  case applied_of_receipt =>
    intro r hr huser
    rcases (hrow r).mp hr with hold | ⟨⟨env, henv, hrecv⟩, hfree⟩
    · obtain ⟨d, hd, hid, hu⟩ := hs.applied_of_receipt r hold (by rwa [husers] at huser)
      exact ⟨d, List.mem_append_left _ hd, hid, hu⟩
    · unfold receiptOf at hrecv
      obtain ⟨id, hid, rfl⟩ := Option.map_eq_some_iff.mp hrecv
      have hmine : env ∈ applied' := by
        rw [happlied, if_pos (by rwa [husers] at huser)]
        exact (mem_claimedEvents hunique).mpr ⟨henv, id, hid, hfree⟩
      exact ⟨_, List.mem_append_right _ (List.mem_map_of_mem hmine), hid, rfl⟩
  case event_of_receipt =>
    intro r hr
    rcases (hrow r).mp hr with hold | ⟨⟨env, henv, hrecv⟩, -⟩
    · exact hs.event_of_receipt r hold
    · unfold receiptOf at hrecv
      obtain ⟨id, hid, rfl⟩ := Option.map_eq_some_iff.mp hrecv
      exact ⟨env, hevent env henv id hid⟩
  case event_of_applied =>
    intro d hd
    rcases List.mem_append.mp hd with hd | hd
    · exact hs.event_of_applied d hd
    · obtain ⟨env, henv, rfl⟩ := List.mem_map.mp hd
      obtain ⟨hmem, id, hid, -⟩ := hclaimed env henv
      obtain ⟨hlog, hclass⟩ := hevent env hmem id hid
      exact ⟨hlog, id, hclass⟩
  case weights_eq =>
    intro u hu
    have hu' : u ∈ s.store.users := by rwa [husers] at hu
    show store'.topicWeights u = replay cfg (s.applied ++ deltas cfg s.store user applied') u _
    rw [hweights, replay_append_deltas, ← hs.weights_eq u hu']
    by_cases huser : u = user
    · rw [if_pos huser, if_pos huser, huser]
    · rw [if_neg huser, if_neg huser]

/-- **One step.** -/
theorem recorded_step {initial : Uuid → TopicWeights F} {s t : State F} {a : Action}
    (hsound : Sound cfg.qualifiedReadMs s) (hs : Recorded cfg initial s)
    (h : step cfg s a = some t) : Recorded cfg initial t := by
  rcases step_effect h with ⟨hlog, hstore, happlied⟩ | ⟨k, record, hlog, hstore, happlied⟩
    | ⟨posts, hlog, hstore, happlied⟩ | ⟨user, hlog, hstore, happlied⟩
    | ⟨user, events, s', applied, ⟨p, hp, queue, failed, trending, hpc⟩, hcommit, hlog, hstore,
      happlied⟩
  · exact ⟨happlied ▸ hs.nodup, hstore ▸ happlied ▸ hs.receipt_of_applied,
      hstore ▸ happlied ▸ hs.applied_of_receipt, hstore ▸ hlog ▸ hs.event_of_receipt,
      happlied ▸ hlog ▸ hs.event_of_applied, hstore ▸ happlied ▸ hs.weights_eq⟩
  · -- the log grows
    have hextend : ∀ env, Logged s.log env → Logged t.log env := by
      intro env henv
      apply logged_extend _ henv
      intro j
      rw [hlog]
      exact prefix_produce _ _ _ j
    refine ⟨happlied ▸ hs.nodup, hstore ▸ happlied ▸ hs.receipt_of_applied,
      hstore ▸ happlied ▸ hs.applied_of_receipt, ?_, ?_, hstore ▸ happlied ▸ hs.weights_eq⟩
    · rw [hstore]
      intro r hr
      obtain ⟨env, henv, hclass⟩ := hs.event_of_receipt r hr
      exact ⟨env, hextend env henv, hclass⟩
    · rw [happlied]
      intro d hd
      obtain ⟨hd', hclass⟩ := hs.event_of_applied d hd
      exact ⟨hextend _ hd', hclass⟩
  · refine ⟨happlied ▸ hs.nodup, ?_, ?_, ?_, happlied ▸ hlog ▸ hs.event_of_applied, ?_⟩
      <;> rw [hstore]
    · exact happlied ▸ hs.receipt_of_applied
    · exact happlied ▸ hs.applied_of_receipt
    · exact hlog ▸ hs.event_of_receipt
    · exact happlied ▸ hs.weights_eq
  · -- the vector of a deleted user is gone, and nothing is said about it
    refine ⟨happlied ▸ hs.nodup, ?_, ?_, ?_, happlied ▸ hlog ▸ hs.event_of_applied, ?_⟩
      <;> rw [hstore]
    · exact happlied ▸ hs.receipt_of_applied
    · intro r hr hu
      exact happlied ▸ hs.applied_of_receipt r hr (List.mem_filter.mp hu).1
    · exact hlog ▸ hs.event_of_receipt
    · intro u hu
      obtain ⟨hmem, hne⟩ := List.mem_filter.mp hu
      rw [topicWeights_deleteUser s.store (by simpa using hne), happlied]
      exact hs.weights_eq u hmem
  · have hprocess := hsound.worker p hp
    have hs' := recorded_commitUser hs (fun env henv => hprocess.logged env ?_)
      (fun env henv => hprocess.grouped (user, events) (by simp [hpc, Pc.queue]) env henv) hcommit
    · exact ⟨happlied ▸ hs'.nodup, hstore ▸ happlied ▸ hs'.receipt_of_applied,
        hstore ▸ happlied ▸ hs'.applied_of_receipt, hstore ▸ hlog ▸ hs'.event_of_receipt,
        happlied ▸ hlog ▸ hs'.event_of_applied, hstore ▸ happlied ▸ hs'.weights_eq⟩
    · simp [Process.pending, hpc, Pc.inFlight, henv]

theorem recorded_of_initial {s : State F} (h : Initial s) :
    Recorded cfg s.store.topicWeights s := by
  constructor
  case nodup => simp [appliedIds, h.applied_eq]
  case receipt_of_applied => simp [h.applied_eq]
  case applied_of_receipt => simp [h.receipts_eq]
  case event_of_receipt => simp [h.receipts_eq]
  case event_of_applied => simp [h.applied_eq]
  case weights_eq => simp [replay, h.applied_eq]

/-- **Every run** in which a task is only cancelled where it loses nothing. -/
theorem recorded_run {s t : State F} {as : List Action} (hinit : Initial s)
    (hrun : Lib.run (step cfg) s as = some t)
    (hsafe : Lib.Along (step cfg) (CancelSafe cfg) s as) :
    Sound cfg.qualifiedReadMs t ∧ Recorded cfg s.store.topicWeights t :=
  Lib.run_invariant_along
    (P := fun u => Sound cfg.qualifiedReadMs u ∧ Recorded cfg s.store.topicWeights u)
    (fun u a v hu hguard h => ⟨sound_step u a v hu.1 hguard h, recorded_step hu.1 hu.2 h⟩)
    ⟨sound_of_initial hinit, recorded_of_initial hinit⟩ hrun hsafe

/-! ### Runs without a cancellation -/

/-- The action cancels the task. -/
def Action.isCancel : Action → Bool
  | .cancel _ => true
  | _ => false

theorem along_of_not_cancel {s : State F} {as : List Action} (h : ∀ a ∈ as, a.isCancel = false) :
    Lib.Along (step cfg) (CancelSafe cfg) s as := by
  induction as generalizing s with
  | nil => exact Lib.along_nil _ s
  | cons a as ih =>
    rw [Lib.along_cons]
    refine ⟨?_, fun t _ => ih fun b hb => h b (List.mem_cons_of_mem _ hb)⟩
    cases a with
    | cancel done => exact absurd (h (.cancel done) (List.mem_cons_self ..)) (by simp [Action.isCancel])
    | _ => trivial

/-- Envelopes with one event id are copies of one event: a receipt is found by the id alone. -/
def Copies (qualifiedReadMs : Int) (log : Nat → List Record) : Prop :=
  ∀ env env' user user' id, Logged log env → Logged log env' →
    classify qualifiedReadMs env = .feature user id →
    classify qualifiedReadMs env' = .feature user' id →
    user' = user ∧ eventType env' = eventType env ∧ postIdOf env' = postIdOf env

/-- **Exactly once.**  After a run without a cancellation: a feature event below a committed
    offset has its receipt, and while its user exists its delta is in the history once; no event
    is in the history twice; and the vector of every user is what the history makes of it. -/
theorem exactly_once (cfg : Config F) (s t : State F) (as : List Action) (hinit : Initial s)
    (hrun : Lib.run (step cfg) s as = some t) (hcancel : ∀ a ∈ as, a.isCancel = false)
    (hcopies : Copies cfg.qualifiedReadMs t.log) :
    (∀ k i env user id, i < t.committed k → (t.log k)[i]? = some (some env) →
      classify cfg.qualifiedReadMs env = .feature user id →
      (∃ r ∈ t.store.receipts, r.eventId = id) ∧ (user ∈ t.store.users →
        ∃ d, t.applied.filter (fun d => eventId d.event = some id) = [d] ∧ d.userId = user
          ∧ eventType d.event = eventType env ∧ postIdOf d.event = postIdOf env))
    ∧ (appliedIds t.applied).Nodup
    ∧ ∀ user ∈ t.store.users,
      t.store.topicWeights user = replay cfg t.applied user (s.store.topicWeights user) := by
  obtain ⟨hsound, hrecorded⟩ := recorded_run hinit hrun (along_of_not_cancel hcancel)
  refine ⟨?_, hrecorded.nodup, hrecorded.weights_eq⟩
  intro k i env user id hi hat hclass
  have hhandled := (hsound.committed_handled k i env hi hat).resolve_left (by simp)
  obtain ⟨r, hr, hid⟩ := hhandled user id hclass
  refine ⟨⟨r, hr, hid⟩, fun huser => ?_⟩
  have henv : Logged t.log env := ⟨k, List.mem_of_getElem? hat⟩
  -- the receipt was claimed by a copy of the event
  obtain ⟨first, hfirst, hfirstClass⟩ := hrecorded.event_of_receipt r hr
  rw [hid] at hfirstClass
  have hru : r.userId = user := (hcopies env first user r.userId id henv hfirst hclass hfirstClass).1
  obtain ⟨d, hd, hdid, hdu⟩ := hrecorded.applied_of_receipt r hr (hru ▸ huser)
  rw [hid] at hdid
  obtain ⟨hdlog, id', hdclass⟩ := hrecorded.event_of_applied d hd
  obtain rfl : id = id' := Option.some.inj (hdid.symm.trans (of_classify_eq_feature hdclass).2)
  obtain ⟨-, htype, hpost⟩ := hcopies env d.event user d.userId id henv hdlog hclass hdclass
  exact ⟨d, filter_eq_singleton hrecorded.nodup hd hdid, hdu.trans hru, htype, hpost⟩

/-! ### Runs with cancellations -/

/-- **No event is lost at shutdown.**  In a run in which a task is only cancelled where it loses
    nothing, every feature event below a committed offset has its receipt. -/
theorem committed_handled (cfg : Config F) (s t : State F) (as : List Action) (hinit : Initial s)
    (hrun : Lib.run (step cfg) s as = some t)
    (hsafe : Lib.Along (step cfg) (CancelSafe cfg) s as) :
    ∀ k i env user id, i < t.committed k → (t.log k)[i]? = some (some env) →
      classify cfg.qualifiedReadMs env = .feature user id →
      ∃ r ∈ t.store.receipts, r.eventId = id := by
  intro k i env user id hi hat hclass
  have hsound := sound_run hinit hrun hsafe
  exact (hsound.committed_handled k i env hi hat).resolve_left (by simp) user id hclass

end

/-! ### A small system -/

/-- One like is in the log. -/
private def oneLike : State Int where
  log k := if k = 0 then [some (interaction 1 "liked")] else []
  committed _ := 0
  store := ⟨[7], [⟨2, ["lean"], []⟩], [], []⟩
  applied := []
  worker := none

private def applyAndCommit : List Action :=
  [.restart, .poll [(0, 1)] true, .applyUser .committed, .updateTrending, .commit]

private def cancelAndCommit (done : Bool) : List Action :=
  [.restart, .poll [(0, 1)] true, .cancel done, .commit]

private theorem isSome_run_of_like (actions : List Action)
    (h : actions = applyAndCommit ∨ ∃ done, actions = cancelAndCommit done) :
    (Lib.run (step smallConfig) oneLike actions).isSome := by
  rcases h with rfl | ⟨done, rfl⟩
  · decide +kernel
  · cases done <;> decide +kernel

private def afterApply : State Int :=
  (Lib.run (step smallConfig) oneLike applyAndCommit).get (isSome_run_of_like _ (.inl rfl))

private def afterCancel (done : Bool) : State Int :=
  (Lib.run (step smallConfig) oneLike (cancelAndCommit done)).get
    (isSome_run_of_like _ (.inr ⟨done, rfl⟩))

private theorem log_afterApply (k : Nat) : afterApply.log k = oneLike.log k := rfl

private theorem classify_like :
    classify smallConfig.qualifiedReadMs (interaction 1 "liked") = .feature 7 1 := by
  decide +kernel

/-- A like that is applied and committed. -/
theorem exactly_once_like :
    ∃ t, Lib.run (step smallConfig) oneLike applyAndCommit = some t
      ∧ (∃ r ∈ t.store.receipts, r.eventId = 1)
      ∧ ∃ d, t.applied.filter (fun d => eventId d.event = some 1) = [d] ∧ d.userId = 7 := by
  have hrun : Lib.run (step smallConfig) oneLike applyAndCommit = some afterApply :=
    (Option.some_get _).symm
  have honly : ∀ env, Logged afterApply.log env → env = interaction 1 "liked" := by
    rintro env ⟨k, hk⟩
    rw [log_afterApply, oneLike] at hk
    dsimp only at hk
    split at hk
    · exact Option.some.inj (List.mem_singleton.mp hk)
    · simp at hk
  have hcopies : Copies smallConfig.qualifiedReadMs afterApply.log := by
    intro env env' user user' id henv henv' hclass hclass'
    rw [honly env henv] at hclass
    rw [honly env' henv'] at hclass'
    rw [hclass, Outcome.feature.injEq] at hclass'
    rw [honly env henv, honly env' henv']
    exact ⟨hclass'.1.symm, rfl, rfl⟩
  have h := exactly_once smallConfig oneLike afterApply applyAndCommit
    ⟨fun _ => rfl, rfl, rfl, rfl⟩ hrun (by decide) hcopies
  obtain ⟨hreceipt, hdelta⟩ := h.1 0 0 (interaction 1 "liked") 7 1 (by decide +kernel)
    (by rw [log_afterApply]; rfl) classify_like
  obtain ⟨d, hd, hu, -, -⟩ := hdelta (by decide +kernel)
  exact ⟨afterApply, hrun, hreceipt, d, hd, hu⟩

/-- A read of a post that was opened directly: the id of the envelope is the visit id, which the
    browser chooses. -/
def directRead (visit post : Uuid) : Envelope where
  fields := [("event_id", .str (Oecophylla.Python.uuidText visit)),
    ("event_type", .str "qualified_read"), ("event_version", .int 2),
    ("occurred_at", .str "2026-08-30T12:00:00Z"),
    ("data", .dict [("user_id", .str (Oecophylla.Python.uuidText 7)),
      ("post_id", .str (Oecophylla.Python.uuidText post)), ("duration_ms", .int 12000)])]
  data := [("user_id", .str (Oecophylla.Python.uuidText 7)),
    ("post_id", .str (Oecophylla.Python.uuidText post)), ("duration_ms", .int 12000)]
  data_eq := by rfl

/-- The user 7 reads the posts 2 and 3 under one visit id. -/
private def twoReads : State Int where
  log k := if k = 0 then [some (directRead 1 2), some (directRead 1 3)] else []
  committed _ := 0
  store := ⟨[7], [⟨2, ["lean"], []⟩, ⟨3, ["rust"], []⟩], [], []⟩
  applied := []
  worker := none

private def applyBoth : List Action :=
  [.restart, .poll [(0, 2)] true, .applyUser .committed, .updateTrending, .commit]

private theorem isSome_run_of_reads : (Lib.run (step smallConfig) twoReads applyBoth).isSome := by
  decide +kernel

/-- **Counterexample.**  The second read is taken for a duplicate of the first.  Its offset is
    committed and its user exists, but no delta of its post is ever applied. -/
theorem shared_visit_lost :
    Initial twoReads ∧ (∀ a ∈ applyBoth, a.isCancel = false)
    ∧ ∃ t, Lib.run (step smallConfig) twoReads applyBoth = some t
      ∧ 1 < t.committed 0 ∧ (t.log 0)[1]? = some (some (directRead 1 3))
      ∧ classify smallConfig.qualifiedReadMs (directRead 1 3) = .feature 7 1
      ∧ 7 ∈ t.store.users ∧ t.store.topicWeights 7 = [("lean", 5000)]
      ∧ ∀ d ∈ t.applied, str (postIdOf d.event) ≠ str (postIdOf (directRead 1 3)) :=
  ⟨⟨fun _ => rfl, rfl, rfl, rfl⟩, by decide,
    (Lib.run (step smallConfig) twoReads applyBoth).get isSome_run_of_reads, (Option.some_get _).symm,
    by decide +kernel, rfl, by decide +kernel, by decide +kernel, by decide +kernel,
    by decide +kernel⟩

/-- A flush that is cancelled while its transaction goes through. -/
theorem committed_handled_like :
    ∃ t, Lib.run (step smallConfig) oneLike (cancelAndCommit true) = some t
      ∧ ∃ r ∈ t.store.receipts, r.eventId = 1 := by
  have hrun : Lib.run (step smallConfig) oneLike (cancelAndCommit true) = some (afterCancel true) :=
    (Option.some_get _).symm
  exact ⟨afterCancel true, hrun, committed_handled smallConfig oneLike (afterCancel true) _
    ⟨fun _ => rfl, rfl, rfl, rfl⟩ hrun (by decide +kernel) 0 0 (interaction 1 "liked") 7 1
    (by decide +kernel) rfl classify_like⟩

/-- **Counterexample.**  The task is cancelled inside the transaction of the like, which is
    rolled back.  The buffer is empty by then, so that the handler has nothing to flush and
    commits the polled position: the like has no receipt and is never polled again. -/
theorem like_lost_at_shutdown :
    Initial oneLike ∧ ∃ t, Lib.run (step smallConfig) oneLike (cancelAndCommit false) = some t
      ∧ 0 < t.committed 0 ∧ (t.log 0)[0]? = some (some (interaction 1 "liked"))
      ∧ classify smallConfig.qualifiedReadMs (interaction 1 "liked") = .feature 7 1
      ∧ t.store.receipts = [] :=
  ⟨⟨fun _ => rfl, rfl, rfl, rfl⟩, afterCancel false, (Option.some_get _).symm,
    by decide +kernel, rfl, classify_like, by decide +kernel⟩

end Oecophylla.Worker
