import Mathlib.Data.List.Permutation
import Oecophylla.Lib.Run
import Oecophylla.Worker.Store

namespace Oecophylla.Worker.Concurrent


/-!
# Concurrent transactions of one user — `_apply_for_user` under `READ COMMITTED`

The outbox partitions by post, so that events of one user reach different instances.  A
transaction is cut into its statements: every statement sees what is committed when it starts.

* `Tx` — how far a transaction is, and what it has in hand;
* `step` — one statement of one instance; a claim waits for a transaction that claims one of its
  ids, the upsert for one that has written the row;
* `NotStale` — the condition under which the upsert overwrites nothing;
* `Serialized` — the committed vector is the fold of the committed deltas;
* `run_alone` — without another instance the statements do what `applyForUser` does;
* `noLostUpdate` — runs that meet the condition;
* `lost_update` — a run of two instances that does not.
-/

/-- How far a transaction is: the rows it has claimed, the events it applies, the vector it has
    read, the vector it has written. -/
inductive Tx (F : Type) where
  | begun (events : List Envelope)
  | claimed (rows : List Receipt) (events : List Envelope)
  | read (rows : List Receipt) (applied : List Envelope) (vec : TopicWeights F)
  | written (rows : List Receipt) (applied : List Envelope) (vec : Option (TopicWeights F))

/-- The state: the committed tables, the transactions of the instances and, as history, the
    deltas of the committed transactions. -/
structure State (n : Nat) (F : Type) where
  store : Store F
  tx : Fin n → Option (Tx F)
  applied : List Delta

/-- One statement of an instance; `abort` is any way in which a transaction does not commit. -/
inductive Action (n : Nat) where
  | begin (i : Fin n) (events : List Envelope)
  | claim (i : Fin n)
  | read (i : Fin n)
  | write (i : Fin n)
  | commit (i : Fin n)
  | abort (i : Fin n)

section Step

variable {n : Nat} {F : Type} (cfg : Config F) (user : Uuid)

/-- The rows that a transaction has inserted and not committed. -/
def Tx.rows : Tx F → List Receipt
  | .begun _ => []
  | .claimed rows _ => rows
  | .read rows _ _ => rows
  | .written rows _ _ => rows

/-- The vector that a transaction has written and not committed. -/
def Tx.wrote : Tx F → Option (TopicWeights F)
  | .written _ _ vec => vec
  | _ => none

/-- No other transaction is about to insert a receipt of one of the events. -/
def ClaimFree (s : State n F) (i : Fin n) (events : List Envelope) : Prop :=
  ∀ j, j ≠ i → ∀ t ∈ s.tx j, ∀ r ∈ t.rows, ∀ env ∈ events, eventId env ≠ some r.eventId

instance (s : State n F) (i : Fin n) (events : List Envelope) : Decidable (ClaimFree s i events) :=
  inferInstanceAs (Decidable (∀ j, j ≠ i → ∀ t ∈ s.tx j, _))

/-- No other transaction has the lock of the row. -/
def RowFree (s : State n F) (i : Fin n) : Prop := ∀ j, j ≠ i → ∀ t ∈ s.tx j, t.wrote.isNone

instance (s : State n F) (i : Fin n) : Decidable (RowFree s i) :=
  inferInstanceAs (Decidable (∀ j, j ≠ i → ∀ t ∈ s.tx j, _))

/-- The transaction of an instance goes on. -/
def State.set (s : State n F) (i : Fin n) (t : Option (Tx F)) : State n F :=
  { s with tx := Function.update s.tx i t }

/-- Whether the transaction writes the row. -/
def writes (applied : List Envelope) : Bool := applied.any fun env => eventType env ≠ "view_observed"

/-- The upsert of the vector, and nothing when it is not written. -/
def upsert (store : Store F) : Option (TopicWeights F) → Store F
  | some vec => store.upsertWeights user vec
  | none => store

/-- One statement. -/
def step (s : State n F) : Action n → Option (State n F)
  | .begin i events =>
    match s.tx i with
    | none => some (s.set i (some (.begun (uniqueEvents events))))
    | some _ => none
  | .claim i =>
    match s.tx i with
    | some (.begun events) =>
      if ClaimFree s i events then
        let rows := claimReceipts s.store.receipts user events
        some (s.set i (some (.claimed rows (claimedEvents rows events))))
      else none
    | _ => none
  | .read i =>
    match s.tx i with
    | some (.claimed rows events) =>
      some (s.set i (some (.read rows (if user ∈ s.store.users then events else [])
        (s.store.topicWeights user))))
    | _ => none
  | .write i =>
    match s.tx i with
    | some (.read rows applied vec) =>
      if writes applied then
        if RowFree s i then
          (postIds cfg applied).map fun ids => s.set i (some (.written rows applied
            (some (applied.foldl (fun vec env => applyTopicDelta cfg.floats vec
              (topicsOf s.store.posts ids env) (eventType env)) vec))))
        else none
      else some (s.set i (some (.written rows applied none)))
    | _ => none
  | .commit i =>
    match s.tx i with
    | some (.written rows applied vec) =>
      some { (s.set i none) with
        store := upsert user { s.store with receipts := s.store.receipts ++ rows } vec
        applied := s.applied ++ deltas cfg s.store user applied }
    | _ => none
  | .abort i =>
    match s.tx i with
    | some _ => some (s.set i none)
    | none => none

/-- A transaction that is going to write has read the vector `row`. -/
def Tx.HasRead (row : TopicWeights F) : Tx F → Prop
  | .read _ applied vec => writes applied = true → vec = row
  | _ => True

/-- **The vector is not stale.**  A transaction that is about to write has read the vector that
    is committed now. -/
def NotStale (s : State n F) : Action n → Prop
  | .write i => ∀ t ∈ s.tx i, t.HasRead (s.store.topicWeights user)
  | _ => True

instance [DecidableEq F] (row : TopicWeights F) : (t : Tx F) → Decidable (t.HasRead row)
  | .read _ applied vec => inferInstanceAs (Decidable (writes applied = true → vec = row))
  | .begun _ | .claimed .. | .written .. => .isTrue trivial

instance [DecidableEq F] (s : State n F) : (a : Action n) → Decidable (NotStale user s a)
  | .write i => inferInstanceAs (Decidable (∀ t ∈ s.tx i, t.HasRead _))
  | .begin .. | .claim _ | .read _ | .commit _ | .abort _ => .isTrue trivial

/-! ### A transaction without company -/

/-- **The statements make the transaction.**  One after the other and without another instance
    they leave behind what `applyForUser` does. -/
theorem run_alone {s : State n F} (hidle : ∀ j, s.tx j = none) (i : Fin n)
    {events applied : List Envelope} {store' : Store F}
    (h : applyForUser cfg s.store user events = some (store', applied)) :
    ∃ t, Lib.run (step cfg user) s [.begin i events, .claim i, .read i, .write i, .commit i] = some t
      ∧ t.store = store' ∧ t.applied = s.applied ++ deltas cfg s.store user applied := by
  have hset : ∀ tx : Option (Tx F), ∀ j, j ≠ i → (s.set i tx).tx j = none := by
    intro tx j hj
    simp [State.set, Function.update_of_ne hj, hidle]
  have hclaim : ∀ tx events, ClaimFree (s.set i tx) i events := by
    intro tx events j hj t ht
    simp [hset tx j hj] at ht
  have hrow : ∀ tx, RowFree (s.set i tx) i := by
    intro tx j hj t ht
    simp [hset tx j hj] at ht
  have hself : ∀ tx : Option (Tx F), (s.set i tx).tx i = tx := by simp [State.set]
  have htwice : ∀ tx tx' : Option (Tx F), (s.set i tx).set i tx' = s.set i tx' := by
    simp [State.set]
  have hstore : ∀ tx : Option (Tx F), (s.set i tx).store = s.store := fun _ => rfl
  unfold applyForUser at h
  dsimp only at h
  simp only [Lib.run_cons, step, hidle i, Option.bind_some, hself, hclaim, if_true, hstore, htwice]
  generalize (if user ∈ s.store.users then
      claimedEvents (claimReceipts s.store.receipts user (uniqueEvents events)) (uniqueEvents events)
    else []) = a at h ⊢
  change (if writes a = true then _ else _) = _ at h
  by_cases hwrites : writes a = true
  · rw [if_pos hwrites] at h
    rw [if_pos hwrites, if_pos (hrow _)]
    obtain ⟨ids, hids, h⟩ := Option.map_eq_some_iff.mp h
    rw [Prod.mk.injEq] at h
    obtain ⟨rfl, rfl⟩ := h
    simp only [hids, Option.map_some, Option.bind_some, hself]
    exact ⟨_, rfl, rfl, rfl⟩
  · rw [if_neg hwrites, Option.some.injEq, Prod.mk.injEq] at h
    obtain ⟨rfl, rfl⟩ := h
    rw [if_neg hwrites]
    simp only [Option.bind_some, hself]
    exact ⟨_, rfl, rfl, rfl⟩

/-! ### The invariant -/

/-- What a transaction has in hand. -/
def Tx.Sound (store : Store F) : Tx F → Prop
  | .begun events => (events.map eventId).Nodup
  | .claimed rows events => (events.map (receiptOf user)).Perm (rows.map some)
  | .read rows applied _ => (applied.map (receiptOf user)).Perm (rows.map some)
  | .written rows applied vec => (applied.map (receiptOf user)).Perm (rows.map some)
    ∧ match vec with
      | some vec => vec
        = (deltas cfg store user applied).foldl (applyDelta cfg) (store.topicWeights user)
      | none => writes applied = false

/-- **No update is lost.**  In some order, the committed deltas make the committed vector; and
    they are those of the receipts that were claimed. -/
structure Serialized (initial : Store F) (s : State n F) : Prop where
  vector_eq : ∃ order : List Delta, order.Perm s.applied
    ∧ s.store.topicWeights user = order.foldl (applyDelta cfg) (initial.topicWeights user)
  receipts_eq : ∃ claimed, s.store.receipts = initial.receipts ++ claimed
    ∧ (s.applied.map fun d => receiptOf user d.event).Perm (claimed.map some)

/-- The invariant. -/
structure Sound (initial : Store F) (s : State n F) : Prop where
  users_eq : s.store.users = initial.users
  posts_eq : s.store.posts = initial.posts
  vector_eq : s.store.topicWeights user
    = s.applied.foldl (applyDelta cfg) (initial.topicWeights user)
  receipts_eq : ∃ claimed, s.store.receipts = initial.receipts ++ claimed
    ∧ (s.applied.map fun d => receiptOf user d.event).Perm (claimed.map some)
  tx : ∀ i, ∀ t ∈ s.tx i, t.Sound cfg user s.store
  one_writer : ∀ i j, ∀ t ∈ s.tx i, ∀ t' ∈ s.tx j, t.wrote.isSome → t'.wrote.isSome → i = j

variable {cfg user} {initial : Store F} {s t : State n F}

@[simp] theorem set_tx (s : State n F) (i j : Fin n) (t : Option (Tx F)) :
    (s.set i t).tx j = if j = i then t else s.tx j := by
  by_cases h : j = i <;> simp [State.set, h, Function.update_of_ne]

/-- A transaction goes on without committing. -/
theorem sound_set {i : Fin n} {new : Option (Tx F)} (hs : Sound cfg user initial s)
    (hnew : ∀ t ∈ new, t.Sound cfg user s.store)
    (hwriter : ∀ t ∈ new, t.wrote.isSome → RowFree s i) :
    Sound cfg user initial (s.set i new) := by
  refine ⟨hs.users_eq, hs.posts_eq, hs.vector_eq, hs.receipts_eq, ?_, ?_⟩
  · intro j t ht
    rw [set_tx] at ht
    split at ht
    · exact hnew t ht
    · exact hs.tx j t ht
  · -- a writer beside the instance has the lock
    have hother : ∀ j, j ≠ i → ∀ t ∈ s.tx j, t.wrote.isSome → ∀ t' ∈ new, ¬ t'.wrote.isSome := by
      intro j hj t ht hwrote t' ht' hwrote'
      have hnone := hwriter t' ht' hwrote' j hj t ht
      rw [Option.isNone_iff_eq_none] at hnone
      simp [hnone] at hwrote
    intro j k t ht t' ht' hwrote hwrote'
    rw [set_tx] at ht ht'
    by_cases hj : j = i
    · by_cases hk : k = i
      · rw [hj, hk]
      · rw [if_pos hj] at ht
        rw [if_neg hk] at ht'
        exact absurd hwrote (hother k hk t' ht' hwrote' t ht)
    · by_cases hk : k = i
      · rw [if_neg hj] at ht
        rw [if_pos hk] at ht'
        exact absurd hwrote' (hother j hj t ht hwrote t' ht')
      · rw [if_neg hj] at ht
        rw [if_neg hk] at ht'
        exact hs.one_writer j k t ht t' ht' hwrote hwrote'

theorem sound_set_some {i : Fin n} {new : Tx F} (hs : Sound cfg user initial s)
    (hnew : new.Sound cfg user s.store) (hwriter : new.wrote.isSome → RowFree s i) :
    Sound cfg user initial (s.set i (some new)) :=
  sound_set hs (fun _ ht => Option.some.inj ht ▸ hnew) (fun _ ht => Option.some.inj ht ▸ hwriter)

/-- The committed vector after an upsert. -/
theorem topicWeights_upsert (store : Store F) (vec : Option (TopicWeights F)) :
    (upsert user store vec).topicWeights user = vec.getD (store.topicWeights user) := by
  cases vec with
  | none => rfl
  | some vec => simp [upsert]

/-- The deltas only depend on the posts. -/
theorem deltas_congr {store store' : Store F} (h : store'.posts = store.posts)
    (applied : List Envelope) : deltas cfg store' user applied = deltas cfg store user applied := by
  unfold deltas
  rw [h]

/-- A transaction commits. -/
theorem sound_commit {i : Fin n} {rows : List Receipt} {applied : List Envelope}
    {vec : Option (TopicWeights F)} (hs : Sound cfg user initial s)
    (ht : s.tx i = some (.written rows applied vec)) :
    Sound cfg user initial { (s.set i none) with
      store := upsert user { s.store with receipts := s.store.receipts ++ rows } vec
      applied := s.applied ++ deltas cfg s.store user applied } := by
  obtain ⟨hrows, hvec⟩ := hs.tx i _ ht
  have hstore : (upsert user { s.store with receipts := s.store.receipts ++ rows } vec).users
        = s.store.users
      ∧ (upsert user { s.store with receipts := s.store.receipts ++ rows } vec).posts
        = s.store.posts
      ∧ (upsert user { s.store with receipts := s.store.receipts ++ rows } vec).receipts
        = s.store.receipts ++ rows := by
    cases vec <;> exact ⟨rfl, rfl, rfl⟩
  have hweights : (upsert user { s.store with receipts := s.store.receipts ++ rows }
      vec).topicWeights user = vec.getD (s.store.topicWeights user) :=
    topicWeights_upsert _ vec
  refine ⟨hstore.1.trans hs.users_eq, hstore.2.1.trans hs.posts_eq, ?_, ?_, ?_, ?_⟩
  · show _ = (s.applied ++ deltas cfg s.store user applied).foldl (applyDelta cfg) _
    rw [List.foldl_append, ← hs.vector_eq, hweights]
    cases vec with
    | some vec => exact hvec
    | none =>
      have hviews : ∀ d ∈ deltas cfg s.store user applied, eventType d.event = "view_observed" := by
        intro d hd
        obtain ⟨env, henv, rfl⟩ := List.mem_map.mp hd
        have hnot := List.any_eq_false.mp hvec env henv
        simpa using hnot
      exact (foldl_applyDelta_of_viewObserved _ hviews).symm
  · obtain ⟨claimed, hclaimed, hperm⟩ := hs.receipts_eq
    refine ⟨claimed ++ rows, ?_, ?_⟩
    · rw [hstore.2.2, hclaimed, List.append_assoc]
    · rw [List.map_append, List.map_append]
      apply hperm.append
      simpa [deltas, Function.comp_def] using hrows
  · intro j t' ht'
    dsimp only at ht'
    rw [set_tx] at ht'
    split at ht'
    · simp at ht'
    · next hj =>
      have hsound := hs.tx j t' ht'
      cases t' with
      | written rows' applied' vec' =>
        refine ⟨hsound.1, ?_⟩
        cases vec' with
        | none => exact hsound.2
        | some vec' =>
          -- the other one has the lock, so that this one has written nothing
          have hnone : vec = none := by
            by_contra hsome
            exact hj (hs.one_writer j i _ ht' _ ht rfl (Option.isSome_iff_ne_none.mpr hsome))
          show vec' = List.foldl (applyDelta cfg) _ (deltas cfg (upsert user _ vec) user applied')
          rw [deltas_congr hstore.2.1, hweights, hnone]
          exact hsound.2
      | _ => exact hsound
  · intro j k t ht t' ht'
    dsimp only at ht ht'
    rw [set_tx] at ht ht'
    split at ht
    · simp at ht
    · split at ht'
      · simp at ht'
      · exact hs.one_writer j k t ht t' ht'

/-- **One statement.** -/
theorem sound_step (huser : user ∈ initial.users) (s : State n F) (a : Action n) (t : State n F)
    (hs : Sound cfg user initial s) (hguard : NotStale user s a) (h : step cfg user s a = some t) :
    Sound cfg user initial t := by
  cases a with
  | begin i events =>
    simp only [step] at h
    split at h
    · obtain rfl := Option.some.inj h
      exact sound_set_some hs (nodup_uniqueEvents events) (by simp [Tx.wrote])
    · contradiction
  | claim i =>
    simp only [step] at h
    split at h
    · next events htx =>
      split_ifs at h
      obtain rfl := Option.some.inj h
      exact sound_set_some hs (map_receiptOf_claimedEvents (hs.tx i _ htx)) (by simp [Tx.wrote])
    · contradiction
  | read i =>
    simp only [step] at h
    split at h
    · next rows events htx =>
      obtain rfl := Option.some.inj h
      refine sound_set_some hs ?_ (by simp [Tx.wrote])
      show ((if user ∈ s.store.users then events else []).map (receiptOf user)).Perm _
      rw [if_pos (hs.users_eq ▸ huser)]
      exact hs.tx i _ htx
    · contradiction
  | write i =>
    simp only [step] at h
    split at h
    · next rows applied vec htx =>
      split_ifs at h with hwrites hfree
      · obtain ⟨ids, hids, rfl⟩ := Option.map_eq_some_iff.mp h
        refine sound_set_some hs ⟨hs.tx i _ htx, ?_⟩ (fun _ => hfree)
        have hvec : vec = s.store.topicWeights user := hguard _ htx hwrites
        show applied.foldl _ vec = _
        rw [hvec, deltas, hids, List.foldl_map]
        rfl
      · obtain rfl := Option.some.inj h
        exact sound_set_some hs ⟨hs.tx i _ htx, by simpa using hwrites⟩ (by simp [Tx.wrote])
    · contradiction
  | commit i =>
    simp only [step] at h
    split at h
    · next rows applied vec htx =>
      obtain rfl := Option.some.inj h
      exact sound_commit hs htx
    · contradiction
  | abort i =>
    simp only [step] at h
    split at h
    · obtain rfl := Option.some.inj h
      exact sound_set hs (by simp) (by simp)
    · contradiction

/-- The start: no transaction is open. -/
structure Initial (s : State n F) : Prop where
  tx_eq : ∀ i, s.tx i = none
  applied_eq : s.applied = []

theorem sound_of_initial (h : Initial s) : Sound cfg user s.store s :=
  ⟨rfl, rfl, by simp [h.applied_eq], ⟨[], by simp, by simp [h.applied_eq]⟩, by simp [h.tx_eq],
    by simp [h.tx_eq]⟩

/-- **No lost update.**  In a run whose upserts are not stale, the vector of the user is the fold
    of the deltas of the events whose receipts were claimed. -/
theorem noLostUpdate (cfg : Config F) (user : Uuid) (s t : State n F) (as : List (Action n))
    (hinit : Initial s) (huser : user ∈ s.store.users)
    (hrun : Lib.run (step cfg user) s as = some t)
    (hfresh : Lib.Along (step cfg user) (NotStale user) s as) :
    Serialized cfg user s.store t := by
  have hsound : Sound cfg user s.store t :=
    Lib.run_invariant_along (P := Sound cfg user s.store) (sound_step huser)
      (sound_of_initial hinit) hrun hfresh
  exact ⟨⟨t.applied, List.Perm.refl _, hsound.vector_eq⟩, hsound.receipts_eq⟩

end Step

/-! ### Two instances -/

/-- The post 2 exists, and the user 7. -/
private def twoInstances : State 2 Int where
  store := ⟨[7], [⟨2, ["lean"], []⟩], [], []⟩
  tx _ := none
  applied := []

attribute [local instance] Lib.neZero_two

/-- One instance after the other. -/
private def oneAfterTheOther : List (Action 2) :=
  [.begin 0 [interaction 1 "liked"], .claim 0, .read 0, .write 0, .commit 0,
   .begin 1 [interaction 2 "saved"], .claim 1, .read 1, .write 1, .commit 1]

/-- Both read before one of them commits. -/
private def interleaved : List (Action 2) :=
  [.begin 0 [interaction 1 "liked"], .begin 1 [interaction 2 "saved"], .claim 0, .claim 1, .read 0,
   .read 1, .write 0, .commit 0, .write 1, .commit 1]

/-- Two transactions, one after the other. -/
theorem noLostUpdate_oneAfterTheOther :
    ∃ t, Lib.run (step smallConfig 7) twoInstances oneAfterTheOther = some t
      ∧ Serialized smallConfig 7 twoInstances.store t := by
  have hsome : (Lib.run (step smallConfig 7) twoInstances oneAfterTheOther).isSome := by
    decide +kernel
  have hrun := (Option.some_get hsome).symm
  exact ⟨_, hrun, noLostUpdate smallConfig 7 twoInstances _ oneAfterTheOther ⟨fun _ => rfl, rfl⟩
    (by decide) hrun (by decide +kernel)⟩

private theorem isSome_interleaved :
    (Lib.run (step smallConfig 7) twoInstances interleaved).isSome := by
  decide +kernel

private def afterInterleaved : State 2 Int :=
  (Lib.run (step smallConfig 7) twoInstances interleaved).get isSome_interleaved

/-- **Counterexample.**  Both instances read the empty vector, and the second upsert replaces the
    weight of the like by that of the save, although both receipts are claimed. -/
theorem lost_update :
    Lib.run (step smallConfig 7) twoInstances interleaved = some afterInterleaved
      ∧ afterInterleaved.store.receipts = [⟨1, 7, "liked"⟩, ⟨2, 7, "saved"⟩]
      ∧ ¬ Serialized smallConfig 7 twoInstances.store afterInterleaved := by
  refine ⟨(Option.some_get _).symm, by decide +kernel, fun h => ?_⟩
  obtain ⟨order, hperm, hvector⟩ := h.vector_eq
  have hnone : ∀ order ∈ afterInterleaved.applied.permutations', ¬ afterInterleaved.store.topicWeights 7
      = order.foldl (applyDelta smallConfig) (twoInstances.store.topicWeights 7) := by
    decide +kernel
  exact hnone order (List.mem_permutations'.mpr hperm) hvector

end Oecophylla.Worker.Concurrent
