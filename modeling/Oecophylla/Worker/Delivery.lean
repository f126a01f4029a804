import Oecophylla.Worker.Machine

namespace Oecophylla.Worker

open Lib (Taken)

/-!
# Committed offsets — what the worker has done with the events below them

The invariant follows an event from the log to its receipt: an event below the polled position
is still in the hands of the process (in the buffer, in the queue or among the failed ones) or
has a receipt, and whenever the offsets are committed the process has nothing in its hands.

* `Process.pending` — the events in the hands of the process;
* `Holds` — what `startFlush`, `nextUser` and `endFlush` make of them;
* `Process.Sound`, `Sound` — the invariant, of the process and of the system;
* `CancelSafe` — the condition under which a cancelled task drops nothing it still has to do;
* `sound_step`, `sound_run` — the invariant along runs that meet the condition.
-/

/-- The queue of the flush that is going on. -/
def Pc.queue : Pc → Queue
  | .applying queue _ _ => queue
  | _ => []

/-- The events that the flush has taken out of the buffer. -/
def Pc.inFlight : Pc → List Envelope
  | .applying queue failed _ => queue.flatMap Prod.snd ++ failed
  | .trending failed => failed
  | _ => []

/-- The events in the hands of the process. -/
def Process.pending (p : Process) : List Envelope := p.buffer ++ p.pc.inFlight

/-- A feature event has its receipt. -/
def Handled (qualifiedReadMs : Int) (receipts : List Receipt) (env : Envelope) : Prop :=
  ∀ user id, classify qualifiedReadMs env = .feature user id → Taken Receipt.eventId receipts id

instance (q : Int) (receipts : List Receipt) (env : Envelope) : Decidable (Handled q receipts env) :=
  match h : classify q env with
  | .feature user id => decidable_of_iff (Taken Receipt.eventId receipts id) (by simp [Handled, h])
  | .ignored => .isTrue (by simp [Handled, h])
  | .unknown => .isTrue (by simp [Handled, h])
  | .invalid => .isTrue (by simp [Handled, h])

theorem handled_mono {q : Int} {receipts receipts' : List Receipt} {env : Envelope}
    (hsub : receipts ⊆ receipts') (h : Handled q receipts env) : Handled q receipts' env := by
  intro user id hclass
  obtain ⟨r, hr, hid⟩ := h user id hclass
  exact ⟨r, hsub hr, hid⟩

/-! ### Grouping by user -/

section Group

variable {q : Int} {queue : Queue} {user : Uuid} {env e : Envelope}

theorem mem_flatMap_addToUser :
    e ∈ (addToUser queue user env).flatMap Prod.snd ↔ e ∈ queue.flatMap Prod.snd ∨ e = env := by
  unfold addToUser
  split
  · next hmem =>
    simp only [List.mem_flatMap, List.mem_map]
    constructor
    · rintro ⟨_, ⟨g, hg, rfl⟩, he⟩
      split at he
      · rcases List.mem_append.mp he with he | he
        · exact .inl ⟨g, hg, he⟩
        · exact .inr (List.mem_singleton.mp he)
      · exact .inl ⟨g, hg, he⟩
    · rintro (⟨g, hg, he⟩ | rfl)
      · refine ⟨_, ⟨g, hg, rfl⟩, ?_⟩
        split
        · exact List.mem_append_left _ he
        · exact he
      · obtain ⟨g, hg, hu⟩ := List.mem_map.mp hmem
        refine ⟨_, ⟨g, hg, rfl⟩, ?_⟩
        rw [if_pos hu]
        exact List.mem_append_right _ (List.mem_singleton_self _)
  · simp

/-- The events of a group belong to the user of the group. -/
def Grouped (q : Int) (queue : Queue) : Prop :=
  ∀ g ∈ queue, ∀ env ∈ g.2, ∃ id, classify q env = .feature g.1 id

theorem grouped_addToUser {id : Uuid} (hqueue : Grouped q queue)
    (henv : classify q env = .feature user id) : Grouped q (addToUser queue user env) := by
  unfold addToUser
  split
  · intro g hg e he
    obtain ⟨g', hg', rfl⟩ := List.mem_map.mp hg
    split at he
    · next huser =>
      rw [if_pos huser]
      rcases List.mem_append.mp he with he | he
      · exact huser ▸ hqueue g' hg' e he
      · exact ⟨id, List.mem_singleton.mp he ▸ henv⟩
    · next huser =>
      rw [if_neg huser]
      exact hqueue g' hg' e he
  · intro g hg e he
    rcases List.mem_append.mp hg with hg | hg
    · exact hqueue g hg e he
    · obtain rfl := List.mem_singleton.mp hg
      exact ⟨id, List.mem_singleton.mp he ▸ henv⟩

theorem perUser_append_singleton (events : List Envelope) :
    perUser q (events ++ [env]) = queueEvent q (perUser q events) env := by
  simp [perUser]

theorem grouped_perUser (events : List Envelope) : Grouped q (perUser q events) := by
  induction events using List.reverseRecOn with
  | nil => simp [perUser, Grouped]
  | append_singleton events env ih =>
    rw [perUser_append_singleton]
    unfold queueEvent
    split
    · next user id hclass => exact grouped_addToUser ih hclass
    · exact ih

/-- The queue has the feature events of a flush. -/
theorem mem_perUser (events : List Envelope) :
    e ∈ (perUser q events).flatMap Prod.snd ↔
      e ∈ events ∧ ∃ user id, classify q e = .feature user id := by
  induction events using List.reverseRecOn with
  | nil => simp [perUser]
  | append_singleton events env ih =>
    rw [perUser_append_singleton, List.mem_append, List.mem_singleton]
    unfold queueEvent
    split
    · next user id hclass =>
      rw [mem_flatMap_addToUser, ih]
      constructor
      · rintro (⟨he, hfeature⟩ | rfl)
        · exact ⟨.inl he, hfeature⟩
        · exact ⟨.inr rfl, user, id, hclass⟩
      · rintro ⟨he | rfl, hfeature⟩
        · exact .inl ⟨he, hfeature⟩
        · exact .inr rfl
    · next hclass =>
      rw [ih]
      constructor
      · exact fun ⟨he, hfeature⟩ => ⟨.inl he, hfeature⟩
      · rintro ⟨he | rfl, user, id, hfeature⟩
        · exact ⟨he, user, id, hfeature⟩
        · exact absurd hfeature (hclass user id)

end Group

/-! ### What a flush keeps hold of -/

/-- The process has polled up to `position`, has `events` in its hands and works on `queue`. -/
structure Holds (p : Process) (position : Nat → Nat) (events : List Envelope) (queue : Queue) :
    Prop where
  position_eq : p.position = position
  mem_pending : ∀ env, env ∈ p.pending ↔ env ∈ events
  queue_subset : p.pc.queue ⊆ queue
  drained : p.pc ≠ .polling → p.pc ≠ .refreshing → p.buffer = []
  nothing_left : p.pc = .committing → events = []

theorem holds_endFlush {p p' : Process} {failed : List Envelope} (hbuffer : p.buffer = [])
    (h : endFlush p failed = some p') : Holds p' p.position failed [] := by
  unfold endFlush at h
  split_ifs at h with hfailed <;> rw [Option.some.injEq] at h <;> subst h
  · exact ⟨rfl, by simp [Process.pending, Pc.inFlight, hbuffer, hfailed], by simp [Pc.queue],
      fun _ _ => hbuffer, fun _ => hfailed⟩
  · exact ⟨rfl, by simp [Process.pending, Pc.inFlight, hbuffer], by simp [Pc.queue],
      fun _ hpc => absurd rfl hpc, by simp⟩

theorem holds_nextUser {p p' : Process} {queue : Queue} {failed trending : List Envelope}
    (hbuffer : p.buffer = []) (h : nextUser p queue failed trending = some p') :
    Holds p' p.position (queue.flatMap Prod.snd ++ failed) queue := by
  unfold nextUser at h
  split_ifs at h with hqueue htrending
  · rw [Option.some.injEq] at h
    subst h
    exact ⟨rfl, by simp [Process.pending, Pc.inFlight, hbuffer], fun _ hg => hg,
      fun _ _ => hbuffer, by simp⟩
  · rw [Option.some.injEq] at h
    subst h
    rw [not_not.mp hqueue]
    exact ⟨rfl, by simp [Process.pending, Pc.inFlight, hbuffer], by simp [Pc.queue],
      fun _ _ => hbuffer, by simp⟩
  · rw [not_not.mp hqueue]
    exact holds_endFlush hbuffer h

theorem holds_startFlush {q : Int} {p p' : Process} (h : startFlush q p = some p') :
    Holds p' p.position ((perUser q p.buffer).flatMap Prod.snd) (perUser q p.buffer) := by
  unfold startFlush at h
  split_ifs at h with hbuffer
  · rw [hbuffer]
    exact holds_endFlush hbuffer h
  · have hnext := holds_nextUser (p := { p with buffer := [] }) rfl h
    rwa [List.append_nil] at hnext

/-! ### The invariant -/

/-- The event is in the log. -/
def Logged (log : Nat → List Record) (env : Envelope) : Prop := ∃ k, some env ∈ log k

/-- The events below a position are in some list or have their receipts. -/
def Covered (q : Int) (log : Nat → List Record) (receipts : List Receipt) (position : Nat → Nat)
    (events : List Envelope) : Prop :=
  ∀ k i env, i < position k → (log k)[i]? = some (some env) → env ∈ events ∨ Handled q receipts env

/-- The invariant of the process. -/
structure Process.Sound (q : Int) (log : Nat → List Record) (receipts : List Receipt)
    (p : Process) : Prop where
  position_le : ∀ k, p.position k ≤ (log k).length
  covered : Covered q log receipts p.position p.pending
  logged : ∀ env ∈ p.pending, Logged log env
  grouped : Grouped q p.pc.queue
  drained : p.pc ≠ .polling → p.pc ≠ .refreshing → p.buffer = []
  nothing_left : p.pc = .committing → p.pending = []

/-- The invariant of the system. -/
structure Sound {F : Type} (q : Int) (s : State F) : Prop where
  committed_le : ∀ k, s.committed k ≤ (s.log k).length
  committed_handled : Covered q s.log s.store.receipts s.committed []
  worker : ∀ p ∈ s.worker, p.Sound q s.log s.store.receipts

section Invariant

variable {q : Int} {log log' : Nat → List Record} {receipts receipts' : List Receipt}
  {position : Nat → Nat} {events events' : List Envelope}

/-- Events may leave the hands of the process once they have their receipts. -/
theorem covered_mono (hsub : receipts ⊆ receipts')
    (hevents : ∀ env ∈ events, env ∈ events' ∨ Handled q receipts' env)
    (h : Covered q log receipts position events) : Covered q log receipts' position events' := by
  intro k i env hi hat
  rcases h k i env hi hat with hmem | hhandled
  · exact hevents env hmem
  · exact .inr (handled_mono hsub hhandled)

/-- A new record keeps the records of every partition. -/
theorem prefix_produce (log : Nat → List Record) (k : Nat) (record : Record) (j : Nat) :
    log j <+: Function.update log k (log k ++ [record]) j := by
  by_cases hj : j = k
  · rw [hj, Function.update_self]
    exact List.prefix_append _ _
  · simp [hj]

/-- The log only grows behind the position. -/
theorem covered_extend (hlog : ∀ k, log k <+: log' k) (hle : ∀ k, position k ≤ (log k).length)
    (h : Covered q log receipts position events) : Covered q log' receipts position events := by
  intro k i env hi hat
  apply h k i env hi
  obtain ⟨tail, htail⟩ := hlog k
  rw [← htail, List.getElem?_append_left (lt_of_lt_of_le hi (hle k))] at hat
  exact hat

theorem logged_extend {env : Envelope} (hlog : ∀ k, log k <+: log' k) (h : Logged log env) :
    Logged log' env := by
  obtain ⟨k, hk⟩ := h
  exact ⟨k, (hlog k).subset hk⟩

/-- What the flush keeps hold of is sound. -/
theorem sound_of_holds {p : Process} {queue : Queue} (h : Holds p position events queue)
    (hle : ∀ k, position k ≤ (log k).length) (hcovered : Covered q log receipts position events)
    (hlogged : ∀ env ∈ events, Logged log env) (hgrouped : Grouped q queue) :
    p.Sound q log receipts := by
  refine ⟨h.position_eq ▸ hle, ?_, ?_, fun g hg => hgrouped g (h.queue_subset hg), h.drained, ?_⟩
  · intro k i env hi hat
    rw [h.mem_pending]
    exact hcovered k i env (h.position_eq ▸ hi) hat
  · exact fun env henv => hlogged env ((h.mem_pending env).mp henv)
  · intro hpc
    apply List.eq_nil_iff_forall_not_mem.mpr
    intro env henv
    rw [h.mem_pending, h.nothing_left hpc] at henv
    contradiction

/-- The environment adds to the log and to the receipts. -/
theorem Process.Sound.extend {p : Process} (h : p.Sound q log receipts)
    (hlog : ∀ k, log k <+: log' k) (hsub : receipts ⊆ receipts') : p.Sound q log' receipts' := by
  refine ⟨fun k => (h.position_le k).trans (hlog k).length_le, ?_,
    fun env henv => logged_extend hlog (h.logged env henv), h.grouped, h.drained, h.nothing_left⟩
  exact covered_extend hlog h.position_le
    (covered_mono hsub (fun env henv => .inl henv) h.covered)

/-- A flush that begins is sound when all that matters is in the buffer. -/
theorem sound_startFlush {p p' : Process} (h : startFlush q p = some p')
    (hle : ∀ k, p.position k ≤ (log k).length)
    (hcovered : Covered q log receipts p.position p.buffer)
    (hlogged : ∀ env ∈ p.buffer, Logged log env) : p'.Sound q log receipts := by
  refine sound_of_holds (holds_startFlush h) hle ?_ ?_ (grouped_perUser p.buffer)
  · apply covered_mono (List.Subset.refl _) _ hcovered
    intro env henv
    by_cases hfeature : ∃ user id, classify q env = .feature user id
    · exact .inl ((mem_perUser p.buffer).mpr ⟨henv, hfeature⟩)
    · exact .inr fun user id hclass => absurd ⟨user, id, hclass⟩ hfeature
  · exact fun env henv => hlogged env ((mem_perUser p.buffer).mp henv).1

/-- What `getmany` hands out. -/
theorem fetch_eq_some {batches : List (Nat × Nat)} {position' : Nat → Nat}
    (h : fetch log batches position events = some (position', events'))
    (hle : ∀ k, position k ≤ (log k).length) (hcovered : Covered q log receipts position events)
    (hlogged : ∀ env ∈ events, Logged log env) :
    (∀ k, position' k ≤ (log k).length) ∧ Covered q log receipts position' events'
      ∧ ∀ env ∈ events', Logged log env := by
  induction batches generalizing position events with
  | nil =>
    rw [fetch, Option.some.injEq, Prod.mk.injEq] at h
    obtain ⟨rfl, rfl⟩ := h
    exact ⟨hle, hcovered, hlogged⟩
  | cons batch batches ih =>
    obtain ⟨k, n⟩ := batch
    rw [fetch] at h
    split_ifs at h with hfits
    refine ih h ?_ ?_ ?_
    · intro j
      by_cases hj : j = k
      · subst hj
        rw [Function.update_self]
        exact hfits
      · rw [Function.update_of_ne hj]
        exact hle j
    · intro j i env hi hat
      by_cases hold : i < position j
      · exact (hcovered j i env hold hat).imp (List.mem_append_left _) id
      · left
        have hj : j = k := by
          by_contra hne
          rw [Function.update_of_ne hne] at hi
          exact hold hi
        subst hj
        rw [Function.update_self] at hi
        -- the record is among the ones just handed out
        have hnew : (((log j).drop (position j)).take n)[i - position j]? = some (some env) := by
          rw [List.getElem?_take_of_lt (by omega), List.getElem?_drop, ← hat]
          congr 1
          omega
        exact List.mem_append_right _
          (List.mem_filterMap.mpr ⟨some env, List.mem_of_getElem? hnew, rfl⟩)
    · intro env henv
      rcases List.mem_append.mp henv with henv | henv
      · exact hlogged env henv
      · obtain ⟨record, hrecord, rfl⟩ := List.mem_filterMap.mp henv
        exact ⟨k, List.mem_of_mem_drop (List.mem_of_mem_take hrecord)⟩

end Invariant

/-! ### Every step preserves the invariant -/

/-- What a flush loses when it is cancelled: all it has taken out of the buffer, except the
    events of a transaction that still goes through. -/
def lost (p : Process) (done : Bool) : List Envelope :=
  match p.pc with
  | .applying ((_, events) :: queue) failed _ =>
    (if done then [] else events) ++ queue.flatMap Prod.snd ++ failed
  | pc => pc.inFlight

section Step

variable {F : Type} {cfg : Config F}

/-- **The task may be cancelled.**  Every event that the flush loses has its receipt. -/
def CancelSafe (cfg : Config F) (s : State F) : Action → Prop
  | .cancel done => ∀ p ∈ s.worker, ∀ env ∈ lost p done,
    Handled cfg.qualifiedReadMs s.store.receipts env
  | _ => True

instance (s : State F) : (a : Action) → Decidable (CancelSafe cfg s a)
  | .cancel done => inferInstanceAs (Decidable (∀ p ∈ s.worker, ∀ env ∈ lost p done, Handled _ _ env))
  | .produce .. | .editPosts _ | .deleteUser _ | .poll .. | .applyUser _ | .updateTrending | .commit
  | .commitRaises _ | .refreshed | .crash | .restart => .isTrue trivial

/-- A transaction that goes through leaves the broker and the process alone, and every event
    has its receipt. -/
theorem commitUser_eq_some {s s' : State F} {user : Uuid} {events applied : List Envelope}
    (h : commitUser cfg s user events = some (s', applied)) :
    s'.log = s.log ∧ s'.committed = s.committed ∧ s'.worker = s.worker
      ∧ s.store.receipts ⊆ s'.store.receipts
      ∧ ∀ env ∈ events, Handled cfg.qualifiedReadMs s'.store.receipts env := by
  unfold commitUser at h
  obtain ⟨⟨store', applied'⟩, hstore, h⟩ := Option.map_eq_some_iff.mp h
  rw [Prod.mk.injEq] at h
  obtain ⟨rfl, rfl⟩ := h
  refine ⟨rfl, rfl, rfl, ?_, ?_⟩
  · show s.store.receipts ⊆ store'.receipts
    rw [(applyForUser_eq_some hstore).2.2.2.1]
    exact List.subset_append_left _ _
  · intro env henv u id hclass
    exact taken_of_applyForUser hstore henv (of_classify_eq_feature hclass).2

theorem mem_pending_of_applying {p : Process} {user : Uuid} {events : List Envelope} {queue : Queue}
    {failed trending : List Envelope} (hbuffer : p.buffer = [])
    (hpc : p.pc = .applying ((user, events) :: queue) failed trending) {env : Envelope} :
    env ∈ p.pending ↔ env ∈ events ∨ env ∈ queue.flatMap Prod.snd ∨ env ∈ failed := by
  simp [Process.pending, Pc.inFlight, hbuffer, hpc]

/-- The process goes on with the next user. -/
theorem sound_nextUser {q : Int} {log : Nat → List Record} {receipts receipts' : List Receipt}
    {p p' : Process} {user : Uuid} {events : List Envelope} {queue : Queue}
    {failed failed' trending trending' : List Envelope} (hsound : p.Sound q log receipts)
    (hpc : p.pc = .applying ((user, events) :: queue) failed trending)
    (hsub : receipts ⊆ receipts')
    (hevents : ∀ env ∈ events, env ∈ failed' ∨ Handled q receipts' env)
    (hfailed : ∀ env, env ∈ failed → env ∈ failed')
    (hfailed' : ∀ env, env ∈ failed' → env ∈ failed ∨ env ∈ events)
    (h : nextUser p queue failed' trending' = some p') : p'.Sound q log receipts' := by
  have hbuffer : p.buffer = [] := hsound.drained (by simp [hpc]) (by simp [hpc])
  have hmem := @mem_pending_of_applying p user events queue failed trending hbuffer hpc
  refine sound_of_holds (holds_nextUser hbuffer h) hsound.position_le ?_ ?_ ?_
  · apply covered_mono hsub _ hsound.covered
    intro env henv
    rw [List.mem_append]
    rcases hmem.mp henv with henv | henv | henv
    · exact (hevents env henv).imp .inr id
    · exact .inl (.inl henv)
    · exact .inl (.inr (hfailed env henv))
  · intro env henv
    apply hsound.logged
    rw [hmem]
    rcases List.mem_append.mp henv with henv | henv
    · exact .inr (.inl henv)
    · rcases hfailed' env henv with henv | henv
      · exact .inr (.inr henv)
      · exact .inl henv
  · intro g hg
    exact hsound.grouped g (by rw [hpc]; exact List.mem_cons_of_mem _ hg)

/-- The tables may change as long as no receipt is lost. -/
theorem Sound.withTables {q : Int} {s s' : State F} {worker : Option Process} (hs : Sound q s)
    (hlog : s'.log = s.log) (hcommitted : s'.committed = s.committed)
    (hsub : s.store.receipts ⊆ s'.store.receipts)
    (hworker : ∀ p ∈ worker, p.Sound q s.log s'.store.receipts) : Sound q { s' with worker } := by
  refine ⟨fun k => ?_, ?_, fun p hp => ?_⟩
  · show s'.committed k ≤ (s'.log k).length
    rw [hlog, hcommitted]
    exact hs.committed_le k
  · show Covered _ s'.log s'.store.receipts s'.committed []
    rw [hlog, hcommitted]
    exact covered_mono hsub (fun env henv => .inl henv) hs.committed_handled
  · show p.Sound _ s'.log s'.store.receipts
    rw [hlog]
    exact hworker p hp

/-- The transaction of a user keeps the worker sound, whatever becomes of it. -/
theorem sound_stepApply {s t : State F} {p : Process} {outcome : TxOutcome}
    (hs : Sound cfg.qualifiedReadMs s) (hp : s.worker = some p)
    (h : stepApply cfg s p outcome = some t) : Sound cfg.qualifiedReadMs t := by
  have hsound := hs.worker p hp
  unfold stepApply at h
  split at h
  · next user events queue failed trending hpc =>
    -- the tables may have changed, and the process goes on with `failed'`
    have hnext : ∀ (s' : State F) (failed' trending' : List Envelope),
        s'.log = s.log → s'.committed = s.committed → s.store.receipts ⊆ s'.store.receipts →
        (∀ env ∈ events, env ∈ failed' ∨ Handled cfg.qualifiedReadMs s'.store.receipts env) →
        (∀ env, env ∈ failed → env ∈ failed') →
        (∀ env, env ∈ failed' → env ∈ failed ∨ env ∈ events) →
        Sound cfg.qualifiedReadMs { s' with worker := nextUser p queue failed' trending' } := by
      intro s' failed' trending' hlog hcommitted hsub hevents hfailed hfailed'
      exact hs.withTables hlog hcommitted hsub fun p' hp' =>
        sound_nextUser hsound hpc hsub hevents hfailed hfailed' hp'
    cases outcome with
    | rolledBack =>
      rw [Option.some.injEq] at h
      subst h
      exact hnext s (failed ++ events) trending rfl rfl (List.Subset.refl _)
        (fun env henv => .inl (List.mem_append_right _ henv))
        (fun env henv => List.mem_append_left _ henv) (fun env henv => List.mem_append.mp henv)
    | committed =>
      obtain ⟨⟨s', applied⟩, hcommit, rfl⟩ := Option.map_eq_some_iff.mp h
      obtain ⟨hlog, hcommitted, -, hsub, hhandled⟩ := commitUser_eq_some hcommit
      exact hnext s' failed _ hlog hcommitted hsub (fun env henv => .inr (hhandled env henv))
        (fun env henv => henv) (fun env henv => .inl henv)
    | raisedAfterCommit =>
      obtain ⟨⟨s', applied⟩, hcommit, rfl⟩ := Option.map_eq_some_iff.mp h
      obtain ⟨hlog, hcommitted, -, hsub, -⟩ := commitUser_eq_some hcommit
      exact hnext s' (failed ++ events) _ hlog hcommitted hsub
        (fun env henv => .inl (List.mem_append_right _ henv))
        (fun env henv => List.mem_append_left _ henv) (fun env henv => List.mem_append.mp henv)
  · contradiction

/-- The handler of a cancelled task is sound when what the flush had taken out of the buffer
    has its receipts. -/
theorem sound_handler {q : Int} {log : Nat → List Record} {receipts receipts' : List Receipt}
    {p p' : Process} (hsound : p.Sound q log receipts) (hsub : receipts ⊆ receipts')
    (hlost : ∀ env ∈ p.pc.inFlight, Handled q receipts' env)
    (h : startFlush q { p with cancelled := true } = some p') : p'.Sound q log receipts' := by
  refine sound_startFlush h hsound.position_le ?_ ?_
  · apply covered_mono hsub _ hsound.covered
    intro env henv
    rcases List.mem_append.mp henv with henv | henv
    · exact .inl henv
    · exact .inr (hlost env henv)
  · exact fun env henv => hsound.logged env (List.mem_append_left _ henv)

/-- So does a cancellation that loses nothing. -/
theorem sound_stepCancel {s t : State F} {p : Process} {done : Bool}
    (hs : Sound cfg.qualifiedReadMs s) (hp : s.worker = some p)
    (hlost : ∀ env ∈ lost p done, Handled cfg.qualifiedReadMs s.store.receipts env)
    (h : stepCancel cfg s p done = some t) : Sound cfg.qualifiedReadMs t := by
  have hsound := hs.worker p hp
  unfold stepCancel at h
  dsimp only at h
  by_cases hcancelled : p.cancelled = true
  · rw [if_pos hcancelled] at h
    contradiction
  rw [if_neg hcancelled] at h
  unfold lost at hlost
  -- the process is cancelled and nothing else happens
  have hquiet : (∀ env ∈ p.pc.inFlight, Handled cfg.qualifiedReadMs s.store.receipts env) →
      Sound cfg.qualifiedReadMs { s with
        worker := startFlush cfg.qualifiedReadMs { p with cancelled := true } } := fun hflight =>
    ⟨hs.committed_le, hs.committed_handled,
      fun p' hp' => sound_handler hsound (List.Subset.refl _) hflight hp'⟩
  split at h
  · next user events queue failed trending hpc =>
    simp only [hpc] at hlost
    split_ifs at h with hdone
    · obtain ⟨⟨s', applied⟩, hcommit, rfl⟩ := Option.map_eq_some_iff.mp h
      obtain ⟨hlog, hcommitted, -, hsub, hhandled⟩ := commitUser_eq_some hcommit
      refine hs.withTables hlog hcommitted hsub fun p' hp' =>
        sound_handler hsound hsub (fun env henv => ?_) hp'
      rw [hpc] at henv
      simp only [Pc.inFlight, List.flatMap_cons, List.append_assoc, List.mem_append] at henv
      rcases henv with henv | henv
      · exact hhandled env henv
      · refine handled_mono hsub (hlost env ?_)
        simp only [hdone, if_true, List.nil_append, List.mem_append]
        exact henv
    · rw [Option.some.injEq] at h
      subst h
      apply hquiet
      intro env henv
      rw [hpc] at henv
      apply hlost env
      simpa [Pc.inFlight, hdone] using henv
  · contradiction
  · next hpc =>
    rw [Option.some.injEq] at h
    subst h
    have hnothing := hsound.nothing_left hpc
    refine ⟨?_, ?_, (hquiet (by simp [hpc, Pc.inFlight])).worker⟩
    · intro k
      split
      · exact hsound.position_le k
      · exact hs.committed_le k
    · show Covered _ s.log s.store.receipts (if done = true then p.position else s.committed) []
      split
      · exact hnothing ▸ hsound.covered
      · exact hs.committed_handled
  · next hnotApplying hnotNil _ =>
    split_ifs at h
    rw [Option.some.injEq] at h
    subst h
    apply hquiet
    intro env henv
    apply hlost env
    cases hpc : p.pc with
    | applying queue failed trending =>
      cases queue with
      | nil => exact absurd hpc (hnotNil _ _)
      | cons g queue => exact absurd hpc (hnotApplying _ _ _ _ _)
    | _ => simpa [hpc] using henv

/-- **One step.**  It preserves the invariant, provided that a task is only cancelled where it
    loses nothing. -/
theorem sound_step (s : State F) (a : Action) (t : State F) (hs : Sound cfg.qualifiedReadMs s)
    (hguard : CancelSafe cfg s a) (h : step cfg s a = some t) : Sound cfg.qualifiedReadMs t := by
  cases a with
  | produce k record =>
    obtain rfl := Option.some.inj h
    have hlog := prefix_produce s.log k record
    exact ⟨fun j => (hs.committed_le j).trans (hlog j).length_le,
      covered_extend hlog hs.committed_le hs.committed_handled,
      fun p hp => (hs.worker p hp).extend hlog (List.Subset.refl _)⟩
  | editPosts posts =>
    obtain rfl := Option.some.inj h
    exact ⟨hs.committed_le, hs.committed_handled, hs.worker⟩
  | deleteUser user =>
    obtain rfl := Option.some.inj h
    exact ⟨hs.committed_le, hs.committed_handled, hs.worker⟩
  | crash =>
    obtain ⟨p, -, rfl⟩ := Option.map_eq_some_iff.mp h
    exact ⟨hs.committed_le, hs.committed_handled, by simp⟩
  | restart =>
    simp only [step] at h
    split at h
    · obtain rfl := Option.some.inj h
      refine ⟨hs.committed_le, hs.committed_handled, fun p hp => ?_⟩
      obtain rfl := Option.some.inj hp
      exact ⟨hs.committed_le, hs.committed_handled, by simp [Process.pending, Pc.inFlight],
        by simp [Grouped, Pc.queue], by simp, by simp⟩
    · contradiction
  | poll batches elapsed =>
    obtain ⟨p, hp, h⟩ := Option.bind_eq_some_iff.mp h
    have hsound := hs.worker p hp
    split at h
    · next hpc =>
      obtain ⟨⟨position, buffer⟩, hfetch, rfl⟩ := Option.map_eq_some_iff.mp h
      have hpending : p.pending = p.buffer := by simp [Process.pending, hpc, Pc.inFlight]
      obtain ⟨hle, hcovered, hlogged⟩ := fetch_eq_some hfetch hsound.position_le
        (hpending ▸ hsound.covered) (hpending ▸ hsound.logged)
      refine ⟨hs.committed_le, hs.committed_handled, fun p' hp' => ?_⟩
      simp only [Option.mem_def] at hp'
      split_ifs at hp'
      · exact sound_startFlush hp' hle hcovered hlogged
      · obtain rfl := Option.some.inj hp'
        exact ⟨hle, by simpa [Process.pending, Pc.inFlight] using hcovered,
          by simpa [Process.pending, Pc.inFlight] using hlogged, by simp [Grouped, Pc.queue],
          fun _ hpc' => absurd rfl hpc', by simp⟩
    · contradiction
  | applyUser outcome =>
    obtain ⟨p, hp, h⟩ := Option.bind_eq_some_iff.mp h
    exact sound_stepApply hs hp h
  | updateTrending =>
    obtain ⟨p, hp, h⟩ := Option.bind_eq_some_iff.mp h
    have hsound := hs.worker p hp
    split at h
    · next failed hpc =>
      obtain rfl := Option.some.inj h
      refine ⟨hs.committed_le, hs.committed_handled, fun p' hp' => ?_⟩
      have hbuffer : p.buffer = [] := hsound.drained (by simp [hpc]) (by simp [hpc])
      have hpending : p.pending = failed := by simp [Process.pending, hbuffer, hpc, Pc.inFlight]
      exact sound_of_holds (holds_endFlush hbuffer hp') hsound.position_le
        (hpending ▸ hsound.covered) (hpending ▸ hsound.logged) (by simp [Grouped])
    · contradiction
  | commit =>
    obtain ⟨p, hp, h⟩ := Option.bind_eq_some_iff.mp h
    have hsound := hs.worker p hp
    split at h
    · next hpc =>
      obtain rfl := Option.some.inj h
      have hpending := hsound.nothing_left hpc
      refine ⟨hsound.position_le, hpending ▸ hsound.covered, fun p' hp' => ?_⟩
      simp only [Option.mem_def] at hp'
      split_ifs at hp'
      obtain rfl := Option.some.inj hp'
      have hbuffer : p.buffer = [] := hsound.drained (by simp [hpc]) (by simp [hpc])
      exact ⟨hsound.position_le, by simpa [Process.pending, hpc, Pc.inFlight] using hsound.covered,
        by simpa [Process.pending, hpc, Pc.inFlight] using hsound.logged, by simp [Grouped, Pc.queue],
        fun _ _ => hbuffer, by simp⟩
    · contradiction
  | commitRaises stored =>
    obtain ⟨p, hp, h⟩ := Option.bind_eq_some_iff.mp h
    have hsound := hs.worker p hp
    split at h
    · next hpc =>
      obtain rfl := Option.some.inj h
      have hpending := hsound.nothing_left hpc
      refine ⟨fun k => ?_, ?_, by simp⟩
      · show (if stored = true then p.position else s.committed) k ≤ _
        split
        · exact hsound.position_le k
        · exact hs.committed_le k
      · show Covered _ s.log s.store.receipts (if stored = true then p.position else s.committed) []
        split
        · exact hpending ▸ hsound.covered
        · exact hs.committed_handled
    · contradiction
  | refreshed =>
    obtain ⟨p, hp, h⟩ := Option.bind_eq_some_iff.mp h
    have hsound := hs.worker p hp
    split at h
    · next hpc =>
      obtain rfl := Option.some.inj h
      refine ⟨hs.committed_le, hs.committed_handled, fun p' hp' => ?_⟩
      obtain rfl := Option.some.inj hp'
      exact ⟨hsound.position_le, by simpa [Process.pending, hpc, Pc.inFlight] using hsound.covered,
        by simpa [Process.pending, hpc, Pc.inFlight] using hsound.logged, by simp [Grouped, Pc.queue],
        fun hpc' => absurd rfl hpc', by simp⟩
    · contradiction
  | cancel done =>
    obtain ⟨p, hp, h⟩ := Option.bind_eq_some_iff.mp h
    exact sound_stepCancel hs hp (hguard p hp) h

/-- The start: nothing is committed and the worker is down. -/
structure Initial (s : State F) : Prop where
  committed_eq : ∀ k, s.committed k = 0
  receipts_eq : s.store.receipts = []
  applied_eq : s.applied = []
  worker_eq : s.worker = none

theorem sound_of_initial {q : Int} {s : State F} (h : Initial s) : Sound q s :=
  ⟨fun k => by simp [h.committed_eq], fun k i env hi => by simp [h.committed_eq] at hi,
    by simp [h.worker_eq]⟩

/-- **Every run** in which a task is only cancelled where it loses nothing. -/
theorem sound_run {s t : State F} {as : List Action} (hinit : Initial s)
    (hrun : Lib.run (step cfg) s as = some t)
    (hsafe : Lib.Along (step cfg) (CancelSafe cfg) s as) : Sound cfg.qualifiedReadMs t :=
  Lib.run_invariant_along (P := Sound cfg.qualifiedReadMs) sound_step (sound_of_initial hinit) hrun
    hsafe

end Step

end Oecophylla.Worker
