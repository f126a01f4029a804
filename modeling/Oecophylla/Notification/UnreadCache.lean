import Oecophylla.Lib.Run
import Oecophylla.Notification.Envelope

namespace Oecophylla.Notification.UnreadCache

open Lib (run Along)

/-!
# The cached number of unread notifications — `cache.rs`, `unread_count` and its writers

`unread_count` fills the cache after it has counted, `dispatch_notification`, `mark_read` and
`mark_all_read` delete the key after they have changed the rows.  One user, any requests.

* `Action`, `step` — one query or Redis command at a time, with failures;
* `State.Right` — a cached number is the number of unread rows;
* `State.Owed` — a request that has changed the rows has its `DEL` to come;
* `InTime` — the condition: a number that has become wrong is only written while a `DEL` is to
  come, and a `DEL` is only given up while the cache does not need it;
* `covered_iff` — a step keeps the cache right, or a `DEL` to come, exactly when it is in time;
* `right_when_finished` — after a run in time a cached number is right;
* `stale_after_dispatch` — a run that is not.

What `dispatch_notification` publishes to open streams is not modelled.
-/

/-- A row of `notifications` of the user; `read` is `read_at IS NOT NULL`. -/
structure Row where
  id : Uuid
  read : Bool
  deriving DecidableEq, Repr

/-- What is requested. -/
inductive Request where
  | unreadCount
  | dispatch
  | markRead (id : Uuid)
  | markAllRead
  deriving DecidableEq, Repr

/-- What a request answers; `failed` is an error, or that nobody waits for the answer any more. -/
inductive Answer where
  | count (n : Nat)
  | dispatched
  | noContent
  | marked (count : Nat)
  | failed
  deriving DecidableEq, Repr

/-- What a request does next. -/
inductive Stage where
  /-- `cache::unread_count`. -/
  | reading
  /-- `repo::unread_count_db`. -/
  | counting
  /-- `cache::set_unread_count`. -/
  | storing (n : Nat)
  /-- The `INSERT` of `repo::insert`. -/
  | inserting
  /-- The `SELECT` of `repo::insert`. -/
  | hydrating
  /-- `repo::mark_read`. -/
  | marking (id : Uuid)
  /-- `repo::mark_all_read` takes its snapshot. -/
  | selecting
  /-- `repo::mark_all_read` updates what it has found. -/
  | markingAll (ids : List Uuid)
  /-- `cache::invalidate_unread_count`, and the answer after it. -/
  | invalidating (answer : Answer)
  | finished (answer : Answer)
  deriving DecidableEq, Repr

/-- The first command of a request. -/
def Request.first : Request → Stage
  | .unreadCount => .reading
  | .dispatch => .inserting
  | .markRead id => .marking id
  | .markAllRead => .selecting

/-- The request has changed the rows, and its `DEL` is to come. -/
def Stage.owes : Stage → Bool
  | .hydrating | .invalidating _ => true
  | .reading | .counting | .storing _ | .inserting | .marking _ | .selecting | .markingAll _
  | .finished _ => false

/-- The answer when the next command fails. -/
def Stage.answerOnFailure : Stage → Answer
  | .storing n => .count n
  -- `dispatch_notification` returns the error, the other two log it
  | .invalidating .dispatched => .failed
  | .invalidating answer => answer
  | _ => .failed

/-- The request has answered. -/
def Stage.isFinished : Stage → Bool
  | .finished _ => true
  | _ => false

/-- The rows, the cached number, and the requests in the order of their arrival. -/
structure State where
  rows : List Row
  cache : Option Nat
  requests : List Stage
  deriving DecidableEq, Repr

/-- The `COUNT(*)` of `unread_count_db`. -/
def State.unread (s : State) : Nat := s.rows.countP fun row => !row.read

/-- A request goes on. -/
def State.put (s : State) (i : Nat) (stage : Stage) : State :=
  { s with requests := s.requests.set i stage }

/-- `UPDATE notifications SET read_at = NOW()` for the unread ones among `ids`; `rows_affected`
    decides whether the cache is invalidated. -/
def State.update (s : State) (i : Nat) (ids : List Uuid) (answer : Nat → Answer) : State :=
  let count := s.rows.countP fun row => row.id ∈ ids && !row.read
  { s.put i (if 0 < count then .invalidating (answer count) else .finished (answer count)) with
    rows := s.rows.map fun row => if row.id ∈ ids then { row with read := true } else row }

/-- The next command of a request; `id` is the `gen_random_uuid()` of an `INSERT`. -/
def perform (s : State) (i : Nat) (id : Uuid) : Stage → Option State
  | .reading =>
    some (s.put i (match s.cache with
      | some n => .finished (.count n)
      | none => .counting))
  | .counting => some (s.put i (.storing s.unread))
  | .storing n => some { s.put i (.finished (.count n)) with cache := some n }
  | .inserting =>
    if id ∈ s.rows.map Row.id then none
    else some { s.put i .hydrating with rows := s.rows ++ [⟨id, false⟩] }
  | .hydrating => some (s.put i (.invalidating .dispatched))
  | .marking target => some (s.update i [target] fun _ => .noContent)
  | .selecting => some (s.put i (.markingAll ((s.rows.filter fun row => !row.read).map Row.id)))
  | .markingAll ids => some (s.update i ids .marked)
  | .invalidating answer => some { s.put i (.finished answer) with cache := none }
  | .finished _ => none

/-- What happens. -/
inductive Action where
  | arrive (request : Request)
  | perform (i : Nat) (id : Uuid)
  /-- Redis does not answer `cache::unread_count`. -/
  | readFails (i : Nat)
  /-- The next command fails, or the request is dropped before it. -/
  | fail (i : Nat)
  /-- Redis drops the key: `UNREAD_TTL_SECONDS` are over, or it needs the space. -/
  | expire
  deriving DecidableEq, Repr

/-- One action. -/
def step (s : State) : Action → Option State
  | .arrive request => some { s with requests := s.requests ++ [request.first] }
  | .perform i id => s.requests[i]?.bind (perform s i id)
  | .readFails i => if s.requests[i]? = some .reading then some (s.put i .counting) else none
  | .fail i =>
    s.requests[i]?.bind fun stage =>
      if stage.isFinished then none else some (s.put i (.finished stage.answerOnFailure))
  | .expire => some { s with cache := none }

/-! ### When a cached number is right -/

/-- A cached number, if present, is the number of unread rows. -/
def State.Right (s : State) : Prop := ∀ n ∈ s.cache, n = s.unread

/-- All requests have answered. -/
def State.Finished (s : State) : Prop := ∀ stage ∈ s.requests, stage.isFinished = true

/-- A `DEL` is to come. -/
def State.Owed (s : State) : Prop := ∃ stage ∈ s.requests, stage.owes = true

/-- Another request than `i` has its `DEL` to come. -/
def State.OwedBesides (s : State) (i : Nat) : Prop :=
  ∃ stage ∈ s.requests.eraseIdx i, stage.owes = true

/-- The cache is right, or a `DEL` is to come. -/
def State.Covered (s : State) : Prop := s.Right ∨ s.Owed

/-- The number that the next command writes into the cache. -/
def Stage.writes : Stage → Option Nat
  | .storing n => some n
  | _ => none

/-- **A command is in time.**  `SETEX` writes the number of unread rows, or a `DEL` is to come;
    a request that owes its `DEL` only fails while the cache is right or another `DEL` is to
    come. -/
def InTime (s : State) : Action → Prop
  | .perform i _ =>
    ∀ stage ∈ s.requests[i]?, ∀ n ∈ stage.writes, n = s.unread ∨ s.Owed
  | .fail i => ∀ stage ∈ s.requests[i]?, stage.owes = true → s.Right ∨ s.OwedBesides i
  | .arrive _ | .readFails _ | .expire => True

instance (s : State) : Decidable s.Right := inferInstanceAs (Decidable (∀ n ∈ s.cache, _))

instance (s : State) : Decidable s.Finished :=
  inferInstanceAs (Decidable (∀ stage ∈ s.requests, _))

instance (s : State) : Decidable s.Owed := inferInstanceAs (Decidable (∃ stage ∈ s.requests, _))

instance (s : State) (i : Nat) : Decidable (s.OwedBesides i) :=
  inferInstanceAs (Decidable (∃ stage ∈ s.requests.eraseIdx i, _))

instance (s : State) : (a : Action) → Decidable (InTime s a)
  | .perform i _ =>
    inferInstanceAs (Decidable (∀ stage ∈ s.requests[i]?, ∀ n ∈ stage.writes, _ ∨ _))
  | .fail i => inferInstanceAs (Decidable (∀ stage ∈ s.requests[i]?, _ → _ ∨ _))
  | .arrive _ | .readFails _ | .expire => .isTrue trivial

/-! ### What a step does to the requests -/

variable {s t : State} {i : Nat} {old new : Stage}

/-- One request, and the others. -/
theorem owed_iff (hold : s.requests[i]? = some old) :
    s.Owed ↔ old.owes = true ∨ s.OwedBesides i := by
  constructor
  · rintro ⟨stage, hmem, howes⟩
    obtain ⟨j, hj⟩ := List.mem_iff_getElem?.mp hmem
    by_cases hji : j = i
    · obtain rfl : old = stage := Option.some.inj (hold.symm.trans (hji ▸ hj))
      exact Or.inl howes
    · exact Or.inr ⟨stage, List.mem_eraseIdx_iff_getElem?.mpr ⟨j, hji, hj⟩, howes⟩
  · rintro (howes | ⟨stage, hmem, howes⟩)
    · exact ⟨old, List.mem_of_getElem? hold, howes⟩
    · exact ⟨stage, List.mem_of_mem_eraseIdx hmem, howes⟩

/-- After a step of one request the others are as before. -/
theorem owed_of_requests (hold : s.requests[i]? = some old)
    (hrequests : t.requests = s.requests.set i new) :
    t.Owed ↔ new.owes = true ∨ s.OwedBesides i := by
  have hi : i < s.requests.length := (List.getElem?_eq_some_iff.mp hold).1
  have hnew : t.requests[i]? = some new := by
    rw [hrequests, List.getElem?_set_self hi]
  rw [owed_iff hnew]
  unfold State.OwedBesides
  rw [hrequests, List.eraseIdx_set_eq]

/-- A step that leaves rows and cache alone, and does not forget a `DEL`. -/
theorem State.Covered.put (hs : s.Covered) (hold : s.requests[i]? = some old)
    (howes : old.owes = true → new.owes = true) : (s.put i new).Covered := by
  rcases hs with hright | howed
  · exact Or.inl hright
  · refine Or.inr ((owed_of_requests hold rfl).mpr ?_)
    exact ((owed_iff hold).mp howed).imp_left howes

/-- An `UPDATE` that changes nothing invalidates nothing. -/
theorem State.Covered.update (hs : s.Covered) (hold : s.requests[i]? = some old)
    (howes : old.owes = false) (ids : List Uuid) (answer : Nat → Answer) :
    (s.update i ids answer).Covered := by
  unfold State.update
  dsimp only
  by_cases hcount : 0 < s.rows.countP fun row => row.id ∈ ids && !row.read
  · rw [if_pos hcount]
    exact Or.inr ((owed_of_requests hold rfl).mpr (Or.inl rfl))
  · have hread : ∀ row ∈ s.rows, row.id ∈ ids → row.read = true := by
      have hnone := List.countP_eq_zero.mp (Nat.eq_zero_of_not_pos hcount)
      intro row hrow hid
      simpa [hid] using hnone row hrow
    have hrows : (s.rows.map fun row => if row.id ∈ ids then { row with read := true } else row)
        = s.rows := by
      rw [List.map_congr_left (g := id) ?_, List.map_id]
      intro row hrow
      by_cases hid : row.id ∈ ids
      · have htrue := hread row hrow hid
        simp [hid, ← htrue]
      · simp [hid]
    rw [if_neg hcount, hrows]
    exact hs.put hold (by simp [howes])

/-- The next command of a request. -/
theorem covered_perform_iff {id : Uuid} (hs : s.Covered) (hold : s.requests[i]? = some old)
    (h : perform s i id old = some t) :
    t.Covered ↔ ∀ n ∈ old.writes, n = s.unread ∨ s.Owed := by
  cases old with
  | storing n =>
    cases h
    -- afterwards `n` is cached, and the other requests owe what was owed before
    have howed : s.Owed ↔ s.OwedBesides i := by simp [owed_iff hold, Stage.owes]
    show (∀ m ∈ some n, m = s.unread) ∨ State.Owed _ ↔ ∀ m ∈ some n, m = s.unread ∨ s.Owed
    rw [owed_of_requests hold rfl, howed]
    simp [Stage.owes]
  | reading =>
    cases h
    exact iff_of_true (hs.put hold (by simp [Stage.owes])) (by simp [Stage.writes])
  | counting =>
    cases h
    exact iff_of_true (hs.put hold (by simp [Stage.owes])) (by simp [Stage.writes])
  | inserting =>
    obtain ⟨-, hput⟩ := Option.ite_none_left_eq_some.mp h
    cases hput
    have howed := (owed_of_requests (t := { s.put i .hydrating with rows := s.rows ++ [⟨id, false⟩] })
      hold rfl).mpr (Or.inl rfl)
    exact iff_of_true (Or.inr howed) (by simp [Stage.writes])
  | hydrating =>
    cases h
    exact iff_of_true (hs.put hold fun _ => rfl) (by simp [Stage.writes])
  | marking target =>
    cases h
    exact iff_of_true (hs.update hold rfl _ _) (by simp [Stage.writes])
  | selecting =>
    cases h
    exact iff_of_true (hs.put hold (by simp [Stage.owes])) (by simp [Stage.writes])
  | markingAll ids =>
    cases h
    exact iff_of_true (hs.update hold rfl _ _) (by simp [Stage.writes])
  | invalidating answer =>
    cases h
    exact iff_of_true (Or.inl fun n hn => nomatch hn) (by simp [Stage.writes])
  | finished answer => cases h

/-- **One step** keeps the cache right, or a `DEL` to come, exactly when it is in time. -/
theorem covered_iff {a : Action} (hs : s.Covered) (h : step s a = some t) :
    t.Covered ↔ InTime s a := by
  cases a with
  | arrive request =>
    cases h
    refine iff_of_true (hs.imp id ?_) trivial
    rintro ⟨stage, hmem, howes⟩
    exact ⟨stage, List.mem_append_left _ hmem, howes⟩
  | perform i id =>
    obtain ⟨old, hold, hperform⟩ := Option.bind_eq_some_iff.mp h
    rw [covered_perform_iff hs hold hperform]
    unfold InTime
    simp only [hold, Option.mem_some_iff, forall_eq']
  | readFails i =>
    obtain ⟨hold, hput⟩ := Option.ite_none_right_eq_some.mp h
    cases hput
    exact iff_of_true (hs.put hold (by simp [Stage.owes])) trivial
  | fail i =>
    obtain ⟨old, hold, hfail⟩ := Option.bind_eq_some_iff.mp h
    split at hfail
    · cases hfail
    · cases hfail
      show s.Right ∨ State.Owed _ ↔ ∀ stage ∈ s.requests[i]?, stage.owes = true → _
      rw [owed_of_requests hold rfl, hold]
      simp only [Stage.owes, Bool.false_eq_true, false_or, Option.mem_some_iff, forall_eq']
      -- a request that owes nothing fails without any harm
      refine ⟨fun hafter _ => hafter, fun hguard => ?_⟩
      by_cases howes : old.owes = true
      · exact hguard howes
      · exact hs.imp id fun howed => ((owed_iff hold).mp howed).resolve_left howes
  | expire =>
    cases h
    exact iff_of_true (Or.inl fun n hn => nomatch hn) trivial

/-! ### Runs -/

/-- When nothing is to come, the cache is right. -/
theorem State.Covered.right (hs : s.Covered) (hfinished : s.Finished) : s.Right := by
  refine hs.resolve_right ?_
  rintro ⟨stage, hmem, howes⟩
  have hdone := hfinished stage hmem
  cases stage <;> simp_all [Stage.owes, Stage.isFinished]

/-- **The unread cache.**  In a run that starts with a right cache, the cache is right or a `DEL`
    is to come in all states exactly when all commands are in time; and then, whenever all
    requests have answered, a cached number is the number of unread rows. -/
theorem right_when_finished {as : List Action} (hs : s.Right) (hrun : run step s as = some t) :
    ((∀ bs u, bs <+: as → run step s bs = some u → u.Covered) ↔ Along step InTime s as)
      ∧ (Along step InTime s as →
          ∀ bs u, bs <+: as → run step s bs = some u → u.Finished → u.Right) := by
  have hiff : (∀ bs u, bs <+: as → run step s bs = some u → u.Covered) ↔ Along step InTime s as :=
    Lib.forall_prefix_iff_along (I := fun _ => True) (fun _ _ _ _ _ _ => trivial)
      (fun _ _ _ _ => covered_iff) trivial (Or.inl hs) hrun
  exact ⟨hiff, fun halong bs u hbs hu hfinished => (hiff.mpr halong bs u hbs hu).right hfinished⟩

/-- A notification arrives while an old number is not yet in the cache, which is then deleted. -/
theorem right_when_finished_readLast :
    State.Right ⟨[⟨5, false⟩], some 1,
      [.finished .dispatched, .finished (.count 1), .finished (.count 0)]⟩ := by
  have hrun : run step ⟨[], none, []⟩
      [.arrive .dispatch, .arrive .unreadCount, .arrive .unreadCount, .perform 2 0, .perform 2 0,
        .perform 0 5, .perform 2 0, .perform 0 0, .perform 0 0, .perform 1 0, .perform 1 0,
        .perform 1 0]
      = some ⟨[⟨5, false⟩], some 1,
        [.finished .dispatched, .finished (.count 1), .finished (.count 0)]⟩ := by decide
  exact (right_when_finished (by decide) hrun).2 (by decide) _ _ (List.prefix_refl _) hrun
    (by decide)

/-- A notification arrives, with its `DEL`, between the `COUNT(*)` and the `SETEX` of a reader. -/
theorem stale_after_dispatch :
    ∃ t, run step ⟨[], none, []⟩
        [.arrive .unreadCount, .perform 0 0, .perform 0 0, .arrive .dispatch, .perform 1 5,
          .perform 1 0, .perform 1 0, .perform 0 0] = some t
      ∧ t.Finished ∧ ¬ t.Right :=
  ⟨⟨[⟨5, false⟩], some 0, [.finished (.count 0), .finished .dispatched]⟩, by decide, by decide,
    by decide⟩

end Oecophylla.Notification.UnreadCache
