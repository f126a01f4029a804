import Mathlib.Data.List.Count
import Mathlib.Data.Rat.Init
import Oecophylla.Interaction.Toggles

namespace Oecophylla.Interaction.Counters

open Ingestion (Uuid)
open Label (Action)
open Lib (run Along)
open Toggles (Method Request counterColumn topicSnapshot)

/-!
# The tables that a toggle writes — `toggle_post`

All users, all posts: `interactions`, the counters of `posts`, `behavior_events` and
`interaction_event_outbox`.  A transaction is cut into its statements, as in
`Interaction.Toggles`, and a connection takes the next one at any time.

* `Interactions` — the table with its unique index;
* `Tx`, `step` — the transactions and their statements;
* `Sound`, `step_sound` — the invariant: open transactions change different rows, and only one of
  them has counted on a post;
* `State.Agree` — the counters of a post are the numbers of its rows;
* `Exact` — a statement changes no table, or it commits a toggle that is recorded;
* `counters_and_log_exact` — both hold in every run with fresh event ids.

Posts are neither created nor deleted here, and `posts` only holds what a toggle reads.
-/

/-! ### Tables -/

/-- `user_id`, `post_id` and `type` of an interaction. -/
structure Key where
  userId : Uuid
  postId : Uuid
  action : Action
  deriving DecidableEq, Repr

/-- A row of `interactions`. -/
structure InteractionRow where
  key : Key
  weight : ℚ

/-- The table `interactions`. -/
structure Interactions where
  rows : List InteractionRow
  /-- `idx_interactions_unique_single`. -/
  unique : (rows.map InteractionRow.key).Nodup

/-- The keys that are taken. -/
def Interactions.keys (table : Interactions) : List Key := table.rows.map InteractionRow.key

instance : Membership Key Interactions := ⟨fun table key => key ∈ table.keys⟩

instance (key : Key) (table : Interactions) : Decidable (key ∈ table) :=
  inferInstanceAs (Decidable (key ∈ table.keys))

/-- `INSERT … ON CONFLICT (user_id, post_id, type) DO NOTHING`. -/
def Interactions.insert (table : Interactions) (row : InteractionRow) : Interactions :=
  if h : row.key ∈ table then table
  else
    { rows := table.rows ++ [row]
      unique := by
        rw [List.map_append]
        exact List.nodup_append_comm.mp (List.nodup_cons.mpr ⟨h, table.unique⟩) }

/-- `DELETE … WHERE user_id = … AND post_id = … AND type = …`. -/
def Interactions.delete (table : Interactions) (key : Key) : Interactions where
  rows := table.rows.filter fun row => row.key ≠ key
  unique := table.unique.sublist (List.filter_sublist.map _)

/-- The number of rows of a type for a post. -/
def Interactions.count (table : Interactions) (postId : Uuid) (action : Action) : Nat :=
  table.keys.countP fun key => key.postId = postId && key.action = action

/-- A row of `behavior_events`, with the two entries of its `metadata`; its `occurred_at` is the
    `now()` of its transaction. -/
structure BehaviorEvent where
  id : Uuid
  clientEventId : Uuid
  userId : Uuid
  postId : Uuid
  eventType : String
  source : String
  eventVersion : String
  topicSnapshot : List String
  occurredAt : Int

/-- `ToggleData`. -/
structure ToggleData where
  userId : Uuid
  postId : Uuid
  postAuthorId : Uuid
  clientEventId : Uuid
  weight : ℚ

/-- `Envelope<ToggleData>`. -/
structure Envelope where
  eventId : Uuid
  eventType : String
  eventVersion : Nat
  occurredAt : Int
  producer : String
  data : ToggleData

/-- A row of `interaction_event_outbox`. -/
structure OutboxMessage where
  eventId : Uuid
  topic : String
  partitionKey : String
  payload : Envelope

/-- What a toggle reads of a post. -/
structure Post where
  authorId : Uuid
  topics : List (Option String)
  tags : List (Option String)

/-! ### Transactions -/

/-- `evt`. -/
def evt : Request → String
  | ⟨.like, .post⟩ => "liked"
  | ⟨.like, .delete⟩ => "unliked"
  | ⟨.save, .post⟩ => "saved"
  | ⟨.save, .delete⟩ => "unsaved"
  | ⟨.share, .post⟩ => "shared"
  | ⟨.share, .delete⟩ => "unshared"
  | ⟨.hide, .post⟩ => "hidden"
  | ⟨.hide, .delete⟩ => "unhide"

/-- How far a transaction is; `count` is what `bump_counter` has written. -/
inductive Stage where
  | begun
  /-- The `DELETE` waits for another one that has deleted the row it found. -/
  | waiting
  /-- `changed` is false; `commit` is next. -/
  | unchanged
  /-- `changed` is true; `bump_counter` is next. -/
  | changed
  /-- `insert_canonical_behavior_event` is next. -/
  | counted (count : Option Int)
  /-- `enqueue_outbox_events` is next. -/
  | logged (count : Option Int) (event : BehaviorEvent)
  /-- `commit` is next. -/
  | enqueued (count : Option Int) (event : BehaviorEvent) (message : Option OutboxMessage)

/-- A change of the `interactions` row is not committed yet. -/
def Stage.pending : Stage → Bool
  | .begun | .waiting | .unchanged => false
  | .changed | .counted _ | .logged .. | .enqueued .. => true

/-- The new value of the counter; its row of `posts` is locked. -/
def Stage.count : Stage → Option Int
  | .begun | .waiting | .unchanged | .changed => none
  | .counted count | .logged count _ | .enqueued count _ _ => count

/-- `bump_counter` is done, or left out. -/
def Stage.hasCounted : Stage → Bool
  | .begun | .waiting | .unchanged | .changed => false
  | .counted _ | .logged .. | .enqueued .. => true

/-- The new row of `behavior_events`. -/
def Stage.event : Stage → Option BehaviorEvent
  | .begun | .waiting | .unchanged | .changed | .counted _ => none
  | .logged _ event | .enqueued _ event _ => some event

/-- A transaction of `toggle_post`; `now` is the time of its `BEGIN`. -/
structure Tx where
  userId : Uuid
  postId : Uuid
  authorId : Uuid
  request : Request
  now : Int
  stage : Stage

/-- The row that the transaction is about. -/
def Tx.key (t : Tx) : Key := ⟨t.userId, t.postId, t.request.action⟩

/-- The committed tables, and the open transactions of `n` connections. -/
structure State (n : Nat) where
  interactions : Interactions
  posts : Uuid → Option Post
  counts : Uuid → Action → Int
  events : List BehaviorEvent
  outbox : List OutboxMessage
  tx : Fin n → Option Tx

/-- One statement of a connection; `abort` ends a transaction that fails in any way. -/
inductive Statement (n : Nat) where
  | begin (i : Fin n) (userId postId : Uuid) (request : Request) (now : Int)
  | write (i : Fin n)
  | bump (i : Fin n)
  | insertEvent (i : Fin n) (id : Uuid)
  | enqueue (i : Fin n) (now : Int)
  | commit (i : Fin n)
  | abort (i : Fin n)

/-- The connection of a statement. -/
def Statement.connection {n : Nat} : Statement n → Fin n
  | .begin i _ _ _ _ | .write i | .bump i | .insertEvent i _ | .enqueue i _ | .commit i | .abort i => i

section Step

variable (weightFor : Action → ℚ) (recommendationLabelVersion : String) {n : Nat}

/-- No other transaction has changed the row. -/
def RowFree (s : State n) (i : Fin n) (key : Key) : Prop :=
  ∀ j, j ≠ i → ∀ t ∈ s.tx j, t.key = key → t.stage.pending = false

/-- No other transaction has locked the row of the post. -/
def PostFree (s : State n) (i : Fin n) (postId : Uuid) : Prop :=
  ∀ j, j ≠ i → ∀ t ∈ s.tx j, t.postId = postId → t.stage.count = none

/-- The id is neither in `behavior_events` nor that of a row another transaction inserts. -/
def IdFree (s : State n) (i : Fin n) (id : Uuid) : Prop :=
  id ∉ s.events.map BehaviorEvent.id
    ∧ ∀ j, j ≠ i → ∀ t ∈ s.tx j, ∀ event ∈ t.stage.event, event.id ≠ id

instance (s : State n) (i : Fin n) (key : Key) : Decidable (RowFree s i key) :=
  inferInstanceAs (Decidable (∀ j, j ≠ i → ∀ t ∈ s.tx j, _ → _))

instance (s : State n) (i : Fin n) (postId : Uuid) : Decidable (PostFree s i postId) :=
  inferInstanceAs (Decidable (∀ j, j ≠ i → ∀ t ∈ s.tx j, _ → _))

instance (s : State n) (i : Fin n) (id : Uuid) : Decidable (IdFree s i id) :=
  inferInstanceAs (Decidable (_ ∧ ∀ j, j ≠ i → ∀ t ∈ s.tx j, ∀ event ∈ t.stage.event, _))

/-- The transaction of a connection goes on. -/
def State.set (s : State n) (i : Fin n) (t : Option Tx) : State n :=
  { s with tx := Function.update s.tx i t }

/-- `insert_interaction` or `delete_interaction`: the next stage, `none` while it waits. -/
def written (s : State n) (i : Fin n) (t : Tx) : Option Stage :=
  match t.request.method with
  | .post =>
    if RowFree s i t.key then some (if t.key ∈ s.interactions then .unchanged else .changed)
    else none
  | .delete =>
    if t.key ∉ s.interactions then some .unchanged
    else if RowFree s i t.key then some .changed
    else match t.stage with
      | .begun => some .waiting
      | _ => none

/-- `bump_counter`, if the type has a counter: an `INTEGER` that cannot be `bumped` is an error. -/
def bumped (s : State n) (i : Fin n) (t : Tx) : Option Stage :=
  match counterColumn t.request.action with
  | none => some (.counted none)
  | some _ =>
    let count := s.counts t.postId t.request.action + t.request.method.delta
    if PostFree s i t.postId ∧ -2 ^ 31 ≤ count ∧ count < 2 ^ 31 then some (.counted (some count))
    else none

/-- `insert_canonical_behavior_event`. -/
def canonicalEvent (t : Tx) (post : Post) (id : Uuid) : BehaviorEvent where
  id := id
  clientEventId := id
  userId := t.userId
  postId := t.postId
  eventType := t.request.eventType
  source := "canonical_api"
  eventVersion := recommendationLabelVersion
  topicSnapshot := topicSnapshot post.topics post.tags
  occurredAt := t.now

/-- The message of a transaction; `now` is `Utc::now()`. -/
def outboxMessage (t : Tx) (behaviorEventId : Uuid) (now : Int) : OutboxMessage where
  eventId := behaviorEventId
  topic := "oecophylla.interactions"
  partitionKey := Oecophylla.Python.uuidText t.postId
  payload :=
    { eventId := behaviorEventId
      eventType := evt t.request
      eventVersion := 1
      occurredAt := now
      producer := "interaction-service"
      data :=
        { userId := t.userId
          postId := t.postId
          postAuthorId := t.authorId
          clientEventId := behaviorEventId
          weight := if evt t.request = "unhide" then 0 else weightFor t.request.action } }

/-- A deletion is committed: a `DELETE` that waited for it has found nothing. -/
def wake (done : Tx) (t : Tx) : Tx :=
  match t.stage with
  | .waiting =>
    if done.request.method = .delete ∧ t.key = done.key then { t with stage := .unchanged } else t
  | _ => t

/-- The change of the row. -/
def Tx.apply (t : Tx) (weight : ℚ) (table : Interactions) : Interactions :=
  match t.request.method with
  | .post => table.insert ⟨t.key, weight⟩
  | .delete => table.delete t.key

/-- `tx.commit()` of a transaction that has changed its row. -/
def commitRow (s : State n) (i : Fin n) (t : Tx) (count : Option Int) (event : BehaviorEvent)
    (message : Option OutboxMessage) : State n where
  interactions := t.apply (weightFor t.request.action) s.interactions
  posts := s.posts
  counts := match count with
    | some value =>
      Function.update s.counts t.postId
        (Function.update (s.counts t.postId) t.request.action value)
    | none => s.counts
  events := s.events ++ [event]
  outbox := s.outbox ++ message.toList
  tx := fun j => if j = i then none else (s.tx j).map (wake t)

/-- The next statement of a transaction, as long as it does not commit. -/
def advance (s : State n) (t : Tx) : Statement n → Option Stage
  | .write i =>
    match t.stage with
    | .begun | .waiting => written s i t
    | _ => none
  | .bump i =>
    match t.stage with
    | .changed => bumped s i t
    | _ => none
  | .insertEvent i id =>
    match t.stage, s.posts t.postId with
    | .counted count, some post =>
      if IdFree s i id then
        some (.logged count (canonicalEvent recommendationLabelVersion t post id))
      else none
    | _, _ => none
  | .enqueue _ now =>
    match t.stage with
    | .logged count event =>
      -- `ON CONFLICT (event_id) DO NOTHING`
      some (.enqueued count event
        (if event.id ∈ s.outbox.map OutboxMessage.eventId then none
        else some (outboxMessage weightFor t event.id now)))
    | _ => none
  | .begin .. | .commit _ | .abort _ => none

/-- One statement; `none` when it is not the next one, has to wait, or makes the request fail. -/
def step (s : State n) : Statement n → Option (State n)
  | .begin i userId postId request now =>
    match s.tx i, s.posts postId with
    | none, some post => some (s.set i (some ⟨userId, postId, post.authorId, request, now, .begun⟩))
    | _, _ => none
  | .commit i =>
    (s.tx i).bind fun t =>
      match t.stage with
      | .unchanged => some (s.set i none)
      | .enqueued count event message => some (commitRow weightFor s i t count event message)
      | _ => none
  | .abort i => (s.tx i).map fun _ => s.set i none
  | a =>
    (s.tx a.connection).bind fun t => (advance weightFor recommendationLabelVersion s t a).map
      fun stage => s.set a.connection (some { t with stage := stage })

/-! ### Counters, rows and the log -/

/-- **The counters are right**: `like_count`, `save_count` and `share_count` of every post. -/
def State.Agree (s : State n) : Prop :=
  ∀ postId action, (counterColumn action).isSome →
    s.counts postId action = s.interactions.count postId action

/-- The row of `behavior_events` that a transaction inserts. -/
structure Describes (t : Tx) (event : BehaviorEvent) : Prop where
  clientEventId : event.clientEventId = event.id
  userId : event.userId = t.userId
  postId : event.postId = t.postId
  eventType : event.eventType = t.request.eventType

/-- The message that a transaction enqueues for a row of `behavior_events`. -/
structure Announces (t : Tx) (event : BehaviorEvent) (message : OutboxMessage) : Prop where
  eventId : message.eventId = event.id
  clientEventId : message.payload.data.clientEventId = event.id
  eventType : message.payload.eventType = evt t.request
  userId : message.payload.data.userId = t.userId
  postId : message.payload.data.postId = t.postId

/-- **A transaction is recorded.**  It has changed its row, and it has added one row to
    `behavior_events` and one to the outbox, under a new id. -/
structure Recorded (t : Tx) (s s' : State n) : Prop where
  changed : t.key ∈ s'.interactions ↔ t.key ∉ s.interactions
  others : ∀ key, key ≠ t.key → (key ∈ s'.interactions ↔ key ∈ s.interactions)
  logged : ∃ event message, s'.events = s.events ++ [event] ∧ s'.outbox = s.outbox ++ [message]
    ∧ Describes t event ∧ Announces t event message
    ∧ event.id ∉ s.events.map BehaviorEvent.id ∧ event.id ∉ s.outbox.map OutboxMessage.eventId

/-- Nothing is stored. -/
structure Unchanged (s s' : State n) : Prop where
  interactions : s'.interactions = s.interactions
  counts : s'.counts = s.counts
  events : s'.events = s.events
  outbox : s'.outbox = s.outbox

/-- **A statement is exact.**  It changes no table, or it commits a transaction which is
    recorded. -/
def Exact (s : State n) (a : Statement n) (s' : State n) : Prop :=
  Unchanged s s' ∨ ∃ i t, a = .commit i ∧ s.tx i = some t ∧ Recorded t s s'

/-- **A fresh event id**: no table has it, and no other open transaction. -/
def Fresh (s : State n) : Statement n → Prop
  | .insertEvent i id => IdFree s i id ∧ id ∉ s.outbox.map OutboxMessage.eventId
  | _ => True

instance (s : State n) : (a : Statement n) → Decidable (Fresh s a)
  | .insertEvent i id => inferInstanceAs (Decidable (IdFree s i id ∧ _))
  | .begin .. | .write _ | .bump _ | .enqueue .. | .commit _ | .abort _ => .isTrue trivial

end Step

/-! ### Counting rows -/

section Count

variable {table : Interactions} {key k : Key} {row : InteractionRow} {postId : Uuid}
  {action : Action}

theorem keys_insert (h : row.key ∉ table) : (table.insert row).keys = table.keys ++ [row.key] := by
  unfold Interactions.insert Interactions.keys
  rw [dif_neg h, List.map_append, List.map_singleton]

theorem keys_delete (table : Interactions) (key : Key) :
    (table.delete key).keys = table.keys.erase key := by
  rw [Interactions.keys, Interactions.keys, table.unique.erase_eq_filter]
  show ((table.rows.filter fun row => row.key ≠ key).map InteractionRow.key)
    = (table.rows.map InteractionRow.key).filter (· != key)
  rw [List.filter_map]
  congr 1
  apply List.filter_congr
  intro row _
  simp [bne, beq_eq_decide]

theorem mem_insert (h : row.key ∉ table) : k ∈ table.insert row ↔ k ∈ table ∨ k = row.key := by
  show k ∈ (table.insert row).keys ↔ k ∈ table.keys ∨ _
  rw [keys_insert h, List.mem_append, List.mem_singleton]

theorem mem_delete : k ∈ table.delete key ↔ k ≠ key ∧ k ∈ table := by
  show k ∈ (table.delete key).keys ↔ _ ∧ k ∈ table.keys
  have hnodup : table.keys.Nodup := table.unique
  rw [keys_delete, hnodup.mem_erase_iff]

theorem count_insert (h : row.key ∉ table) :
    (table.insert row).count postId action = table.count postId action
      + if row.key.postId = postId ∧ row.key.action = action then 1 else 0 := by
  unfold Interactions.count
  rw [keys_insert h, List.countP_append, List.countP_singleton]
  simp

theorem count_delete (h : key ∈ table) :
    (table.delete key).count postId action
        + (if key.postId = postId ∧ key.action = action then 1 else 0)
      = table.count postId action := by
  unfold Interactions.count
  rw [keys_delete, List.countP_erase]
  have hmem : key ∈ table.keys := h
  by_cases hkey : key.postId = postId ∧ key.action = action
  · have hpos : 0 < table.keys.countP fun key => key.postId = postId && key.action = action :=
      List.countP_pos_iff.mpr ⟨key, hmem, by simpa using hkey⟩
    rw [if_pos ⟨hmem, by simpa using hkey⟩, if_pos hkey]
    omega
  · rw [if_neg (fun h => hkey (by simpa using h.2)), if_neg hkey]
    omega

end Count

/-! ### The invariant -/

variable {weightFor : Action → ℚ} {recommendationLabelVersion : String} {n : Nat}
  {s s' : State n} {i j : Fin n} {t t' : Tx}

/-- What an open transaction has found and written. -/
structure TxSound (s : State n) (t : Tx) : Prop where
  row : t.stage.pending = true → (t.key ∈ s.interactions ↔ t.request.method = .delete)
  count : ∀ value ∈ t.stage.count,
    value = s.counts t.postId t.request.action + t.request.method.delta
  column : t.stage.hasCounted = true → t.stage.count = none →
    counterColumn t.request.action = none
  event : ∀ event ∈ t.stage.event, Describes t event ∧ event.id ∉ s.events.map BehaviorEvent.id
    ∧ event.id ∉ s.outbox.map OutboxMessage.eventId
  message : ∀ count event message, t.stage = .enqueued count event message →
    ∃ m, message = some m ∧ Announces t event m

/-- Two open transactions that do not disturb each other. -/
structure Apart (t t' : Tx) : Prop where
  row : t.stage.pending = true → t'.stage.pending = true → t.key ≠ t'.key
  post : t.stage.count.isSome → t'.stage.count.isSome → t.postId ≠ t'.postId
  id : ∀ event ∈ t.stage.event, ∀ event' ∈ t'.stage.event, event.id ≠ event'.id

/-- **The invariant.** -/
structure Sound (s : State n) : Prop where
  agree : s.Agree
  tx : ∀ i, ∀ t ∈ s.tx i, TxSound s t
  apart : ∀ i j, i ≠ j → ∀ t ∈ s.tx i, ∀ t' ∈ s.tx j, Apart t t'

theorem Apart.symm (h : Apart t t') : Apart t' t where
  row hpending hpending' heq := h.row hpending' hpending heq.symm
  post hcount hcount' heq := h.post hcount' hcount heq.symm
  id event hevent event' hevent' heq := h.id event' hevent' event hevent heq.symm

/-- Without an open transaction. -/
theorem sound_of_closed (hagree : s.Agree) (hclosed : ∀ i, s.tx i = none) : Sound s where
  agree := hagree
  tx i t ht := by simp [hclosed] at ht
  apart i j _ t ht := by simp [hclosed] at ht

/-- A transaction that has changed nothing. -/
theorem txSound_of_not_pending (h : t.stage.pending = false) : TxSound s t := by
  obtain ⟨userId, postId, authorId, request, now, stage⟩ := t
  cases stage with
  | begun => exact ⟨nofun, nofun, nofun, nofun, nofun⟩
  | waiting => exact ⟨nofun, nofun, nofun, nofun, nofun⟩
  | unchanged => exact ⟨nofun, nofun, nofun, nofun, nofun⟩
  | changed => cases h
  | counted count => cases h
  | logged count event => cases h
  | enqueued count event message => cases h

theorem apart_of_not_pending (h : t.stage.pending = false) : Apart t t' := by
  obtain ⟨userId, postId, authorId, request, now, stage⟩ := t
  cases stage with
  | begun => exact ⟨nofun, nofun, nofun⟩
  | waiting => exact ⟨nofun, nofun, nofun⟩
  | unchanged => exact ⟨nofun, nofun, nofun⟩
  | changed => cases h
  | counted count => cases h
  | logged count event => cases h
  | enqueued count event message => cases h

theorem TxSound.set (h : TxSound s t) (new : Option Tx) : TxSound (s.set i new) t :=
  ⟨h.row, h.count, h.column, h.event, h.message⟩

/-- A transaction goes on without committing. -/
theorem Sound.set (hs : Sound s) {new : Option Tx} (hnew : ∀ t ∈ new, TxSound s t)
    (hapart : ∀ t ∈ new, ∀ j, j ≠ i → ∀ t' ∈ s.tx j, Apart t t') : Sound (s.set i new) := by
  have htx : (s.set i new).tx = Function.update s.tx i new := rfl
  refine ⟨hs.agree, fun j t ht => ?_, fun j k hne t ht t' ht' => ?_⟩
  · rw [htx] at ht
    by_cases hj : j = i
    · subst hj
      rw [Function.update_self] at ht
      exact (hnew t ht).set new
    · rw [Function.update_of_ne hj] at ht
      exact (hs.tx j t ht).set new
  · rw [htx] at ht ht'
    by_cases hj : j = i
    · subst hj
      rw [Function.update_self] at ht
      rw [Function.update_of_ne hne.symm] at ht'
      exact hapart t ht k hne.symm t' ht'
    · rw [Function.update_of_ne hj] at ht
      by_cases hk : k = i
      · subst hk
        rw [Function.update_self] at ht'
        exact (hapart t' ht' j hj t ht).symm
      · rw [Function.update_of_ne hk] at ht'
        exact hs.apart j k hne t ht t' ht'

/-! ### One statement -/

/-- What `insert_interaction` and `delete_interaction` come to. -/
theorem written_spec {stage : Stage} (h : written s i t = some stage) :
    stage.pending = false ∨ stage = .changed ∧ RowFree s i t.key
      ∧ (t.key ∈ s.interactions ↔ t.request.method = .delete) := by
  unfold written at h
  split at h
  · next hmethod =>
    obtain ⟨hfree, hstage⟩ := Option.ite_none_right_eq_some.mp h
    split at hstage
    · cases hstage
      exact Or.inl rfl
    · next hnot =>
      cases hstage
      exact Or.inr ⟨rfl, hfree, by simp [hnot, hmethod]⟩
  · next hmethod =>
    split at h
    · cases h
      exact Or.inl rfl
    · next hin =>
      split at h
      · next hfree =>
        cases h
        exact Or.inr ⟨rfl, hfree, by simpa [hmethod] using hin⟩
      · split at h
        · cases h
          exact Or.inl rfl
        · cases h

/-- What `bump_counter` comes to. -/
theorem bumped_spec {stage : Stage} (h : bumped s i t = some stage) :
    stage = .counted none ∧ counterColumn t.request.action = none
      ∨ PostFree s i t.postId
        ∧ stage = .counted (some (s.counts t.postId t.request.action + t.request.method.delta)) := by
  unfold bumped at h
  split at h
  · next hnone =>
    cases h
    exact Or.inl ⟨rfl, hnone⟩
  · obtain ⟨hfree, hstage⟩ := Option.ite_none_right_eq_some.mp h
    cases hstage
    exact Or.inr ⟨hfree.1, rfl⟩

/-- **The next statement** of a transaction, when it is not the last one. -/
theorem advance_sound {a : Statement n} {stage : Stage} (hs : Sound s) (ht : t ∈ s.tx a.connection)
    (hfresh : Fresh s a) (h : advance weightFor recommendationLabelVersion s t a = some stage) :
    TxSound s { t with stage := stage }
      ∧ ∀ j, j ≠ a.connection → ∀ t' ∈ s.tx j, Apart { t with stage := stage } t' := by
  have hsound := hs.tx a.connection t ht
  have hapart : ∀ j, j ≠ a.connection → ∀ t' ∈ s.tx j, Apart t t' := fun j hj t' ht' =>
    hs.apart a.connection j hj.symm t ht t' ht'
  cases a with
  | begin i userId postId request now => cases h
  | commit i => cases h
  | abort i => cases h
  | write i =>
    have hwritten : written s i t = some stage := by
      unfold advance at h
      dsimp only at h
      split at h
      · exact h
      · exact h
      · cases h
    rcases written_spec hwritten with hpending | ⟨rfl, hfree, hrow⟩
    · exact ⟨txSound_of_not_pending hpending, fun j _ t' _ => apart_of_not_pending hpending⟩
    · refine ⟨⟨fun _ => hrow, nofun, nofun, nofun, nofun⟩, fun j hj t' ht' => ⟨?_, nofun, nofun⟩⟩
      intro _ hpending heq
      have hnot := hfree j hj t' ht' heq.symm
      rw [hpending] at hnot
      cases hnot
  | bump i =>
    unfold advance at h
    dsimp only at h
    split at h
    · next hstage =>
      have hrow := hsound.row (by rw [hstage]; rfl)
      have hkeys : ∀ j, j ≠ i → ∀ t' ∈ s.tx j, t'.stage.pending = true → t.key ≠ t'.key :=
        fun j hj t' ht' => (hapart j hj t' ht').row (by rw [hstage]; rfl)
      rcases bumped_spec h with ⟨rfl, hnone⟩ | ⟨hfree, rfl⟩
      · exact ⟨⟨fun _ => hrow, nofun, fun _ _ => hnone, nofun, nofun⟩,
          fun j hj t' ht' => ⟨fun _ => hkeys j hj t' ht', nofun, nofun⟩⟩
      · refine ⟨⟨fun _ => hrow, ?_, nofun, nofun, nofun⟩,
          fun j hj t' ht' => ⟨fun _ => hkeys j hj t' ht', ?_, nofun⟩⟩
        · rintro value ⟨⟩
          rfl
        · intro _ hcount heq
          rw [hfree j hj t' ht' heq.symm] at hcount
          cases hcount
    · cases h
  | insertEvent i id =>
    unfold advance at h
    dsimp only at h
    split at h
    · next count post hstage hpost =>
      obtain ⟨hid, heq⟩ := Option.ite_none_right_eq_some.mp h
      cases heq
      refine ⟨⟨?_, ?_, ?_, ?_, nofun⟩, fun j hj t' ht' => ⟨?_, ?_, ?_⟩⟩
      · exact fun _ => hsound.row (by rw [hstage]; rfl)
      · exact fun value hvalue => hsound.count value (by rw [hstage]; exact hvalue)
      · exact fun _ hnone => hsound.column (by rw [hstage]; rfl) (by rw [hstage]; exact hnone)
      · rintro event ⟨⟩
        exact ⟨⟨rfl, rfl, rfl, rfl⟩, hfresh.1.1, hfresh.2⟩
      · exact fun _ => (hapart j hj t' ht').row (by rw [hstage]; rfl)
      · exact fun hcount => (hapart j hj t' ht').post (by rw [hstage]; exact hcount)
      · rintro event ⟨⟩ event' hevent' heq
        exact hid.2 j hj t' ht' event' hevent' heq.symm
    · cases h
  | enqueue i now =>
    unfold advance at h
    dsimp only at h
    split at h
    · next count event hstage =>
      cases h
      obtain ⟨hdescribes, hevents, houtbox⟩ := hsound.event event (by rw [hstage]; rfl)
      refine ⟨⟨?_, ?_, ?_, ?_, ?_⟩, fun j hj t' ht' => ⟨?_, ?_, ?_⟩⟩
      · exact fun _ => hsound.row (by rw [hstage]; rfl)
      · exact fun value hvalue => hsound.count value (by rw [hstage]; exact hvalue)
      · exact fun _ hnone => hsound.column (by rw [hstage]; rfl) (by rw [hstage]; exact hnone)
      · rintro event' ⟨⟩
        exact ⟨⟨hdescribes.1, hdescribes.2, hdescribes.3, hdescribes.4⟩, hevents, houtbox⟩
      · rintro count' event' message ⟨⟩
        -- the id is not in the outbox, so the row is inserted
        rw [if_neg houtbox]
        exact ⟨_, rfl, rfl, rfl, rfl, rfl, rfl⟩
      · exact fun _ => (hapart j hj t' ht').row (by rw [hstage]; rfl)
      · exact fun hcount => (hapart j hj t' ht').post (by rw [hstage]; exact hcount)
      · exact fun event' hevent' => (hapart j hj t' ht').id event' (by rw [hstage]; exact hevent')
    · cases h

/-! ### A commit -/

section Commit

variable {weight : ℚ} {table : Interactions} {count : Option Int} {event : BehaviorEvent}
  {message : Option OutboxMessage}

/-- The rows after the change. -/
theorem mem_apply (hrow : t.key ∈ table ↔ t.request.method = .delete) {key : Key} :
    key ∈ t.apply weight table ↔ if key = t.key then t.key ∉ table else key ∈ table := by
  unfold Tx.apply
  split
  · next hmethod =>
    have hnot : t.key ∉ table := by simp [hrow, hmethod]
    rw [mem_insert hnot]
    split
    · next heq => simp [heq, hnot]
    · next hne => simp [hne]
  · next hmethod =>
    have hin : t.key ∈ table := hrow.mpr hmethod
    rw [mem_delete]
    split
    · next heq => simp [heq, hin]
    · next hne => simp [hne]

/-- The change counts as `delta`. -/
theorem count_apply (hrow : t.key ∈ table ↔ t.request.method = .delete) (postId : Uuid)
    (action : Action) :
    ((t.apply weight table).count postId action : Int) = table.count postId action
      + if t.postId = postId ∧ t.request.action = action then t.request.method.delta else 0 := by
  unfold Tx.apply
  split
  · next hmethod =>
    have hnot : t.key ∉ table := by simp [hrow, hmethod]
    have hcount := @count_insert table ⟨t.key, weight⟩ postId action hnot
    rw [hcount, hmethod]
    show ((_ + if t.postId = postId ∧ t.request.action = action then 1 else 0 : Nat) : Int) = _
    split <;> simp [Method.delta]
  · next hmethod =>
    have hcount : (table.delete t.key).count postId action
        + (if t.postId = postId ∧ t.request.action = action then 1 else 0)
        = table.count postId action := count_delete (hrow.mpr hmethod)
    rw [hmethod]
    by_cases hcond : t.postId = postId ∧ t.request.action = action
    · rw [if_pos hcond] at hcount ⊢
      show _ = (_ : Int) + -1
      omega
    · rw [if_neg hcond] at hcount ⊢
      omega

theorem wake_stage (done t : Tx) : wake done t = t ∨ (wake done t).stage = .unchanged := by
  unfold wake
  split
  · split
    · exact Or.inr rfl
    · exact Or.inl rfl
  · exact Or.inl rfl

variable (weightFor) in
/-- The counters after a commit. -/
theorem counts_commitRow (hs : Sound s) (ht : t ∈ s.tx i)
    (hstage : t.stage = .enqueued count event message) {postId : Uuid} {action : Action}
    (haction : (counterColumn action).isSome) :
    (commitRow weightFor s i t count event message).counts postId action = s.counts postId action
      + if t.postId = postId ∧ t.request.action = action then t.request.method.delta else 0 := by
  have hsound := hs.tx i t ht
  unfold commitRow
  dsimp only
  cases count with
  | none =>
    have hnone := hsound.column (by rw [hstage]; rfl) (by rw [hstage]; rfl)
    rw [if_neg, Int.add_zero]
    rintro ⟨-, heq⟩
    rw [← heq, hnone] at haction
    cases haction
  | some value =>
    have hvalue := hsound.count value (by rw [hstage]; rfl)
    dsimp only
    by_cases hpost : t.postId = postId
    · subst hpost
      rw [Function.update_self]
      by_cases heq : t.request.action = action
      · subst heq
        rw [Function.update_self, if_pos ⟨rfl, rfl⟩, hvalue]
      · rw [Function.update_of_ne (Ne.symm heq), if_neg (fun h => heq h.2), Int.add_zero]
    · rw [Function.update_of_ne (Ne.symm hpost), if_neg (fun h => hpost h.1), Int.add_zero]

/-- **A commit** keeps the invariant. -/
theorem Sound.commitRow (hs : Sound s) (ht : t ∈ s.tx i)
    (hstage : t.stage = .enqueued count event message) :
    Sound (commitRow weightFor s i t count event message) := by
  have hsound := hs.tx i t ht
  have hrow := hsound.row (by rw [hstage]; rfl)
  obtain ⟨m, rfl, hannounces⟩ := hsound.message count event message hstage
  -- a transaction that is still open, before it was woken
  have hopen : ∀ j, ∀ t' ∈ (Counters.commitRow weightFor s i t count event (some m)).tx j,
      j ≠ i ∧ ∃ old ∈ s.tx j, t' = wake t old := by
    intro j t' ht'
    unfold Counters.commitRow at ht'
    dsimp only at ht'
    split at ht'
    · cases ht'
    · next hj =>
      obtain ⟨old, hold, rfl⟩ := Option.map_eq_some_iff.mp ht'
      exact ⟨hj, old, hold, rfl⟩
  refine ⟨fun postId action haction => ?_, fun j t' ht' => ?_, fun j k hne t' ht' u' hu' => ?_⟩
  · rw [counts_commitRow weightFor hs ht hstage haction, hs.agree postId action haction]
    exact (count_apply hrow postId action).symm
  · obtain ⟨hj, old, hold, rfl⟩ := hopen j t' ht'
    have hapart := hs.apart i j hj.symm t ht old hold
    have hold' := hs.tx j old hold
    rcases wake_stage t old with heq | hunchanged
    · rw [heq]
      refine ⟨fun hpending => ?_, fun value hvalue => ?_, hold'.column, fun e he => ?_, hold'.message⟩
      · have hne := hapart.row (by rw [hstage]; rfl) hpending
        show old.key ∈ t.apply _ s.interactions ↔ _
        rw [mem_apply hrow, if_neg hne.symm]
        exact hold'.row hpending
      · rw [hold'.count value hvalue]
        -- when both have counted, they have counted on different posts
        have hcounts : (Counters.commitRow weightFor s i t count event (some m)).counts old.postId
            = s.counts old.postId := by
          unfold Counters.commitRow
          cases count with
          | none => rfl
          | some value =>
            have hpost := hapart.post (by rw [hstage]; rfl) (Option.isSome_of_mem hvalue)
            exact Function.update_of_ne hpost.symm _ _
        rw [hcounts]
      · obtain ⟨hdescribes, hevents, houtbox⟩ := hold'.event e he
        have hid : event.id ≠ e.id := hapart.id event (by rw [hstage]; rfl) e he
        refine ⟨hdescribes, ?_, ?_⟩
        · show e.id ∉ (s.events ++ [event]).map BehaviorEvent.id
          rw [List.map_append, List.mem_append, List.map_singleton, List.mem_singleton]
          exact not_or.mpr ⟨hevents, hid.symm⟩
        · show e.id ∉ (s.outbox ++ [m]).map OutboxMessage.eventId
          rw [List.map_append, List.mem_append, List.map_singleton, List.mem_singleton,
            hannounces.eventId]
          exact not_or.mpr ⟨houtbox, hid.symm⟩
    · exact txSound_of_not_pending (by rw [hunchanged]; rfl)
  · obtain ⟨hj, old, hold, rfl⟩ := hopen j t' ht'
    obtain ⟨hk, old', hold', rfl⟩ := hopen k u' hu'
    rcases wake_stage t old with heq | hunchanged
    · rw [heq]
      rcases wake_stage t old' with heq' | hunchanged'
      · rw [heq']
        exact hs.apart j k hne old hold old' hold'
      · exact (apart_of_not_pending (by rw [hunchanged']; rfl)).symm
    · exact apart_of_not_pending (by rw [hunchanged]; rfl)

/-- **A commit** is recorded. -/
theorem Sound.recorded (hs : Sound s) (ht : t ∈ s.tx i)
    (hstage : t.stage = .enqueued count event message) :
    Recorded t s (Counters.commitRow weightFor s i t count event message) := by
  have hsound := hs.tx i t ht
  have hrow := hsound.row (by rw [hstage]; rfl)
  obtain ⟨m, rfl, hannounces⟩ := hsound.message count event message hstage
  obtain ⟨hdescribes, hevents, houtbox⟩ := hsound.event event (by rw [hstage]; rfl)
  refine ⟨?_, fun key hne => ?_, event, m, rfl, rfl, hdescribes, hannounces, hevents, houtbox⟩
  · show t.key ∈ t.apply _ s.interactions ↔ _
    rw [mem_apply hrow, if_pos rfl]
  · show key ∈ t.apply _ s.interactions ↔ _
    rw [mem_apply hrow, if_neg hne]

end Commit

/-! ### Runs -/

theorem unchanged_set (s : State n) (i : Fin n) (new : Option Tx) : Unchanged s (s.set i new) :=
  ⟨rfl, rfl, rfl, rfl⟩

/-- The end of a transaction that stores nothing. -/
theorem Sound.close (hs : Sound s) (i : Fin n) : Sound (s.set i none) := by
  refine hs.set ?_ ?_
  · rintro _ ⟨⟩
  · rintro _ ⟨⟩

/-- A statement between `begin` and `commit`. -/
theorem step_advance {a : Statement n} (hs : Sound s) (hfresh : Fresh s a)
    (h : ((s.tx a.connection).bind fun t => (advance weightFor recommendationLabelVersion s t a).map
      fun stage => s.set a.connection (some { t with stage := stage })) = some s') :
    Sound s' ∧ Exact s a s' := by
  obtain ⟨t, ht, h⟩ := Option.bind_eq_some_iff.mp h
  obtain ⟨stage, hstage, rfl⟩ := Option.map_eq_some_iff.mp h
  obtain ⟨hsound, hapart⟩ := advance_sound hs ht hfresh hstage
  refine ⟨hs.set ?_ ?_, Or.inl (unchanged_set s _ _)⟩
  · rintro _ ⟨⟩
    exact hsound
  · rintro _ ⟨⟩
    exact hapart

/-- **One statement** keeps the invariant, and is exact. -/
theorem step_sound {a : Statement n} (hs : Sound s) (hfresh : Fresh s a)
    (h : step weightFor recommendationLabelVersion s a = some s') : Sound s' ∧ Exact s a s' := by
  cases a with
  | begin i userId postId request now =>
    unfold step at h
    dsimp only at h
    split at h
    · cases h
      refine ⟨hs.set ?_ ?_, Or.inl (unchanged_set s _ _)⟩
      · rintro _ ⟨⟩
        exact txSound_of_not_pending rfl
      · rintro _ ⟨⟩ j _ t' _
        exact apart_of_not_pending rfl
    · cases h
  | write i => exact step_advance hs hfresh h
  | bump i => exact step_advance hs hfresh h
  | insertEvent i id => exact step_advance hs hfresh h
  | enqueue i now => exact step_advance hs hfresh h
  | commit i =>
    obtain ⟨t, ht, h⟩ := Option.bind_eq_some_iff.mp h
    split at h
    · cases h
      exact ⟨hs.close i, Or.inl (unchanged_set s i none)⟩
    · next count event message hstage =>
      cases h
      exact ⟨hs.commitRow ht hstage, Or.inr ⟨i, t, rfl, ht, hs.recorded ht hstage⟩⟩
    · cases h
  | abort i =>
    obtain ⟨t, -, rfl⟩ := Option.map_eq_some_iff.mp h
    exact ⟨hs.close i, Or.inl (unchanged_set s i none)⟩

/-- **Counters and log.**  In a run that starts with right counters and takes fresh event ids, the
    counters are right in every state, and every statement is exact. -/
theorem counters_and_log_exact {as : List (Statement n)} (hagree : s.Agree)
    (hclosed : ∀ i, s.tx i = none)
    (hrun : run (step weightFor recommendationLabelVersion) s as = some s')
    (hfresh : Along (step weightFor recommendationLabelVersion) Fresh s as) :
    s'.Agree ∧ ∀ bs a cs, as = bs ++ a :: cs → ∀ u v,
      run (step weightFor recommendationLabelVersion) s bs = some u →
      step weightFor recommendationLabelVersion u a = some v → v.Agree ∧ Exact u a v := by
  have hsound : ∀ {bs u}, run (step weightFor recommendationLabelVersion) s bs = some u →
      Along (step weightFor recommendationLabelVersion) Fresh s bs → Sound u := fun hbs halong =>
    Lib.run_invariant_along (fun _ _ _ hu hguard hstep => (step_sound hu hguard hstep).1)
      (sound_of_closed hagree hclosed) hbs halong
  refine ⟨(hsound hrun hfresh).agree, ?_⟩
  rintro bs a cs rfl u v hu hv
  obtain ⟨hbefore, hafter⟩ := (Lib.along_append hu).mp hfresh
  obtain ⟨hv', hexact⟩ := step_sound (hsound hu hbefore) hafter.1 hv
  exact ⟨hv'.agree, hexact⟩

/-- No interaction yet. -/
def initial (n : Nat) : State n :=
  ⟨⟨[], List.nodup_nil⟩, fun _ => some ⟨9, [], []⟩, fun _ _ => 0, [], [], fun _ => none⟩

attribute [local instance] Lib.neZero_two

/-- Two users like a post at the same time, and one of them takes it back. -/
def twoUsers : List (Statement 2) :=
  [.begin 0 1 5 ⟨.like, .post⟩ 10, .begin 1 2 5 ⟨.like, .post⟩ 11, .write 0, .write 1, .bump 0,
    .insertEvent 0 70, .enqueue 0 12, .commit 0, .bump 1, .insertEvent 1 71, .enqueue 1 13,
    .commit 1, .begin 0 1 5 ⟨.like, .delete⟩ 14, .write 0, .bump 0, .insertEvent 0 72,
    .enqueue 0 15, .commit 0]

theorem counters_and_log_exact_twoUsers :
    ∃ u, run (step (fun _ => 1) "v2") (initial 2) twoUsers = some u
      ∧ u.interactions.count 5 .like = 1 ∧ u.Agree := by
  have hcount : (run (step (fun _ => 1) "v2") (initial 2) twoUsers).map
      (fun u => u.interactions.count 5 .like) = some 1 := by decide
  obtain ⟨u, hu, hone⟩ := Option.map_eq_some_iff.mp hcount
  exact ⟨u, hu, hone,
    (counters_and_log_exact (fun _ _ _ => rfl) (fun _ => rfl) hu (by decide)).1⟩

end Oecophylla.Interaction.Counters
