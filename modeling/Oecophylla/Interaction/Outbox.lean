import Oecophylla.Ingestion.Jsonb
import Oecophylla.Lib.Run
import Oecophylla.Lib.StableSort
import Oecophylla.Lib.Table
import Oecophylla.Python.UuidText

namespace Oecophylla.Interaction.Outbox

open Lib (run Taken insertAllNew newRows stableSort)

/-!
# The interaction outbox — `outbox.rs`, `enqueue_outbox_events`

Any number of dispatchers send the rows of `interaction_event_outbox` while transactions enqueue
new ones and the cleanup deletes old ones:

* `Row`, `Message` — the table, and what a transaction enqueues;
* `Phase` — a dispatcher between two statements of `dispatch_batch` and `dispatch_next`;
* `State`, `step` — commits, sends that succeed or fail, acknowledgements that get lost,
  database errors and crashes, in any order;
* `Delivery` — nothing is lost, no row has two holders, a failed send does not end a batch;
* `Consistent`, `step_consistent` — the invariant;
* `delivery` — every run, and every event that a run enqueues under a new id;
* `dwell_not_enqueued` — an event whose id is in the table is dropped.

What a transaction has written is only seen when it commits, so its `UPDATE` and its `COMMIT` are
one step.  `enqueued`, `inserted`, `acked`, `tried` and `ended` record what happened.
-/

abbrev Uuid := Nat

/-- Microseconds. -/
abbrev Instant := Int

def batchSize : Nat := 32
def cleanupBatchSize : Nat := 500

/-- `INTERVAL '7 days'`. -/
def retention : Int := 7 * 24 * 60 * 60 * 1000000

/-- The largest `INTEGER`. -/
def maxInteger : Nat := 2147483647

/-- What Kafka gets of an event. -/
structure Record where
  eventId : Uuid
  topic : String
  partitionKey : String
  payload : Json

/-- A row of `interaction_event_outbox`. -/
structure Row extends Record where
  createdAt : Instant
  sentAt : Option Instant
  attempts : Nat
  lastError : Option String

/-- `OutboxMessage`. -/
structure Message where
  eventId : Uuid
  postId : Uuid
  payload : Json

def topicInteractions : String := "oecophylla.interactions"

/-- The row of a message, `none` when its payload is no `jsonb`. -/
def messageRow (now : Instant) (m : Message) : Option Row :=
  (Ingestion.jsonb m.payload).map fun payload =>
    ⟨⟨m.eventId, topicInteractions, Python.uuidText m.postId, payload⟩, now, none, 0, none⟩

/-- What a dispatcher is doing: the ids that its batch has attempted, and how many of them
    failed; from `sending` on its transaction holds the lock of a row. -/
inductive Phase where
  | asleep
  | selecting (attempted : List Uuid) (failed : Nat)
  /-- `try_produce_json` is under way. -/
  | sending (row : Row) (attempted : List Uuid) (failed : Nat)
  | acknowledged (row : Row) (attempted : List Uuid) (failed : Nat)
  | rejected (row : Row) (error : String) (attempted : List Uuid) (failed : Nat)
  /-- The process is gone, and the database has not noticed. -/
  | crashed (held : Option Uuid)

/-- The row whose lock a dispatcher holds. -/
def Phase.row : Phase → Option Row
  | .sending row _ _ => some row
  | .acknowledged row _ _ => some row
  | .rejected row _ _ _ => some row
  | _ => none

/-- The id whose lock the transaction of a dispatcher holds. -/
def Phase.held : Phase → Option Uuid
  | .crashed held => held
  | phase => phase.row.map fun row => row.eventId

/-- A batch that ended with `Ok`, and the rows that were pending and free when it did. -/
structure Batch where
  dispatcher : Nat
  attempted : List Uuid
  failed : Nat
  left : List Uuid

/-- The table, its row locks and the dispatchers. -/
structure State where
  rows : List Row
  locked : List Uuid
  phase : Nat → Phase
  /-- The records of the transactions that committed. -/
  enqueued : List Record
  /-- Those whose id was not taken. -/
  inserted : List Record
  /-- What Kafka acknowledged. -/
  acked : List Record
  /-- Who attempted which row, and whether it was sent. -/
  tried : List (Nat × Uuid × Bool)
  ended : List Batch

/-! ### The statements -/

/-- The rows that a dispatcher can select. -/
def waiting (rows : List Row) (locked attempted : List Uuid) : List Row :=
  rows.filter fun row => row.sentAt.isNone && row.eventId ∉ attempted && row.eventId ∉ locked

/-- `ORDER BY created_at, event_id`. -/
def compareRows (a b : Row) : Ordering :=
  (compare a.createdAt b.createdAt).then (compare a.eventId b.eventId)

/-- `SELECT … LIMIT 1 FOR UPDATE SKIP LOCKED`. -/
def selectNext (rows : List Row) (locked attempted : List Uuid) : Option Row :=
  (stableSort compareRows (waiting rows locked attempted)).head?

/-- `UPDATE interaction_event_outbox … WHERE event_id = $1`. -/
def updateRow (rows : List Row) (id : Uuid) (f : Row → Row) : List Row :=
  rows.map fun row => if row.eventId = id then f row else row

/-- `SET sent_at = NOW(), attempts = attempts + 1, last_error = NULL`. -/
def Row.markSent (now : Instant) (row : Row) : Row :=
  { row with sentAt := some now, attempts := row.attempts + 1, lastError := none }

/-- `SET attempts = attempts + 1, last_error = $2`; the message has 2000 characters at most. -/
def Row.markFailed (error : String) (row : Row) : Row :=
  { row with
    attempts := row.attempts + 1
    lastError := some (String.ofList (error.toList.take 2000)) }

/-- `attempts + 1` is an `INTEGER`; otherwise the `UPDATE` fails. -/
def Countable (rows : List Row) (id : Uuid) : Prop :=
  ∀ row ∈ rows, row.eventId = id → row.attempts < maxInteger

instance (rows : List Row) (id : Uuid) : Decidable (Countable rows id) :=
  inferInstanceAs (Decidable (∀ row ∈ rows, _))

/-- The rows that `cleanup_batch` deletes. -/
def expired (now : Instant) (rows : List Row) (locked : List Uuid) : List Row :=
  let old := rows.filter fun row =>
    row.sentAt.any (fun sentAt => decide (sentAt < now - retention)) && row.eventId ∉ locked
  (stableSort (fun a b => (compare a.sentAt b.sentAt).then (compare a.eventId b.eventId)) old).take
    cleanupBatchSize

def cleanupBatch (now : Instant) (rows : List Row) (locked : List Uuid) : List Row :=
  rows.filter fun row => row.eventId ∉ (expired now rows locked).map fun old => old.eventId

/-- What can happen. -/
inductive Action where
  /-- A transaction with `enqueue_outbox_events(messages)` commits. -/
  | enqueue (now : Instant) (messages : List Message)
  | wake (d : Nat)
  | select (d : Nat)
  /-- Kafka acknowledges the record. -/
  | acknowledge (d : Nat)
  /-- Kafka acknowledges the record, which the dispatcher does not learn. -/
  | accept (d : Nat)
  /-- The send fails or times out. -/
  | reject (d : Nat) (error : String)
  /-- The result is recorded and the transaction committed. -/
  | commit (d : Nat) (now : Instant)
  /-- The transaction is committed, which the dispatcher does not learn. -/
  | commitLost (d : Nat) (now : Instant)
  /-- The transaction is rolled back, after an error of the database or a crash. -/
  | abort (d : Nat)
  | crash (d : Nat)
  | clean (now : Instant)

/-- A dispatcher goes on and keeps its locks. -/
def State.move (s : State) (d : Nat) (phase : Phase) : State :=
  { s with phase := Function.update s.phase d phase }

/-- The transaction of a dispatcher ends. -/
def State.release (s : State) (d : Nat) (rows : List Row) (phase : Phase) : State :=
  { s with
    rows := rows
    locked := s.locked.filter fun id => (s.phase d).held ≠ some id
    phase := Function.update s.phase d phase }

/-- A batch ends with `Ok`. -/
def State.finish (s : State) (d : Nat) (attempted : List Uuid) (failed : Nat) : State :=
  { s.move d .asleep with
    ended := ⟨d, attempted, failed,
      (waiting s.rows s.locked attempted).map fun row => row.eventId⟩ :: s.ended }

/-- The head of the loop of `dispatch_batch`, and the `SELECT`. -/
def State.select (s : State) (d : Nat) : Option State :=
  match s.phase d with
  | .selecting attempted failed =>
    if attempted.length < batchSize then
      match selectNext s.rows s.locked attempted with
      | none => some (s.finish d attempted failed)
      | some row =>
        some { s.move d (.sending row attempted failed) with locked := row.eventId :: s.locked }
    else some (s.finish d attempted failed)
  | _ => none

/-- The end of `dispatch_next` after a send. -/
def State.commit (s : State) (d : Nat) (now : Instant) : Option State :=
  match s.phase d with
  | .acknowledged row attempted failed =>
    if Countable s.rows row.eventId then
      some (s.release d (updateRow s.rows row.eventId (Row.markSent now))
        (.selecting (attempted ++ [row.eventId]) failed))
    else none
  | .rejected row error attempted failed =>
    if Countable s.rows row.eventId then
      some (s.release d (updateRow s.rows row.eventId (Row.markFailed error))
        (.selecting (attempted ++ [row.eventId]) (failed + 1)))
    else none
  | _ => none

/-- One action. -/
def step (s : State) : Action → Option State
  | .enqueue now messages =>
    (messages.mapM (messageRow now)).map fun rows =>
      { s with
        rows := insertAllNew (fun row => row.eventId) s.rows rows
        enqueued := s.enqueued ++ rows.map fun row => row.toRecord
        inserted := s.inserted
          ++ (newRows (fun row => row.eventId) s.rows rows).map fun row => row.toRecord }
  | .wake d =>
    match s.phase d with
    | .asleep => some (s.move d (.selecting [] 0))
    | _ => none
  | .select d => s.select d
  | .acknowledge d =>
    match s.phase d with
    | .sending row attempted failed =>
      some { s.move d (.acknowledged row attempted failed) with
        acked := row.toRecord :: s.acked
        tried := (d, row.eventId, true) :: s.tried }
    | _ => none
  | .accept d =>
    match s.phase d with
    | .sending row _ _ => some { s with acked := row.toRecord :: s.acked }
    | _ => none
  | .reject d error =>
    match s.phase d with
    | .sending row attempted failed =>
      some { s.move d (.rejected row error attempted failed) with
        tried := (d, row.eventId, false) :: s.tried }
    | _ => none
  | .commit d now => s.commit d now
  | .commitLost d now => (s.commit d now).map fun t => t.move d .asleep
  | .abort d => some (s.release d s.rows .asleep)
  | .crash d => some (s.move d (.crashed (s.phase d).held))
  | .clean now => some { s with rows := cleanupBatch now s.rows s.locked }

/-- An empty table. -/
def initial : State := ⟨[], [], fun _ => .asleep, [], [], [], [], []⟩

/-! ### What holds in every run -/

/-- The guarantees of the outbox. -/
structure Delivery (s : State) : Prop where
  /-- An event of a committed transaction is in the table under its id, -/
  represented : ∀ r ∈ s.enqueued, ∃ r' ∈ s.inserted, r'.eventId = r.eventId
  /-- and what entered the table is pending or was acknowledged. -/
  delivered : ∀ r ∈ s.inserted, r ∈ s.acked ∨ ∃ row ∈ s.rows, row.toRecord = r ∧ row.sentAt = none
  marked : ∀ row ∈ s.rows, row.sentAt ≠ none → row.toRecord ∈ s.acked
  /-- Kafka gets nothing else. -/
  origin : ∀ r ∈ s.acked, r ∈ s.inserted
  exclusive : ∀ d e id, (s.phase d).held = some id → (s.phase e).held = some id → d = e
  /-- After a failed send the batch goes on without the row, -/
  goesOn : ∀ d row error attempted failed, s.phase d = .rejected row error attempted failed →
    Countable s.rows row.eventId → ∀ now, ∃ t, step s (.commit d now) = some t ∧
      t.phase d = .selecting (attempted ++ [row.eventId]) (failed + 1)
  /-- takes one row after the other, -/
  selects : ∀ d attempted failed, s.phase d = .selecting attempted failed →
    attempted.length < batchSize → waiting s.rows s.locked attempted ≠ [] →
    ∃ row ∈ waiting s.rows s.locked attempted, ∃ t, step s (.select d) = some t ∧
      t.phase d = .sending row attempted failed
  /-- and only ends when it is full or no row is left. -/
  complete : ∀ b ∈ s.ended, b.attempted.length = batchSize ∨ b.left = []
  attempted : ∀ b ∈ s.ended, b.attempted.Nodup ∧
    ∀ id ∈ b.attempted, ∃ sent, (b.dispatcher, id, sent) ∈ s.tried

/-- The table, its locks and the transactions that hold them. -/
structure Consistent (s : State) : Prop where
  keys : (s.rows.map fun row => row.eventId).Nodup
  stored : ∀ row ∈ s.rows, row.toRecord ∈ s.inserted
  represented : ∀ r ∈ s.enqueued, ∃ r' ∈ s.inserted, r'.eventId = r.eventId
  delivered : ∀ r ∈ s.inserted, r ∈ s.acked ∨ ∃ row ∈ s.rows, row.toRecord = r ∧ row.sentAt = none
  marked : ∀ row ∈ s.rows, row.sentAt ≠ none → row.toRecord ∈ s.acked
  origin : ∀ r ∈ s.acked, r ∈ s.inserted
  row : ∀ d row, (s.phase d).row = some row → row ∈ s.rows ∧ row.sentAt = none
  locks : ∀ d id, (s.phase d).held = some id → id ∈ s.locked
  exclusive : ∀ d e id, (s.phase d).held = some id → (s.phase e).held = some id → d = e
  acknowledged : ∀ d row attempted failed, s.phase d = .acknowledged row attempted failed →
    row.toRecord ∈ s.acked

theorem consistent_initial : Consistent initial where
  keys := List.nodup_nil
  stored row h := by cases h
  represented r h := by cases h
  delivered r h := by cases h
  marked row h := by cases h
  origin r h := by cases h
  row d row h := by cases h
  locks d id h := by cases h
  exclusive d e id h := by cases h
  acknowledged d row attempted failed h := by cases h

theorem held_of_row {phase : Phase} {row : Row} (h : phase.row = some row) :
    phase.held = some row.eventId := by
  cases phase with
  | sending r attempted failed => exact congrArg (Option.map fun row : Row => row.eventId) h
  | acknowledged r attempted failed => exact congrArg (Option.map fun row : Row => row.eventId) h
  | rejected r error attempted failed => exact congrArg (Option.map fun row : Row => row.eventId) h
  | _ => cases h

section Consistent

variable {s : State}

/-- A dispatcher goes on; it holds no other row than before. -/
theorem Consistent.move (hs : Consistent s) {d : Nat} {new : Phase}
    (hrow : ∀ row, new.row = some row → (s.phase d).row = some row)
    (hheld : ∀ id, new.held = some id → (s.phase d).held = some id)
    (hack : ∀ row attempted failed, new = .acknowledged row attempted failed →
      row.toRecord ∈ s.acked) : Consistent (s.move d new) := by
  have held : ∀ e id, ((s.move d new).phase e).held = some id → (s.phase e).held = some id := by
    refine (Function.forall_update_iff s.phase fun e phase => ∀ id, phase.held = some id →
      (s.phase e).held = some id).mpr ⟨hheld, fun e _ id h => h⟩
  refine { hs with row := ?_, locks := ?_, exclusive := ?_, acknowledged := ?_ }
  · refine (Function.forall_update_iff s.phase fun _ phase => ∀ row, phase.row = some row →
      row ∈ s.rows ∧ row.sentAt = none).mpr ⟨fun row h => hs.row d row (hrow row h), ?_⟩
    exact fun e _ row h => hs.row e row h
  · exact fun e id h => hs.locks e id (held e id h)
  · exact fun e e' id h h' => hs.exclusive e e' id (held e id h) (held e' id h')
  · refine (Function.forall_update_iff s.phase fun _ phase => ∀ row attempted failed,
      phase = .acknowledged row attempted failed → row.toRecord ∈ s.acked).mpr ⟨hack, ?_⟩
    exact fun e _ row attempted failed h => hs.acknowledged e row attempted failed h

/-- Kafka acknowledges a record of the table. -/
theorem Consistent.ack (hs : Consistent s) {r : Record} (hr : r ∈ s.inserted) :
    Consistent { s with acked := r :: s.acked } where
  keys := hs.keys
  stored := hs.stored
  represented := hs.represented
  delivered r' hr' := (hs.delivered r' hr').imp_left (List.mem_cons_of_mem _)
  marked row hrow hsent := List.mem_cons_of_mem _ (hs.marked row hrow hsent)
  origin r' hr' := by
    rcases List.mem_cons.mp hr' with rfl | hr'
    · exact hr
    · exact hs.origin r' hr'
  row := hs.row
  locks := hs.locks
  exclusive := hs.exclusive
  acknowledged d row attempted failed h :=
    List.mem_cons_of_mem _ (hs.acknowledged d row attempted failed h)

/-- A free pending row is locked. -/
theorem Consistent.lock (hs : Consistent s) {d : Nat} {row : Row} {attempted : List Uuid}
    {failed : Nat} (hrow : row ∈ s.rows) (hpending : row.sentAt = none)
    (hfree : row.eventId ∉ s.locked) :
    Consistent { s.move d (.sending row attempted failed) with
      locked := row.eventId :: s.locked } := by
  have held : ∀ e id, ((s.move d (.sending row attempted failed)).phase e).held = some id →
      (e = d ∧ id = row.eventId) ∨ (e ≠ d ∧ (s.phase e).held = some id) := by
    refine (Function.forall_update_iff s.phase fun e phase => ∀ id, phase.held = some id →
      (e = d ∧ id = row.eventId) ∨ (e ≠ d ∧ (s.phase e).held = some id)).mpr ⟨fun id h => ?_, ?_⟩
    · exact .inl ⟨rfl, (Option.some.inj h).symm⟩
    · exact fun e hne id h => .inr ⟨hne, h⟩
  refine { hs with row := ?_, locks := ?_, exclusive := ?_, acknowledged := ?_ }
  · refine (Function.forall_update_iff s.phase fun _ phase => ∀ row', phase.row = some row' →
      row' ∈ s.rows ∧ row'.sentAt = none).mpr ⟨fun row' h => ?_, fun e _ row' h => hs.row e row' h⟩
    obtain rfl := Option.some.inj h
    exact ⟨hrow, hpending⟩
  · intro e id h
    rcases held e id h with ⟨-, rfl⟩ | ⟨-, h⟩
    · exact List.mem_cons_self
    · exact List.mem_cons_of_mem _ (hs.locks e id h)
  · intro e e' id h h'
    rcases held e id h with ⟨rfl, rfl⟩ | ⟨-, hold⟩
    · rcases held e' _ h' with ⟨rfl, -⟩ | ⟨-, hold'⟩
      · rfl
      · exact absurd (hs.locks e' _ hold') hfree
    · rcases held e' id h' with ⟨rfl, rfl⟩ | ⟨-, hold'⟩
      · exact absurd (hs.locks e _ hold) hfree
      · exact hs.exclusive e e' id hold hold'
  · refine (Function.forall_update_iff s.phase fun _ phase => ∀ row attempted failed,
      phase = .acknowledged row attempted failed → row.toRecord ∈ s.acked).mpr ⟨by simp, ?_⟩
    exact fun e _ row attempted failed h => hs.acknowledged e row attempted failed h

/-- The transaction of a dispatcher ends without a write. -/
theorem Consistent.release (hs : Consistent s) {d : Nat} {new : Phase} (hnew : new.held = none) :
    Consistent (s.release d s.rows new) := by
  have hrow : new.row = none := by
    cases hnew' : new.row with
    | none => rfl
    | some row =>
      rw [held_of_row hnew'] at hnew
      cases hnew
  have hmove : Consistent (s.move d new) := by
    refine hs.move (by simp [hrow]) (by simp [hnew]) ?_
    rintro row attempted failed rfl
    cases hnew
  refine { hmove with locks := fun e id h => ?_ }
  have hne : e ≠ d := by
    rintro rfl
    have hself : (Function.update s.phase e new e).held = some id := h
    rw [Function.update_self, hnew] at hself
    cases hself
  have hold : (s.phase e).held = some id := by
    have hother : (Function.update s.phase d new e).held = some id := h
    rw [Function.update_of_ne hne] at hother
    exact hother
  refine List.mem_filter.mpr ⟨hs.locks e id hold, ?_⟩
  exact decide_eq_true fun hd => hne (hs.exclusive e d id hold hd)

/-- A row that nobody holds is updated; it is marked as sent if Kafka has acknowledged it. -/
theorem Consistent.update (hs : Consistent s) {id : Uuid} {f : Row → Row}
    (hrecord : ∀ row, (f row).toRecord = row.toRecord)
    (hfree : ∀ d, (s.phase d).held ≠ some id)
    (hmark : ∀ row ∈ s.rows, row.eventId = id → row.sentAt = none → (f row).sentAt ≠ none →
      row.toRecord ∈ s.acked) :
    Consistent { s with rows := updateRow s.rows id f } := by
  have hid : ∀ row, (f row).eventId = row.eventId := fun row => by rw [hrecord]
  have hmem : ∀ row ∈ updateRow s.rows id f, ∃ old ∈ s.rows, row.toRecord = old.toRecord ∧
      (row = old ∨ old.eventId = id ∧ row = f old) := by
    intro row hrow
    obtain ⟨old, hold, rfl⟩ := List.mem_map.mp hrow
    refine ⟨old, hold, ?_⟩
    by_cases hkey : old.eventId = id
    · rw [if_pos hkey]
      exact ⟨hrecord old, .inr ⟨hkey, rfl⟩⟩
    · rw [if_neg hkey]
      exact ⟨rfl, .inl rfl⟩
  constructor
  · have hkeys : (updateRow s.rows id f).map (fun row => row.eventId)
        = s.rows.map fun row => row.eventId := by
      unfold updateRow
      rw [List.map_map]
      refine List.map_congr_left fun row _ => ?_
      show (if row.eventId = id then f row else row).eventId = row.eventId
      split
      · exact hid row
      · rfl
    exact hkeys ▸ hs.keys
  · intro row hrow
    obtain ⟨old, hold, heq, -⟩ := hmem row hrow
    exact heq ▸ hs.stored old hold
  · exact hs.represented
  · intro r hr
    rcases hs.delivered r hr with hacked | ⟨row, hrow, rfl, hpending⟩
    · exact .inl hacked
    · by_cases hkey : row.eventId = id
      · by_cases hnew : (f row).sentAt = none
        · exact .inr ⟨f row, List.mem_map.mpr ⟨row, hrow, if_pos hkey⟩, hrecord row, hnew⟩
        · exact .inl (hmark row hrow hkey hpending hnew)
      · exact .inr ⟨row, List.mem_map.mpr ⟨row, hrow, if_neg hkey⟩, rfl, hpending⟩
  · intro row hrow hrowSent
    obtain ⟨old, hold, heq, rfl | ⟨hkey, rfl⟩⟩ := hmem row hrow
    · exact hs.marked row hold hrowSent
    · rw [hrecord]
      by_cases hpending : old.sentAt = none
      · exact hmark old hold hkey hpending hrowSent
      · exact hs.marked old hold hpending
  · exact hs.origin
  · intro d row hrow
    obtain ⟨hold, hpending⟩ := hs.row d row hrow
    refine ⟨List.mem_map.mpr ⟨row, hold, if_neg fun hkey => hfree d ?_⟩, hpending⟩
    rw [held_of_row hrow, hkey]
  · exact hs.locks
  · exact hs.exclusive
  · exact hs.acknowledged

/-- Rows of a committed transaction enter the table, unless their ids are taken. -/
theorem Consistent.enqueue (hs : Consistent s) {rows : List Row}
    (hpending : ∀ row ∈ rows, row.sentAt = none) :
    Consistent { s with
      rows := insertAllNew (fun row => row.eventId) s.rows rows
      enqueued := s.enqueued ++ rows.map fun row => row.toRecord
      inserted := s.inserted
        ++ (newRows (fun row => row.eventId) s.rows rows).map fun row => row.toRecord } := by
  have hrows : insertAllNew (fun row => row.eventId) s.rows rows
      = s.rows ++ newRows (fun row => row.eventId) s.rows rows := Lib.insertAllNew_eq
  constructor
  · exact Lib.nodup_insertAllNew hs.keys
  · intro row hrow
    rw [hrows] at hrow
    rcases List.mem_append.mp hrow with hrow | hrow
    · exact List.mem_append_left _ (hs.stored row hrow)
    · exact List.mem_append_right _ (List.mem_map_of_mem hrow)
  · intro r hr
    rcases List.mem_append.mp hr with hr | hr
    · obtain ⟨r', hr', hid⟩ := hs.represented r hr
      exact ⟨r', List.mem_append_left _ hr', hid⟩
    · -- The id of a row that is skipped is the id of a row that was there before it.
      obtain ⟨row, hrow, rfl⟩ := List.mem_map.mp hr
      have htaken : Taken (fun row : Row => row.eventId)
          (insertAllNew (fun row => row.eventId) s.rows rows) row.eventId :=
        Lib.taken_insertAllNew.mpr (.inr ⟨row, hrow, rfl⟩)
      obtain ⟨row', hrow', hid⟩ := htaken
      rw [hrows] at hrow'
      refine ⟨row'.toRecord, ?_, hid⟩
      rcases List.mem_append.mp hrow' with hold | hnew
      · exact List.mem_append_left _ (hs.stored row' hold)
      · exact List.mem_append_right _ (List.mem_map_of_mem hnew)
  · intro r hr
    rcases List.mem_append.mp hr with hr | hr
    · refine (hs.delivered r hr).imp_right ?_
      rintro ⟨row, hrow, heq⟩
      exact ⟨row, by rw [hrows]; exact List.mem_append_left _ hrow, heq⟩
    · obtain ⟨row, hrow, rfl⟩ := List.mem_map.mp hr
      refine .inr ⟨row, by rw [hrows]; exact List.mem_append_right _ hrow, rfl, ?_⟩
      exact hpending row (Lib.newRows_subset hrow)
  · intro row hrow hsent
    rw [hrows] at hrow
    rcases List.mem_append.mp hrow with hrow | hrow
    · exact hs.marked row hrow hsent
    · exact absurd (hpending row (Lib.newRows_subset hrow)) hsent
  · exact fun r hr => List.mem_append_left _ (hs.origin r hr)
  · intro d row hrow
    obtain ⟨hold, hpend⟩ := hs.row d row hrow
    exact ⟨by rw [hrows]; exact List.mem_append_left _ hold, hpend⟩
  · exact hs.locks
  · exact hs.exclusive
  · exact hs.acknowledged

theorem mem_expired {now : Instant} {row : Row} (h : row ∈ expired now s.rows s.locked) :
    row ∈ s.rows ∧ row.sentAt ≠ none ∧ row.eventId ∉ s.locked := by
  have hold := Lib.mem_stableSort.mp (List.mem_of_mem_take h)
  obtain ⟨hrow, hcond⟩ := List.mem_filter.mp hold
  simp only [Bool.and_eq_true, decide_eq_true_eq] at hcond
  refine ⟨hrow, ?_, hcond.2⟩
  intro hnone
  rw [hnone] at hcond
  exact Bool.false_ne_true hcond.1

/-- The cleanup deletes rows that are marked as sent, and that nobody holds. -/
theorem Consistent.clean (hs : Consistent s) {now : Instant} :
    Consistent { s with rows := cleanupBatch now s.rows s.locked } := by
  have hsub : ∀ row ∈ cleanupBatch now s.rows s.locked, row ∈ s.rows :=
    fun row h => (List.mem_filter.mp h).1
  -- A pending row is no expired one, also not by its id.
  have hkeep : ∀ row ∈ s.rows, row.sentAt = none → row ∈ cleanupBatch now s.rows s.locked := by
    intro row hrow hpending
    refine List.mem_filter.mpr ⟨hrow, decide_eq_true ?_⟩
    rw [List.mem_map]
    rintro ⟨old, hold, hid⟩
    obtain ⟨holdMem, hsent, -⟩ := mem_expired hold
    have hsame : old = row := List.inj_on_of_nodup_map hs.keys holdMem hrow hid
    exact hsent (hsame ▸ hpending)
  constructor
  · exact hs.keys.sublist (List.filter_sublist.map _)
  · exact fun row h => hs.stored row (hsub row h)
  · exact hs.represented
  · intro r hr
    refine (hs.delivered r hr).imp_right ?_
    rintro ⟨row, hrow, heq, hpending⟩
    exact ⟨row, hkeep row hrow hpending, heq, hpending⟩
  · exact fun row h => hs.marked row (hsub row h)
  · exact hs.origin
  · intro d row hrow
    obtain ⟨hold, hpending⟩ := hs.row d row hrow
    exact ⟨hkeep row hold hpending, hpending⟩
  · exact hs.locks
  · exact hs.exclusive
  · exact hs.acknowledged

end Consistent

/-! ### Batches -/

/-- What a batch has attempted so far. -/
def Phase.attempted : Phase → List Uuid
  | .selecting attempted _ => attempted
  | .sending _ attempted _ => attempted
  | .acknowledged _ attempted _ => attempted
  | .rejected _ _ attempted _ => attempted
  | _ => []

/-- The row whose send has a result. -/
def Phase.result : Phase → Option Row
  | .acknowledged row _ _ => some row
  | .rejected row _ _ _ => some row
  | _ => none

theorem row_of_result {phase : Phase} {row : Row} (h : phase.result = some row) :
    phase.row = some row := by
  cases phase with
  | acknowledged r attempted failed => exact h
  | rejected r error attempted failed => exact h
  | _ => cases h

/-- The batch has room for the row that it attempts, and has not attempted it before. -/
structure Attempting (tries : List (Nat × Uuid × Bool)) (d : Nat) (phase : Phase) : Prop where
  nodup : phase.attempted.Nodup
  full : phase.attempted.length ≤ batchSize
  tried : ∀ id ∈ phase.attempted, ∃ sent, (d, id, sent) ∈ tries
  new : ∀ row, phase.row = some row → row.eventId ∉ phase.attempted
  room : ∀ row, phase.row = some row → phase.attempted.length < batchSize
  result : ∀ row, phase.result = some row → ∃ sent, (d, row.eventId, sent) ∈ tries

/-- The batches, those that run and those that ended. -/
structure Batches (s : State) : Prop where
  running : ∀ d, Attempting s.tried d (s.phase d)
  complete : ∀ b ∈ s.ended, b.attempted.length = batchSize ∨ b.left = []
  attempted : ∀ b ∈ s.ended, b.attempted.Nodup ∧
    ∀ id ∈ b.attempted, ∃ sent, (b.dispatcher, id, sent) ∈ s.tried

/-- No batch. -/
theorem attempting_nil {tries : List (Nat × Uuid × Bool)} {d : Nat} {phase : Phase}
    (hattempted : phase.attempted = []) (hrow : phase.row = none) : Attempting tries d phase where
  nodup := by rw [hattempted]; exact List.nodup_nil
  full := by rw [hattempted]; exact Nat.zero_le _
  tried id h := by rw [hattempted] at h; cases h
  new row h := by rw [hrow] at h; cases h
  room row h := by rw [hrow] at h; cases h
  result row h := by
    cases phase with
    | acknowledged _ _ _ => cases hrow
    | rejected _ _ _ _ => cases hrow
    | _ => cases h

theorem Attempting.mono {tries tries' : List (Nat × Uuid × Bool)} {d : Nat} {phase : Phase}
    (h : Attempting tries d phase) (hsub : tries ⊆ tries') : Attempting tries' d phase where
  nodup := h.nodup
  full := h.full
  tried id hid := (h.tried id hid).imp fun _ hmem => hsub hmem
  new := h.new
  room := h.room
  result row hrow := (h.result row hrow).imp fun _ hmem => hsub hmem

/-- A dispatcher goes on with its batch, or without one. -/
theorem Batches.move {s t : State} (hs : Batches s) {d : Nat} {new : Phase}
    (hphase : t.phase = Function.update s.phase d new) (hended : t.ended = s.ended)
    (htried : s.tried ⊆ t.tried) (hnew : Attempting t.tried d new) : Batches t where
  running := by
    rw [hphase]
    refine (Function.forall_update_iff s.phase fun e phase => Attempting t.tried e phase).mpr
      ⟨hnew, fun e _ => (hs.running e).mono htried⟩
  complete := hended ▸ hs.complete
  attempted b hb := by
    obtain ⟨hnodup, hall⟩ := hs.attempted b (hended ▸ hb)
    exact ⟨hnodup, fun id hid => (hall id hid).imp fun _ hmem => htried hmem⟩

/-- A batch ends after a `SELECT` that finds nothing, or when it is full. -/
theorem Batches.finish {s : State} (hs : Batches s) {d : Nat} {attempted : List Uuid} {failed : Nat}
    (hphase : s.phase d = .selecting attempted failed)
    (hend : attempted.length = batchSize ∨ waiting s.rows s.locked attempted = []) :
    Batches (s.finish d attempted failed) := by
  have hbatch := hs.running d
  rw [hphase] at hbatch
  have hmove : Batches (s.move d .asleep) :=
    hs.move rfl rfl (List.Subset.refl _) (attempting_nil rfl rfl)
  refine ⟨hmove.running, fun b hb => ?_, fun b hb => ?_⟩
  · rcases List.mem_cons.mp hb with rfl | hb
    · exact hend.imp_right fun h => by rw [h]; rfl
    · exact hs.complete b hb
  · rcases List.mem_cons.mp hb with rfl | hb
    · exact ⟨hbatch.nodup, hbatch.tried⟩
    · exact hs.attempted b hb

/-- The row that was attempted joins those that were attempted before. -/
theorem Attempting.commit {tries : List (Nat × Uuid × Bool)} {d : Nat} {phase : Phase} {row : Row}
    (h : Attempting tries d phase) (hrow : phase.result = some row) (failed : Nat) :
    Attempting tries d (.selecting (phase.attempted ++ [row.eventId]) failed) := by
  have hheld := row_of_result hrow
  refine ⟨?_, ?_, fun id hid => ?_, nofun, nofun, nofun⟩
  · refine List.nodup_append.mpr ⟨h.nodup, List.nodup_singleton _, fun a ha b hb => ?_⟩
    rintro rfl
    exact h.new row hheld (List.mem_singleton.mp hb ▸ ha)
  · have hroom := h.room row hheld
    show (phase.attempted ++ [row.eventId]).length ≤ batchSize
    rw [List.length_append, List.length_singleton]
    omega
  · rcases List.mem_append.mp hid with hid | hid
    · exact h.tried id hid
    · exact List.mem_singleton.mp hid ▸ h.result row hrow

/-! ### Every run -/

theorem selectNext_eq_none {rows : List Row} {locked attempted : List Uuid}
    (h : selectNext rows locked attempted = none) : waiting rows locked attempted = [] := by
  have hperm := Lib.stableSort_perm compareRows (waiting rows locked attempted)
  rw [List.head?_eq_none_iff.mp h] at hperm
  exact hperm.nil_eq.symm

theorem mem_waiting_of_selectNext {rows : List Row} {locked attempted : List Uuid} {row : Row}
    (h : selectNext rows locked attempted = some row) : row ∈ waiting rows locked attempted :=
  Lib.mem_stableSort.mp (List.mem_of_head? h)

/-- What waits: a pending row that is not attempted and not locked. -/
theorem mem_waiting {rows : List Row} {locked attempted : List Uuid} {row : Row} :
    row ∈ waiting rows locked attempted ↔
      row ∈ rows ∧ row.sentAt = none ∧ row.eventId ∉ attempted ∧ row.eventId ∉ locked := by
  simp [waiting, and_assoc]

/-- What a `SELECT` does. -/
theorem select_cases {s t : State} {d : Nat} (h : s.select d = some t) :
    ∃ attempted failed, s.phase d = .selecting attempted failed ∧
      ((∃ row ∈ waiting s.rows s.locked attempted, attempted.length < batchSize ∧
          t = { s.move d (.sending row attempted failed) with locked := row.eventId :: s.locked })
        ∨ (batchSize ≤ attempted.length ∨ waiting s.rows s.locked attempted = []) ∧
          t = s.finish d attempted failed) := by
  unfold State.select at h
  split at h
  · next attempted failed hphase =>
    refine ⟨attempted, failed, hphase, ?_⟩
    split_ifs at h with hroom
    · split at h
      · next hnone => exact .inr ⟨.inr (selectNext_eq_none hnone), (Option.some.inj h).symm⟩
      · next row hrow =>
        exact .inl ⟨row, mem_waiting_of_selectNext hrow, hroom, (Option.some.inj h).symm⟩
    · exact .inr ⟨.inl (by omega), (Option.some.inj h).symm⟩
  · cases h

/-- The update of a row after its send: whether it was sent is recorded truthfully. -/
structure Receipt (s : State) (row : Row) (f : Row → Row) : Prop where
  record : ∀ r, (f r).toRecord = r.toRecord
  sent : ∀ r, r.sentAt = none → (f r).sentAt ≠ none → row.toRecord ∈ s.acked

/-- What a commit does. -/
theorem commit_cases {s t : State} {d : Nat} {now : Instant} (hs : Consistent s)
    (h : s.commit d now = some t) :
    ∃ row f failed, (s.phase d).result = some row ∧ Receipt s row f ∧
      t = s.release d (updateRow s.rows row.eventId f)
        (.selecting ((s.phase d).attempted ++ [row.eventId]) failed) := by
  unfold State.commit at h
  split at h
  · next row attempted failed hphase =>
    split_ifs at h
    refine ⟨row, Row.markSent now, failed, by rw [hphase]; rfl, ⟨fun _ => rfl, fun _ _ _ => ?_⟩, ?_⟩
    · exact hs.acknowledged d row attempted failed hphase
    · rw [hphase]
      exact (Option.some.inj h).symm
  · next row error attempted failed hphase =>
    split_ifs at h
    refine ⟨row, Row.markFailed error, failed + 1, by rw [hphase]; rfl,
      ⟨fun _ => rfl, fun _ hnone hsome => absurd hnone hsome⟩, ?_⟩
    rw [hphase]
    exact (Option.some.inj h).symm
  · cases h

/-- A commit keeps the table consistent. -/
theorem Consistent.commit {s t : State} {d : Nat} {now : Instant} (hs : Consistent s)
    (h : s.commit d now = some t) : Consistent t := by
  obtain ⟨row, f, failed, hresult, hreceipt, rfl⟩ := commit_cases hs h
  have hrow := row_of_result hresult
  have hreleased : Consistent (s.release d s.rows
      (.selecting ((s.phase d).attempted ++ [row.eventId]) failed)) := hs.release rfl
  refine hreleased.update hreceipt.record (fun e he => ?_) fun r hr hid hpending hsome => ?_
  · -- The lock was the dispatcher's own, and it has released it.
    by_cases hed : e = d
    · subst hed
      have hself : (Function.update s.phase e _ e).held = some row.eventId := he
      rw [Function.update_self] at hself
      cases hself
    · have hother : (Function.update s.phase d _ e).held = some row.eventId := he
      rw [Function.update_of_ne hed] at hother
      exact hed (hs.exclusive e d row.eventId hother (held_of_row hrow))
  · have hsame : r = row := List.inj_on_of_nodup_map hs.keys hr (hs.row d row hrow).1 hid
    exact hsame ▸ hreceipt.sent r hpending hsome

/-- A commit keeps the batches. -/
theorem Batches.commit {s t : State} {d : Nat} {now : Instant} (hc : Consistent s)
    (hs : Batches s) (h : s.commit d now = some t) : Batches t := by
  obtain ⟨row, f, failed, hresult, -, rfl⟩ := commit_cases hc h
  exact hs.move rfl rfl (List.Subset.refl _) ((hs.running d).commit hresult failed)

/-- Every row of a transaction is that of one of its messages. -/
theorem exists_message_of_mapM {now : Instant} {messages : List Message} {rows : List Row}
    (h : messages.mapM (messageRow now) = some rows) :
    ∀ row ∈ rows, ∃ m ∈ messages, messageRow now m = some row := by
  induction messages generalizing rows with
  | nil =>
    obtain rfl : [] = rows := Option.some.inj h
    intro row hrow
    cases hrow
  | cons m messages ih =>
    rw [List.mapM_cons] at h
    obtain ⟨first, hfirst, h⟩ := Option.bind_eq_some_iff.mp h
    obtain ⟨rest, hrest, h⟩ := Option.bind_eq_some_iff.mp h
    obtain rfl : first :: rest = rows := Option.some.inj h
    intro row hrow
    rcases List.mem_cons.mp hrow with rfl | hrow
    · exact ⟨m, List.mem_cons_self, hfirst⟩
    · obtain ⟨m', hm', hrow'⟩ := ih hrest row hrow
      exact ⟨m', List.mem_cons_of_mem _ hm', hrow'⟩

/-- The row of a message has its id and is pending. -/
theorem messageRow_spec {now : Instant} {m : Message} {row : Row}
    (h : messageRow now m = some row) : row.eventId = m.eventId ∧ row.sentAt = none := by
  obtain ⟨payload, -, rfl⟩ := Option.map_eq_some_iff.mp h
  exact ⟨rfl, rfl⟩

/-- **Step lemma.** -/
theorem step_consistent {s t : State} {a : Action} (hs : Consistent s) (h : step s a = some t) :
    Consistent t := by
  cases a with
  | enqueue now messages =>
    obtain ⟨rows, hrows, rfl⟩ := Option.map_eq_some_iff.mp h
    refine hs.enqueue fun row hrow => ?_
    obtain ⟨m, -, hm⟩ := exists_message_of_mapM hrows row hrow
    exact (messageRow_spec hm).2
  | wake d =>
    simp only [step] at h
    split at h
    · obtain rfl := Option.some.inj h
      exact hs.move nofun nofun nofun
    · cases h
  | select d =>
    obtain ⟨attempted, failed, -, ⟨row, hrow, -, rfl⟩ | ⟨-, rfl⟩⟩ := select_cases h
    · obtain ⟨hmem, hpending, -, hfree⟩ := mem_waiting.mp hrow
      exact hs.lock hmem hpending hfree
    · have hmove : Consistent (s.move d .asleep) :=
        hs.move nofun nofun nofun
      exact { hmove with }
  | acknowledge d =>
    simp only [step] at h
    split at h
    · next row attempted failed hphase =>
      obtain rfl := Option.some.inj h
      have hrow : (s.phase d).row = some row := by rw [hphase]; rfl
      have hacked := hs.ack (hs.stored row (hs.row d row hrow).1)
      have hmove := @Consistent.move _ hacked d (.acknowledged row attempted failed)
        (fun r h => by rw [hphase]; exact h) (fun id h => by rw [hphase]; exact h)
        (fun r _ _ h => by injection h with h; exact h ▸ List.mem_cons_self)
      exact { hmove with }
    · cases h
  | accept d =>
    simp only [step] at h
    split at h
    · next row attempted failed hphase =>
      obtain rfl := Option.some.inj h
      have hrow : (s.phase d).row = some row := by rw [hphase]; rfl
      exact hs.ack (hs.stored row (hs.row d row hrow).1)
    · cases h
  | reject d error =>
    simp only [step] at h
    split at h
    · next row attempted failed hphase =>
      obtain rfl := Option.some.inj h
      have hmove := @Consistent.move _ hs d (.rejected row error attempted failed)
        (fun r h => by rw [hphase]; exact h) (fun id h => by rw [hphase]; exact h)
        nofun
      exact { hmove with }
    · cases h
  | commit d now => exact hs.commit h
  | commitLost d now =>
    obtain ⟨u, hu, rfl⟩ := Option.map_eq_some_iff.mp h
    exact (hs.commit hu).move nofun nofun nofun
  | abort d =>
    obtain rfl := Option.some.inj h
    exact hs.release rfl
  | crash d =>
    obtain rfl := Option.some.inj h
    exact hs.move nofun (fun _ h => h) nofun
  | clean now =>
    obtain rfl := Option.some.inj h
    exact hs.clean

/-- **Step lemma.** -/
theorem step_batches {s t : State} {a : Action} (hc : Consistent s) (hs : Batches s)
    (h : step s a = some t) : Batches t := by
  cases a with
  | enqueue now messages =>
    obtain ⟨rows, -, rfl⟩ := Option.map_eq_some_iff.mp h
    exact { hs with }
  | wake d =>
    simp only [step] at h
    split at h
    · obtain rfl := Option.some.inj h
      exact hs.move rfl rfl (List.Subset.refl _) (attempting_nil rfl rfl)
    · cases h
  | select d =>
    obtain ⟨attempted, failed, hphase, hselect⟩ := select_cases h
    have hbatch := hs.running d
    rw [hphase] at hbatch
    rcases hselect with ⟨row, hrow, hroom, rfl⟩ | ⟨hend, rfl⟩
    · have hnew := (mem_waiting.mp hrow).2.2.1
      refine hs.move rfl rfl (List.Subset.refl _) ⟨hbatch.nodup, hbatch.full, hbatch.tried,
        fun r hr => ?_, fun _ _ => hroom, nofun⟩
      exact Option.some.inj hr ▸ hnew
    · exact hs.finish hphase (hend.imp_left fun hfull => Nat.le_antisymm hbatch.full hfull)
  | acknowledge d =>
    simp only [step] at h
    split at h
    · next row attempted failed hphase =>
      obtain rfl := Option.some.inj h
      have hbatch := hs.running d
      rw [hphase] at hbatch
      refine hs.move rfl rfl (List.subset_cons_self _ _) ?_
      have hmono := hbatch.mono (List.subset_cons_self (d, row.eventId, true) s.tried)
      exact ⟨hmono.nodup, hmono.full, hmono.tried, hmono.new, hmono.room,
        fun r hr => ⟨true, Option.some.inj hr ▸ List.mem_cons_self⟩⟩
    · cases h
  | accept d =>
    simp only [step] at h
    split at h
    · obtain rfl := Option.some.inj h
      exact { hs with }
    · cases h
  | reject d error =>
    simp only [step] at h
    split at h
    · next row attempted failed hphase =>
      obtain rfl := Option.some.inj h
      have hbatch := hs.running d
      rw [hphase] at hbatch
      refine hs.move rfl rfl (List.subset_cons_self _ _) ?_
      have hmono := hbatch.mono (List.subset_cons_self (d, row.eventId, false) s.tried)
      exact ⟨hmono.nodup, hmono.full, hmono.tried, hmono.new, hmono.room,
        fun r hr => ⟨false, Option.some.inj hr ▸ List.mem_cons_self⟩⟩
    · cases h
  | commit d now => exact hs.commit hc h
  | commitLost d now =>
    obtain ⟨u, hu, rfl⟩ := Option.map_eq_some_iff.mp h
    exact (hs.commit hc hu).move rfl rfl (List.Subset.refl _) (attempting_nil rfl rfl)
  | abort d =>
    obtain rfl := Option.some.inj h
    exact hs.move rfl rfl (List.Subset.refl _) (attempting_nil rfl rfl)
  | crash d =>
    obtain rfl := Option.some.inj h
    exact hs.move rfl rfl (List.Subset.refl _) (attempting_nil rfl rfl)
  | clean now =>
    obtain rfl := Option.some.inj h
    exact { hs with }

/-- A dispatcher takes a row as long as one waits and its batch has room. -/
theorem exists_select {s : State} {d : Nat} {attempted : List Uuid} {failed : Nat}
    (hphase : s.phase d = .selecting attempted failed) (hroom : attempted.length < batchSize)
    (hwaiting : waiting s.rows s.locked attempted ≠ []) :
    ∃ row ∈ waiting s.rows s.locked attempted, ∃ t, step s (.select d) = some t ∧
      t.phase d = .sending row attempted failed := by
  cases hnext : selectNext s.rows s.locked attempted with
  | none => exact absurd (selectNext_eq_none hnext) hwaiting
  | some row =>
    refine ⟨row, mem_waiting_of_selectNext hnext,
      { s.move d (.sending row attempted failed) with locked := row.eventId :: s.locked }, ?_,
      Function.update_self d _ s.phase⟩
    show s.select d = _
    unfold State.select
    simp only [hphase, hnext]
    exact if_pos hroom

/-- A failed send is recorded, and the batch goes on. -/
theorem exists_commit {s : State} {d : Nat} {row : Row} {error : String} {attempted : List Uuid}
    {failed : Nat} (hphase : s.phase d = .rejected row error attempted failed)
    (hcount : Countable s.rows row.eventId) (now : Instant) :
    ∃ t, step s (.commit d now) = some t ∧
      t.phase d = .selecting (attempted ++ [row.eventId]) (failed + 1) := by
  refine ⟨s.release d (updateRow s.rows row.eventId (Row.markFailed error))
    (.selecting (attempted ++ [row.eventId]) (failed + 1)), ?_, Function.update_self d _ s.phase⟩
  show s.commit d now = _
  unfold State.commit
  simp only [hphase]
  exact if_pos hcount

/-- A consistent table with its batches delivers. -/
theorem Consistent.delivers {s : State} (hc : Consistent s) (hs : Batches s) : Delivery s where
  represented := hc.represented
  delivered := hc.delivered
  marked := hc.marked
  origin := hc.origin
  exclusive := hc.exclusive
  goesOn _ _ _ _ _ hphase hcount now := exists_commit hphase hcount now
  selects _ _ _ hphase hroom hwaiting := exists_select hphase hroom hwaiting
  complete := hs.complete
  attempted := hs.attempted

/-! ### What a run enqueues -/

theorem inserted_of_commit {s t : State} {d : Nat} {now : Instant} (h : s.commit d now = some t) :
    t.inserted = s.inserted := by
  unfold State.commit at h
  split at h
  · split_ifs at h
    obtain rfl := Option.some.inj h
    rfl
  · split_ifs at h
    obtain rfl := Option.some.inj h
    rfl
  · cases h

/-- What has entered the table stays recorded. -/
theorem inserted_subset_step {s t : State} {a : Action} (h : step s a = some t) :
    s.inserted ⊆ t.inserted := by
  cases a with
  | enqueue now messages =>
    obtain ⟨rows, -, rfl⟩ := Option.map_eq_some_iff.mp h
    exact List.subset_append_left _ _
  | select d =>
    obtain ⟨attempted, failed, -, ⟨row, -, -, rfl⟩ | ⟨-, rfl⟩⟩ := select_cases h
    · exact List.Subset.refl _
    · exact List.Subset.refl _
  | commit d now => exact inserted_of_commit h ▸ List.Subset.refl _
  | commitLost d now =>
    obtain ⟨u, hu, rfl⟩ := Option.map_eq_some_iff.mp h
    exact inserted_of_commit hu ▸ List.Subset.refl _
  | wake d | acknowledge d | accept d | reject d error =>
    simp only [step] at h
    split at h
    · obtain rfl := Option.some.inj h
      exact List.Subset.refl _
    · cases h
  | abort d | crash d | clean now =>
    obtain rfl := Option.some.inj h
    exact List.Subset.refl _

/-- What was inserted stays so. -/
theorem inserted_subset_run {s t : State} {as : List Action} (h : run step s as = some t) :
    s.inserted ⊆ t.inserted :=
  Lib.run_invariant (P := fun t => s.inserted ⊆ t.inserted)
    (fun _ _ _ hsub hstep => List.Subset.trans hsub (inserted_subset_step hstep))
    (List.Subset.refl _) h

/-- A message whose id is new enters the table. -/
theorem mem_inserted_of_enqueue {s t : State} {now : Instant} {sent later : List Message}
    {m : Message} {row : Row} (h : step s (.enqueue now (sent ++ m :: later)) = some t)
    (hrow : messageRow now m = some row) (hnew : ∀ old ∈ s.rows, old.eventId ≠ m.eventId)
    (hfirst : ∀ m' ∈ sent, m'.eventId ≠ m.eventId) : row.toRecord ∈ t.inserted := by
  obtain ⟨rows, hrows, rfl⟩ := Option.map_eq_some_iff.mp h
  rw [List.mapM_append] at hrows
  obtain ⟨before, hbefore, hrows⟩ := Option.bind_eq_some_iff.mp hrows
  obtain ⟨after, hafter, hrows⟩ := Option.bind_eq_some_iff.mp hrows
  rw [List.mapM_cons, hrow, Option.bind_eq_bind, Option.bind_some] at hafter
  obtain ⟨rest, -, hafter⟩ := Option.bind_eq_some_iff.mp hafter
  obtain rfl : row :: rest = after := Option.some.inj hafter
  obtain rfl : before ++ row :: rest = rows := Option.some.inj hrows
  have hid := (messageRow_spec hrow).1
  have hmem : row ∈ newRows (fun row => row.eventId) s.rows (before ++ row :: rest) := by
    refine Lib.mem_newRows_iff.mpr ⟨?_, before, rest, rfl, ?_⟩
    · rintro ⟨old, hold, heq⟩
      exact hnew old hold (heq.trans hid)
    · rintro ⟨old, hold, heq⟩
      obtain ⟨m', hm', hold'⟩ := exists_message_of_mapM hbefore old hold
      exact hfirst m' hm' ((messageRow_spec hold').1.symm.trans (heq.trans hid))
  exact List.mem_append_right _ (List.mem_map_of_mem hmem)

/-- **Delivery of the outbox**, in every run from an empty table.  An event that a transaction of
    the run enqueues under an id that is neither in the table nor earlier in the transaction was
    acknowledged, or is pending. -/
theorem delivery {s : State} {as : List Action} (hrun : run step initial as = some s) :
    Delivery s ∧ ∀ earlier now sent m later after u row,
      as = earlier ++ .enqueue now (sent ++ m :: later) :: after →
      run step initial earlier = some u → messageRow now m = some row →
      (∀ old ∈ u.rows, old.eventId ≠ m.eventId) → (∀ m' ∈ sent, m'.eventId ≠ m.eventId) →
      row.toRecord ∈ s.acked ∨ ∃ row' ∈ s.rows, row'.toRecord = row.toRecord ∧ row'.sentAt = none := by
  have hinitial : Consistent initial ∧ Batches initial :=
    ⟨consistent_initial, fun d => attempting_nil rfl rfl, nofun, nofun⟩
  have hall := Lib.run_invariant (P := fun s => Consistent s ∧ Batches s)
    (fun _ _ _ hs h => ⟨step_consistent hs.1 h, step_batches hs.1 hs.2 h⟩) hinitial hrun
  refine ⟨hall.1.delivers hall.2, ?_⟩
  rintro earlier now sent m later after u row rfl hu hrow hnew hfirst
  obtain ⟨u', hu', hrest⟩ := Lib.run_append.mp hrun
  obtain rfl : u = u' := Option.some.inj (hu.symm.trans hu')
  obtain ⟨t, ht, hafter⟩ := Lib.run_cons_eq_some.mp hrest
  exact hall.1.delivered _ (inserted_subset_run hafter (mem_inserted_of_enqueue ht hrow hnew hfirst))

/-- Two events; a dispatcher crashes between the acknowledgement and the commit, and another one
    fails to send the first row and sends the second. -/
private def crashedAfterAck : List Action :=
  [.enqueue 0 [⟨1, 7, .obj []⟩, ⟨2, 7, .obj []⟩], .wake 0, .select 0, .acknowledge 0, .crash 0,
    .abort 0, .wake 1, .select 1, .reject 1 "timed out", .commit 1 5, .select 1, .acknowledge 1,
    .commit 1 6, .select 1]

private theorem crashedAfterAck_runs : (run step initial crashedAfterAck).isSome := by
  decide +kernel

theorem delivery_crash :
    Delivery ((run step initial crashedAfterAck).get crashedAfterAck_runs)
    ∧ let s := (run step initial crashedAfterAck).get crashedAfterAck_runs
      let second : Record := ⟨2, topicInteractions, Python.uuidText 7, .obj []⟩
      second ∈ s.acked ∨ ∃ row ∈ s.rows, row.toRecord = second ∧ row.sentAt = none := by
  obtain ⟨hdelivery, henqueued⟩ := delivery (Option.some_get crashedAfterAck_runs).symm
  exact ⟨hdelivery, henqueued [] 0 [⟨1, 7, .obj []⟩] ⟨2, 7, .obj []⟩ [] _ initial
    ⟨⟨2, topicInteractions, Python.uuidText 7, .obj []⟩, 0, none, 0, none⟩ rfl rfl rfl nofun
    (by decide)⟩

/-- A read is reported by its view and, later, by its dwell: both are enqueued under the id of the
    impression. -/
private def viewThenDwell : List Action :=
  [.enqueue 0 [⟨1, 7, .obj [("source_event_type", .str "view")]⟩],
    .enqueue 5 [⟨1, 7, .obj [("source_event_type", .str "dwell")]⟩]]

private theorem viewThenDwell_runs : (run step initial viewThenDwell).isSome := by decide +kernel

/-- **Counterexample.**  The second event is dropped by `ON CONFLICT (event_id) DO NOTHING`: its
    transaction has committed, and it is neither pending nor acknowledged. -/
theorem dwell_not_enqueued :
    ∃ s, run step initial viewThenDwell = some s ∧ ∃ r ∈ s.enqueued, r ∉ s.acked
      ∧ ∀ row ∈ s.rows, row.toRecord ≠ r := by
  let view : Record :=
    ⟨1, topicInteractions, Python.uuidText 7, .obj [("source_event_type", .str "view")]⟩
  let dwell : Record :=
    ⟨1, topicInteractions, Python.uuidText 7, .obj [("source_event_type", .str "dwell")]⟩
  have hrows : ((run step initial viewThenDwell).get viewThenDwell_runs).rows.map
      (fun row => row.toRecord) = [view] := rfl
  have hne : view ≠ dwell := by simp [view, dwell]
  refine ⟨_, (Option.some_get viewThenDwell_runs).symm, dwell, ?_, ?_, ?_⟩
  · exact List.mem_cons_of_mem _ List.mem_cons_self
  · exact List.not_mem_nil
  · intro row hrow heq
    have hmem := List.mem_map_of_mem (f := fun row : Row => row.toRecord) hrow
    rw [hrows, List.mem_singleton] at hmem
    exact hne (hmem.symm.trans heq)

end Oecophylla.Interaction.Outbox
