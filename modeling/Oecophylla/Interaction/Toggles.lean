import Oecophylla.Ingestion.QualifiedRead
import Oecophylla.Lib.Run
import Oecophylla.Preference.Replay

namespace Oecophylla.Interaction.Toggles

open Ingestion (StoredEvent Uuid fromMapping mappingOf)
open Label (Action)
open Lib (compareBy settle stableSort)
open Preference (CanonicalRow)

/-!
# Toggles and their log — `interaction-service`, `toggle_post`

One user likes, saves, shares or hides one post, and takes it back, over several connections.
A transaction is cut into its statements.  `INSERT … ON CONFLICT DO NOTHING` waits for the
transactions that have changed the row, a `DELETE` for those that have deleted a row it sees.
The outbox message of a toggle is not modelled.

* `Tx`, `step` — the transactions and their statements;
* `LogRow` — the canonical row of `behavior_events`, with the time of its `BEGIN`;
* `labelActive`, `preferenceActive` — the actions after the two replays;
* `FaithfulLog` — both replays agree with the table;
* `InOrder` — the condition: a toggle that commits is sorted after the toggles of its action;
* `faithfulLog_iff` — the log is faithful in every state of a run exactly when all toggles
  commit in order;
* `unlike_before_like` — a run that does not.
-/

/-- A `timestamptz`, as a `datetime` and in microseconds. -/
structure Timestamp where
  datetime : Oecophylla.Python.Datetime
  micros : Int
  instant_eq : datetime.instant = some micros
  deriving DecidableEq

/-- The methods that `toggle_post` is called with. -/
inductive Method where
  | post
  | delete
  deriving DecidableEq, Repr

/-- `type_` and `method`. -/
structure Request where
  action : Action
  method : Method
  deriving DecidableEq, Repr

/-- `type_`. -/
def typeOf : Action → String
  | .like => "like"
  | .save => "save"
  | .share => "share"
  | .hide => "hide"

/-- `event_type`. -/
def Request.eventType : Request → String
  | ⟨.like, .post⟩ => "like"
  | ⟨.like, .delete⟩ => "unlike"
  | ⟨.save, .post⟩ => "save"
  | ⟨.save, .delete⟩ => "unsave"
  | ⟨.share, .post⟩ => "share"
  | ⟨.share, .delete⟩ => "unshare"
  | ⟨.hide, .post⟩ => "hide"
  | ⟨.hide, .delete⟩ => "unhide"

/-- `counter_column(type_)`. -/
def counterColumn : Action → Option String
  | .like => some "like_count"
  | .save => some "save_count"
  | .share => some "share_count"
  | .hide => none

/-- What is stored when a request changes something. -/
def Method.stores : Method → Bool
  | .post => true
  | .delete => false

/-- `delta`. -/
def Method.delta : Method → Int
  | .post => 1
  | .delete => -1

/-- A canonical row of `behavior_events`; both its timestamps are `now()`. -/
structure LogRow where
  id : Uuid
  eventType : String
  eventVersion : String
  now : Timestamp
  topicSnapshot : List String
  deriving DecidableEq

/-- `id::text`. -/
def LogRow.idText (row : LogRow) : String := Oecophylla.Python.uuidText row.id

/-- `ARRAY(SELECT value FROM unnest(texts) …)` without nulls, empty texts and `general`. -/
def specific (texts : List (Option String)) (without : List String) : List String :=
  (texts.filterMap id).filter fun text => text ∉ without

/-- The `topic_snapshot` of a post with the given topics and tags. -/
def topicSnapshot (topics tags : List (Option String)) : List String :=
  if specific topics ["", "general"] ≠ [] then specific topics ["", "general"]
  else if specific tags [""] ≠ [] then specific tags [""]
  else ["general"]

/-- How far a transaction is. -/
inductive Stage where
  | begun
  /-- The `DELETE` waits for another one that has deleted the row it found. -/
  | waiting
  /-- `changed` is false; `commit` is next. -/
  | unchanged
  /-- `changed` is true; `bump_counter` is next. -/
  | changed
  /-- `insert_canonical_behavior_event` is next. -/
  | counted
  /-- `commit` is next. -/
  | logged (row : LogRow)
  deriving DecidableEq

/-- A change of the `interactions` row is not committed yet. -/
def Stage.pending : Stage → Bool
  | .changed | .counted | .logged _ => true
  | .begun | .waiting | .unchanged => false

/-- The row of `behavior_events` that a commit adds. -/
def Stage.row : Stage → Option LogRow
  | .logged row => some row
  | .begun | .waiting | .unchanged | .changed | .counted => none

/-- A transaction; `now` is the time of its `BEGIN`. -/
structure Tx where
  request : Request
  now : Timestamp
  stage : Stage
  deriving DecidableEq

/-- The row of the post is locked by the counter. -/
def Tx.locksPost (t : Tx) : Bool :=
  (counterColumn t.request.action).isSome
    && match t.stage with
      | .counted | .logged _ => true
      | _ => false

/-- The committed tables for one user and one post, the clock of the database, and the open
    transactions of `n` connections. -/
structure State (n : Nat) where
  /-- Whether `interactions` has the row. -/
  rows : Action → Bool
  /-- The counters of the post. -/
  counts : Action → Int
  log : List LogRow
  clock : Int
  tx : Fin n → Option Tx

/-- One statement of a connection; `abort` ends a transaction that fails in any way. -/
inductive Statement (n : Nat) where
  | begin (i : Fin n) (request : Request) (now : Timestamp)
  | write (i : Fin n)
  | bump (i : Fin n)
  | insertEvent (i : Fin n) (id : Uuid) (eventVersion : String) (topics tags : List (Option String))
  | commit (i : Fin n)
  | abort (i : Fin n)

section Step

variable {n : Nat}

/-- No other transaction has changed the row of the action. -/
def RowFree (s : State n) (i : Fin n) (action : Action) : Prop :=
  ∀ j, j ≠ i → ∀ t ∈ s.tx j, t.request.action = action → t.stage.pending = false

/-- No other transaction has the lock of the post. -/
def PostFree (s : State n) (i : Fin n) : Prop := ∀ j, j ≠ i → ∀ t ∈ s.tx j, t.locksPost = false

instance (s : State n) (i : Fin n) (action : Action) : Decidable (RowFree s i action) :=
  inferInstanceAs (Decidable (∀ j, j ≠ i → ∀ t ∈ s.tx j, _ → _))

instance (s : State n) (i : Fin n) : Decidable (PostFree s i) :=
  inferInstanceAs (Decidable (∀ j, j ≠ i → ∀ t ∈ s.tx j, _))

/-- The transaction of a connection goes on. -/
def State.set (s : State n) (i : Fin n) (t : Option Tx) : State n :=
  { s with tx := Function.update s.tx i t }

/-- `insert_interaction` or `delete_interaction`: the next stage, `none` while it waits. -/
def written (s : State n) (i : Fin n) (t : Tx) : Option Stage :=
  match t.request.method with
  | .post =>
    if RowFree s i t.request.action then
      some (if s.rows t.request.action then .unchanged else .changed)
    else none
  | .delete =>
    if s.rows t.request.action = false then some .unchanged
    else if RowFree s i t.request.action then some .changed
    else if t.stage = .begun then some .waiting
    else none

/-- A deletion is committed: a `DELETE` that waited for it has found nothing. -/
def wake (done : Request) (t : Tx) : Tx :=
  if done.method = .delete ∧ t.stage = .waiting ∧ t.request.action = done.action then
    { t with stage := .unchanged }
  else t

/-- `tx.commit()` of a transaction that has changed the row. -/
def commitRow (s : State n) (i : Fin n) (request : Request) (row : LogRow) : State n :=
  { s with
    rows := Function.update s.rows request.action request.method.stores
    counts := if (counterColumn request.action).isSome
      then Function.update s.counts request.action (s.counts request.action + request.method.delta)
      else s.counts
    log := s.log ++ [row]
    tx := fun j => if j = i then none else (s.tx j).map (wake request) }

/-- One statement; `none` when it is not the next one, has to wait, or makes the request fail. -/
def step (s : State n) : Statement n → Option (State n)
  | .begin i request now =>
    if (s.tx i).isNone ∧ s.clock ≤ now.micros then
      some { s.set i (some ⟨request, now, .begun⟩) with clock := now.micros }
    else none
  | .write i =>
    match s.tx i with
    | none => none
    | some t =>
      if t.stage = .begun ∨ t.stage = .waiting then
        (written s i t).map fun stage => s.set i (some { t with stage := stage })
      else none
  | .bump i =>
    match s.tx i with
    | none => none
    | some t =>
      if t.stage = .changed ∧ (counterColumn t.request.action).isSome ∧ PostFree s i then
        some (s.set i (some { t with stage := .counted }))
      else none
  | .insertEvent i id eventVersion topics tags =>
    match s.tx i with
    | none => none
    | some t =>
      if t.stage = .counted ∨ t.stage = .changed ∧ counterColumn t.request.action = none then
        some (s.set i (some { t with
          stage := .logged ⟨id, t.request.eventType, eventVersion, t.now, topicSnapshot topics tags⟩ }))
      else none
  | .commit i =>
    match s.tx i with
    | some ⟨_, _, .unchanged⟩ => some (s.set i none)
    | some ⟨request, _, .logged row⟩ =>
      -- an id that is taken violates the primary key
      if ((s.log ++ [row]).map LogRow.idText).Nodup then some (commitRow s i request row) else none
    | _ => none
  | .abort i => if (s.tx i).isSome then some (s.set i none) else none

/-! ### A log that is faithful -/

/-- The row, as the offline pipeline reads it. -/
def LogRow.stored (row : LogRow) : StoredEvent where
  id := row.id
  eventType := row.eventType
  dwellMs := none
  metadata := [("source", .str "canonical_api"), ("event_version", .str row.eventVersion)]
  occurredAt := row.now.datetime
  ingestedAt := row.now.datetime

/-- The row, as the feature worker reads it. -/
def LogRow.canonical (postId : Uuid) (row : LogRow) : CanonicalRow where
  eventId := row.idText
  postId := Oecophylla.Python.uuidText postId
  impressionId := none
  sessionId := none
  eventType := row.eventType
  dwellMs := none
  readTrigger := none
  visitId := none
  topicSnapshot := some (row.topicSnapshot.map some)
  occurredAt := row.now.micros
  topics := none
  tags := none

/-- `active` after the loop of the label resolver. -/
def labelActive (qualifiedReadMs : Int) (log : List LogRow) (action : Action) : Bool :=
  (Label.tally ((stableSort Label.Python.compareEvents
    (Label.Python.acceptedEvents [] (log.map fun row => fromMapping row.stored))).map
      (Label.Python.evidence qualifiedReadMs))).active action

/-- `active` after the loop of the preference replay. -/
def preferenceActive (qualifiedReadMs : Int) (postId : Uuid) (log : List LogRow) (now : Int)
    (action : Action) : Bool :=
  ((Preference.replay (Preference.canonicalPreferenceEvents (log.map (LogRow.canonical postId))) none
    now qualifiedReadMs).active.get (Oecophylla.Python.uuidText postId, typeOf action)).isSome

/-- **The log is faithful.**  After both replays an action is active exactly when
    `interactions` has its row. -/
def FaithfulLog (qualifiedReadMs : Int) (postId : Uuid) (s : State n) : Prop :=
  ∀ action, labelActive qualifiedReadMs s.log action = s.rows action
    ∧ preferenceActive qualifiedReadMs postId s.log s.clock action = s.rows action

/-- The order of the log: `occurred_at`, `ingested_at` and the id. -/
def compareLog : LogRow → LogRow → Ordering :=
  compareBy Label.Python.compareKeys fun row => (row.now.micros, row.now.micros, row.idText)

/-- **A toggle commits in order.**  When a toggle that changes the row commits, its row of the
    log is sorted after those of all toggles of its action that are committed. -/
def InOrder (s : State n) : Statement n → Prop
  | .commit i => ∀ t ∈ s.tx i, ∀ row ∈ t.stage.row, ∀ f ∈ s.log,
      Label.effectOn t.request.action f.eventType ≠ none → compareLog f row = .lt
  | _ => True

instance (s : State n) : (a : Statement n) → Decidable (InOrder s a)
  | .commit i => inferInstanceAs (Decidable (∀ t ∈ s.tx i, ∀ row ∈ t.stage.row, ∀ f ∈ s.log, _ → _))
  | .begin .. | .write _ | .bump _ | .insertEvent .. | .abort _ => .isTrue trivial

/-! ### The two replays sort the log alike -/

section Replays

variable {log : List LogRow} {row : LogRow} {qualifiedReadMs : Int} {postId : Uuid} {action : Action}

instance : Std.TransCmp compareLog := inferInstanceAs (Std.TransCmp (compareBy _ _))

/-- What a row of the log does to an action. -/
def effect (action : Action) (row : LogRow) : Option Bool := Label.effectOn action row.eventType

/-- Rows with distinct ids are not tied. -/
theorem compareLog_ne_eq {row row' : LogRow} (h : row.idText ≠ row'.idText) :
    compareLog row row' ≠ .eq :=
  Lib.compareTriple_ne_eq h

theorem pairwise_compareLog (hnodup : (log.map LogRow.idText).Nodup) :
    log.Pairwise fun a b => compareLog a b ≠ .eq :=
  (List.pairwise_map.mp hnodup).imp compareLog_ne_eq

theorem sortKey_stored (row : LogRow) : Label.Python.sortKey (mappingOf row.stored)
    = some (row.now.micros, row.now.micros, row.idText) := by
  unfold Label.Python.sortKey Label.Python.idText
  simp only [Ingestion.mappingOf_get]
  simp [LogRow.stored, Label.Python.timestamp, row.now.instant_eq, Oecophylla.Python.str,
    LogRow.idText]

/-- The label resolver accepts all rows. -/
theorem acceptedEvents_log (hnodup : (log.map LogRow.idText).Nodup) :
    Label.Python.acceptedEvents [] (log.map fun row => fromMapping row.stored)
      = log.map fun row => mappingOf row.stored := by
  have hmap : (log.map fun row => fromMapping row.stored).map (Label.Python.eventMapping [])
      = log.map fun row => mappingOf row.stored := by
    unfold mappingOf
    rw [List.map_map, Function.comp_def]
  have hkeys : (log.map fun row => mappingOf row.stored).map Label.Python.eventId
      = (log.map LogRow.idText).map some := by
    rw [List.map_map, List.map_map]
    apply List.map_congr_left
    intro row _
    rw [Function.comp_apply, Function.comp_apply, Ingestion.eventId_mappingOf]
    rfl
  have hkey : ∀ event ∈ log.map (fun row => mappingOf row.stored),
      (Label.Python.eventId event).isSome := by
    intro event hevent
    obtain ⟨row, -, rfl⟩ := List.mem_map.mp hevent
    rw [Ingestion.eventId_mappingOf]
    rfl
  unfold Label.Python.acceptedEvents
  rw [hmap, Lib.collected_of_nodup hkey (hkeys ▸ hnodup.map (Option.some_injective _))]
  exact List.append_nil _

theorem compareEvents_stored (a b : LogRow) :
    Label.Python.compareEvents (mappingOf a.stored) (mappingOf b.stored) = compareLog a b := by
  simp only [Label.Python.compareEvents, compareBy, sortKey_stored, Option.getD_some, compareLog]

theorem evidence_stored (row : LogRow) :
    (Label.Python.evidence qualifiedReadMs (mappingOf row.stored)).eventType = row.eventType := by
  simp only [Label.Python.evidence, Ingestion.eventType_mappingOf, LogRow.stored]

/-- **The label resolver** replays the log in its order. -/
theorem labelActive_eq (hnodup : (log.map LogRow.idText).Nodup) :
    labelActive qualifiedReadMs log action
      = settle (effect action) (stableSort compareLog log) := by
  unfold labelActive
  rw [acceptedEvents_log hnodup, Lib.stableSort_map, Label.active_tally, List.map_map,
    Lib.settle_map]
  simp only [Function.comp_apply, compareEvents_stored, evidence_stored]
  rfl

/-- The four types, as the label resolver reads them. -/
theorem activated_eq_some_iff {eventType : String} :
    Label.activated eventType = some action ↔ eventType = typeOf action := by
  constructor
  · intro h
    unfold Label.activated at h
    split at h <;> first | contradiction | exact Option.some.inj h ▸ rfl
  · rintro rfl
    cases action <;> rfl

/-- The four types, as the preference replay reads them. -/
theorem mem_statefulEvents_iff {eventType : String} :
    eventType ∈ Preference.statefulEvents ↔ ∃ action, eventType = typeOf action := by
  constructor
  · intro h
    have hcases : eventType = "like" ∨ eventType = "save" ∨ eventType = "share" ∨ eventType = "hide" := by
      simpa [Preference.statefulEvents] using h
    rcases hcases with rfl | rfl | rfl | rfl
    · exact ⟨.like, rfl⟩
    · exact ⟨.save, rfl⟩
    · exact ⟨.share, rfl⟩
    · exact ⟨.hide, rfl⟩
  · rintro ⟨action, rfl⟩
    cases action <;> decide

theorem reversals_eq (eventType : String) :
    Preference.reversals eventType = (Label.reversals eventType).map typeOf := by
  unfold Preference.reversals Label.reversals
  split <;> simp [typeOf, *]

theorem typeOf_injective : Function.Injective typeOf := by
  intro a b h
  have ha : Label.activated (typeOf a) = some a := activated_eq_some_iff.mpr rfl
  rw [h, activated_eq_some_iff.mpr rfl] at ha
  exact (Option.some.inj ha).symm

/-- The two replays give an event type the same effect. -/
theorem effectOn_typeOf (action : Action) (eventType : String) :
    Preference.effectOn (typeOf action) eventType = Label.effectOn action eventType := by
  unfold Preference.effectOn Label.effectOn
  rw [reversals_eq]
  by_cases h : ∃ b, eventType = typeOf b
  · obtain ⟨b, rfl⟩ := h
    have hb : Label.activated (typeOf b) = some b := activated_eq_some_iff.mpr rfl
    rw [if_pos (mem_statefulEvents_iff.mpr ⟨b, rfl⟩), hb, Label.reversals_of_activated hb]
    by_cases hba : b = action
    · simp [hba]
    · have hne : ¬ typeOf b = typeOf action := fun h => hba (typeOf_injective h)
      simp [hba, hne]
  · have hnone : ¬ Label.activated eventType = some action := fun h' =>
      h ⟨action, activated_eq_some_iff.mp h'⟩
    have hreversal : (Label.reversals eventType).map typeOf = some (typeOf action)
        ↔ Label.reversals eventType = some action := by
      rw [← Option.map_some, (Option.map_injective typeOf_injective).eq_iff]
    rw [if_neg fun h' => h (mem_statefulEvents_iff.mp h'), if_neg hnone]
    simp only [hreversal]

/-- What is compared after a component without ties does not matter. -/
private theorem then_then_eq {time id : Ordering} (h : id ≠ .eq) (rest : Ordering) :
    time.then (id.then rest) = time.then (time.then id) := by
  cases time <;> cases id <;> first | rfl | contradiction

/-- Rows with distinct ids: the ids decide before the other components are compared. -/
theorem compareEvents_canonical {a b : LogRow} (hne : a.idText ≠ b.idText) :
    Preference.compareEvents (Preference.preferenceEvent (a.canonical postId))
      (Preference.preferenceEvent (b.canonical postId)) = compareLog a b := by
  have hid : compare a.idText b.idText ≠ .eq := fun h => hne (Std.LawfulEqCmp.eq_of_compare h)
  simp only [Preference.compareEvents, compareBy, Lib.compareTriple, Preference.preferenceEvent,
    LogRow.canonical, compareLog, Label.Python.compareKeys]
  exact then_then_eq hid _

/-- **The preference replay** replays the log in its order. -/
theorem preferenceActive_eq (hnodup : (log.map LogRow.idText).Nodup) (now : Int) :
    preferenceActive qualifiedReadMs postId log now action
      = settle (effect action) (stableSort compareLog log) := by
  have hids : ((Preference.canonicalPreferenceEvents (log.map (LogRow.canonical postId))).map
      Preference.PreferenceEvent.eventId).Nodup := by
    unfold Preference.canonicalPreferenceEvents
    rw [List.map_map, List.map_map]
    exact hnodup
  have hsort : stableSort (fun a b : LogRow => Preference.compareEvents
      (Preference.preferenceEvent (a.canonical postId))
      (Preference.preferenceEvent (b.canonical postId))) log = stableSort compareLog log := by
    apply Lib.stableSort_congr
    refine (List.pairwise_map.mp hnodup).imp fun hne => ?_
    rw [compareEvents_canonical hne]
  unfold preferenceActive Preference.replay
  rw [Preference.unique_eq_stableSort hids, Preference.isSome_active_loop]
  unfold Preference.canonicalPreferenceEvents
  rw [List.map_map, Lib.stableSort_map, Lib.settle_map]
  simp only [Function.comp_apply, hsort, effectOn_typeOf]
  simp only [Preference.preferenceEvent, LogRow.canonical, if_true]
  rfl

end Replays

/-! ### The invariant -/

/-- What a request does to the actions. -/
theorem effectOn_eventType (request : Request) (action : Action) :
    Label.effectOn action request.eventType
      = if action = request.action then some request.method.stores else none := by
  obtain ⟨a, m⟩ := request
  cases a <;> cases m <;> cases action <;> rfl

/-- The invariant. -/
structure Sound (s : State n) : Prop where
  nodup : (s.log.map LogRow.idText).Nodup
  /-- A change that is not committed turns the row over. -/
  turns : ∀ i, ∀ t ∈ s.tx i, t.stage.pending = true →
    s.rows t.request.action = !t.request.method.stores
  /-- No two changes of one row are open. -/
  alone : ∀ i, ∀ t ∈ s.tx i, t.stage.pending = true → RowFree s i t.request.action
  logged : ∀ i, ∀ t ∈ s.tx i, ∀ row ∈ t.stage.row, row.eventType = t.request.eventType

variable {s t : State n} {i : Fin n}

theorem set_tx_self (s : State n) (i : Fin n) (new : Option Tx) : (s.set i new).tx i = new := by
  show Function.update s.tx i new i = new
  rw [Function.update_self]

theorem set_tx_of_ne {j : Fin n} (h : j ≠ i) (new : Option Tx) : (s.set i new).tx j = s.tx j := by
  show Function.update s.tx i new j = s.tx j
  rw [Function.update_of_ne h]

/-- A row is logged by a pending transaction only. -/
theorem pending_of_row {stage : Stage} {row : LogRow} (h : row ∈ stage.row) :
    stage.pending = true := by
  cases stage <;> first | rfl | contradiction

/-- A transaction goes on without committing. -/
theorem sound_set {new : Option Tx} (hs : Sound s)
    (hturns : ∀ t ∈ new, t.stage.pending = true →
      s.rows t.request.action = !t.request.method.stores)
    (halone : ∀ t ∈ new, t.stage.pending = true → RowFree s i t.request.action)
    (hlogged : ∀ t ∈ new, ∀ row ∈ t.stage.row, row.eventType = t.request.eventType) :
    Sound (s.set i new) := by
  refine ⟨hs.nodup, fun j t ht => ?_, fun j t ht hpending k hk u hu haction => ?_,
    fun j t ht => ?_⟩
  · by_cases hj : j = i
    · subst hj
      rw [set_tx_self] at ht
      exact hturns t ht
    · rw [set_tx_of_ne hj] at ht
      exact hs.turns j t ht
  · by_cases hj : j = i
    · subst hj
      rw [set_tx_self] at ht
      rw [set_tx_of_ne hk] at hu
      exact halone t ht hpending k hk u hu haction
    · rw [set_tx_of_ne hj] at ht
      by_cases hki : k = i
      · -- the transaction that goes on is not pending on this row, since another one is
        subst hki
        rw [set_tx_self] at hu
        by_contra hnot
        have hfree := halone u hu (by simpa using hnot) j hj t ht haction.symm
        rw [hpending] at hfree
        contradiction
      · rw [set_tx_of_ne hki] at hu
        exact hs.alone j t ht hpending k hk u hu haction
  · by_cases hj : j = i
    · subst hj
      rw [set_tx_self] at ht
      exact hlogged t ht
    · rw [set_tx_of_ne hj] at ht
      exact hs.logged j t ht

/-- A transaction that has changed nothing yet goes on. -/
theorem sound_set_idle {new : Option Tx} (hs : Sound s)
    (hidle : ∀ t ∈ new, t.stage.pending = false) : Sound (s.set i new) := by
  refine sound_set hs (fun t ht h => ?_) (fun t ht h => ?_) fun t ht row hrow => ?_
  · exact absurd h (by simp [hidle t ht])
  · exact absurd h (by simp [hidle t ht])
  · exact absurd (pending_of_row hrow) (by simp [hidle t ht])

/-- A transaction that has changed the row goes on. -/
theorem sound_set_pending {old : Tx} {stage : Stage} (hs : Sound s) (hold : old ∈ s.tx i)
    (hpending : old.stage.pending = true)
    (hlogged : ∀ row ∈ stage.row, row.eventType = old.request.eventType) :
    Sound (s.set i (some { old with stage := stage })) := by
  refine sound_set hs (fun t ht _ => ?_) (fun t ht _ => ?_) fun t ht => ?_
  · obtain rfl := Option.some.inj ht
    exact hs.turns i old hold hpending
  · obtain rfl := Option.some.inj ht
    exact hs.alone i old hold hpending
  · obtain rfl := Option.some.inj ht
    exact hlogged

/-- A statement that changes the row turns it over, and no other transaction has changed it. -/
theorem written_eq_changed {old : Tx} {stage : Stage} (h : written s i old = some stage)
    (hpending : stage.pending = true) :
    stage = .changed ∧ RowFree s i old.request.action
      ∧ s.rows old.request.action = !old.request.method.stores := by
  unfold written at h
  cases hmethod : old.request.method with
  | post =>
    rw [hmethod] at h
    dsimp only at h
    split_ifs at h with hfree hrow
    · rw [← Option.some.inj h] at hpending
      contradiction
    · exact ⟨(Option.some.inj h).symm, hfree, by simpa [Method.stores] using hrow⟩
  | delete =>
    rw [hmethod] at h
    dsimp only at h
    split_ifs at h with hrow hfree hbegun
    · rw [← Option.some.inj h] at hpending
      contradiction
    · exact ⟨(Option.some.inj h).symm, hfree, by simpa [Method.stores] using hrow⟩
    · rw [← Option.some.inj h] at hpending
      contradiction

theorem wake_request (done : Request) (t : Tx) : (wake done t).request = t.request := by
  unfold wake
  split <;> rfl

/-- Waking up changes nothing about what is pending. -/
theorem wake_stage (done : Request) (t : Tx) :
    (wake done t).stage.pending = t.stage.pending ∧ (wake done t).stage.row = t.stage.row := by
  unfold wake
  split
  · next h =>
    rw [h.2.1]
    exact ⟨rfl, rfl⟩
  · exact ⟨rfl, rfl⟩

/-- A toggle commits. -/
theorem sound_commitRow {old : Tx} {row : LogRow} (hs : Sound s) (hold : old ∈ s.tx i)
    (hrow : row ∈ old.stage.row) (hnodup : ((s.log ++ [row]).map LogRow.idText).Nodup) :
    Sound (commitRow s i old.request row) := by
  -- a transaction of the new state is one of the old state, which was woken up at most
  have hother : ∀ j, ∀ t ∈ (commitRow s i old.request row).tx j, ∃ u ∈ s.tx j,
      j ≠ i ∧ t.request = u.request ∧ t.stage.pending = u.stage.pending
        ∧ t.stage.row = u.stage.row := by
    intro j t ht
    have htx : (if j = i then none else (s.tx j).map (wake old.request)) = some t := ht
    split at htx
    · contradiction
    · next hj =>
      obtain ⟨u, hu, rfl⟩ := Option.map_eq_some_iff.mp htx
      exact ⟨u, hu, hj, wake_request _ u, (wake_stage _ u).1, (wake_stage _ u).2⟩
  refine ⟨hnodup, fun j t ht hpending => ?_, fun j t ht hpending k hk u hu haction => ?_,
    fun j t ht row' hrow' => ?_⟩
  · obtain ⟨u, hu, hj, hrequest, hstage, -⟩ := hother j t ht
    have hne : u.request.action ≠ old.request.action := by
      intro heq
      have hfree := hs.alone i old hold (pending_of_row hrow) j hj u hu heq
      rw [← hstage, hpending] at hfree
      contradiction
    show Function.update s.rows old.request.action _ t.request.action = _
    rw [hrequest, Function.update_of_ne hne]
    exact hs.turns j u hu (hstage ▸ hpending)
  · obtain ⟨t', ht', -, hrequest, hstage, -⟩ := hother j t ht
    obtain ⟨u', hu', -, hrequest', hstage', -⟩ := hother k u hu
    rw [hstage']
    exact hs.alone j t' ht' (hstage ▸ hpending) k hk u' hu' (hrequest ▸ hrequest' ▸ haction)
  · obtain ⟨u, hu, -, hrequest, -, hrows⟩ := hother j t ht
    rw [hrequest]
    exact hs.logged j u hu row' (hrows ▸ hrow')

/-- What a statement does: it adds a row to the log and changes the table, or neither. -/
theorem step_cases {a : Statement n} (h : step s a = some t) :
    (∃ i old row, a = .commit i ∧ old ∈ s.tx i ∧ row ∈ old.stage.row
        ∧ ((s.log ++ [row]).map LogRow.idText).Nodup ∧ t = commitRow s i old.request row)
      ∨ (t.log = s.log ∧ t.rows = s.rows ∧ ∀ i, a = .commit i → ∀ old ∈ s.tx i, old.stage.row = none) := by
  cases a with
  | begin i request now =>
    simp only [step] at h
    split at h
    · obtain rfl := Option.some.inj h
      exact .inr ⟨rfl, rfl, fun _ h => by contradiction⟩
    · contradiction
  | write i =>
    simp only [step] at h
    split at h
    · contradiction
    · split at h
      · obtain ⟨stage, -, rfl⟩ := Option.map_eq_some_iff.mp h
        exact .inr ⟨rfl, rfl, fun _ h => by contradiction⟩
      · contradiction
  | bump i | insertEvent i =>
    simp only [step] at h
    split at h
    · contradiction
    · split at h
      · obtain rfl := Option.some.inj h
        exact .inr ⟨rfl, rfl, fun _ h => by contradiction⟩
      · contradiction
  | commit i =>
    simp only [step] at h
    split at h
    · next request now htx =>
      obtain rfl := Option.some.inj h
      refine .inr ⟨rfl, rfl, fun j hj old hold => ?_⟩
      obtain rfl := Statement.commit.inj hj
      obtain rfl := Option.some.inj (htx.symm.trans hold)
      rfl
    · next request now row htx =>
      split at h
      · next hnodup =>
        obtain rfl := Option.some.inj h
        exact .inl ⟨i, _, row, rfl, htx, rfl, hnodup, rfl⟩
      · contradiction
    · contradiction
  | abort i =>
    simp only [step] at h
    split at h
    · obtain rfl := Option.some.inj h
      exact .inr ⟨rfl, rfl, fun _ h => by contradiction⟩
    · contradiction

/-- **One statement keeps the invariant.** -/
theorem sound_step (s : State n) (a : Statement n) (t : State n) (hs : Sound s)
    (h : step s a = some t) : Sound t := by
  cases a with
  | begin i request now =>
    simp only [step] at h
    split at h
    · obtain rfl := Option.some.inj h
      have hset : Sound (s.set i (some ⟨request, now, .begun⟩)) :=
        sound_set_idle hs fun t ht => Option.some.inj ht ▸ rfl
      exact ⟨hset.nodup, hset.turns, hset.alone, hset.logged⟩
    · contradiction
  | write i =>
    simp only [step] at h
    split at h
    · contradiction
    · next old htx =>
      split at h
      · obtain ⟨stage, hwritten, rfl⟩ := Option.map_eq_some_iff.mp h
        by_cases hpending : stage.pending = true
        · obtain ⟨rfl, hfree, hrow⟩ := written_eq_changed hwritten hpending
          refine sound_set hs (fun t ht _ => ?_) (fun t ht _ => ?_) fun t ht row hnone => ?_
          · exact Option.some.inj ht ▸ hrow
          · exact Option.some.inj ht ▸ hfree
          · obtain rfl := Option.some.inj ht
            contradiction
        · exact sound_set_idle hs fun t ht => Option.some.inj ht ▸ by simpa using hpending
      · contradiction
  | bump i =>
    simp only [step] at h
    split at h
    · contradiction
    · next old htx =>
      split at h
      · next hguard =>
        obtain rfl := Option.some.inj h
        exact sound_set_pending hs htx (by rw [hguard.1]; rfl) fun row hrow => by contradiction
      · contradiction
  | insertEvent i id eventVersion topics tags =>
    simp only [step] at h
    split at h
    · contradiction
    · next old htx =>
      split at h
      · next hguard =>
        obtain rfl := Option.some.inj h
        have hpending : old.stage.pending = true := by
          rcases hguard with hstage | ⟨hstage, -⟩ <;> rw [hstage] <;> rfl
        exact sound_set_pending hs htx hpending fun row hrow => Option.some.inj hrow ▸ rfl
      · contradiction
  | commit i =>
    simp only [step] at h
    split at h
    · obtain rfl := Option.some.inj h
      exact sound_set_idle hs fun t ht => by contradiction
    · next request now row htx =>
      split at h
      · next hnodup =>
        obtain rfl := Option.some.inj h
        exact sound_commitRow hs htx rfl hnodup
      · contradiction
    · contradiction
  | abort i =>
    simp only [step] at h
    split at h
    · obtain rfl := Option.some.inj h
      exact sound_set_idle hs fun t ht => by contradiction
    · contradiction

/-! ### The log and the table -/

section Faithful

variable {qualifiedReadMs : Int} {postId : Uuid}

/-- The log is faithful when its replay in order agrees with the table. -/
theorem faithfulLog_iff_settle (hs : Sound s) :
    FaithfulLog qualifiedReadMs postId s
      ↔ ∀ action, settle (effect action) (stableSort compareLog s.log) = s.rows action := by
  unfold FaithfulLog
  simp only [labelActive_eq hs.nodup, preferenceActive_eq hs.nodup, and_self]

/-- A toggle commits: the log stays faithful exactly when it is sorted last. -/
theorem faithfulLog_commitRow_iff {old : Tx} {row : LogRow} (hs : Sound s) (hold : old ∈ s.tx i)
    (hrow : row ∈ old.stage.row) (hnodup : ((s.log ++ [row]).map LogRow.idText).Nodup)
    (hfaithful : FaithfulLog qualifiedReadMs postId s) :
    FaithfulLog qualifiedReadMs postId (commitRow s i old.request row)
      ↔ ∀ f ∈ s.log, effect old.request.action f ≠ none → compareLog f row = .lt := by
  have hsettle := (faithfulLog_iff_settle hs).mp hfaithful
  have hne : (s.log ++ [row]).Pairwise fun a b => compareLog a b ≠ .eq := pairwise_compareLog hnodup
  have heffect : ∀ action, effect action row
      = if action = old.request.action then some old.request.method.stores else none := by
    intro action
    unfold effect
    rw [hs.logged i old hold row hrow, effectOn_eventType]
  have hturns : old.request.method.stores = !s.rows old.request.action := by
    rw [hs.turns i old hold (pending_of_row hrow), Bool.not_not]
  rw [faithfulLog_iff_settle (sound_commitRow hs hold hrow hnodup)]
  have hself : effect old.request.action row
      = some (!settle (effect old.request.action) (stableSort compareLog s.log)) := by
    rw [heffect, if_pos rfl, hsettle, hturns]
  rw [← Lib.settle_stableSort_append_iff hne hself, hsettle]
  show (∀ action, settle (effect action) (stableSort compareLog (s.log ++ [row]))
    = Function.update s.rows old.request.action old.request.method.stores action) ↔ _
  constructor
  · intro hall
    rw [hall, Function.update_self, hturns]
  · intro hturned action
    by_cases haction : action = old.request.action
    · rw [haction, hturned, Function.update_self, hturns]
    · -- the other actions are left alone
      rw [Function.update_of_ne haction, ← hsettle action]
      exact Lib.settle_stableSort_append_of_none hne (by rw [heffect, if_neg haction])

/-- **One statement.**  From a state whose log is faithful it leads to such a state exactly when
    it is in order. -/
theorem faithfulLog_step_iff (s : State n) (a : Statement n) (t : State n) (hs : Sound s)
    (hfaithful : FaithfulLog qualifiedReadMs postId s) (h : step s a = some t) :
    FaithfulLog qualifiedReadMs postId t ↔ InOrder s a := by
  rcases step_cases h with ⟨i, old, row, rfl, hold, hrow, hnodup, rfl⟩ | ⟨hlog, hrows, hcommit⟩
  · rw [faithfulLog_commitRow_iff hs hold hrow hnodup hfaithful]
    constructor
    · intro hbelow old' hold' row' hrow'
      obtain rfl := Option.some.inj (hold.symm.trans hold')
      obtain rfl := Option.some.inj (hrow.symm.trans hrow')
      exact hbelow
    · intro horder
      exact horder old hold row hrow
  · refine iff_of_true ?_ ?_
    · rw [faithfulLog_iff_settle (sound_step s a t hs h), hlog, hrows]
      exact (faithfulLog_iff_settle hs).mp hfaithful
    · cases a with
      | commit i =>
        intro old hold row hrow
        rw [hcommit i rfl old hold] at hrow
        contradiction
      | begin | write | bump | insertEvent | abort => trivial

/-- The start: no transaction is open, and the log is faithful; it may be empty. -/
structure Initial (qualifiedReadMs : Int) (postId : Uuid) (s : State n) : Prop where
  tx_eq : ∀ i, s.tx i = none
  nodup : (s.log.map LogRow.idText).Nodup
  faithful : FaithfulLog qualifiedReadMs postId s

/-- **The log of the toggles.**  The log is faithful in every state of a run exactly when all
    toggles of the run commit in order. -/
theorem faithfulLog_iff (s t : State n) (as : List (Statement n))
    (hinit : Initial qualifiedReadMs postId s) (hrun : Lib.run step s as = some t) :
    (∀ bs u, bs <+: as → Lib.run step s bs = some u → FaithfulLog qualifiedReadMs postId u)
      ↔ Lib.Along step InOrder s as := by
  have hsound : Sound s :=
    ⟨hinit.nodup, by simp [hinit.tx_eq], by simp [hinit.tx_eq], by simp [hinit.tx_eq]⟩
  exact Lib.forall_prefix_iff_along (fun s a t h _ ht => sound_step s a t h ht) faithfulLog_step_iff hsound hinit.faithful hrun

end Faithful

end Step

/-! ### Two connections -/

/-- Noon. -/
private def noon : Timestamp where
  datetime := ⟨2026, 8, 30, 12, 0, 0, 0, some 0⟩
  micros := 63923688000000000
  instant_eq := by decide +kernel

/-- A second after noon. -/
private def later : Timestamp where
  datetime := ⟨2026, 8, 30, 12, 0, 1, 0, some 0⟩
  micros := 63923688001000000
  instant_eq := by decide +kernel

/-- The user has not touched the post. -/
private def untouched : State 2 where
  rows _ := false
  counts _ := 0
  log := []
  clock := 0
  tx _ := none

private theorem initial_untouched : Initial 10000 7 untouched := by
  refine ⟨fun _ => rfl, List.nodup_nil, fun action => ?_⟩
  cases action <;> decide +kernel

/-- A toggle runs from its first statement to its last one. -/
private def whole (i : Fin 2) (id : Uuid) : List (Statement 2) :=
  [.write i, .bump i, .insertEvent i id "v2" [some "science"] [], .commit i]

attribute [local instance] Lib.neZero_two

/-- A like, and an unlike that begins after it. -/
private def oneAfterTheOther : List (Statement 2) :=
  [.begin 0 ⟨.like, .post⟩ noon] ++ whole 0 1 ++ [.begin 1 ⟨.like, .delete⟩ later] ++ whole 1 2

/-- An unlike begins first, but its `DELETE` runs after the like has committed. -/
private def inverted : List (Statement 2) :=
  [.begin 0 ⟨.like, .delete⟩ noon, .begin 1 ⟨.like, .post⟩ later] ++ whole 1 1 ++ whole 0 2

private theorem isSome_runs :
    (Lib.run step untouched oneAfterTheOther).isSome ∧ (Lib.run step untouched inverted).isSome := by
  decide +kernel

private def afterBoth : State 2 := (Lib.run step untouched oneAfterTheOther).get isSome_runs.1

private def afterInversion : State 2 := (Lib.run step untouched inverted).get isSome_runs.2

/-- A like and an unlike, one after the other. -/
theorem faithfulLog_iff_oneAfterTheOther :
    Lib.run step untouched oneAfterTheOther = some afterBoth
      ∧ ∀ bs u, bs <+: oneAfterTheOther → Lib.run step untouched bs = some u →
        FaithfulLog 10000 7 u := by
  have hrun : Lib.run step untouched oneAfterTheOther = some afterBoth := (Option.some_get _).symm
  exact ⟨hrun, (faithfulLog_iff untouched afterBoth oneAfterTheOther initial_untouched hrun).mpr
    (by decide +kernel)⟩

/-- **Counterexample.**  An unlike begins, then a like begins and commits, and then the unlike
    deletes the row.  The log has the unlike before the like, so both replays say that the post is
    liked, and the table has no row. -/
theorem unlike_before_like :
    Initial 10000 7 untouched
      ∧ Lib.run step untouched inverted = some afterInversion
      ∧ afterInversion.rows .like = false
      ∧ labelActive 10000 afterInversion.log .like = true
      ∧ preferenceActive 10000 7 afterInversion.log afterInversion.clock .like = true
      ∧ ¬ FaithfulLog 10000 7 afterInversion := by
  have hrow : afterInversion.rows .like = false := by decide +kernel
  have hlabel : labelActive 10000 afterInversion.log .like = true := by decide +kernel
  have hpreference : preferenceActive 10000 7 afterInversion.log afterInversion.clock .like = true := by
    decide +kernel
  have hrun : Lib.run step untouched inverted = some afterInversion := (Option.some_get _).symm
  have hnot : ¬ FaithfulLog 10000 7 afterInversion := by
    intro h
    have heq := (h .like).1
    rw [hrow, hlabel] at heq
    exact Bool.noConfusion heq
  exact ⟨initial_untouched, hrun, hrow, hlabel, hpreference, hnot⟩

end Oecophylla.Interaction.Toggles
