import Oecophylla.Lib.Run
import Oecophylla.Notification.Envelope

namespace Oecophylla.Notification

open Lib (run Along)

/-!
# The consumer loop of the notification service

`run_consumer_loop` handles the records of a partition one after the other and calls
`commit_message` after each of them, whatever its handler returns:

* `Entry`, `Partition`, `State` — the records, how far a partition is, and the `notifications`;
* `ConsumerAction`, `step` — one query or Redis command at a time, with failures and crashes; a
  crash goes back to the offset that Kafka has;
* `Progress`, `step_progress` — what a handler has inserted of its notifications so far;
* `NoLoss` — behind every `commit_message` all notifications of the record are stored;
* `FailsLate` — a handler only fails when none of its notifications is missing;
* `noLoss_iff` — these are the runs that lose nothing.

A row carries the id of the event that it was inserted for, which the table does not have.
-/

/-- What a Kafka record has as its payload. -/
inductive Payload where
  | empty
  /-- No JSON. -/
  | malformed
  | json (v : Json)

/-- A record: the identity of its envelope, and its payload. -/
structure Entry where
  eventId : Uuid
  payload : Payload

/-- A row of `notifications`, with the event that it was inserted for. -/
structure NotificationRow extends Dispatch where
  eventId : Uuid

/-- What the consumer of a partition is doing; `rest` are the notifications after `d`. -/
inductive Phase where
  | idle
  /-- Next: the author of the parent comment. -/
  | looking (d : CommentData) (parentId : Uuid)
  /-- Next: `INSERT`. -/
  | inserting (d : Dispatch) (rest : List Dispatch)
  /-- Next: `SELECT` of the inserted row. -/
  | hydrating (d : Dispatch) (rest : List Dispatch)
  /-- Next: `invalidate_unread_count`. -/
  | invalidating (d : Dispatch) (rest : List Dispatch)

/-- The records of a partition, the next one to receive, and the offset that Kafka has. -/
structure Partition where
  log : List Entry
  position : Nat
  committed : Nat
  phase : Phase

structure State where
  partitions : Nat → Partition
  rows : List NotificationRow
  /-- The offsets for which `commit_message` was called. -/
  released : List (Nat × Nat)

/-- An action on a partition. -/
inductive ConsumerAction where
  | produce (p : Nat) (e : Entry)
  | receive (p : Nat)
  | look (p : Nat)
  | insert (p : Nat)
  | hydrate (p : Nat)
  | invalidate (p : Nat)
  /-- The next query or command fails. -/
  | fail (p : Nat)
  /-- A commit arrives at Kafka. -/
  | arrive (p : Nat) (offset : Nat)
  | crash (p : Nat)

/-- Another state of a partition. -/
def State.set (s : State) (p : Nat) (part : Partition) : State :=
  { s with partitions := Function.update s.partitions p part }

/-- The handler has returned: `commit_message`, and on to the next record. -/
def State.finish (s : State) (p : Nat) : State :=
  { s.set p { s.partitions p with position := (s.partitions p).position + 1, phase := .idle } with
    released := (p, (s.partitions p).position) :: s.released }

/-- On to the first of some notifications. -/
def State.proceed (s : State) (p : Nat) : List Dispatch → State
  | [] => s.finish p
  | d :: rest => s.set p { s.partitions p with phase := .inserting d rest }

section Step

variable (readUuid : Json → Option Uuid) (authorOf : Uuid → Option Uuid) (topic : Nat → Topic)

/-- What the handler of the partition makes of a record. -/
def Entry.handling (p : Nat) (e : Entry) : Handling :=
  match e.payload with
  | .json v =>
    match InboundEnvelope.decode v with
    | some env => handle readUuid (topic p) env
    | none => .failed
  | _ => .failed

/-- The notifications of a record. -/
def Entry.dispatches (p : Nat) (e : Entry) : List Dispatch :=
  (e.handling readUuid topic p).dispatches authorOf

/-- A handler begins. -/
def State.begin (s : State) (p : Nat) : Handling → State
  | .failed => s.finish p
  | .dispatching dispatches => s.proceed p dispatches
  | .looking d parentId => s.set p { s.partitions p with phase := .looking d parentId }

/-- One action. -/
def step (s : State) : ConsumerAction → Option State
  | .produce p e => some (s.set p { s.partitions p with log := (s.partitions p).log ++ [e] })
  | .receive p =>
    match (s.partitions p).phase, (s.partitions p).log[(s.partitions p).position]? with
    | .idle, some e => some (s.begin p (e.handling readUuid topic p))
    | _, _ => none
  | .look p =>
    match (s.partitions p).phase with
    | .looking d parentId => some (s.proceed p (commentDispatches d (authorOf parentId)))
    | _ => none
  | .insert p =>
    match (s.partitions p).phase, (s.partitions p).log[(s.partitions p).position]? with
    | .inserting d rest, some e =>
      some { s.set p { s.partitions p with phase := .hydrating d rest } with
        rows := s.rows ++ [⟨d, e.eventId⟩] }
    | _, _ => none
  | .hydrate p =>
    match (s.partitions p).phase with
    | .hydrating d rest => some (s.set p { s.partitions p with phase := .invalidating d rest })
    | _ => none
  | .invalidate p =>
    match (s.partitions p).phase with
    | .invalidating _ rest => some (s.proceed p rest)
    | _ => none
  | .fail p =>
    match (s.partitions p).phase with
    | .idle => none
    | _ => some (s.finish p)
  | .arrive p offset =>
    if (s.partitions p).committed ≤ offset ∧ offset ≤ (s.partitions p).position then
      some (s.set p { s.partitions p with committed := offset })
    else none
  | .crash p =>
    some (s.set p { s.partitions p with
      position := (s.partitions p).committed
      phase := .idle })

/-- No record, no notification. -/
def initial : State := ⟨fun _ => ⟨[], 0, 0, .idle⟩, [], []⟩

/-! ### No notification is lost -/

/-- The recipient has a notification of the event. -/
def Notified (rows : List NotificationRow) (eventId user : Uuid) : Prop :=
  ∃ row ∈ rows, row.eventId = eventId ∧ row.userId = user

instance (rows : List NotificationRow) (eventId user : Uuid) :
    Decidable (Notified rows eventId user) :=
  inferInstanceAs (Decidable (∃ row ∈ rows, _))

/-- Behind every `commit_message` all notifications of the record are stored. -/
def NoLoss (s : State) : Prop :=
  ∀ p i, (p, i) ∈ s.released → ∀ e, (s.partitions p).log[i]? = some e →
    ∀ d ∈ e.dispatches readUuid authorOf topic p, Notified s.rows e.eventId d.userId

/-- The notifications that a handler has not inserted yet. -/
def Phase.todo : Phase → List Dispatch
  | .idle => []
  | .looking d parentId => commentDispatches d (authorOf parentId)
  | .inserting d rest => d :: rest
  | .hydrating _ rest => rest
  | .invalidating _ rest => rest

/-- A command only fails when no notification is missing: its handler has inserted all of them, or
    they are there since the record was handled before. -/
def FailsLate (s : State) : ConsumerAction → Prop
  | .fail p => ∀ e ∈ (s.partitions p).log[(s.partitions p).position]?,
    ∀ d ∈ (s.partitions p).phase.todo authorOf, Notified s.rows e.eventId d.userId
  | _ => True

instance (s : State) : (a : ConsumerAction) → Decidable (FailsLate authorOf s a)
  | .fail p => inferInstanceAs (Decidable (∀ e ∈ (s.partitions p).log[(s.partitions p).position]?,
      ∀ d ∈ (s.partitions p).phase.todo authorOf, Notified s.rows e.eventId d.userId))
  | .produce _ _ => .isTrue trivial
  | .receive _ => .isTrue trivial
  | .look _ => .isTrue trivial
  | .insert _ => .isTrue trivial
  | .hydrate _ => .isTrue trivial
  | .invalidate _ => .isTrue trivial
  | .arrive _ _ => .isTrue trivial
  | .crash _ => .isTrue trivial

/-- What a handler has done: `finished` are the notifications that it has inserted. -/
def Handles (p : Nat) (part : Partition) (rows : List NotificationRow) : Prop :=
  part.phase ≠ .idle → ∃ e, part.log[part.position]? = some e ∧
    ∃ finished, e.dispatches readUuid authorOf topic p = finished ++ part.phase.todo authorOf ∧
      ∀ d ∈ finished, Notified rows e.eventId d.userId

/-- Every handler is on its way, and every commit concerns a record. -/
structure Progress (s : State) : Prop where
  handles : ∀ p, Handles readUuid authorOf topic p (s.partitions p) s.rows
  released : ∀ p i, (p, i) ∈ s.released → i < (s.partitions p).log.length

variable {readUuid authorOf topic} {s : State} {p : Nat}

theorem Notified.mono {rows rows' : List NotificationRow} {eventId user : Uuid}
    (h : Notified rows eventId user) (hsub : rows ⊆ rows') : Notified rows' eventId user := by
  obtain ⟨row, hrow, heq⟩ := h
  exact ⟨row, hsub hrow, heq⟩

theorem handles_idle {part : Partition} {rows : List NotificationRow} (h : part.phase = .idle) :
    Handles readUuid authorOf topic p part rows := fun hne => absurd h hne

theorem Handles.mono {part : Partition} {rows rows' : List NotificationRow}
    (h : Handles readUuid authorOf topic p part rows) (hsub : rows ⊆ rows') :
    Handles readUuid authorOf topic p part rows' := by
  intro hphase
  obtain ⟨e, he, finished, heq, hall⟩ := h hphase
  exact ⟨e, he, finished, heq, fun d hd => (hall d hd).mono hsub⟩

theorem progress_initial : Progress readUuid authorOf topic initial where
  handles _ := handles_idle rfl
  released _ _ h := nomatch h

/-- A partition goes on, its records stay. -/
theorem Progress.set (hs : Progress readUuid authorOf topic s) {t : State} {part : Partition}
    (hpartitions : t.partitions = Function.update s.partitions p part)
    (hrows : s.rows ⊆ t.rows) (hlog : (s.partitions p).log.length ≤ part.log.length)
    (hreleased : ∀ q i, (q, i) ∈ t.released → (q, i) ∈ s.released ∨
      q = p ∧ i < (s.partitions p).log.length)
    (hhandles : Handles readUuid authorOf topic p part t.rows) :
    Progress readUuid authorOf topic t := by
  have hlength : ∀ q, (s.partitions q).log.length ≤ (t.partitions q).log.length := by
    rw [hpartitions]
    exact (Function.forall_update_iff s.partitions fun q new =>
      (s.partitions q).log.length ≤ new.log.length).mpr ⟨hlog, fun q _ => Nat.le_refl _⟩
  refine ⟨?_, fun q i h => ?_⟩
  · rw [hpartitions]
    exact (Function.forall_update_iff s.partitions fun q new =>
      Handles readUuid authorOf topic q new t.rows).mpr
      ⟨hhandles, fun q _ => (hs.handles q).mono hrows⟩
  · rcases hreleased q i h with hold | ⟨rfl, hi⟩
    · exact Nat.lt_of_lt_of_le (hs.released q i hold) (hlength q)
    · exact Nat.lt_of_lt_of_le hi (hlength q)

/-- The handler of a record returns. -/
theorem Progress.finish (hs : Progress readUuid authorOf topic s)
    (hentry : (s.partitions p).position < (s.partitions p).log.length) :
    Progress readUuid authorOf topic (s.finish p) := by
  refine hs.set rfl (List.Subset.refl _) (Nat.le_refl _) (fun q i h => ?_) (handles_idle rfl)
  rcases List.mem_cons.mp h with heq | h
  · obtain ⟨rfl, rfl⟩ := Prod.mk.inj heq
    exact .inr ⟨rfl, hentry⟩
  · exact .inl h

/-- The handler goes on to the rest of its notifications. -/
theorem Progress.proceed (hs : Progress readUuid authorOf topic s) {e : Entry}
    {finished rest : List Dispatch} (he : (s.partitions p).log[(s.partitions p).position]? = some e)
    (hdispatches : e.dispatches readUuid authorOf topic p = finished ++ rest)
    (hall : ∀ d ∈ finished, Notified s.rows e.eventId d.userId) :
    Progress readUuid authorOf topic (s.proceed p rest) := by
  cases rest with
  | nil => exact hs.finish (List.getElem?_eq_some_iff.mp he).1
  | cons d rest =>
    exact hs.set rfl (List.Subset.refl _) (Nat.le_refl _) (fun _ _ h => .inl h)
      fun _ => ⟨e, he, finished, hdispatches, hall⟩

/-- What a handler that is not idle works on. -/
theorem Progress.exists_entry (hs : Progress readUuid authorOf topic s)
    (hphase : (s.partitions p).phase ≠ .idle) :
    ∃ e, (s.partitions p).log[(s.partitions p).position]? = some e ∧
      ∃ finished, e.dispatches readUuid authorOf topic p
          = finished ++ (s.partitions p).phase.todo authorOf ∧
        ∀ d ∈ finished, Notified s.rows e.eventId d.userId := hs.handles p hphase

/-! ### One action after the other -/

variable {t : State}

theorem step_receive (h : step readUuid authorOf topic s (.receive p) = some t) :
    (s.partitions p).phase = .idle ∧
      ∃ e, (s.partitions p).log[(s.partitions p).position]? = some e ∧
        t = s.begin p (e.handling readUuid topic p) := by
  simp only [step] at h
  split at h
  · next e hphase he => exact ⟨hphase, e, he, (Option.some.inj h).symm⟩
  · cases h

theorem step_look (h : step readUuid authorOf topic s (.look p) = some t) :
    ∃ d parentId, (s.partitions p).phase = .looking d parentId ∧
      t = s.proceed p (commentDispatches d (authorOf parentId)) := by
  simp only [step] at h
  split at h
  · next d parentId hphase => exact ⟨d, parentId, hphase, (Option.some.inj h).symm⟩
  · cases h

theorem step_insert (h : step readUuid authorOf topic s (.insert p) = some t) :
    ∃ d rest e, (s.partitions p).phase = .inserting d rest ∧
      (s.partitions p).log[(s.partitions p).position]? = some e ∧
      t = { s.set p { s.partitions p with phase := .hydrating d rest } with
        rows := s.rows ++ [⟨d, e.eventId⟩] } := by
  simp only [step] at h
  split at h
  · next d rest e hphase he => exact ⟨d, rest, e, hphase, he, (Option.some.inj h).symm⟩
  · cases h

theorem step_hydrate (h : step readUuid authorOf topic s (.hydrate p) = some t) :
    ∃ d rest, (s.partitions p).phase = .hydrating d rest ∧
      t = s.set p { s.partitions p with phase := .invalidating d rest } := by
  simp only [step] at h
  split at h
  · next d rest hphase => exact ⟨d, rest, hphase, (Option.some.inj h).symm⟩
  · cases h

theorem step_invalidate (h : step readUuid authorOf topic s (.invalidate p) = some t) :
    ∃ d rest, (s.partitions p).phase = .invalidating d rest ∧ t = s.proceed p rest := by
  simp only [step] at h
  split at h
  · next d rest hphase => exact ⟨d, rest, hphase, (Option.some.inj h).symm⟩
  · cases h

theorem step_fail (h : step readUuid authorOf topic s (.fail p) = some t) :
    (s.partitions p).phase ≠ .idle ∧ t = s.finish p := by
  simp only [step] at h
  split at h
  · cases h
  · next hphase => exact ⟨hphase, (Option.some.inj h).symm⟩

theorem step_arrive {offset : Nat}
    (h : step readUuid authorOf topic s (.arrive p offset) = some t) :
    ((s.partitions p).committed ≤ offset ∧ offset ≤ (s.partitions p).position) ∧
      t = s.set p { s.partitions p with committed := offset } := by
  obtain ⟨hoffset, ht⟩ := Option.ite_none_right_eq_some.mp h
  exact ⟨hoffset, (Option.some.inj ht).symm⟩

/-- A handler begins with all of its notifications to insert. -/
theorem Progress.begin (hs : Progress readUuid authorOf topic s) {e : Entry}
    (he : (s.partitions p).log[(s.partitions p).position]? = some e) :
    Progress readUuid authorOf topic (s.begin p (e.handling readUuid topic p)) := by
  have hdispatches : e.dispatches readUuid authorOf topic p
      = [] ++ (e.handling readUuid topic p).dispatches authorOf := rfl
  cases hhandling : e.handling readUuid topic p with
  | failed => exact hs.finish (List.getElem?_eq_some_iff.mp he).1
  | dispatching dispatches =>
    rw [hhandling] at hdispatches
    exact hs.proceed he hdispatches (fun d h => nomatch h)
  | looking d parentId =>
    rw [hhandling] at hdispatches
    exact hs.set rfl (List.Subset.refl _) (Nat.le_refl _) (fun _ _ h => .inl h)
      fun _ => ⟨e, he, [], hdispatches, fun d h => nomatch h⟩

/-- **Step lemma.** -/
theorem step_progress {a : ConsumerAction} (hs : Progress readUuid authorOf topic s)
    (h : step readUuid authorOf topic s a = some t) : Progress readUuid authorOf topic t := by
  cases a with
  | produce p e =>
    obtain rfl := Option.some.inj h
    refine hs.set rfl (List.Subset.refl _) (by simp) (fun _ _ h => .inl h) fun hphase => ?_
    obtain ⟨e', he, hrest⟩ := hs.exists_entry hphase
    exact ⟨e', (List.getElem?_append_left (List.getElem?_eq_some_iff.mp he).1).trans he, hrest⟩
  | receive p =>
    obtain ⟨-, e, he, rfl⟩ := step_receive h
    exact hs.begin he
  | look p =>
    obtain ⟨d, parentId, hphase, rfl⟩ := step_look h
    obtain ⟨e, he, finished, hdispatches, hall⟩ := hs.exists_entry (by rw [hphase]; nofun)
    rw [hphase] at hdispatches
    exact hs.proceed he hdispatches hall
  | insert p =>
    obtain ⟨d, rest, e, hphase, he, rfl⟩ := step_insert h
    obtain ⟨e', he', finished, hdispatches, hall⟩ := hs.exists_entry (by rw [hphase]; nofun)
    obtain rfl : e' = e := Option.some.inj (he'.symm.trans he)
    rw [hphase] at hdispatches
    refine hs.set rfl (List.subset_append_left _ _) (Nat.le_refl _) (fun _ _ h => .inl h)
      fun _ => ⟨e', he, finished ++ [d], ?_, fun d' hd' => ?_⟩
    · rw [hdispatches, List.append_assoc]
      rfl
    · rcases List.mem_append.mp hd' with hd' | hd'
      · exact (hall d' hd').mono (List.subset_append_left _ _)
      · obtain rfl := List.mem_singleton.mp hd'
        exact ⟨_, List.mem_append_right _ (List.mem_singleton.mpr rfl), rfl, rfl⟩
  | hydrate p =>
    obtain ⟨d, rest, hphase, rfl⟩ := step_hydrate h
    obtain ⟨e, he, finished, hdispatches, hall⟩ := hs.exists_entry (by rw [hphase]; nofun)
    rw [hphase] at hdispatches
    exact hs.set rfl (List.Subset.refl _) (Nat.le_refl _) (fun _ _ h => .inl h)
      fun _ => ⟨e, he, finished, hdispatches, hall⟩
  | invalidate p =>
    obtain ⟨d, rest, hphase, rfl⟩ := step_invalidate h
    obtain ⟨e, he, finished, hdispatches, hall⟩ := hs.exists_entry (by rw [hphase]; nofun)
    rw [hphase] at hdispatches
    exact hs.proceed he hdispatches hall
  | fail p =>
    obtain ⟨hphase, rfl⟩ := step_fail h
    obtain ⟨e, he, -⟩ := hs.exists_entry hphase
    exact hs.finish (List.getElem?_eq_some_iff.mp he).1
  | arrive p offset =>
    obtain ⟨-, rfl⟩ := step_arrive h
    exact hs.set rfl (List.Subset.refl _) (Nat.le_refl _) (fun _ _ h => .inl h) (hs.handles p)
  | crash p =>
    obtain rfl := Option.some.inj h
    exact hs.set rfl (List.Subset.refl _) (Nat.le_refl _) (fun _ _ h => .inl h) (handles_idle rfl)

/-! ### When nothing is lost -/

/-- No record is given up, and the records and notifications stay. -/
theorem NoLoss.keep (hs : NoLoss readUuid authorOf topic s)
    (hprogress : Progress readUuid authorOf topic s) {part : Partition}
    (hpartitions : t.partitions = Function.update s.partitions p part)
    (hlog : (s.partitions p).log <+: part.log) (hrows : s.rows ⊆ t.rows)
    (hreleased : t.released = s.released) : NoLoss readUuid authorOf topic t := by
  have hprefix : ∀ q, (s.partitions q).log <+: (t.partitions q).log := by
    rw [hpartitions]
    exact (Function.forall_update_iff s.partitions fun q new =>
      (s.partitions q).log <+: new.log).mpr ⟨hlog, fun q _ => List.prefix_rfl⟩
  intro q i hi e he d hd
  rw [hreleased] at hi
  obtain ⟨more, hmore⟩ := hprefix q
  rw [← hmore, List.getElem?_append_left (hprogress.released q i hi)] at he
  exact (hs q i hi e he d hd).mono hrows

/-- A record that is given up is lost unless all of its notifications are stored. -/
theorem noLoss_finish_iff (hs : NoLoss readUuid authorOf topic s) :
    NoLoss readUuid authorOf topic (s.finish p) ↔
      ∀ e, (s.partitions p).log[(s.partitions p).position]? = some e →
        ∀ d ∈ e.dispatches readUuid authorOf topic p, Notified s.rows e.eventId d.userId := by
  have hlog : ∀ q, ((s.finish p).partitions q).log = (s.partitions q).log :=
    (Function.forall_update_iff s.partitions fun q new => new.log = (s.partitions q).log).mpr
      ⟨rfl, fun q _ => rfl⟩
  constructor
  · intro h e he
    refine h p (s.partitions p).position List.mem_cons_self e ?_
    rw [hlog]
    exact he
  · intro h q i hi e he
    rw [hlog] at he
    rcases List.mem_cons.mp hi with heq | hi
    · obtain ⟨rfl, rfl⟩ := Prod.mk.inj heq
      exact h e he
    · exact hs q i hi e he

/-- A handler that has inserted all of its notifications loses none. -/
theorem NoLoss.proceed (hs : NoLoss readUuid authorOf topic s)
    (hprogress : Progress readUuid authorOf topic s) {e : Entry} {finished rest : List Dispatch}
    (he : (s.partitions p).log[(s.partitions p).position]? = some e)
    (hdispatches : e.dispatches readUuid authorOf topic p = finished ++ rest)
    (hall : ∀ d ∈ finished, Notified s.rows e.eventId d.userId) :
    NoLoss readUuid authorOf topic (s.proceed p rest) := by
  cases rest with
  | nil =>
    refine (noLoss_finish_iff hs).mpr fun e' he' d hd => ?_
    obtain rfl : e' = e := Option.some.inj (he'.symm.trans he)
    rw [hdispatches, List.append_nil] at hd
    exact hall d hd
  | cons d rest => exact hs.keep hprogress rfl List.prefix_rfl (List.Subset.refl _) rfl

/-- **What a step loses.**  It is a command that fails while a notification is missing. -/
theorem step_noLoss_iff {a : ConsumerAction} (hprogress : Progress readUuid authorOf topic s)
    (hs : NoLoss readUuid authorOf topic s) (h : step readUuid authorOf topic s a = some t) :
    NoLoss readUuid authorOf topic t ↔ FailsLate authorOf s a := by
  cases a with
  | produce p e =>
    obtain rfl := Option.some.inj h
    exact iff_of_true
      (hs.keep hprogress rfl (List.prefix_append _ _) (List.Subset.refl _) rfl) trivial
  | receive p =>
    obtain ⟨-, e, he, rfl⟩ := step_receive h
    have hdispatches : e.dispatches readUuid authorOf topic p
        = [] ++ (e.handling readUuid topic p).dispatches authorOf := rfl
    refine iff_of_true ?_ trivial
    cases hhandling : e.handling readUuid topic p with
    | failed =>
      rw [hhandling] at hdispatches
      exact hs.proceed hprogress he hdispatches (fun d h => nomatch h)
    | dispatching dispatches =>
      rw [hhandling] at hdispatches
      exact hs.proceed hprogress he hdispatches (fun d h => nomatch h)
    | looking d parentId => exact hs.keep hprogress rfl List.prefix_rfl (List.Subset.refl _) rfl
  | look p =>
    obtain ⟨d, parentId, hphase, rfl⟩ := step_look h
    obtain ⟨e, he, finished, hdispatches, hall⟩ := hprogress.exists_entry (by rw [hphase]; nofun)
    rw [hphase] at hdispatches
    exact iff_of_true (hs.proceed hprogress he hdispatches hall) trivial
  | insert p =>
    obtain ⟨d, rest, e, -, -, rfl⟩ := step_insert h
    exact iff_of_true
      (hs.keep hprogress rfl List.prefix_rfl (List.subset_append_left _ _) rfl) trivial
  | hydrate p =>
    obtain ⟨d, rest, -, rfl⟩ := step_hydrate h
    exact iff_of_true (hs.keep hprogress rfl List.prefix_rfl (List.Subset.refl _) rfl) trivial
  | invalidate p =>
    obtain ⟨d, rest, hphase, rfl⟩ := step_invalidate h
    obtain ⟨e, he, finished, hdispatches, hall⟩ := hprogress.exists_entry (by rw [hphase]; nofun)
    rw [hphase] at hdispatches
    exact iff_of_true (hs.proceed hprogress he hdispatches hall) trivial
  | fail p =>
    obtain ⟨hphase, rfl⟩ := step_fail h
    obtain ⟨e, he, finished, hdispatches, hall⟩ := hprogress.exists_entry hphase
    rw [noLoss_finish_iff hs]
    constructor
    · intro hstored e' he' d hd
      obtain rfl : e' = e := Option.some.inj (he'.symm.trans he)
      exact hstored e' he d (by rw [hdispatches]; exact List.mem_append_right _ hd)
    · intro hlate e' he' d hd
      obtain rfl : e' = e := Option.some.inj (he'.symm.trans he)
      rw [hdispatches] at hd
      rcases List.mem_append.mp hd with hd | hd
      · exact hall d hd
      · exact hlate e' he d hd
  | arrive p offset =>
    obtain ⟨-, rfl⟩ := step_arrive h
    exact iff_of_true (hs.keep hprogress rfl List.prefix_rfl (List.Subset.refl _) rfl) trivial
  | crash p =>
    obtain rfl := Option.some.inj h
    exact iff_of_true (hs.keep hprogress rfl List.prefix_rfl (List.Subset.refl _) rfl) trivial

theorem noLoss_initial : NoLoss readUuid authorOf topic initial := fun _ _ h => nomatch h

/-- **No notification is lost** in a run exactly when its commands only fail late. -/
theorem noLoss_iff (readUuid : Json → Option Uuid) (authorOf : Uuid → Option Uuid)
    (topic : Nat → Topic) {s : State} {as : List ConsumerAction}
    (hrun : run (step readUuid authorOf topic) initial as = some s) :
    (∀ bs u, bs <+: as → run (step readUuid authorOf topic) initial bs = some u →
      NoLoss readUuid authorOf topic u)
      ↔ Along (step readUuid authorOf topic) (FailsLate authorOf) initial as :=
  Lib.forall_prefix_iff_along (fun _ _ _ hs _ h => step_progress hs h)
    (fun _ _ _ hprogress hs h => step_noLoss_iff hprogress hs h) progress_initial noLoss_initial hrun

end Step

/-! ### A reply -/

/-- The ids of the examples, read from themselves. -/
private def readsNumbers : Json → Option Uuid
  | .int z => some z.toNat
  | _ => none

/-- User 1 replies to a comment of user 2 under a post of user 3. -/
private def reply : Entry where
  eventId := 9
  payload := .json (.obj [("event_type", .str "comment_replied"), ("data", .obj
    [("commenter_id", .int 1), ("post_id", .int 4), ("post_author_id", .int 3),
      ("comment_id", .int 5), ("parent_comment_id", .int 6), ("content_preview", .str "hay")])])

private def parentAuthor : Uuid → Option Uuid := fun _ => some 2

private def onlyInteractions : Nat → Topic := fun _ => .interactions

/-- Redis fails after the second of two notifications. -/
private def failedLate : List ConsumerAction :=
  [.produce 0 reply, .receive 0, .look 0, .insert 0, .hydrate 0, .invalidate 0, .insert 0,
    .hydrate 0, .fail 0]

private theorem failedLate_runs :
    (run (step readsNumbers parentAuthor onlyInteractions) initial failedLate).isSome := by
  decide +kernel

theorem noLoss_failedLate :
    Along (step readsNumbers parentAuthor onlyInteractions) (FailsLate parentAuthor) initial failedLate
      ∧ ∀ bs u, bs <+: failedLate →
        run (step readsNumbers parentAuthor onlyInteractions) initial bs = some u →
          NoLoss readsNumbers parentAuthor onlyInteractions u := by
  have hlate : Along (step readsNumbers parentAuthor onlyInteractions) (FailsLate parentAuthor)
      initial failedLate := by
    decide +kernel
  exact ⟨hlate, (noLoss_iff readsNumbers parentAuthor onlyInteractions
    (Option.some_get failedLate_runs).symm).mpr hlate⟩

/-- Redis fails after the first of them, and user 3 gets none. -/
private def failedEarly : List ConsumerAction :=
  [.produce 0 reply, .receive 0, .look 0, .insert 0, .hydrate 0, .fail 0]

/-- The offset of the reply is committed, and the author of the post was not notified. -/
theorem lost_after_redis_failure :
    ¬ ∀ (readUuid : Json → Option Uuid) (authorOf : Uuid → Option Uuid) (topic : Nat → Topic)
      (s : State) (as : List ConsumerAction),
      run (step readUuid authorOf topic) initial as = some s → NoLoss readUuid authorOf topic s := by
  intro h
  have hrun : (run (step readsNumbers parentAuthor onlyInteractions) initial failedEarly).map
      (fun s => (s.released, (s.partitions 0).log, s.rows.map fun row => (row.eventId, row.userId)))
      = some ([(0, 0)], [reply], [(9, 2)]) := rfl
  obtain ⟨s, hs, hstate⟩ := Option.map_eq_some_iff.mp hrun
  simp only [Prod.mk.injEq] at hstate
  obtain ⟨hreleased, hlog, hrows⟩ := hstate
  have hdispatches : (reply.dispatches readsNumbers parentAuthor onlyInteractions 0).map
      Dispatch.userId = [2, 3] := by decide +kernel
  obtain ⟨d, hd, huser⟩ := List.mem_map.mp (show 3 ∈ (reply.dispatches readsNumbers parentAuthor
    onlyInteractions 0).map Dispatch.userId by rw [hdispatches]; decide)
  obtain ⟨row, hrow, hevent, hrowUser⟩ := h readsNumbers parentAuthor onlyInteractions s _ hs 0 0
    (by rw [hreleased]; exact List.mem_singleton.mpr rfl) reply (by rw [hlog]; rfl) d hd
  have hmem : (row.eventId, row.userId) ∈ s.rows.map fun row => (row.eventId, row.userId) :=
    List.mem_map_of_mem hrow
  rw [hrows, hrowUser, huser] at hmem
  exact absurd (List.mem_singleton.mp hmem) (by rw [hevent]; decide)

end Oecophylla.Notification
