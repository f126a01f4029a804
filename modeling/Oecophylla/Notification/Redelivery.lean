import Oecophylla.Notification.Consumer

namespace Oecophylla.Notification

open Lib (run Along)

/-!
# Envelopes that are delivered again

An outbox that publishes an event twice, and a crash before a commit, make the consumer receive a
record whose event it has handled.  The table has nothing to tell it by:

* `Once` — one row for each event and recipient, as if every envelope had been delivered once;
* `Identified` — an event id stands for one record, and its records are in one partition;
* `FirstReceipt` — no record with recipients is received when its event has a row;
* `once_iff` — these are the runs without failures that end with `Once`.

`Half` is what such a run has inserted; `Repeating` says that a record is still to be received, or
to be inserted from its start, although its event has rows.
-/

section Redelivery

variable (readUuid : Json → Option Uuid) (authorOf : Uuid → Option Uuid) (topic : Nat → Topic)

/-- The notifications that are stored for an event, in the order of their insertion. -/
def rowsFor (rows : List NotificationRow) (eventId : Uuid) : List Dispatch :=
  (rows.filter fun row => row.eventId = eventId).map fun row => row.toDispatch

/-- Exactly one row for each event and recipient. -/
def Once (s : State) : Prop :=
  ∀ p, ∀ e ∈ (s.partitions p).log, ∀ user,
    ((rowsFor s.rows e.eventId).map Dispatch.userId).count user
      = if user ∈ (e.dispatches readUuid authorOf topic p).map Dispatch.userId then 1 else 0

/-- Two records of one event are the same, in the same partition. -/
def Identified (s : State) : Prop :=
  ∀ p q, ∀ e ∈ (s.partitions p).log, ∀ e' ∈ (s.partitions q).log, e.eventId = e'.eventId →
    p = q ∧ e = e'

/-- Everything is handled. -/
def Quiescent (s : State) : Prop :=
  ∀ p, (s.partitions p).phase = .idle ∧ (s.partitions p).position = (s.partitions p).log.length

/-- A record that has recipients is not received when its event has rows. -/
def FirstReceipt (s : State) : ConsumerAction → Prop
  | .receive p => ∀ e ∈ (s.partitions p).log[(s.partitions p).position]?,
    e.dispatches readUuid authorOf topic p = [] ∨ rowsFor s.rows e.eventId = []
  | _ => True

instance (s : State) : (a : ConsumerAction) → Decidable (FirstReceipt readUuid authorOf topic s a)
  | .receive p =>
    have : ∀ l : List Dispatch, Decidable (l = []) := fun l =>
      decidable_of_iff (l.isEmpty = true) List.isEmpty_iff
    inferInstanceAs (Decidable (∀ e ∈ (s.partitions p).log[(s.partitions p).position]?,
      e.dispatches readUuid authorOf topic p = [] ∨ rowsFor s.rows e.eventId = []))
  | .produce _ _ => .isTrue trivial
  | .look _ => .isTrue trivial
  | .insert _ => .isTrue trivial
  | .hydrate _ => .isTrue trivial
  | .invalidate _ => .isTrue trivial
  | .fail _ => .isTrue trivial
  | .arrive _ _ => .isTrue trivial
  | .crash _ => .isTrue trivial

/-- The command does not fail. -/
def Succeeds (_ : State) : ConsumerAction → Prop
  | .fail _ => False
  | _ => True

/-! ### What every run keeps -/

/-- Offsets are in order, and the first recipient of an event with a row has one. -/
structure Sound (s : State) : Prop where
  progress : Progress readUuid authorOf topic s
  bounds : ∀ p, (s.partitions p).committed ≤ (s.partitions p).position ∧
    (s.partitions p).position ≤ (s.partitions p).log.length
  first : ∀ row ∈ s.rows, ∃ p, ∃ e ∈ (s.partitions p).log, e.eventId = row.eventId ∧
    ∃ d rest, e.dispatches readUuid authorOf topic p = d :: rest ∧
      Notified s.rows e.eventId d.userId

variable {readUuid authorOf topic} {s t : State} {p : Nat}

theorem mem_rowsFor {rows : List NotificationRow} {eventId : Uuid} {d : Dispatch} :
    d ∈ rowsFor rows eventId ↔ ∃ row ∈ rows, row.eventId = eventId ∧ row.toDispatch = d := by
  simp [rowsFor, and_assoc]

theorem rowsFor_append (rows : List NotificationRow) (row : NotificationRow) (eventId : Uuid) :
    rowsFor (rows ++ [row]) eventId
      = if row.eventId = eventId then rowsFor rows eventId ++ [row.toDispatch]
        else rowsFor rows eventId := by
  unfold rowsFor
  rw [List.filter_append, List.map_append]
  by_cases h : row.eventId = eventId
  · simp [h]
  · simp [h]

theorem notified_iff {rows : List NotificationRow} {eventId user : Uuid} :
    Notified rows eventId user ↔ user ∈ (rowsFor rows eventId).map Dispatch.userId := by
  constructor
  · rintro ⟨row, hrow, hevent, rfl⟩
    exact List.mem_map_of_mem (mem_rowsFor.mpr ⟨row, hrow, hevent, rfl⟩)
  · intro h
    obtain ⟨d, hd, huser⟩ := List.mem_map.mp h
    obtain ⟨row, hrow, hevent, rfl⟩ := mem_rowsFor.mp hd
    exact ⟨row, hrow, hevent, huser⟩

/-! ### What a successful action does -/

/-- The handler has inserted nothing since it went on from the last notification. -/
def Phase.Starting : Phase → Prop
  | .looking _ _ => True
  | .inserting _ _ => True
  | _ => False

/-- What a successful action does to its partition and to the rows. -/
inductive Change (readUuid : Json → Option Uuid) (authorOf : Uuid → Option Uuid)
    (topic : Nat → Topic) (s : State) (p : Nat) :
    ConsumerAction → Partition → List NotificationRow → Prop
  | produce (e : Entry) :
      Change readUuid authorOf topic s p (.produce p e)
        { s.partitions p with log := (s.partitions p).log ++ [e] } s.rows
  /-- A record without notifications. -/
  | skip (e : Entry) (idle : (s.partitions p).phase = .idle)
      (entry : (s.partitions p).log[(s.partitions p).position]? = some e)
      (none : e.dispatches readUuid authorOf topic p = []) :
      Change readUuid authorOf topic s p (.receive p)
        { s.partitions p with position := (s.partitions p).position + 1, phase := .idle } s.rows
  | begin (e : Entry) (phase : Phase) (idle : (s.partitions p).phase = .idle)
      (entry : (s.partitions p).log[(s.partitions p).position]? = some e)
      (starting : phase.Starting)
      (todo : phase.todo authorOf = e.dispatches readUuid authorOf topic p) :
      Change readUuid authorOf topic s p (.receive p) { s.partitions p with phase := phase } s.rows
  /-- On to the next command, with the same notifications to insert. -/
  | goOn (a : ConsumerAction) (phase : Phase) (running : (s.partitions p).phase ≠ .idle)
      (running' : phase ≠ .idle) (starting : (s.partitions p).phase.Starting → phase.Starting)
      (todo : phase.todo authorOf = (s.partitions p).phase.todo authorOf) :
      Change readUuid authorOf topic s p a { s.partitions p with phase := phase } s.rows
  | pass (a : ConsumerAction) (running : (s.partitions p).phase ≠ .idle)
      (todo : (s.partitions p).phase.todo authorOf = []) :
      Change readUuid authorOf topic s p a
        { s.partitions p with position := (s.partitions p).position + 1, phase := .idle } s.rows
  | insert (d : Dispatch) (rest : List Dispatch) (e : Entry)
      (phase : (s.partitions p).phase = .inserting d rest)
      (entry : (s.partitions p).log[(s.partitions p).position]? = some e) :
      Change readUuid authorOf topic s p (.insert p)
        { s.partitions p with phase := .hydrating d rest } (s.rows ++ [⟨d, e.eventId⟩])
  | arrive (offset : Nat) (order : (s.partitions p).committed ≤ offset ∧
        offset ≤ (s.partitions p).position) :
      Change readUuid authorOf topic s p (.arrive p offset)
        { s.partitions p with committed := offset } s.rows
  | crash :
      Change readUuid authorOf topic s p (.crash p)
        { s.partitions p with position := (s.partitions p).committed, phase := .idle } s.rows

/-- **What a successful action does.** -/
theorem step_change {a : ConsumerAction} (h : step readUuid authorOf topic s a = some t)
    (ha : Succeeds s a) :
    ∃ p part, Change readUuid authorOf topic s p a part t.rows ∧
      t.partitions = Function.update s.partitions p part := by
  cases a with
  | produce p e =>
    obtain rfl := Option.some.inj h
    exact ⟨p, _, .produce e, rfl⟩
  | receive p =>
    obtain ⟨hidle, e, he, rfl⟩ := step_receive h
    have hdispatches : e.dispatches readUuid authorOf topic p
        = (e.handling readUuid topic p).dispatches authorOf := rfl
    cases hhandling : e.handling readUuid topic p with
    | failed =>
      rw [hhandling] at hdispatches
      exact ⟨p, _, .skip e hidle he hdispatches, rfl⟩
    | dispatching dispatches =>
      rw [hhandling] at hdispatches
      cases dispatches with
      | nil => exact ⟨p, _, .skip e hidle he hdispatches, rfl⟩
      | cons d rest =>
        exact ⟨p, _, .begin e (.inserting d rest) hidle he trivial hdispatches.symm, rfl⟩
    | looking d parentId =>
      rw [hhandling] at hdispatches
      exact ⟨p, _, .begin e (.looking d parentId) hidle he trivial hdispatches.symm, rfl⟩
  | look p =>
    obtain ⟨d, parentId, hphase, rfl⟩ := step_look h
    have hrunning : (s.partitions p).phase ≠ .idle := by rw [hphase]; nofun
    have htodo : (s.partitions p).phase.todo authorOf = commentDispatches d (authorOf parentId) := by
      rw [hphase]
      rfl
    cases hrest : commentDispatches d (authorOf parentId) with
    | nil => exact ⟨p, _, .pass _ hrunning (htodo.trans hrest), rfl⟩
    | cons d' rest =>
      exact ⟨p, _, .goOn _ (.inserting d' rest) hrunning nofun (fun _ => trivial)
        (htodo.trans hrest).symm, rfl⟩
  | insert p =>
    obtain ⟨d, rest, e, hphase, he, rfl⟩ := step_insert h
    exact ⟨p, _, .insert d rest e hphase he, rfl⟩
  | hydrate p =>
    obtain ⟨d, rest, hphase, rfl⟩ := step_hydrate h
    refine ⟨p, _, .goOn _ (.invalidating d rest) (by rw [hphase]; nofun) nofun ?_ ?_, rfl⟩
    · rw [hphase]
      exact fun h => h
    · rw [hphase]
      rfl
  | invalidate p =>
    obtain ⟨d, rest, hphase, rfl⟩ := step_invalidate h
    have hrunning : (s.partitions p).phase ≠ .idle := by rw [hphase]; nofun
    have htodo : (s.partitions p).phase.todo authorOf = rest := by rw [hphase]; rfl
    cases rest with
    | nil => exact ⟨p, _, .pass _ hrunning htodo, rfl⟩
    | cons d' rest =>
      exact ⟨p, _, .goOn _ (.inserting d' rest) hrunning nofun (fun _ => trivial) htodo.symm, rfl⟩
  | fail p => exact ha.elim
  | arrive p offset =>
    obtain ⟨horder, rfl⟩ := step_arrive h
    exact ⟨p, _, .arrive offset horder, rfl⟩
  | crash p =>
    obtain rfl := Option.some.inj h
    exact ⟨p, _, .crash, rfl⟩

/-- The partition of an action. -/
def ConsumerAction.partition : ConsumerAction → Nat
  | .produce p _ => p
  | .receive p => p
  | .look p => p
  | .insert p => p
  | .hydrate p => p
  | .invalidate p => p
  | .fail p => p
  | .arrive p _ => p
  | .crash p => p

/-- The other partitions stay as they are. -/
theorem step_other {a : ConsumerAction} (h : step readUuid authorOf topic s a = some t) {q : Nat}
    (hq : q ≠ a.partition) : t.partitions q = s.partitions q := by
  have hset : ∀ p part, q ≠ p → (s.set p part).partitions q = s.partitions q := by
    intro p part hne
    show Function.update s.partitions p part q = s.partitions q
    rw [Function.update_of_ne hne]
  have hproceed : ∀ p ds, q ≠ p → (s.proceed p ds).partitions q = s.partitions q := by
    intro p ds hne
    cases ds with
    | nil => exact hset p _ hne
    | cons d rest => exact hset p _ hne
  cases a with
  | receive p =>
    obtain ⟨-, e, -, rfl⟩ := step_receive h
    cases e.handling readUuid topic p with
    | failed => exact hset p _ hq
    | dispatching dispatches => exact hproceed p dispatches hq
    | looking d parentId => exact hset p _ hq
  | look p =>
    obtain ⟨d, parentId, -, rfl⟩ := step_look h
    exact hproceed p _ hq
  | insert p =>
    obtain ⟨d, rest, e, -, -, rfl⟩ := step_insert h
    exact hset p _ hq
  | hydrate p =>
    obtain ⟨d, rest, -, rfl⟩ := step_hydrate h
    exact hset p _ hq
  | invalidate p =>
    obtain ⟨d, rest, -, rfl⟩ := step_invalidate h
    exact hproceed p rest hq
  | fail p =>
    obtain ⟨-, rfl⟩ := step_fail h
    exact hset p _ hq
  | arrive p offset =>
    obtain ⟨-, rfl⟩ := step_arrive h
    exact hset p _ hq
  | _ =>
    obtain rfl := Option.some.inj h
    exact hset _ _ hq

theorem run_other {as : List ConsumerAction} {q : Nat}
    (hrun : run (step readUuid authorOf topic) s as = some t) (hq : ∀ a ∈ as, q ≠ a.partition) :
    t.partitions q = s.partitions q := by
  have hall : Along (step readUuid authorOf topic) (fun _ a => q ≠ a.partition) s as :=
    Lib.along_of_forall (fun a ha _ => hq a ha) s
  exact Lib.run_invariant_along (P := fun u => u.partitions q = s.partitions q)
    (fun _ _ _ hu hne h => (step_other h hne).trans hu) rfl hrun hall

section Change

variable {a : ConsumerAction} {part : Partition} {rows' : List NotificationRow}

/-- Records are only added. -/
theorem Change.log (h : Change readUuid authorOf topic s p a part rows') :
    (s.partitions p).log <+: part.log := by
  cases h with
  | produce e => exact List.prefix_append _ _
  | _ => exact List.prefix_rfl

/-- Rows are only added. -/
theorem Change.rows (h : Change readUuid authorOf topic s p a part rows') : s.rows <+: rows' := by
  cases h with
  | insert d rest e phase entry => exact List.prefix_append _ _
  | _ => exact List.prefix_rfl

theorem Change.bounds (h : Change readUuid authorOf topic s p a part rows')
    (hs : Sound readUuid authorOf topic s) :
    part.committed ≤ part.position ∧ part.position ≤ part.log.length := by
  obtain ⟨hcommitted, hposition⟩ := hs.bounds p
  cases h with
  | produce e =>
    exact ⟨hcommitted, Nat.le_trans hposition (List.prefix_append _ [e]).length_le⟩
  | skip e idle entry none =>
    have hlt := (List.getElem?_eq_some_iff.mp entry).1
    exact ⟨Nat.le_succ_of_le hcommitted, hlt⟩
  | begin e phase idle entry starting todo => exact ⟨hcommitted, hposition⟩
  | goOn _ phase running running' starting todo => exact ⟨hcommitted, hposition⟩
  | pass _ running todo =>
    obtain ⟨e, he, -⟩ := hs.progress.exists_entry running
    exact ⟨Nat.le_succ_of_le hcommitted, (List.getElem?_eq_some_iff.mp he).1⟩
  | insert d rest e phase entry => exact ⟨hcommitted, hposition⟩
  | arrive offset order => exact ⟨order.2, hposition⟩
  | crash => exact ⟨Nat.le_refl _, Nat.le_trans hcommitted hposition⟩

end Change

theorem mem_log_of_prefix {part : Partition}
    (ht : t.partitions = Function.update s.partitions p part) (hlog : (s.partitions p).log <+: part.log)
    (q : Nat) : (s.partitions q).log <+: (t.partitions q).log := by
  rw [ht]
  exact (Function.forall_update_iff s.partitions fun q new =>
    (s.partitions q).log <+: new.log).mpr ⟨hlog, fun q _ => List.prefix_rfl⟩ q

/-- Before a step there were no other records. -/
theorem Identified.of_step {a : ConsumerAction} (ht : Identified t)
    (h : step readUuid authorOf topic s a = some t) (ha : Succeeds s a) : Identified s := by
  obtain ⟨p, part, hchange, hpartitions⟩ := step_change h ha
  have hlog := mem_log_of_prefix hpartitions hchange.log
  exact fun q q' e he e' he' => ht q q' e ((hlog q).subset he) e' ((hlog q').subset he')

/-- The first notification of a record is stored with, or before, the others. -/
theorem Sound.insert (hs : Sound readUuid authorOf topic s) {d : Dispatch} {rest : List Dispatch}
    {e : Entry} (hphase : (s.partitions p).phase = .inserting d rest)
    (he : (s.partitions p).log[(s.partitions p).position]? = some e) :
    ∃ first others, e.dispatches readUuid authorOf topic p = first :: others ∧
      Notified (s.rows ++ [⟨d, e.eventId⟩]) e.eventId first.userId := by
  obtain ⟨e', he', finished, hdispatches, hall⟩ := hs.progress.exists_entry (by rw [hphase]; nofun)
  obtain rfl : e' = e := Option.some.inj (he'.symm.trans he)
  rw [hphase] at hdispatches
  cases finished with
  | nil =>
    refine ⟨d, rest, hdispatches, ?_⟩
    exact ⟨_, List.mem_append_right _ (List.mem_singleton.mpr rfl), rfl, rfl⟩
  | cons first more =>
    refine ⟨first, _, hdispatches, ?_⟩
    exact (hall first List.mem_cons_self).mono (List.subset_append_left _ _)

theorem step_sound {a : ConsumerAction} (hs : Sound readUuid authorOf topic s)
    (h : step readUuid authorOf topic s a = some t) (ha : Succeeds s a) :
    Sound readUuid authorOf topic t := by
  obtain ⟨p, part, hchange, hpartitions⟩ := step_change h ha
  have hlog := mem_log_of_prefix hpartitions hchange.log
  refine ⟨step_progress hs.progress h, ?_, fun row hrow => ?_⟩
  · rw [hpartitions]
    exact (Function.forall_update_iff s.partitions fun _ new =>
      new.committed ≤ new.position ∧ new.position ≤ new.log.length).mpr
      ⟨hchange.bounds hs, fun q _ => hs.bounds q⟩
  · have hold : row ∈ s.rows → ∃ p, ∃ e ∈ (t.partitions p).log, e.eventId = row.eventId ∧
        ∃ d rest, e.dispatches readUuid authorOf topic p = d :: rest ∧
          Notified t.rows e.eventId d.userId := by
      intro hrow
      obtain ⟨q, e, he, hid, d, rest, hdispatches, hnotified⟩ := hs.first row hrow
      exact ⟨q, e, (hlog q).subset he, hid, d, rest, hdispatches,
        hnotified.mono hchange.rows.subset⟩
    generalize hrows : t.rows = rows at hchange hrow hold
    cases hchange with
    | insert d rest e phase entry =>
      rcases List.mem_append.mp hrow with hrow | hrow
      · exact hold hrow
      · obtain rfl := List.mem_singleton.mp hrow
        obtain ⟨first, others, hdispatches, hnotified⟩ := hs.insert phase entry
        exact ⟨p, e, (hlog p).subset (List.mem_of_getElem? entry), rfl, first, others, hdispatches,
          hnotified⟩
    | _ => exact hold hrow

theorem sound_initial : Sound readUuid authorOf topic initial where
  progress := progress_initial
  bounds _ := ⟨Nat.le_refl _, Nat.le_refl _⟩
  first _ h := nomatch h

theorem getElem?_of_prefix {α : Type} {l l' : List α} (h : l <+: l') {i : Nat} {x : α}
    (hx : l[i]? = some x) : l'[i]? = some x := by
  obtain ⟨more, rfl⟩ := h
  rw [List.getElem?_append_left (List.getElem?_eq_some_iff.mp hx).1]
  exact hx

/-- The first recipient of an event that has rows is among those who have one. -/
theorem Sound.exists_first (hs : Sound readUuid authorOf topic s) (hid : Identified s) {e : Entry}
    (he : e ∈ (s.partitions p).log) (hrows : rowsFor s.rows e.eventId ≠ []) :
    ∃ d rest, e.dispatches readUuid authorOf topic p = d :: rest ∧
      Notified s.rows e.eventId d.userId := by
  obtain ⟨d, hd⟩ := List.exists_mem_of_ne_nil _ hrows
  obtain ⟨row, hrow, hevent, -⟩ := mem_rowsFor.mp hd
  obtain ⟨q, e', he', hevent', first⟩ := hs.first row hrow
  obtain ⟨rfl, rfl⟩ := hid q p e' he' e he (hevent'.trans hevent)
  exact first

/-! ### Runs in which every receipt is the first -/

variable (readUuid authorOf topic) in
/-- What is inserted: all notifications of the records before the position, and those of the record
    at the position that are not to do. -/
def Half (p : Nat) (part : Partition) (rows : List NotificationRow) : Prop :=
  ∀ i e, part.log[i]? = some e →
    (i < part.position → rowsFor rows e.eventId = e.dispatches readUuid authorOf topic p) ∧
    (i = part.position → part.phase ≠ .idle →
      rowsFor rows e.eventId ++ part.phase.todo authorOf = e.dispatches readUuid authorOf topic p)

/-- A record without notifications has no rows. -/
theorem Sound.rowsFor_eq_nil (hs : Sound readUuid authorOf topic s) (hid : Identified s) {e : Entry}
    (he : e ∈ (s.partitions p).log) (hnone : e.dispatches readUuid authorOf topic p = []) :
    rowsFor s.rows e.eventId = [] := by
  by_contra hrows
  obtain ⟨d, rest, hdispatches, -⟩ := hs.exists_first hid he hrows
  rw [hnone] at hdispatches
  cases hdispatches

/-- The partition of the step. -/
theorem Change.half {a : ConsumerAction} {part : Partition} {rows' : List NotificationRow}
    (h : Change readUuid authorOf topic s p a part rows') (hs : Sound readUuid authorOf topic s)
    (hid : Identified s) (hfirst : FirstReceipt readUuid authorOf topic s a)
    (hhalf : Half readUuid authorOf topic p (s.partitions p) s.rows) :
    Half readUuid authorOf topic p part rows' := by
  have hbounds := hs.bounds p
  cases h with
  | produce e =>
    intro i e' he
    have hold : i < (s.partitions p).log.length → (s.partitions p).log[i]? = some e' :=
      fun hi => (List.getElem?_append_left hi).symm.trans he
    refine ⟨fun hi => (hhalf i e' (hold (Nat.lt_of_lt_of_le hi hbounds.2))).1 hi,
      fun hi hrunning => ?_⟩
    obtain ⟨e'', he'', -⟩ := hs.progress.exists_entry hrunning
    have hlt := (List.getElem?_eq_some_iff.mp he'').1
    exact (hhalf i e' (hold (hi ▸ hlt))).2 hi hrunning
  | skip e idle entry none =>
    intro i e' he
    refine ⟨fun hi => ?_, fun _ hrunning => absurd rfl hrunning⟩
    rcases Nat.lt_succ_iff_lt_or_eq.mp hi with hlt | heq
    · exact (hhalf i e' he).1 hlt
    · obtain rfl : e' = e := by
        rw [heq] at he
        exact Option.some.inj (he.symm.trans entry)
      rw [none]
      exact hs.rowsFor_eq_nil hid (List.mem_of_getElem? entry) none
  | begin e phase idle entry starting todo =>
    intro i e' he
    refine ⟨(hhalf i e' he).1, fun hi _ => ?_⟩
    obtain rfl : e' = e := by
      rw [hi] at he
      exact Option.some.inj (he.symm.trans entry)
    have hrows : rowsFor s.rows e'.eventId = [] := by
      rcases hfirst e' entry with hnone | hrows
      · exact hs.rowsFor_eq_nil hid (List.mem_of_getElem? entry) hnone
      · exact hrows
    rw [hrows]
    exact todo
  | goOn _ phase running running' starting todo =>
    intro i e' he
    refine ⟨(hhalf i e' he).1, fun hi _ => ?_⟩
    show _ ++ phase.todo authorOf = _
    rw [todo]
    exact (hhalf i e' he).2 hi running
  | pass _ running todo =>
    intro i e' he
    refine ⟨fun hi => ?_, fun _ hrunning => absurd rfl hrunning⟩
    rcases Nat.lt_succ_iff_lt_or_eq.mp hi with hlt | heq
    · exact (hhalf i e' he).1 hlt
    · have hall := (hhalf i e' he).2 heq running
      rw [todo, List.append_nil] at hall
      exact hall
  | insert d rest e phase entry =>
    have hrunning : (s.partitions p).phase ≠ .idle := by rw [phase]; nofun
    have hcurrent := (hhalf _ e entry).2 rfl hrunning
    rw [phase] at hcurrent
    intro i e' he
    refine ⟨fun hi => ?_, fun hi _ => ?_⟩
    · rw [rowsFor_append]
      split
      · next hevent =>
        -- The record was handled before: it has no notification to do.
        obtain ⟨-, rfl⟩ := hid p p e (List.mem_of_getElem? entry) e' (List.mem_of_getElem? he) hevent
        rw [(hhalf i e he).1 hi] at hcurrent
        exact absurd (List.append_right_eq_self.mp hcurrent) (List.cons_ne_nil d rest)
      · exact (hhalf i e' he).1 hi
    · obtain rfl : e' = e := by
        rw [hi] at he
        exact Option.some.inj (he.symm.trans entry)
      rw [rowsFor_append, if_pos rfl, List.append_assoc]
      exact hcurrent
  | arrive offset order => exact hhalf
  | crash =>
    intro i e' he
    refine ⟨fun hi => ?_, fun _ hrunning => absurd rfl hrunning⟩
    exact (hhalf i e' he).1 (Nat.lt_of_lt_of_le hi hbounds.1)

/-- The other partitions: their events get no rows. -/
theorem Change.half_of_ne {a : ConsumerAction} {part : Partition} {rows' : List NotificationRow}
    (h : Change readUuid authorOf topic s p a part rows') (hid : Identified s) {q : Nat}
    (hq : q ≠ p) (hhalf : Half readUuid authorOf topic q (s.partitions q) s.rows) :
    Half readUuid authorOf topic q (s.partitions q) rows' := by
  cases h with
  | insert d rest e phase entry =>
    intro i e' he
    have hrows : rowsFor (s.rows ++ [⟨d, e.eventId⟩]) e'.eventId = rowsFor s.rows e'.eventId := by
      rw [rowsFor_append, if_neg]
      intro hevent
      exact hq (hid p q e (List.mem_of_getElem? entry) e' (List.mem_of_getElem? he) hevent).1.symm
    rw [hrows]
    exact hhalf i e' he
  | _ => exact hhalf

/-- **Step lemma.** -/
theorem step_half {a : ConsumerAction} (hs : Sound readUuid authorOf topic s) (hid : Identified s)
    (hfirst : FirstReceipt readUuid authorOf topic s a) (ha : Succeeds s a)
    (hhalf : ∀ p, Half readUuid authorOf topic p (s.partitions p) s.rows)
    (h : step readUuid authorOf topic s a = some t) :
    ∀ p, Half readUuid authorOf topic p (t.partitions p) t.rows := by
  obtain ⟨p, part, hchange, hpartitions⟩ := step_change h ha
  rw [hpartitions]
  exact (Function.forall_update_iff s.partitions fun q new =>
    Half readUuid authorOf topic q new t.rows).mpr
    ⟨hchange.half hs hid hfirst (hhalf p), fun q hq => hchange.half_of_ne hid hq (hhalf q)⟩

/-- When everything is handled, everything is inserted once. -/
theorem once_of_half (hquiet : Quiescent s)
    (hhalf : ∀ p, Half readUuid authorOf topic p (s.partitions p) s.rows) :
    Once readUuid authorOf topic s := by
  intro p e he user
  obtain ⟨i, hi⟩ := List.mem_iff_getElem?.mp he
  have hlt := (List.getElem?_eq_some_iff.mp hi).1
  rw [(hhalf p i e hi).1 ((hquiet p).2 ▸ hlt)]
  apply List.Nodup.count
  unfold Entry.dispatches Entry.handling
  split
  · split
    · exact nodup_recipients readUuid authorOf (topic p) _
    · exact List.nodup_nil
  · exact List.nodup_nil

/-! ### Runs in which some receipt is not the first -/

/-- The record at `i` is not received yet. -/
def Later (part : Partition) (i : Nat) : Prop :=
  part.position < i ∨ part.position = i ∧ part.phase = .idle

variable (readUuid authorOf topic) in
/-- Two notifications of the first recipient, or a record that is still to be received, or to be
    inserted from its start, and whose event has rows. -/
def Repeating (s : State) : Prop :=
  (∃ p, ∃ e ∈ (s.partitions p).log, ∃ user,
    2 ≤ ((rowsFor s.rows e.eventId).map Dispatch.userId).count user)
  ∨ ∃ p i e, (s.partitions p).log[i]? = some e ∧ rowsFor s.rows e.eventId ≠ [] ∧
    (Later (s.partitions p) i ∨ (s.partitions p).position = i ∧ (s.partitions p).phase.Starting ∧
      (s.partitions p).phase.todo authorOf = e.dispatches readUuid authorOf topic p)

theorem Change.later {a : ConsumerAction} {part : Partition} {rows' : List NotificationRow}
    (h : Change readUuid authorOf topic s p a part rows') (hs : Sound readUuid authorOf topic s)
    {i : Nat} (hlater : Later (s.partitions p) i)
    (hreceive : a = .receive p → (s.partitions p).position ≠ i) : Later part i := by
  have hlt : (s.partitions p).phase ≠ .idle → (s.partitions p).position < i := fun hrunning =>
    hlater.resolve_right fun heq => hrunning heq.2
  have hnext : (s.partitions p).position < i → (s.partitions p).position + 1 < i ∨
      (s.partitions p).position + 1 = i ∧ Phase.idle = Phase.idle := fun hi =>
    (Nat.lt_or_eq_of_le hi).imp_right fun heq => ⟨heq, rfl⟩
  cases h with
  | produce e => exact hlater
  | skip e idle entry none =>
    exact hnext (hlater.resolve_right fun heq => hreceive rfl heq.1)
  | begin e phase idle entry starting todo =>
    exact .inl (hlater.resolve_right fun heq => hreceive rfl heq.1)
  | goOn _ phase running running' starting todo => exact .inl (hlt running)
  | pass _ running todo => exact hnext (hlt running)
  | insert d rest e phase entry => exact .inl (hlt (by rw [phase]; nofun))
  | arrive offset order => exact hlater
  | crash =>
    have hle : (s.partitions p).position ≤ i := hlater.elim Nat.le_of_lt fun heq => heq.1.le
    exact (Nat.lt_or_eq_of_le (Nat.le_trans (hs.bounds p).1 hle)).imp_right fun heq => ⟨heq, rfl⟩

/-- The step of the partition whose record is to be repeated. -/
theorem Change.repeating {a : ConsumerAction} {part : Partition}
    (h : Change readUuid authorOf topic s p a part t.rows)
    (ht : t.partitions = Function.update s.partitions p part)
    (hs : Sound readUuid authorOf topic s) (hid : Identified s) {i : Nat} {e : Entry}
    (he : (s.partitions p).log[i]? = some e) (hrows : rowsFor s.rows e.eventId ≠ [])
    (hahead : Later (s.partitions p) i ∨ (s.partitions p).position = i ∧
      (s.partitions p).phase.Starting ∧
      (s.partitions p).phase.todo authorOf = e.dispatches readUuid authorOf topic p) :
    Repeating readUuid authorOf topic t := by
  have hpart : t.partitions p = part := by rw [ht, Function.update_self]
  have he' : (t.partitions p).log[i]? = some e := by
    rw [hpart]
    exact getElem?_of_prefix h.log he
  have hrows' : rowsFor t.rows e.eventId ≠ [] := by
    obtain ⟨d, hd⟩ := List.exists_mem_of_ne_nil _ hrows
    obtain ⟨row, hrow, heq⟩ := mem_rowsFor.mp hd
    exact List.ne_nil_of_mem (mem_rowsFor.mpr ⟨row, h.rows.subset hrow, heq⟩)
  obtain ⟨first, rest, hdispatches, hnotified⟩ :=
    hs.exists_first hid (List.mem_of_getElem? he) hrows
  -- It is ahead of the new state of the partition, unless the first recipient gets a second row.
  suffices hahead' : (Later part i ∨ part.position = i ∧ part.phase.Starting ∧
      part.phase.todo authorOf = e.dispatches readUuid authorOf topic p) ∨
      2 ≤ ((rowsFor t.rows e.eventId).map Dispatch.userId).count first.userId by
    rcases hahead' with hahead' | htwice
    · exact .inr ⟨p, i, e, he', hrows', hpart ▸ hahead'⟩
    · exact .inl ⟨p, e, List.mem_of_getElem? he', first.userId, htwice⟩
  have hsame : (s.partitions p).position = i →
      (s.partitions p).log[(s.partitions p).position]? = some e := fun hi => hi ▸ he
  rcases hahead with hlater | ⟨hposition, hstarting, htodo⟩
  · by_cases hreceive : a = .receive p ∧ (s.partitions p).position = i
    · obtain ⟨rfl, hposition⟩ := hreceive
      generalize t.rows = rows at h
      cases h with
      | skip e₀ idle entry none =>
        obtain rfl : e₀ = e := Option.some.inj (entry.symm.trans (hsame hposition))
        rw [none] at hdispatches
        cases hdispatches
      | begin e₀ phase idle entry starting todo =>
        obtain rfl : e₀ = e := Option.some.inj (entry.symm.trans (hsame hposition))
        exact .inl (.inr ⟨hposition, starting, todo⟩)
      | goOn _ phase running running' starting todo =>
        exact absurd hlater (by rintro (hlt | ⟨-, hidle⟩); exacts [absurd hposition hlt.ne, running hidle])
      | pass _ running todo =>
        exact absurd hlater (by rintro (hlt | ⟨-, hidle⟩); exacts [absurd hposition hlt.ne, running hidle])
    · exact .inl (.inl (h.later hs hlater fun ha hposition => hreceive ⟨ha, hposition⟩))
  · generalize hrows : t.rows = rows at h
    cases h with
    | produce e₀ => exact .inl (.inr ⟨hposition, hstarting, htodo⟩)
    | skip e₀ idle entry none =>
      rw [idle] at hstarting
      exact hstarting.elim
    | begin e₀ phase idle entry starting todo =>
      rw [idle] at hstarting
      exact hstarting.elim
    | goOn _ phase running running' starting todo =>
      exact .inl (.inr ⟨hposition, starting hstarting, todo.trans htodo⟩)
    | pass _ running todo =>
      rw [todo, hdispatches] at htodo
      cases htodo
    | insert d others e₀ phase entry =>
      obtain rfl : e₀ = e := Option.some.inj (entry.symm.trans (hsame hposition))
      right
      rw [phase, hdispatches] at htodo
      obtain ⟨rfl, -⟩ := List.cons.inj htodo
      rw [rowsFor_append, if_pos rfl, List.map_append, List.count_append]
      have hone := List.count_pos_iff.mpr (notified_iff.mp hnotified)
      have hother : List.count d.userId (List.map Dispatch.userId [d]) = 1 := by simp
      show 2 ≤ _ + List.count d.userId (List.map Dispatch.userId [d])
      omega
    | arrive offset order => exact .inl (.inr ⟨hposition, hstarting, htodo⟩)
    | crash =>
      have hle : (s.partitions p).committed ≤ i := hposition ▸ (hs.bounds p).1
      exact .inl (.inl ((Nat.lt_or_eq_of_le hle).imp_right fun heq => ⟨heq, rfl⟩))

/-- **Step lemma.** -/
theorem step_repeating {a : ConsumerAction} (hs : Sound readUuid authorOf topic s)
    (hid : Identified s) (ha : Succeeds s a) (hrepeating : Repeating readUuid authorOf topic s)
    (h : step readUuid authorOf topic s a = some t) : Repeating readUuid authorOf topic t := by
  obtain ⟨p, part, hchange, hpartitions⟩ := step_change h ha
  have hlog := mem_log_of_prefix hpartitions hchange.log
  have hsub : ∀ eventId, rowsFor s.rows eventId <+: rowsFor t.rows eventId := fun eventId =>
    (hchange.rows.filter _).map _
  rcases hrepeating with ⟨q, e, he, user, htwice⟩ | ⟨q, i, e, he, hrows, hahead⟩
  · refine .inl ⟨q, e, (hlog q).subset he, user, htwice.trans ?_⟩
    exact ((hsub e.eventId).map _).sublist.count_le user
  · by_cases hq : q = p
    · subst hq
      exact hchange.repeating hpartitions hs hid he hrows hahead
    · have hpart : t.partitions q = s.partitions q := by
        rw [hpartitions, Function.update_of_ne hq]
      refine .inr ⟨q, i, e, by rw [hpart]; exact he, fun hnil => hrows ?_, by rw [hpart]; exact hahead⟩
      have hprefix := hsub e.eventId
      rw [hnil] at hprefix
      exact List.prefix_nil.mp hprefix

/-- When everything is handled, what was to be repeated is stored twice. -/
theorem not_once_of_repeating (hquiet : Quiescent s)
    (hrepeating : Repeating readUuid authorOf topic s) : ¬ Once readUuid authorOf topic s := by
  intro honce
  rcases hrepeating with ⟨p, e, he, user, htwice⟩ | ⟨p, i, e, he, -, hahead⟩
  · have hcount := honce p e he user
    split at hcount <;> omega
  · obtain ⟨hidle, hposition⟩ := hquiet p
    have hlt := (List.getElem?_eq_some_iff.mp he).1
    rcases hahead with (hlater | ⟨hlater, -⟩) | ⟨-, hstarting, -⟩
    · omega
    · omega
    · rw [hidle] at hstarting
      exact hstarting

/-- A receipt that is not the first is one of a record to be repeated. -/
theorem repeating_of_not_firstReceipt {a : ConsumerAction}
    (h : step readUuid authorOf topic s a = some t)
    (hfirst : ¬ FirstReceipt readUuid authorOf topic s a) : Repeating readUuid authorOf topic s := by
  cases a with
  | receive p =>
    obtain ⟨hidle, e, he, -⟩ := step_receive h
    refine .inr ⟨p, _, e, he, fun hrows => hfirst fun e' he' => ?_, .inl (.inr ⟨rfl, hidle⟩)⟩
    obtain rfl : e = e' := Option.some.inj (he.symm.trans he')
    exact .inr hrows
  | _ => exact absurd trivial hfirst

/-! ### Exactly once -/

/-- A record that is to be repeated at some time is stored twice in the end. -/
theorem not_once_of_run {as : List ConsumerAction} (hs : Sound readUuid authorOf topic s)
    (hrepeating : Repeating readUuid authorOf topic s)
    (hrun : run (step readUuid authorOf topic) s as = some t)
    (hsucceeds : Along (step readUuid authorOf topic) Succeeds s as) (hid : Identified t)
    (hquiet : Quiescent t) : ¬ Once readUuid authorOf topic t := by
  have hall := Lib.run_invariant_along
    (P := fun u => Sound readUuid authorOf topic u ∧
      (Identified u → Repeating readUuid authorOf topic u))
    (fun u a v hu ha h => ⟨step_sound hu.1 h ha, fun hv =>
      step_repeating hu.1 (hv.of_step h ha) ha (hu.2 (hv.of_step h ha)) h⟩)
    ⟨hs, fun _ => hrepeating⟩ hrun hsucceeds
  exact not_once_of_repeating hquiet (hall.2 hid)

/-- Every receipt of a run that ends with one row each is the first. -/
theorem along_firstReceipt {as : List ConsumerAction} (hs : Sound readUuid authorOf topic s)
    (hrun : run (step readUuid authorOf topic) s as = some t)
    (hsucceeds : Along (step readUuid authorOf topic) Succeeds s as) (hid : Identified t)
    (hquiet : Quiescent t) (honce : Once readUuid authorOf topic t) :
    Along (step readUuid authorOf topic) (FirstReceipt readUuid authorOf topic) s as := by
  induction as generalizing s with
  | nil => trivial
  | cons a as ih =>
    obtain ⟨u, hu, hrest⟩ := Lib.run_cons_eq_some.mp hrun
    obtain ⟨ha, hsucceeds'⟩ := (Lib.along_cons _ _ _ _).mp hsucceeds
    refine (Lib.along_cons _ _ _ _).mpr ⟨?_, fun v hv => ?_⟩
    · by_contra hfirst
      exact not_once_of_run hs (repeating_of_not_firstReceipt hu hfirst) hrun hsucceeds hid hquiet
        honce
    · obtain rfl : u = v := Option.some.inj (hu.symm.trans hv)
      exact ih (step_sound hs hu ha) hrest (hsucceeds' u hu)

end Redelivery

/-- **One row for each event and recipient** at the end of a run without failures, exactly when
    every record with recipients is received before its event has a row. -/
theorem once_iff (readUuid : Json → Option Uuid) (authorOf : Uuid → Option Uuid)
    (topic : Nat → Topic) {s : State} {as : List ConsumerAction}
    (hrun : run (step readUuid authorOf topic) initial as = some s)
    (hsucceeds : ∀ p, ConsumerAction.fail p ∉ as) (hid : Identified s) (hquiet : Quiescent s) :
    Once readUuid authorOf topic s
      ↔ Along (step readUuid authorOf topic) (FirstReceipt readUuid authorOf topic) initial as := by
  have halong : Along (step readUuid authorOf topic) Succeeds initial as := by
    refine Lib.along_of_forall (fun a ha u => ?_) initial
    cases a with
    | fail p => exact hsucceeds p ha
    | _ => trivial
  refine ⟨along_firstReceipt sound_initial hrun halong hid hquiet, fun hfirst => ?_⟩
  have hinitial : ∀ p, Half readUuid authorOf topic p (initial.partitions p) initial.rows :=
    fun p i e he => nomatch he
  have hall := Lib.run_invariant_along
    (P := fun u => Sound readUuid authorOf topic u ∧ (Identified u →
      ∀ p, Half readUuid authorOf topic p (u.partitions p) u.rows))
    (fun u a v hu ha h => ⟨step_sound hu.1 h ha.2, fun hv =>
      step_half hu.1 (hv.of_step h ha.2) ha.1 ha.2 (hu.2 (hv.of_step h ha.2)) h⟩)
    ⟨sound_initial, fun _ => hinitial⟩ hrun (hfirst.and halong)
  exact once_of_half hquiet (hall.2 hid)

/-! ### A like -/

/-- The ids of the examples, read from themselves. -/
private def readsIds : Json → Option Uuid
  | .int z => some z.toNat
  | _ => none

/-- User 1 likes a post of user 3. -/
private def like : Entry where
  eventId := 9
  payload := .json (.obj [("event_type", .str "liked"), ("data", .obj
    [("user_id", .int 1), ("post_id", .int 4), ("post_author_id", .int 3)])])

private def noAuthor : Uuid → Option Uuid := fun _ => none

private def interactionTopic : Nat → Topic := fun _ => .interactions

/-- Only partition 0 is used. -/
private theorem partitions_eq {as : List ConsumerAction} {s : State} {part : Partition}
    (hrun : run (step readsIds noAuthor interactionTopic) initial as = some s)
    (hzero : ∀ a ∈ as, a.partition = 0) (hpart : s.partitions 0 = part) :
    ∀ p, s.partitions p = if p = 0 then part else ⟨[], 0, 0, .idle⟩ := by
  intro p
  split
  · next hp => rw [hp, hpart]
  · next hp => exact run_other hrun fun a ha heq => hp (heq.trans (hzero a ha))

/-- The like is published twice by the outbox, or once. -/
private theorem identified_likes {s : State} {part : Partition}
    (hpart : ∀ p, s.partitions p = if p = 0 then part else ⟨[], 0, 0, .idle⟩)
    (hlog : ∀ e ∈ part.log, e = like) : Identified s := by
  have hmem : ∀ p, ∀ e ∈ (s.partitions p).log, p = 0 ∧ e = like := by
    intro p e he
    rw [hpart p] at he
    split at he
    · next hp => exact ⟨hp, hlog e he⟩
    · cases he
  intro p q e he e' he' _
  obtain ⟨rfl, rfl⟩ := hmem p e he
  obtain ⟨rfl, rfl⟩ := hmem q e' he'
  exact ⟨rfl, rfl⟩

private theorem quiescent_likes {s : State} {part : Partition}
    (hpart : ∀ p, s.partitions p = if p = 0 then part else ⟨[], 0, 0, .idle⟩)
    (hidle : part.phase = .idle) (hposition : part.position = part.log.length) : Quiescent s := by
  intro p
  rw [hpart p]
  split
  · exact ⟨hidle, hposition⟩
  · exact ⟨rfl, rfl⟩

/-- The like is handled; the consumer crashes after its commit has arrived. -/
private def likedOnce : List ConsumerAction :=
  [.produce 0 like, .receive 0, .insert 0, .hydrate 0, .invalidate 0, .arrive 0 1, .crash 0]

private theorem likedOnce_runs :
    (run (step readsIds noAuthor interactionTopic) initial likedOnce).isSome := by decide +kernel

theorem once_likedOnce :
    Once readsIds noAuthor interactionTopic
      ((run (step readsIds noAuthor interactionTopic) initial likedOnce).get likedOnce_runs) := by
  have hrun := (Option.some_get likedOnce_runs).symm
  have hpart := partitions_eq hrun (by decide) (show _ = ⟨[like], 1, 1, .idle⟩ from rfl)
  exact (once_iff readsIds noAuthor interactionTopic hrun (by intro p; simp [likedOnce])
    (identified_likes hpart (by simp)) (quiescent_likes hpart rfl rfl)).mpr (by decide +kernel)

/-- The consumer crashes after the insert; the like is received again. -/
private def likedTwice : List ConsumerAction :=
  [.produce 0 like, .receive 0, .insert 0, .crash 0, .receive 0, .insert 0, .hydrate 0,
    .invalidate 0]

/-- The author has two notifications of one like. -/
theorem notified_twice :
    ¬ ∀ (readUuid : Json → Option Uuid) (authorOf : Uuid → Option Uuid) (topic : Nat → Topic)
      (s : State) (as : List ConsumerAction),
      run (step readUuid authorOf topic) initial as = some s →
      (∀ p, ConsumerAction.fail p ∉ as) → Identified s → Quiescent s →
      Once readUuid authorOf topic s := by
  intro h
  have hstate : (run (step readsIds noAuthor interactionTopic) initial likedTwice).map
      (fun s => (s.partitions 0, (rowsFor s.rows 9).map Dispatch.userId))
      = some (⟨[like], 1, 0, .idle⟩, [3, 3]) := rfl
  obtain ⟨s, hrun, heq⟩ := Option.map_eq_some_iff.mp hstate
  obtain ⟨hzero, hrows⟩ := Prod.mk.inj heq
  have hpart := partitions_eq hrun (by decide) hzero
  have honce := h readsIds noAuthor interactionTopic s likedTwice hrun
    (by intro p; simp [likedTwice]) (identified_likes hpart (by simp)) (quiescent_likes hpart rfl rfl)
    0 like (by rw [hzero]; exact List.mem_singleton.mpr rfl) 3
  rw [show like.eventId = 9 from rfl, hrows] at honce
  have hcount : List.count 3 [3, 3] ≤ 1 := by
    rw [honce]
    split <;> decide
  exact absurd hcount (by decide)

end Oecophylla.Notification
