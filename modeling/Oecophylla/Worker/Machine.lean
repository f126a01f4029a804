import Oecophylla.Lib.Run
import Oecophylla.Worker.Store

namespace Oecophylla.Worker

/-!
# The feature worker as a state machine — `Worker.run` and `Worker._flush`

The worker is an `asyncio` task, so that between two of its awaits nothing else happens to it.
An action is what one await ends with, or something the environment does.

* `Process` — the volatile state: the polled position, the buffer and the await the task is at;
* `State` — the broker, the database, the process and, as history, the deltas applied so far;
* `step` — one action; `none` when it is not enabled;
* `startFlush`, `nextUser`, `endFlush` — the pieces of `_flush` between two awaits.

A task that was cancelled runs the handler in `run`, which flushes and commits once more.
-/

/-- A record value; `none` is a value that `extend_records` skips. -/
abbrev Record := Option Envelope

/-- The events of one flush, by user. -/
abbrev Queue := List (Uuid × List Envelope)

/-- The await at which the task is. -/
inductive Pc where
  /-- `consumer.getmany`. -/
  | polling
  /-- `_apply_for_user`, for the first user of the queue. -/
  | applying (queue : Queue) (failed trending : List Envelope)
  /-- `_update_trending`. -/
  | trending (failed : List Envelope)
  /-- `consumer.commit`. -/
  | committing
  /-- `_refresh_due_recent_topics`. -/
  | refreshing

/-- The volatile state of the worker; `cancelled` says that it is in the handler. -/
structure Process where
  position : Nat → Nat
  buffer : List Envelope
  pc : Pc
  cancelled : Bool

/-- The state of the system. -/
structure State (F : Type) where
  log : Nat → List Record
  committed : Nat → Nat
  store : Store F
  applied : List Delta
  worker : Option Process

/-- How the transaction of a user ends. -/
inductive TxOutcome where
  | rolledBack
  | committed
  | raisedAfterCommit
  deriving DecidableEq, Repr

/-- An action. -/
inductive Action where
  | produce (partition : Nat) (record : Record)
  | editPosts (posts : List Post)
  | deleteUser (user : Uuid)
  /-- `getmany` returns some records of some partitions; `elapsed` says whether the flush
      interval is over. -/
  | poll (batches : List (Nat × Nat)) (elapsed : Bool)
  | applyUser (outcome : TxOutcome)
  | updateTrending
  | commit
  /-- `commit` raises, after or before the broker has stored the offsets. -/
  | commitRaises (stored : Bool)
  | refreshed
  | crash
  | restart
  /-- The task is cancelled at its await; `done` says whether the transaction or the commit that
      is in flight still goes through. -/
  | cancel (done : Bool)

/-! ### Between two awaits -/

/-- `per_user[user].append(env)`. -/
def addToUser (queue : Queue) (user : Uuid) (env : Envelope) : Queue :=
  if user ∈ queue.map Prod.fst then
    queue.map fun g => if g.1 = user then (user, g.2 ++ [env]) else g
  else queue ++ [(user, [env])]

/-- One round of the classifying loop. -/
def queueEvent (qualifiedReadMs : Int) (queue : Queue) (env : Envelope) : Queue :=
  match classify qualifiedReadMs env with
  | .feature user _ => addToUser queue user env
  | _ => queue

/-- `per_user`. -/
def perUser (qualifiedReadMs : Int) (events : List Envelope) : Queue :=
  events.foldl (queueEvent qualifiedReadMs) []

/-- The end of `_flush`, and what `run` does with its result: failed events go back to the
    front of the buffer, otherwise the offsets are committed. -/
def endFlush (p : Process) (failed : List Envelope) : Option Process :=
  if failed = [] then some { p with pc := .committing }
  else if p.cancelled then none
  else some { p with buffer := failed ++ p.buffer, pc := .refreshing }

/-- The next user, or what follows the loop over the users. -/
def nextUser (p : Process) (queue : Queue) (failed trending : List Envelope) : Option Process :=
  if queue ≠ [] then some { p with pc := .applying queue failed trending }
  else if trending ≠ [] then some { p with pc := .trending failed }
  else endFlush p failed

/-- The beginning of `_flush`. -/
def startFlush (qualifiedReadMs : Int) (p : Process) : Option Process :=
  if p.buffer = [] then endFlush p []
  else nextUser { p with buffer := [] } (perUser qualifiedReadMs p.buffer) [] []

/-- `MicroBatchBuffer.ready`. -/
def ready (flushBatchSize : Nat) (elapsed : Bool) (buffer : List Envelope) : Bool :=
  buffer ≠ [] && (decide (flushBatchSize ≤ buffer.length) || elapsed)

/-- The records that `getmany` hands out, and the position after them. -/
def fetch (log : Nat → List Record) :
    List (Nat × Nat) → (Nat → Nat) → List Envelope → Option ((Nat → Nat) × List Envelope)
  | [], position, buffer => some (position, buffer)
  | (k, n) :: batches, position, buffer =>
    if position k + n ≤ (log k).length then
      fetch log batches (Function.update position k (position k + n))
        (buffer ++ (((log k).drop (position k)).take n).filterMap id)
    else none

/-! ### One action -/

section Step

variable {F : Type} (cfg : Config F)

/-- The tables and the history after the transaction of a user. -/
def commitUser (s : State F) (user : Uuid) (events : List Envelope) :
    Option (State F × List Envelope) :=
  (applyForUser cfg s.store user events).map fun r =>
    ({ s with store := r.1, applied := s.applied ++ deltas cfg s.store user r.2 }, r.2)

/-- The task is at the transaction of a user. -/
def stepApply (s : State F) (p : Process) (outcome : TxOutcome) : Option (State F) :=
  match p.pc with
  | .applying ((user, events) :: queue) failed trending =>
    match outcome with
    | .rolledBack => some { s with worker := nextUser p queue (failed ++ events) trending }
    | .committed => (commitUser cfg s user events).map fun r =>
      { r.1 with worker := nextUser p queue failed (trending ++ r.2) }
    | .raisedAfterCommit => (commitUser cfg s user events).map fun r =>
      { r.1 with worker := nextUser p queue (failed ++ events) trending }
  | _ => none

/-- The task is cancelled: the lists of the flush it was in are gone, and the handler flushes
    what is in the buffer. -/
def stepCancel (s : State F) (p : Process) (done : Bool) : Option (State F) :=
  let handler := startFlush cfg.qualifiedReadMs { p with cancelled := true }
  if p.cancelled then none
  else match p.pc with
    | .applying ((user, events) :: _) _ _ =>
      if done then (commitUser cfg s user events).map fun r => { r.1 with worker := handler }
      else some { s with worker := handler }
    | .applying [] _ _ => none
    | .committing =>
      some { s with committed := if done then p.position else s.committed, worker := handler }
    | _ => if done then none else some { s with worker := handler }

/-- One action. -/
def step (s : State F) : Action → Option (State F)
  | .produce k record => some { s with log := Function.update s.log k (s.log k ++ [record]) }
  | .editPosts posts => some { s with store := { s.store with posts := posts } }
  | .deleteUser user => some { s with store := s.store.deleteUser user }
  | .crash => s.worker.map fun _ => { s with worker := none }
  | .restart =>
    match s.worker with
    | none => some { s with worker := some ⟨s.committed, [], .polling, false⟩ }
    | some _ => none
  | .poll batches elapsed =>
    s.worker.bind fun p =>
      match p.pc with
      | .polling => (fetch s.log batches p.position p.buffer).map fun r =>
        let p := { p with position := r.1, buffer := r.2 }
        { s with
          worker := if ready cfg.flushBatchSize elapsed p.buffer then
            startFlush cfg.qualifiedReadMs p else some { p with pc := .refreshing } }
      | _ => none
  | .applyUser outcome => s.worker.bind fun p => stepApply cfg s p outcome
  | .updateTrending =>
    s.worker.bind fun p =>
      match p.pc with
      | .trending failed => some { s with worker := endFlush p failed }
      | _ => none
  | .commit =>
    s.worker.bind fun p =>
      match p.pc with
      | .committing => some { s with
          committed := p.position
          worker := if p.cancelled then none else some { p with pc := .refreshing } }
      | _ => none
  | .commitRaises stored =>
    s.worker.bind fun p =>
      match p.pc with
      | .committing => some { s with
          committed := if stored then p.position else s.committed
          worker := none }
      | _ => none
  | .refreshed =>
    s.worker.bind fun p =>
      match p.pc with
      | .refreshing => some { s with worker := some { p with pc := .polling } }
      | _ => none
  | .cancel done => s.worker.bind fun p => stepCancel cfg s p done

end Step

end Oecophylla.Worker
