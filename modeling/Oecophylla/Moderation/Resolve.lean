import Oecophylla.Lib.Run
import Oecophylla.Lib.Sequential
import Oecophylla.Listing.Queues

namespace Oecophylla.Moderation

/-!
# Resolving a report — `moderation-service`, `resolve_report`

The handler runs a transaction that is cut into its statements.  `SELECT … FOR UPDATE OF r` waits for
the lock of the report and then reads what is committed; an `UPDATE` takes the lock of its row; what a
transaction has written is committed at once.

* `step` — one statement of one connection;
* `resolve` — the same request, done at once on the tables;
* `Sound` — what every open transaction knows;
* `resolve_linearizable` — any interleaving is one of requests that are done at once.
-/

open Listing.Queues (ReportStatus AuditAction)
open Feed (PostStatus)

/-- A UUID. -/
abbrev Uuid := Nat

/-- `ResolveAction`. -/
inductive ResolveAction where
  | dismiss
  | hidePost
  | warnAuthor
  | banAuthor
  deriving DecidableEq, Repr

/-- `Outcome`. -/
structure Outcome where
  newStatus : ReportStatus
  auditAction : AuditAction
  auditTargetType : String
  eventType : String
  deriving DecidableEq, Repr

/-- `outcome_for(action)`. -/
def outcomeFor : ResolveAction → Outcome
  | .dismiss => ⟨.resolvedOk, .reportDismissed, "report", "report_dismissed"⟩
  | .hidePost => ⟨.resolvedHidden, .postHidden, "post", "post_hidden"⟩
  | .warnAuthor => ⟨.resolvedWarned, .authorWarned, "user", "author_warned"⟩
  | .banAuthor => ⟨.resolvedWarned, .authorBanned, "user", "author_banned"⟩

/-- What the handler reads and writes of `reports`. -/
structure Report where
  id : Uuid
  postId : Uuid
  status : ReportStatus
  resolvedBy : Option Uuid
  deriving DecidableEq, Repr

/-- What the handler reads and writes of `posts`. -/
structure Post where
  id : Uuid
  authorId : Uuid
  status : PostStatus
  deriving DecidableEq, Repr

/-- What the handler writes of `users`. -/
structure User where
  id : Uuid
  isActive : Bool
  deriving DecidableEq, Repr

/-- A row of `audit_logs`, but for its id and its time. -/
structure AuditLog where
  actorId : Uuid
  action : AuditAction
  targetType : String
  targetId : Uuid
  reportId : Option Uuid
  note : Option String
  deriving DecidableEq, Repr

/-- The tables. -/
structure Tables where
  reports : List Report
  posts : List Post
  users : List User
  auditLogs : List AuditLog
  deriving DecidableEq, Repr

/-- A request of an admin, with its path and its body. -/
structure Request where
  admin : Uuid
  reportId : Uuid
  action : ResolveAction
  note : Option String
  deriving DecidableEq, Repr

/-- `LockedReport`. -/
structure LockedReport where
  id : Uuid
  status : ReportStatus
  postId : Uuid
  postAuthorId : Uuid
  deriving DecidableEq, Repr

/-! ### The statements -/

/-- `lock_report_for_resolve(tx, report_id)`. -/
def lockReportForResolve (tables : Tables) (reportId : Uuid) : Option LockedReport :=
  (tables.reports.find? fun r => r.id = reportId).bind fun r =>
    (tables.posts.find? fun p => p.id = r.postId).map fun p => ⟨r.id, r.status, r.postId, p.authorId⟩

/-- `set_report_status(tx, report_id, new_status, resolved_by)`. -/
def setReportStatus (tables : Tables) (reportId : Uuid) (newStatus : ReportStatus)
    (resolvedBy : Uuid) : Tables :=
  { tables with
    reports := tables.reports.map fun r =>
      if r.id = reportId then { r with status := newStatus, resolvedBy := some resolvedBy } else r }

/-- `hide_post(tx, post_id)`. -/
def hidePost (tables : Tables) (postId : Uuid) : Tables :=
  { tables with
    posts := tables.posts.map fun p => if p.id = postId then { p with status := .hidden } else p }

/-- `deactivate_user(tx, user_id)`. -/
def deactivateUser (tables : Tables) (userId : Uuid) : Tables :=
  { tables with
    users := tables.users.map fun u => if u.id = userId then { u with isActive := false } else u }

/-- `insert_audit_log(tx, …)`. -/
def insertAuditLog (tables : Tables) (row : AuditLog) : Tables :=
  { tables with auditLogs := tables.auditLogs ++ [row] }

/-- A statement that writes. -/
inductive Write where
  | status (reportId : Uuid) (newStatus : ReportStatus) (resolvedBy : Uuid)
  | hide (postId : Uuid)
  | deactivate (userId : Uuid)
  | audit (row : AuditLog)
  deriving DecidableEq, Repr

/-- What a statement writes. -/
def Write.apply (tables : Tables) : Write → Tables
  | .status reportId newStatus resolvedBy => setReportStatus tables reportId newStatus resolvedBy
  | .hide postId => hidePost tables postId
  | .deactivate userId => deactivateUser tables userId
  | .audit row => insertAuditLog tables row

/-- The statement of `set_report_status` in the handler. -/
def statusWrite (request : Request) (locked : LockedReport) : Write :=
  .status locked.id (outcomeFor request.action).newStatus request.admin

/-- The statement of the `match` over the action, if it has one. -/
def effectWrite (request : Request) (locked : LockedReport) : List Write :=
  match request.action with
  | .dismiss => []
  | .hidePost => [.hide locked.postId]
  | .warnAuthor => []
  | .banAuthor => [.deactivate locked.postAuthorId]

/-- `audit_target_id`. -/
def auditTargetId (request : Request) (locked : LockedReport) : Uuid :=
  match request.action with
  | .dismiss => locked.id
  | .hidePost => locked.postId
  | .warnAuthor => locked.postAuthorId
  | .banAuthor => locked.postAuthorId

/-- The row of the audit log. -/
def auditRow (request : Request) (locked : LockedReport) : AuditLog :=
  let outcome := outcomeFor request.action
  ⟨request.admin, outcome.auditAction, outcome.auditTargetType, auditTargetId request locked,
    some locked.id, request.note⟩

/-! ### The transactions -/

/-- How far a transaction is that holds the lock of its report. -/
inductive Progress where
  | locked
  | statusSet
  | effected
  | audited
  /-- The report is not pending; the rollback is next. -/
  | refused
  deriving DecidableEq, Repr

/-- How far a transaction is. -/
inductive Stage where
  | begun
  | holding (locked : LockedReport) (progress : Progress)
  deriving DecidableEq, Repr

/-- A transaction with what it has written. -/
structure Tx where
  request : Request
  stage : Stage
  writes : List Write
  deriving DecidableEq, Repr

/-- What a request is answered. -/
inductive Answer where
  | resolved (locked : LockedReport)
  | conflict
  | notFound
  deriving DecidableEq, Repr

/-- The committed tables, the open transactions of `n` connections, and the requests that were
    answered. -/
structure State (n : Nat) where
  tables : Tables
  tx : Fin n → Option Tx
  log : List (Request × Answer)

/-- One statement of a connection; `abort` ends a transaction that fails in any way. -/
inductive Action (n : Nat) where
  | begin (i : Fin n) (request : Request)
  | lock (i : Fin n)
  | setStatus (i : Fin n)
  | sideEffect (i : Fin n)
  | insertAudit (i : Fin n)
  | commit (i : Fin n)
  | rollback (i : Fin n)
  | abort (i : Fin n)
  deriving DecidableEq, Repr

/-- The report whose row a transaction has locked. -/
def Tx.lockedReport (t : Tx) : Option Uuid :=
  match t.stage with
  | .begun => none
  | .holding _ _ => some t.request.reportId

section Step

variable {n : Nat}

/-- The transaction of a connection goes on. -/
def State.set (s : State n) (i : Fin n) (t : Option Tx) : State n :=
  { s with tx := Function.update s.tx i t }

/-- A request is answered, and its transaction has ended. -/
def State.answer (s : State n) (i : Fin n) (request : Request) (answer : Answer) : State n :=
  { s.set i none with log := s.log ++ [(request, answer)] }

/-- No other transaction has the lock of the report. -/
def ReportFree (s : State n) (i : Fin n) (reportId : Uuid) : Prop :=
  ∀ j, j ≠ i → ∀ t ∈ s.tx j, t.lockedReport ≠ some reportId

instance (s : State n) (i : Fin n) (reportId : Uuid) : Decidable (ReportFree s i reportId) :=
  inferInstanceAs (Decidable (∀ j, j ≠ i → ∀ t ∈ s.tx j, _))

/-- No other transaction has written the post or the user that a statement writes. -/
def RowsFree (s : State n) (i : Fin n) (writes : List Write) : Prop :=
  ∀ j, j ≠ i → ∀ t ∈ s.tx j, ∀ w ∈ writes, w ∉ t.writes

instance (s : State n) (i : Fin n) (writes : List Write) : Decidable (RowsFree s i writes) :=
  inferInstanceAs (Decidable (∀ j, j ≠ i → ∀ t ∈ s.tx j, ∀ w ∈ writes, _))

/-- One statement; `none` when it is not the next one, has to wait, or makes the request fail. -/
def step (s : State n) : Action n → Option (State n)
  | .begin i request =>
    if (s.tx i).isNone then some (s.set i (some ⟨request, .begun, []⟩)) else none
  | .lock i =>
    match s.tx i with
    | some ⟨request, .begun, _⟩ =>
      if ReportFree s i request.reportId then
        match lockReportForResolve s.tables request.reportId with
        | none => some (s.answer i request .notFound)
        | some locked =>
          let progress := if locked.status = .pending then .locked else .refused
          some (s.set i (some ⟨request, .holding locked progress, []⟩))
      else none
    | _ => none
  | .setStatus i =>
    match s.tx i with
    | some ⟨request, .holding locked .locked, writes⟩ =>
      some (s.set i (some ⟨request, .holding locked .statusSet, writes ++ [statusWrite request locked]⟩))
    | _ => none
  | .sideEffect i =>
    match s.tx i with
    | some ⟨request, .holding locked .statusSet, writes⟩ =>
      if RowsFree s i (effectWrite request locked) then
        some (s.set i (some ⟨request, .holding locked .effected, writes ++ effectWrite request locked⟩))
      else none
    | _ => none
  | .insertAudit i =>
    match s.tx i with
    | some ⟨request, .holding locked .effected, writes⟩ =>
      some (s.set i
        (some ⟨request, .holding locked .audited, writes ++ [.audit (auditRow request locked)]⟩))
    | _ => none
  | .commit i =>
    match s.tx i with
    | some ⟨request, .holding locked .audited, writes⟩ =>
      some { s.answer i request (.resolved locked) with tables := writes.foldl Write.apply s.tables }
    | _ => none
  | .rollback i =>
    match s.tx i with
    | some ⟨request, .holding _ .refused, _⟩ => some (s.answer i request .conflict)
    | _ => none
  | .abort i => if (s.tx i).isSome then some (s.set i none) else none

end Step

/-! ### Requests that are done at once -/

/-- The tables after a resolution: the report is resolved by the admin, its post is hidden or the
    author of the post is banned or neither, and the audit log has one more row. -/
def Tables.resolved (tables : Tables) (request : Request) (locked : LockedReport) : Tables where
  reports := tables.reports.map fun r =>
    if r.id = request.reportId then
      { r with status := (outcomeFor request.action).newStatus, resolvedBy := some request.admin }
    else r
  posts := tables.posts.map fun p =>
    if request.action = .hidePost ∧ p.id = locked.postId then { p with status := .hidden } else p
  users := tables.users.map fun u =>
    if request.action = .banAuthor ∧ u.id = locked.postAuthorId then { u with isActive := false } else u
  auditLogs := tables.auditLogs ++ [auditRow request locked]

/-- The same request, done at once: a report that is not there or not pending changes nothing. -/
def resolve (tables : Tables) (request : Request) : Answer × Tables :=
  match lockReportForResolve tables request.reportId with
  | none => (.notFound, tables)
  | some locked =>
    if locked.status = .pending then (.resolved locked, tables.resolved request locked)
    else (.conflict, tables)

/-- The statements of a transaction so far. -/
def writesAt (request : Request) (locked : LockedReport) : Progress → List Write
  | .locked => []
  | .statusSet => [statusWrite request locked]
  | .effected => [statusWrite request locked] ++ effectWrite request locked
  | .audited => [statusWrite request locked] ++ effectWrite request locked
    ++ [.audit (auditRow request locked)]
  | .refused => []

section Tables

variable {tables : Tables} {request : Request} {locked : LockedReport} {reportId : Uuid}

/-- The report that is locked is the one that is asked for. -/
theorem id_of_lock (h : lockReportForResolve tables reportId = some locked) : locked.id = reportId := by
  obtain ⟨r, hr, hlocked⟩ := Option.bind_eq_some_iff.mp h
  obtain ⟨p, -, rfl⟩ := Option.map_eq_some_iff.mp hlocked
  simpa using List.find?_some hr

/-- **The transaction writes what the request does at once.** -/
theorem foldl_writes (hid : locked.id = request.reportId) :
    (writesAt request locked .audited).foldl Write.apply tables = tables.resolved request locked := by
  obtain ⟨admin, reportId, action, note⟩ := request
  subst hid
  cases action with
  | dismiss =>
    simp [writesAt, effectWrite, statusWrite, Write.apply, setReportStatus, insertAuditLog,
      Tables.resolved]
  | hidePost =>
    simp [writesAt, effectWrite, statusWrite, Write.apply, setReportStatus, insertAuditLog, hidePost,
      Tables.resolved]
  | warnAuthor =>
    simp [writesAt, effectWrite, statusWrite, Write.apply, setReportStatus, insertAuditLog,
      Tables.resolved]
  | banAuthor =>
    simp [writesAt, effectWrite, statusWrite, Write.apply, setReportStatus, insertAuditLog,
      deactivateUser, Tables.resolved]

/-- A row that is found by its key, in a table whose rows keep their keys. -/
theorem find?_map_key {ρ : Type} (key : ρ → Uuid) (f : ρ → ρ) (hf : ∀ r, key (f r) = key r)
    (rows : List ρ) (id : Uuid) :
    (rows.map f).find? (fun r => key r = id) = (rows.find? fun r => key r = id).map f := by
  have hkey : (fun r => decide (key r = id)) ∘ f = fun r => decide (key r = id) := by
    funext r
    show decide (key (f r) = id) = decide (key r = id)
    rw [hf]
  rw [List.find?_map, hkey]

/-- Resolving another report leaves what the lock reads. -/
theorem lock_resolved (hne : reportId ≠ request.reportId) :
    lockReportForResolve (tables.resolved request locked) reportId
      = lockReportForResolve tables reportId := by
  have hreport : (tables.resolved request locked).reports.find? (fun r => r.id = reportId)
      = tables.reports.find? fun r => r.id = reportId := by
    have hmap := find?_map_key Report.id (fun r => if r.id = request.reportId then
      { r with status := (outcomeFor request.action).newStatus, resolvedBy := some request.admin } else r)
      (fun r => by split <;> rfl) tables.reports reportId
    refine hmap.trans ?_
    cases hfind : tables.reports.find? fun r => r.id = reportId with
    | none => rfl
    | some r =>
      have hid : r.id = reportId := by simpa using List.find?_some hfind
      show some (if r.id = request.reportId then _ else r) = some r
      rw [if_neg (hid ▸ hne)]
  have hpost (postId : Uuid) : (tables.resolved request locked).posts.find? (fun p => p.id = postId)
      = (tables.posts.find? fun p => p.id = postId).map fun p =>
        if request.action = .hidePost ∧ p.id = locked.postId then { p with status := .hidden } else p :=
    find?_map_key Post.id _ (fun p => by split <;> rfl) tables.posts postId
  unfold lockReportForResolve
  rw [hreport]
  congr 1
  funext r
  rw [hpost, Option.map_map]
  congr 1
  funext p
  show (⟨r.id, r.status, r.postId, (if _ then _ else p).authorId⟩ : LockedReport) = _
  split
  · rfl
  · rfl

end Tables

/-! ### What every open transaction knows -/

section Invariant

variable {n : Nat} {s t : State n} {start : Tables}

/-- What a transaction knows that holds the lock of its report: the row, whether it is pending, and
    what it has written so far. -/
structure Knows (tables : Tables) (request : Request) (locked : LockedReport) (progress : Progress)
    (writes : List Write) : Prop where
  row : lockReportForResolve tables request.reportId = some locked
  pending : locked.status = .pending ↔ progress ≠ .refused
  written : writes = writesAt request locked progress

/-- The invariant. -/
structure Sound (start : Tables) (s : State n) : Prop where
  explained : Lib.Explained resolve start s.log s.tables
  knows : ∀ i, ∀ t ∈ s.tx i, ∀ locked progress, t.stage = .holding locked progress →
    Knows s.tables t.request locked progress t.writes
  exclusive : ∀ i j, ∀ t ∈ s.tx i, ∀ u ∈ s.tx j, ∀ reportId, t.lockedReport = some reportId →
    u.lockedReport = some reportId → i = j

/-- Whose transaction is open after one connection went on. -/
theorem mem_set {i j : Fin n} {u : Tx} {v : Option Tx} :
    u ∈ (s.set i v).tx j ↔ j = i ∧ u ∈ v ∨ j ≠ i ∧ u ∈ s.tx j := by
  by_cases hij : j = i
  · subst hij
    simp [State.set]
  · simp [State.set, hij]

/-- A connection goes on with a transaction that knows its report. -/
theorem Sound.set (h : Sound start s) {i : Fin n} {v : Option Tx}
    (hknows : ∀ u ∈ v, ∀ locked progress, u.stage = .holding locked progress →
      Knows s.tables u.request locked progress u.writes)
    (hfree : ∀ u ∈ v, ∀ reportId, u.lockedReport = some reportId → ReportFree s i reportId) :
    Sound start (s.set i v) := by
  refine ⟨h.explained, fun j u hu => ?_, fun j k u hu w hw reportId hulock hwlock => ?_⟩
  · rcases mem_set.mp hu with ⟨-, hnew⟩ | ⟨-, hold⟩
    · exact hknows u hnew
    · exact h.knows j u hold
  · rcases mem_set.mp hu with ⟨rfl, hunew⟩ | ⟨hj, huold⟩
    · rcases mem_set.mp hw with ⟨rfl, -⟩ | ⟨hk, hwold⟩
      · rfl
      · exact absurd hwlock (hfree u hunew reportId hulock k hk w hwold)
    · rcases mem_set.mp hw with ⟨rfl, hwnew⟩ | ⟨hk, hwold⟩
      · exact absurd hulock (hfree w hwnew reportId hwlock j hj u huold)
      · exact h.exclusive j k u huold w hwold reportId hulock hwlock

/-- The transaction that holds a lock keeps the others out. -/
theorem Sound.free (h : Sound start s) {i : Fin n} {u : Tx} (hu : u ∈ s.tx i) {reportId : Uuid}
    (hlock : u.lockedReport = some reportId) : ReportFree s i reportId :=
  fun j hj w hw hwlock => hj (h.exclusive j i w hw u hu reportId hwlock hlock)

/-- A transaction that holds its lock goes on to the next statement. -/
theorem Sound.advance (h : Sound start s) {i : Fin n} {request : Request} {locked : LockedReport}
    {progress progress' : Progress} {writes writes' : List Write}
    (hi : s.tx i = some ⟨request, .holding locked progress, writes⟩)
    (hwin : progress ≠ .refused) (hwin' : progress' ≠ .refused)
    (hwrites : writesAt request locked progress' = writesAt request locked progress ++ writes') :
    Sound start (s.set i (some ⟨request, .holding locked progress', writes ++ writes'⟩)) := by
  have hknows := h.knows i _ hi locked progress rfl
  refine h.set ?_ ?_
  · rintro u ⟨⟩ locked' progress'' ⟨⟩
    refine ⟨hknows.row, iff_of_true (hknows.pending.mpr hwin) hwin', ?_⟩
    rw [hwrites, ← hknows.written]
  · rintro u ⟨⟩ reportId hlock
    exact h.free hi hlock

/-- A request is answered as when it is done at once. -/
theorem Sound.answer (h : Sound start s) {i : Fin n} {request : Request} {answer : Answer}
    {tables : Tables} (hresolve : resolve s.tables request = (answer, tables))
    (hkept : ∀ j, j ≠ i → ∀ u ∈ s.tx j, ∀ locked progress, u.stage = .holding locked progress →
      lockReportForResolve tables u.request.reportId
        = lockReportForResolve s.tables u.request.reportId) :
    Sound start { s.answer i request answer with tables := tables } := by
  refine ⟨h.explained.snoc hresolve, fun j u hu => ?_, fun j k u hu w hw => ?_⟩
  · rcases mem_set.mp hu with ⟨-, hnone⟩ | ⟨hj, hold⟩
    · cases hnone
    · intro locked progress hstage
      have hknows := h.knows j u hold locked progress hstage
      exact ⟨(hkept j hj u hold locked progress hstage).trans hknows.row, hknows.pending, hknows.written⟩
  · rcases mem_set.mp hu with ⟨-, hnone⟩ | ⟨-, huold⟩
    · cases hnone
    · rcases mem_set.mp hw with ⟨-, hnone⟩ | ⟨-, hwold⟩
      · cases hnone
      · exact h.exclusive j k u huold w hwold

/-- What a statement can do: the one place where all statements are looked at. -/
inductive Moves (s : State n) : State n → Prop where
  | begin (i : Fin n) (request : Request) : Moves s (s.set i (some ⟨request, .begun, []⟩))
  | missing (i : Fin n) (request : Request) (hrow : lockReportForResolve s.tables request.reportId = none) :
    Moves s (s.answer i request .notFound)
  | lock (i : Fin n) (request : Request) (locked : LockedReport) (hfree : ReportFree s i request.reportId)
    (hrow : lockReportForResolve s.tables request.reportId = some locked) :
    Moves s (s.set i (some ⟨request,
      .holding locked (if locked.status = .pending then .locked else .refused), []⟩))
  | advance (i : Fin n) (request : Request) (locked : LockedReport) (progress progress' : Progress)
    (writes writes' : List Write) (hi : s.tx i = some ⟨request, .holding locked progress, writes⟩)
    (hwin : progress ≠ .refused) (hwin' : progress' ≠ .refused)
    (hwrites : writesAt request locked progress' = writesAt request locked progress ++ writes') :
    Moves s (s.set i (some ⟨request, .holding locked progress', writes ++ writes'⟩))
  | commit (i : Fin n) (request : Request) (locked : LockedReport) (writes : List Write)
    (hi : s.tx i = some ⟨request, .holding locked .audited, writes⟩) :
    Moves s { s.answer i request (.resolved locked) with tables := writes.foldl Write.apply s.tables }
  | refuse (i : Fin n) (request : Request) (locked : LockedReport) (writes : List Write)
    (hi : s.tx i = some ⟨request, .holding locked .refused, writes⟩) :
    Moves s (s.answer i request .conflict)
  | abort (i : Fin n) : Moves s (s.set i none)

theorem moves_of_step {a : Action n} (ht : step s a = some t) : Moves s t := by
  cases a with
  | begin i request =>
    unfold step at ht
    dsimp only at ht
    split at ht
    · rw [← Option.some.inj ht]
      exact .begin i request
    · cases ht
  | lock i =>
    unfold step at ht
    dsimp only at ht
    split at ht
    · next request writes hi =>
      split at ht
      · next hfree =>
        split at ht
        · next hrow =>
          rw [← Option.some.inj ht]
          exact .missing i request hrow
        · next locked hrow =>
          rw [← Option.some.inj ht]
          exact .lock i request locked hfree hrow
      · cases ht
    · cases ht
  | setStatus i =>
    unfold step at ht
    dsimp only at ht
    split at ht
    · next request locked writes hi =>
      rw [← Option.some.inj ht]
      exact .advance i request locked .locked .statusSet writes _ hi nofun nofun rfl
    · cases ht
  | sideEffect i =>
    unfold step at ht
    dsimp only at ht
    split at ht
    · next request locked writes hi =>
      split at ht
      · rw [← Option.some.inj ht]
        exact .advance i request locked .statusSet .effected writes _ hi nofun nofun rfl
      · cases ht
    · cases ht
  | insertAudit i =>
    unfold step at ht
    dsimp only at ht
    split at ht
    · next request locked writes hi =>
      rw [← Option.some.inj ht]
      exact .advance i request locked .effected .audited writes _ hi nofun nofun rfl
    · cases ht
  | commit i =>
    unfold step at ht
    dsimp only at ht
    split at ht
    · next request locked writes hi =>
      rw [← Option.some.inj ht]
      exact .commit i request locked writes hi
    · cases ht
  | rollback i =>
    unfold step at ht
    dsimp only at ht
    split at ht
    · next request locked writes hi =>
      rw [← Option.some.inj ht]
      exact .refuse i request locked writes hi
    · cases ht
  | abort i =>
    unfold step at ht
    dsimp only at ht
    split at ht
    · rw [← Option.some.inj ht]
      exact .abort i
    · cases ht

/-- What a commit does is what the request does at once. -/
theorem Sound.resolve_commit (h : Sound start s) {i : Fin n} {request : Request} {locked : LockedReport}
    {writes : List Write} (hi : s.tx i = some ⟨request, .holding locked .audited, writes⟩) :
    lockReportForResolve s.tables request.reportId = some locked ∧ locked.status = .pending
      ∧ writes.foldl Write.apply s.tables = s.tables.resolved request locked := by
  obtain ⟨hrow, hpending, hwritten⟩ := h.knows i _ hi locked .audited rfl
  refine ⟨hrow, hpending.mpr nofun, ?_⟩
  have hwrites : writes = writesAt request locked .audited := hwritten
  rw [hwrites]
  exact foldl_writes (id_of_lock hrow)

/-- **Every statement** leaves the transactions knowing their reports, and answers as if the request
    were done at once. -/
theorem sound_step {a : Action n} (h : Sound start s) (ht : step s a = some t) : Sound start t := by
  cases moves_of_step ht with
  | begin i request =>
    refine h.set ?_ ?_
    · rintro u ⟨⟩ locked progress hstage
      cases hstage
    · rintro u ⟨⟩ reportId hlock
      cases hlock
  | missing i request hrow =>
    have hresolve : resolve s.tables request = (.notFound, s.tables) := by
      unfold resolve
      rw [hrow]
    exact h.answer hresolve fun _ _ _ _ _ _ _ => rfl
  | lock i request locked hfree hrow =>
    refine h.set ?_ ?_
    · rintro u ⟨⟩ locked' progress ⟨⟩
      refine ⟨hrow, ?_, ?_⟩
      · split
        · next hpending => exact iff_of_true hpending nofun
        · next hresolved => exact iff_of_false hresolved fun hne => hne rfl
      · split
        · rfl
        · rfl
    · rintro u ⟨⟩ reportId ⟨⟩
      exact hfree
  | advance i request locked progress progress' writes writes' hi hwin hwin' hwrites =>
    exact h.advance hi hwin hwin' hwrites
  | commit i request locked writes hi =>
    obtain ⟨hrow, hpending, hwritten⟩ := h.resolve_commit hi
    have hresolve : resolve s.tables request = (.resolved locked, writes.foldl Write.apply s.tables) := by
      unfold resolve
      rw [hrow, hwritten]
      exact if_pos hpending
    refine h.answer hresolve fun j hj u hu locked' progress hstage => ?_
    rw [hwritten]
    apply lock_resolved
    -- the other transaction has locked another report
    intro heq
    have hlock : u.lockedReport = some u.request.reportId := by
      unfold Tx.lockedReport
      rw [hstage]
    exact h.free hi rfl j hj u hu (hlock.trans (congrArg some heq))
  | refuse i request locked writes hi =>
    have hknows := h.knows i _ hi locked .refused rfl
    have hresolve : resolve s.tables request = (.conflict, s.tables) := by
      unfold resolve
      rw [hknows.row]
      exact if_neg fun hpending => hknows.pending.mp hpending rfl
    exact h.answer hresolve fun _ _ _ _ _ _ _ => rfl
  | abort i => exact h.set nofun nofun

/-- What a statement does to the tables: nothing, or all of a resolution of a report that is pending. -/
theorem tables_step {a : Action n} (h : Sound start s) (ht : step s a = some t) :
    t.log = s.log ∧ t.tables = s.tables
      ∨ (∃ request locked, lockReportForResolve s.tables request.reportId = some locked
        ∧ locked.status = .pending ∧ t.log = s.log ++ [(request, .resolved locked)]
        ∧ t.tables = s.tables.resolved request locked)
      ∨ ∃ request answer, (answer = .conflict ∨ answer = .notFound)
        ∧ t.log = s.log ++ [(request, answer)] ∧ t.tables = s.tables := by
  cases moves_of_step ht with
  | begin i request => exact Or.inl ⟨rfl, rfl⟩
  | missing i request hrow => exact Or.inr (Or.inr ⟨request, .notFound, Or.inr rfl, rfl, rfl⟩)
  | lock i request locked hfree hrow => exact Or.inl ⟨rfl, rfl⟩
  | advance i request locked progress progress' writes writes' hi hwin hwin' hwrites =>
    exact Or.inl ⟨rfl, rfl⟩
  | commit i request locked writes hi =>
    obtain ⟨hrow, hpending, hwritten⟩ := h.resolve_commit hi
    exact Or.inr (Or.inl ⟨request, locked, hrow, hpending, rfl, hwritten⟩)
  | refuse i request locked writes hi =>
    exact Or.inr (Or.inr ⟨request, .conflict, Or.inl rfl, rfl, rfl⟩)
  | abort i => exact Or.inl ⟨rfl, rfl⟩

end Invariant

/-! ### Histories of resolutions -/

section History

variable {tables tables' : Tables} {log : List (Request × Answer)}

/-- No outcome leaves a report pending. -/
theorem newStatus_ne_pending (action : ResolveAction) : (outcomeFor action).newStatus ≠ .pending := by
  cases action with
  | _ => exact nofun

/-- A report that was resolved is not pending. -/
theorem status_resolved {request : Request} {locked locked' : LockedReport}
    (h : lockReportForResolve (tables.resolved request locked) request.reportId = some locked') :
    locked'.status ≠ .pending := by
  obtain ⟨r, hr, hlocked⟩ := Option.bind_eq_some_iff.mp h
  obtain ⟨p, -, rfl⟩ := Option.map_eq_some_iff.mp hlocked
  have hid : r.id = request.reportId := by simpa using List.find?_some hr
  obtain ⟨r₀, -, rfl⟩ := List.mem_map.mp (List.mem_of_find?_eq_some hr)
  show (if r₀.id = request.reportId then _ else r₀ : Report).status ≠ _
  by_cases hr₀ : r₀.id = request.reportId
  · rw [if_pos hr₀]
    exact newStatus_ne_pending request.action
  · rw [if_neg hr₀] at hid
    exact absurd hid hr₀

/-- What a request that is done at once does. -/
theorem resolve_cases (tables : Tables) (request : Request) :
    (resolve tables request).2 = tables ∧ (∀ locked, (resolve tables request).1 ≠ .resolved locked)
      ∨ ∃ locked, lockReportForResolve tables request.reportId = some locked ∧ locked.status = .pending
        ∧ resolve tables request = (.resolved locked, tables.resolved request locked) := by
  unfold resolve
  cases hrow : lockReportForResolve tables request.reportId with
  | none => exact Or.inl ⟨rfl, nofun⟩
  | some locked =>
    by_cases hpending : locked.status = .pending
    · exact Or.inr ⟨locked, rfl, hpending, if_pos hpending⟩
    · simp [hpending]

/-- The reports of a history are resolved once each. -/
theorem once_of_explained (h : Lib.Explained resolve tables log tables') :
    log.Pairwise fun e e' => ∀ locked locked', e.2 = .resolved locked → e'.2 = .resolved locked' →
      e.1.reportId ≠ e'.1.reportId := by
  -- a report that was resolved is not pending from then on
  refine h.pairwise (P := fun e tables => ∀ locked, e.2 = .resolved locked →
    ∀ row, lockReportForResolve tables e.1.reportId = some row → row.status ≠ .pending) ?_ ?_ ?_
  · intro tables request locked hresolved row hrow
    rcases resolve_cases tables request with ⟨-, hnone⟩ | ⟨locked', -, -, hresolve⟩
    · exact absurd hresolved (hnone locked)
    · rw [hresolve] at hrow
      exact status_resolved hrow
  · intro e tables request hknown locked hresolved row hrow
    rcases resolve_cases tables request with ⟨hsame, -⟩ | ⟨locked', hlocked', hpending, hresolve⟩
    · rw [hsame] at hrow
      exact hknown locked hresolved row hrow
    · rw [hresolve] at hrow
      have hne : e.1.reportId ≠ request.reportId := fun heq =>
        hknown locked hresolved locked' (heq ▸ hlocked') hpending
      rw [lock_resolved hne] at hrow
      exact hknown locked hresolved row hrow
  · intro e tables request hknown locked locked' hresolved hresolved' heq
    rcases resolve_cases tables request with ⟨-, hnone⟩ | ⟨locked'', hlocked'', hpending, -⟩
    · exact hnone locked' hresolved'
    · exact hknown locked hresolved locked'' (heq ▸ hlocked'') hpending

/-- The resolutions of a history. -/
def resolutions (log : List (Request × Answer)) : List (Request × LockedReport) :=
  log.filterMap fun e => match e.2 with
    | .resolved locked => some (e.1, locked)
    | .conflict => none
    | .notFound => none

/-- The audit log has a row for every resolution. -/
theorem auditLogs_explained (h : Lib.Explained resolve tables log tables') :
    tables'.auditLogs = tables.auditLogs ++ (resolutions log).map fun e => auditRow e.1 e.2 := by
  induction log generalizing tables with
  | nil =>
    have hsame : tables' = tables := h
    rw [hsame]
    exact (List.append_nil _).symm
  | cons e log ih =>
    obtain ⟨request, answer⟩ := e
    obtain ⟨rfl, hrest⟩ := h
    rw [ih hrest]
    rcases resolve_cases tables request with ⟨hsame, hnone⟩ | ⟨locked, -, -, hresolve⟩
    · have hskip : resolutions ((request, (resolve tables request).1) :: log) = resolutions log := by
        unfold resolutions
        cases hanswer : (resolve tables request).1 with
        | resolved locked => exact absurd hanswer (hnone locked)
        | conflict => rfl
        | notFound => rfl
      rw [hskip, hsame]
    · rw [hresolve]
      show (tables.auditLogs ++ [auditRow request locked]) ++ _ = _
      rw [List.append_assoc]
      rfl

end History

/-- **Resolution is linearizable.**  Over every interleaving of any requests, the tables and the answers
    are those of the same requests done at once, one after the other; no report is resolved twice; every
    resolution has one row in the audit log; and each statement does nothing to the tables, or all of a
    resolution of a report that is pending, or answers a request and leaves every table as it is. -/
theorem resolve_linearizable {n : Nat} (s₀ : State n) (hidle : ∀ i, s₀.tx i = none) (hlog : s₀.log = [])
    {as : List (Action n)} {s : State n} (hrun : Lib.run step s₀ as = some s) :
    Lib.Explained resolve s₀.tables s.log s.tables
      ∧ (s.log.Pairwise fun e e' => ∀ locked locked', e.2 = .resolved locked → e'.2 = .resolved locked' →
        e.1.reportId ≠ e'.1.reportId)
      ∧ s.tables.auditLogs
        = s₀.tables.auditLogs ++ (resolutions s.log).map (fun e => auditRow e.1 e.2)
      ∧ ∀ before a after u v, as = before ++ a :: after → Lib.run step s₀ before = some u →
        step u a = some v →
        v.log = u.log ∧ v.tables = u.tables
          ∨ (∃ request locked, lockReportForResolve u.tables request.reportId = some locked
            ∧ locked.status = .pending ∧ v.log = u.log ++ [(request, .resolved locked)]
            ∧ v.tables = u.tables.resolved request locked)
          ∨ ∃ request answer, (answer = .conflict ∨ answer = .notFound)
            ∧ v.log = u.log ++ [(request, answer)] ∧ v.tables = u.tables := by
  have hstart : Sound s₀.tables s₀ := by
    refine ⟨?_, fun i t ht => ?_, fun i j t ht => ?_⟩
    · rw [hlog]
      rfl
    · rw [hidle i] at ht
      cases ht
    · rw [hidle i] at ht
      cases ht
  have hsound {as : List (Action n)} {s : State n} (hrun : Lib.run step s₀ as = some s) :
      Sound s₀.tables s := Lib.run_invariant (fun _ _ _ h ht => sound_step h ht) hstart hrun
  have hexplained := (hsound hrun).explained
  refine ⟨hexplained, once_of_explained hexplained, auditLogs_explained hexplained, ?_⟩
  intro before a after u v _ hbefore hv
  exact tables_step (hsound hbefore) hv

/-- Two admins find the same report; the one who is late waits for the other. -/
def twoAdmins : List (Action 2) :=
  [.begin 0 ⟨1, 10, .hidePost, none⟩, .begin 1 ⟨2, 10, .banAuthor, some "spam"⟩, .lock 0, .setStatus 0,
    .sideEffect 0, .insertAudit 0, .commit 0, .lock 1, .rollback 1]

theorem resolve_two_admins :
    ∃ s : State 2, Lib.run step ⟨⟨[⟨10, 20, .pending, none⟩], [⟨20, 30, .published⟩], [⟨30, true⟩], []⟩,
        fun _ => none, []⟩ twoAdmins = some s
      ∧ s.tables = ⟨[⟨10, 20, .resolvedHidden, some 1⟩], [⟨20, 30, .hidden⟩], [⟨30, true⟩],
        [⟨1, .postHidden, "post", 20, some 10, none⟩]⟩
      ∧ s.log.length = 2
      ∧ (s.log.Pairwise fun e e' => ∀ locked locked', e.2 = .resolved locked → e'.2 = .resolved locked' →
        e.1.reportId ≠ e'.1.reportId) := by
  have hrun : ∃ s : State 2, Lib.run step ⟨⟨[⟨10, 20, .pending, none⟩], [⟨20, 30, .published⟩],
        [⟨30, true⟩], []⟩, fun _ => none, []⟩ twoAdmins = some s
      ∧ s.tables = ⟨[⟨10, 20, .resolvedHidden, some 1⟩], [⟨20, 30, .hidden⟩], [⟨30, true⟩],
        [⟨1, .postHidden, "post", 20, some 10, none⟩]⟩
      ∧ s.log.length = 2 := ⟨_, rfl, rfl, rfl⟩
  obtain ⟨s, hs, htables, hlength⟩ := hrun
  exact ⟨s, hs, htables, hlength, (resolve_linearizable _ (fun _ => rfl) rfl hs).2.1⟩

end Oecophylla.Moderation
