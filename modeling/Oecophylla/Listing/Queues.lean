import Oecophylla.Json
import Oecophylla.Lib.Slices
import Oecophylla.Listing.Handlers

namespace Oecophylla.Listing.Queues

open Feed (Uuid Crates)
open Lib (Below Enumerates OrderedKeyset behind latestFirst stableSort)

/-!
# Lists by time and id (`notification-service`, `moderation-service`)

The notifications of a user, the reports and the audit log.  All three are read with
`ORDER BY created_at DESC, id DESC` and a cursor of both; no two rows share both.

* `listNotifications`, `listReports`, `listAuditLogs` — the handlers with their queries.  The first
  one returns a next cursor with a full page, the others ask for one row more than they show;
* `orderedKeyset_listNotifications`, … — each goes on behind the last row of a page;
* `enumerates_lists` — a reader of any of them sees every matching row exactly once, in order.
-/

/-! ### The tables -/

/-- `notification_kind`. -/
inductive NotificationKind where
  | liked
  | commented
  | replied
  | followed
  | postHidden
  | authorWarned
  | authorBanned
  deriving DecidableEq, Repr

/-- `kind::text`. -/
def NotificationKind.text : NotificationKind → String
  | .liked => "liked"
  | .commented => "commented"
  | .replied => "replied"
  | .followed => "followed"
  | .postHidden => "post_hidden"
  | .authorWarned => "author_warned"
  | .authorBanned => "author_banned"

/-- A row of `notifications`; the times are in microseconds. -/
structure Notification where
  id : Uuid
  userId : Uuid
  kind : NotificationKind
  actorId : Option Uuid
  postId : Option Uuid
  commentId : Option Uuid
  payload : Json
  readAt : Option Int
  createdAt : Int

/-- `report_status`. -/
inductive ReportStatus where
  | pending
  | resolvedHidden
  | resolvedOk
  | resolvedWarned
  deriving DecidableEq, Repr

/-- `status::text`. -/
def ReportStatus.text : ReportStatus → String
  | .pending => "pending"
  | .resolvedHidden => "resolved_hidden"
  | .resolvedOk => "resolved_ok"
  | .resolvedWarned => "resolved_warned"

/-- A row of `reports`. -/
structure Report where
  id : Uuid
  reporterId : Option Uuid
  postId : Uuid
  reason : String
  detail : Option String
  status : ReportStatus
  createdAt : Int
  deriving DecidableEq, Repr

/-- `audit_action`. -/
inductive AuditAction where
  | reportDismissed
  | postHidden
  | postUnhidden
  | authorWarned
  | authorBanned
  | authorUnbanned
  deriving DecidableEq, Repr

/-- `action::text`. -/
def AuditAction.text : AuditAction → String
  | .reportDismissed => "report_dismissed"
  | .postHidden => "post_hidden"
  | .postUnhidden => "post_unhidden"
  | .authorWarned => "author_warned"
  | .authorBanned => "author_banned"
  | .authorUnbanned => "author_unbanned"

/-- A row of `audit_logs`. -/
structure AuditLog where
  id : Uuid
  actorId : Uuid
  action : AuditAction
  targetType : String
  targetId : Uuid
  reportId : Option Uuid
  note : Option String
  createdAt : Int
  deriving DecidableEq, Repr

/-- What the lists read of `users`. -/
structure User where
  id : Uuid
  username : String
  displayName : Option String
  avatarUrl : Option String
  deriving DecidableEq, Repr

/-- What the lists read of `posts`. -/
structure Post where
  id : Uuid
  content : String
  deriving DecidableEq, Repr

/-- The tables, with their primary keys. -/
structure Database where
  users : List User
  posts : List Post
  notifications : List Notification
  reports : List Report
  auditLogs : List AuditLog
  usersKey : (users.map User.id).Nodup
  postsKey : (posts.map Post.id).Nodup
  notificationsKey : (notifications.map Notification.id).Nodup
  reportsKey : (reports.map Report.id).Nodup
  auditLogsKey : (auditLogs.map AuditLog.id).Nodup

/-- `AppError::Other`: the database refuses the text of a filter. -/
inductive AppError where
  | other
  deriving DecidableEq, Repr

/-! ### Queries -/

section Query

variable {α β : Type}

/-- `LEFT JOIN … ON on`: a row without a match is kept, with nulls. -/
def leftJoin (rows : List β) (on : β → Bool) : List (Option β) :=
  match rows.filter on with
  | [] => [none]
  | b :: bs => (b :: bs).map some

/-- `LEFT(content, length)`. -/
def left (length : Nat) (content : String) : String := String.ofList (content.toList.take length)

/-- `(created_at, id)`, as the database compares rows. -/
def position (createdAt : α → Int) (id : α → Uuid) (r : α) : Lex (Int × Uuid) :=
  toLex (createdAt r, id r)

/-- `WHERE (created_at, id) < cursor ORDER BY created_at DESC, id DESC LIMIT limit`; the first page
    has no cursor. -/
def page (createdAt : α → Int) (id : α → Uuid) (rows : List α) (cursor : Option (Int × Uuid))
    (limit : Nat) : List α :=
  (stableSort (latestFirst (position createdAt id))
    (rows.filter fun r => ∀ c ∈ cursor, Below createdAt id c r)).take limit

end Query

variable (lib : Crates) (b64 : Base64) (db : Database)

/-! ### Cursors (`cursor.rs`, alike in all services that have one) -/

/-- `cursor::encode(created_at, id)`. -/
def encode (createdAt : Int) (id : Uuid) : String :=
  b64.encode (lib.toRfc3339 createdAt ++ "|" ++ lib.uuidText id)

/-- `cursor::decode(s)`. -/
def decode (s : String) : Option (Int × Uuid) :=
  (b64.decode s).bind fun raw => Feed.parseFollowingCursor lib (some raw)

/-! ### Notifications -/

/-- `ActorDto`. -/
structure ActorDto where
  id : Uuid
  username : String
  displayName : Option String
  avatarUrl : Option String
  deriving DecidableEq, Repr

/-- `PostSnippet`. -/
structure PostSnippet where
  id : Uuid
  snippet : String
  deriving DecidableEq, Repr

/-- `NotificationDto`. -/
structure NotificationDto where
  id : Uuid
  kind : String
  actor : Option ActorDto
  post : Option PostSnippet
  commentId : Option Uuid
  payload : Json
  read : Bool
  createdAt : Int

/-- `ListQuery`; the default limit is 20. -/
structure ListQuery where
  cursor : Option String
  limit : Int := 20
  unreadOnly : Bool := false
  deriving DecidableEq, Repr

/-- `NotificationListResponse`. -/
structure NotificationListResponse where
  items : List NotificationDto
  nextCursor : Option String

/-- `map_row`, of a notification with the user and the post joined to it. -/
def mapRow (n : Notification) (u : Option User) (p : Option Post) : NotificationDto where
  id := n.id
  kind := n.kind.text
  -- both ids and both texts must be there
  actor := n.actorId.bind fun id => u.map fun u => ⟨id, u.username, u.displayName, u.avatarUrl⟩
  post := n.postId.bind fun id => p.map fun p => ⟨id, left 100 p.content⟩
  commentId := n.commentId
  payload := n.payload
  read := n.readAt.isSome
  createdAt := n.createdAt

/-- `WHERE n.user_id = $1`, with `AND n.read_at IS NULL` for the unread ones. -/
def Database.matchingNotifications (userId : Uuid) (unreadOnly : Bool) : List Notification :=
  db.notifications.filter fun n => n.userId = userId ∧ (unreadOnly = true → n.readAt = none)

/-- `FROM notifications n LEFT JOIN users u ON u.id = n.actor_id
    LEFT JOIN posts p ON p.id = n.post_id`. -/
def Database.notificationRows (userId : Uuid) (unreadOnly : Bool) : List NotificationDto :=
  (db.matchingNotifications userId unreadOnly).flatMap fun n =>
    (leftJoin db.users fun u => n.actorId = some u.id).flatMap fun u =>
      (leftJoin db.posts fun p => n.postId = some p.id).map fun p => mapRow n u p

/-- `repo::list`. -/
def Database.list (userId : Uuid) (cursor : Option (Int × Uuid)) (limit : Nat) (unreadOnly : Bool) :
    List NotificationDto :=
  page NotificationDto.createdAt NotificationDto.id (db.notificationRows userId unreadOnly) cursor
    limit

/-- `list_notifications`. -/
def listNotifications (user : Uuid) (q : ListQuery) : NotificationListResponse :=
  let cursorPair := q.cursor.bind (decode lib b64)
  let limit := (min (max q.limit 1) 100).toNat
  let items := db.list user cursorPair limit q.unreadOnly
  let nextCursor :=
    if items.length = limit then items.getLast?.map fun n => encode lib b64 n.createdAt n.id
    else none
  ⟨items, nextCursor⟩

/-! ### Reports -/

/-- `clamp_limit(raw)`, with `DEFAULT_LIMIT` and `MAX_LIMIT`. -/
def clampLimit (raw : Option Nat) : Nat := min (max (raw.getD 20) 1) 100

/-- One row more than the page shows tells that there is a next page: the row is dropped, and the
    cursor is that of the last row that stays. -/
def popExtra {α : Type} (encode : α → String) (limit : Nat) (items : List α) :
    List α × Option String :=
  if limit < items.length then (items.dropLast, items.dropLast.getLast?.map encode)
  else (items, none)

/-- `ReportListItem`. -/
structure ReportListItem where
  id : Uuid
  reporterId : Option Uuid
  reporterUsername : Option String
  postId : Uuid
  postSnippet : Option String
  reason : String
  detail : Option String
  status : String
  createdAt : Int
  deriving DecidableEq, Repr

/-- `ReportListQuery`. -/
structure ReportListQuery where
  status : Option String
  cursor : Option String
  limit : Option Nat
  deriving DecidableEq, Repr

/-- `ReportListResponse`. -/
structure ReportListResponse where
  items : List ReportListItem
  nextCursor : Option String
  deriving DecidableEq, Repr

/-- `map_report_list_row`. -/
def mapReportListRow (r : Report) (u : Option User) (p : Option Post) : ReportListItem where
  id := r.id
  reporterId := r.reporterId
  reporterUsername := u.map User.username
  postId := r.postId
  postSnippet := p.map fun p => left 140 p.content
  reason := r.reason
  detail := r.detail
  status := r.status.text
  createdAt := r.createdAt

/-- `$1::report_status`. -/
def ReportStatus.cast (s : String) : Option ReportStatus :=
  [ReportStatus.pending, .resolvedHidden, .resolvedOk, .resolvedWarned].find? fun r => r.text = s

/-- `WHERE r.status = $1`, where a status is given. -/
def Database.matchingReports (status : Option ReportStatus) : List Report :=
  db.reports.filter fun r => ∀ s ∈ status, r.status = s

/-- `FROM reports r LEFT JOIN users u ON u.id = r.reporter_id LEFT JOIN posts p ON p.id = r.post_id`. -/
def Database.reportRows (status : Option ReportStatus) : List ReportListItem :=
  (db.matchingReports status).flatMap fun r =>
    (leftJoin db.users fun u => r.reporterId = some u.id).flatMap fun u =>
      (leftJoin db.posts fun p => r.postId = p.id).map fun p => mapReportListRow r u p

/-- `repo::list_reports`; a status that is no label of the enumeration is refused. -/
def Database.listReports (status : Option String) (cursor : Option (Int × Uuid)) (limit : Nat) :
    Except AppError (List ReportListItem) :=
  match status with
  | none => .ok (page ReportListItem.createdAt ReportListItem.id (db.reportRows none) cursor limit)
  | some s =>
    match ReportStatus.cast s with
    | none => .error .other
    | some status =>
      .ok (page ReportListItem.createdAt ReportListItem.id (db.reportRows (some status)) cursor limit)

/-- `list_reports`. -/
def listReports (q : ReportListQuery) : Except AppError ReportListResponse :=
  let limit := clampLimit q.limit
  let cursor := q.cursor.bind (decode lib b64)
  match db.listReports q.status cursor (limit + 1) with
  | .error e => .error e
  | .ok items =>
    let (items, nextCursor) := popExtra (fun item => encode lib b64 item.createdAt item.id) limit items
    .ok ⟨items, nextCursor⟩

/-! ### The audit log -/

/-- `AuditListItem`. -/
structure AuditListItem where
  id : Uuid
  actorId : Uuid
  action : String
  targetType : String
  targetId : Uuid
  reportId : Option Uuid
  note : Option String
  createdAt : Int
  deriving DecidableEq, Repr

/-- `AuditListQuery`. -/
structure AuditListQuery where
  actorId : Option Uuid
  action : Option String
  cursor : Option String
  limit : Option Nat
  deriving DecidableEq, Repr

/-- `AuditListResponse`. -/
structure AuditListResponse where
  items : List AuditListItem
  nextCursor : Option String
  deriving DecidableEq, Repr

/-- `map_audit_row`. -/
def mapAuditRow (a : AuditLog) : AuditListItem where
  id := a.id
  actorId := a.actorId
  action := a.action.text
  targetType := a.targetType
  targetId := a.targetId
  reportId := a.reportId
  note := a.note
  createdAt := a.createdAt

/-- `$2::audit_action`. -/
def AuditAction.cast (s : String) : Option AuditAction :=
  [AuditAction.reportDismissed, .postHidden, .postUnhidden, .authorWarned, .authorBanned,
    .authorUnbanned].find? fun a => a.text = s

/-- `WHERE actor_id = $1 AND action = $2`, each condition where it is given. -/
def Database.matchingAuditLogs (actorId : Option Uuid) (action : Option AuditAction) : List AuditLog :=
  db.auditLogs.filter fun a =>
    (∀ actor ∈ actorId, a.actorId = actor) ∧ ∀ kind ∈ action, a.action = kind

/-- `FROM audit_logs`. -/
def Database.auditRows (actorId : Option Uuid) (action : Option AuditAction) : List AuditListItem :=
  (db.matchingAuditLogs actorId action).map mapAuditRow

/-- `repo::list_audit_logs`. -/
def Database.listAuditLogs (actorId : Option Uuid) (action : Option String)
    (cursor : Option (Int × Uuid)) (limit : Nat) : Except AppError (List AuditListItem) :=
  match action with
  | none => .ok (page AuditListItem.createdAt AuditListItem.id (db.auditRows actorId none) cursor limit)
  | some s =>
    match AuditAction.cast s with
    | none => .error .other
    | some action =>
      .ok (page AuditListItem.createdAt AuditListItem.id (db.auditRows actorId (some action)) cursor
        limit)

/-- `list_audit_logs`. -/
def listAuditLogs (q : AuditListQuery) : Except AppError AuditListResponse :=
  let limit := clampLimit q.limit
  let cursor := q.cursor.bind (decode lib b64)
  match db.listAuditLogs q.actorId q.action cursor (limit + 1) with
  | .error e => .error e
  | .ok items =>
    let (items, nextCursor) := popExtra (fun item => encode lib b64 item.createdAt item.id) limit items
    .ok ⟨items, nextCursor⟩

variable {lib b64 db}

/-! ### Cursors are read back -/

/-- The crates read back what they write of one position: the time, the id, and the text of both. -/
structure CursorReadsBack (lib : Crates) (b64 : Base64) (createdAt : Int) (id : Uuid) : Prop
    extends ReadsBack lib createdAt id where
  base64 : b64.decode (b64.encode (lib.toRfc3339 createdAt ++ "|" ++ lib.uuidText id))
    = some (lib.toRfc3339 createdAt ++ "|" ++ lib.uuidText id)

/-- **A cursor gives back its position**, to the microsecond. -/
theorem decode_encode {createdAt : Int} {id : Uuid} (h : CursorReadsBack lib b64 createdAt id) :
    decode lib b64 (encode lib b64 createdAt id) = some (createdAt, id) := by
  unfold decode encode
  rw [h.base64, Option.bind_some, parseFollowingCursor_text h.toReadsBack]

/-! ### Both ways to find the next cursor -/

section Keyset

variable {α : Type} {createdAt : α → Int} {id : α → Uuid} {rows : List α} {n : Nat}
  {enc : α → String} {dec : String → Option (Int × Uuid)}

/-- The rows that a query reads are those behind the cursor. -/
theorem filter_below_eq (rows : List α) (cursor : Option (Int × Uuid)) :
    (rows.filter fun r => ∀ c ∈ cursor, Below createdAt id c r)
      = behind (position createdAt id) rows (cursor.map toLex) := by
  unfold behind
  apply List.filter_congr
  intro r _
  cases cursor with
  | none => simp
  | some c => simp [position, Prod.Lex.toLex_lt_toLex, Below]

/-- The rows of a page are the first ones behind the cursor. -/
theorem page_eq (rows : List α) (cursor : Option (Int × Uuid)) (n : Nat) :
    page createdAt id rows cursor n
      = (stableSort (latestFirst (position createdAt id))
          (behind (position createdAt id) rows (cursor.map toLex))).take n := by
  unfold page
  rw [filter_below_eq]

/-- A next cursor with every full page. -/
theorem orderedKeyset_full (hn : 0 < n)
    (hread : ∀ r ∈ rows, dec (enc r) = some (createdAt r, id r)) :
    OrderedKeyset (fun c items next => items = page createdAt id rows (c.bind dec) n
      ∧ next = if items.length = n then items.getLast?.map enc else none)
      (position createdAt id) n rows enc fun s => (dec s).map toLex where
  answered c := ⟨_, _, rfl, rfl⟩
  items_eq := by
    rintro c items next ⟨rfl, -⟩
    rw [page_eq, Option.map_bind]
    rfl
  last := by
    rintro c items ⟨hitems, hnext⟩
    split at hnext
    · next hfull =>
      -- a full page has a last row
      have hne : items ≠ [] := List.ne_nil_of_length_pos (by omega)
      rw [List.getLast?_eq_some_getLast hne] at hnext
      cases hnext
    · next hshort =>
      rw [hitems, page_eq, List.length_take, Lib.length_stableSort, Option.map_bind] at hshort
      show (behind _ rows (c.bind (Option.map toLex ∘ dec))).length ≤ n
      omega
  next := by
    rintro c items c' ⟨-, hnext⟩
    split at hnext
    · obtain ⟨r, hlast, hr⟩ := Option.map_eq_some_iff.mp hnext.symm
      exact ⟨r, hlast, hr.symm⟩
    · cases hnext
  decode_encode r hr := by
    rw [hread r hr]
    rfl

/-- What is left after the extra row, and whether there was one. -/
theorem popExtra_take (l : List α) :
    popExtra enc n (l.take (n + 1))
      = (l.take n, if n < l.length then (l.take n).getLast?.map enc else none) := by
  unfold popExtra
  by_cases hmore : n < l.length
  · have hlength : n < (l.take (n + 1)).length := by
      rw [List.length_take]
      omega
    have hdrop : (l.take (n + 1)).dropLast = l.take n := by
      rw [List.dropLast_eq_take, List.take_take, List.length_take]
      congr 1
      omega
    rw [if_pos hlength, if_pos hmore, hdrop]
  · have hlength : ¬ n < (l.take (n + 1)).length := by
      rw [List.length_take]
      omega
    rw [if_neg hlength, if_neg hmore, List.take_of_length_le (by omega),
      List.take_of_length_le (by omega)]

/-- One row more than the page shows. -/
theorem orderedKeyset_popExtra (hn : 0 < n)
    (hread : ∀ r ∈ rows, dec (enc r) = some (createdAt r, id r)) :
    OrderedKeyset (fun c items next =>
        popExtra enc n (page createdAt id rows (c.bind dec) (n + 1)) = (items, next))
      (position createdAt id) n rows enc fun s => (dec s).map toLex := by
  have hpop (c : Option String) :
      popExtra enc n (page createdAt id rows (c.bind dec) (n + 1))
        = (let sorted := stableSort (latestFirst (position createdAt id))
            (behind (position createdAt id) rows (c.bind fun s => (dec s).map toLex))
          (sorted.take n, if n < sorted.length then (sorted.take n).getLast?.map enc else none)) := by
    rw [page_eq, popExtra_take, Option.map_bind]
    rfl
  refine ⟨fun c => ⟨_, _, hpop c⟩, ?_, ?_, ?_, ?_⟩
  · intro c items next h
    rw [hpop] at h
    exact (Prod.mk.inj h).1.symm
  · intro c items h
    rw [hpop] at h
    have hnext := (Prod.mk.inj h).2
    split at hnext
    · next hmore =>
      -- the page has a last row, so that there is a next cursor
      rw [Option.map_eq_none_iff, List.getLast?_eq_none_iff, List.take_eq_nil_iff] at hnext
      rcases hnext with hzero | hnil
      · omega
      · rw [hnil] at hmore
        simp at hmore
    · next hmore =>
      rw [Lib.length_stableSort] at hmore
      omega
  · intro c items c' h
    rw [hpop] at h
    obtain ⟨rfl, hnext⟩ := Prod.mk.inj h
    split at hnext
    · obtain ⟨r, hlast, hr⟩ := Option.map_eq_some_iff.mp hnext
      exact ⟨r, hlast, hr.symm⟩
    · cases hnext
  · intro r hr
    show (dec (enc r)).map toLex = some (position createdAt id r)
    rw [hread r hr]
    rfl

end Keyset

/-! ### Which rows the lists show -/

/-- A join that fixes the primary key finds at most one row. -/
theorem leftJoin_eq {β : Type} {key : β → Uuid} {rows : List β} (hkey : (rows.map key).Nodup)
    {on : β → Bool} (hon : ∀ a b, on a = true → on b = true → key a = key b) :
    leftJoin rows on = [rows.find? on] := by
  unfold leftJoin
  rw [← List.head?_filter]
  have hall : ∀ b ∈ rows.filter on, on b = true := fun b hb => (List.mem_filter.mp hb).2
  have hnodup : ((rows.filter on).map key).Nodup := hkey.sublist (List.filter_sublist.map key)
  cases hmatch : rows.filter on with
  | nil => rfl
  | cons b bs =>
    rw [hmatch] at hall hnodup
    cases bs with
    | nil => rfl
    | cons b' bs =>
      -- two rows of one key
      have hsame : key b = key b' := hon b b' (hall b (by simp)) (hall b' (by simp))
      simp [hsame] at hnodup

/-- A nullable reference fixes the key of what it refers to. -/
private theorem same_of_reference {β : Type} {key : β → Uuid} {k : Option Uuid} (a b : β)
    (ha : decide (k = some (key a)) = true) (hb : decide (k = some (key b)) = true) :
    key a = key b := by
  rw [decide_eq_true_iff] at ha hb
  exact Option.some.inj (ha.symm.trans hb)

/-- A notification with its actor and its post. -/
def Database.notificationDto (db : Database) (n : Notification) : NotificationDto :=
  mapRow n (db.users.find? fun u => n.actorId = some u.id)
    (db.posts.find? fun p => n.postId = some p.id)

/-- Each matching notification is one row. -/
theorem notificationRows_eq (db : Database) (userId : Uuid) (unreadOnly : Bool) :
    db.notificationRows userId unreadOnly
      = (db.matchingNotifications userId unreadOnly).map db.notificationDto := by
  have husers (n : Notification) := leftJoin_eq db.usersKey (same_of_reference (k := n.actorId))
  have hposts (n : Notification) := leftJoin_eq db.postsKey (same_of_reference (k := n.postId))
  unfold Database.notificationRows
  simp only [husers, hposts, List.flatMap_cons, List.flatMap_nil, List.map_cons, List.map_nil,
    List.append_nil]
  rw [← List.map_eq_flatMap]
  rfl

/-- A report with its reporter and its post. -/
def Database.reportListItem (db : Database) (r : Report) : ReportListItem :=
  mapReportListRow r (db.users.find? fun u => r.reporterId = some u.id)
    (db.posts.find? fun p => r.postId = p.id)

/-- Each matching report is one row. -/
theorem reportRows_eq (db : Database) (status : Option ReportStatus) :
    db.reportRows status = (db.matchingReports status).map db.reportListItem := by
  have husers (r : Report) := leftJoin_eq db.usersKey (same_of_reference (k := r.reporterId))
  have hposts (r : Report) : leftJoin db.posts (fun p => r.postId = p.id)
      = [db.posts.find? fun p => r.postId = p.id] := by
    apply leftJoin_eq db.postsKey
    intro a b ha hb
    rw [decide_eq_true_iff] at ha hb
    exact ha.symm.trans hb
  unfold Database.reportRows
  simp only [husers, hposts, List.flatMap_cons, List.flatMap_nil, List.map_cons, List.map_nil,
    List.append_nil]
  rw [← List.map_eq_flatMap]
  rfl

/-- A label of the enumeration is cast to the status that it is the text of. -/
@[simp] theorem ReportStatus.cast_text (status : ReportStatus) :
    ReportStatus.cast status.text = some status := by
  cases status <;> decide

/-- A label of the enumeration is cast to the action that it is the text of. -/
@[simp] theorem AuditAction.cast_text (action : AuditAction) :
    AuditAction.cast action.text = some action := by
  cases action <;> decide

/-! ### The three lists -/

/-- What `list_notifications` answers a cursor. -/
def NotificationAnswers (lib : Crates) (b64 : Base64) (db : Database) (user : Uuid) (limit : Int)
    (unreadOnly : Bool) (cursor : Option String) (items : List NotificationDto)
    (next : Option String) : Prop :=
  listNotifications lib b64 db user ⟨cursor, limit, unreadOnly⟩ = ⟨items, next⟩

/-- What `list_reports` answers a cursor. -/
def ReportAnswers (lib : Crates) (b64 : Base64) (db : Database) (status : Option String)
    (limit : Option Nat) (cursor : Option String) (items : List ReportListItem)
    (next : Option String) : Prop :=
  listReports lib b64 db ⟨status, cursor, limit⟩ = .ok ⟨items, next⟩

/-- What `list_audit_logs` answers a cursor. -/
def AuditAnswers (lib : Crates) (b64 : Base64) (db : Database) (actorId : Option Uuid)
    (action : Option String) (limit : Option Nat) (cursor : Option String)
    (items : List AuditListItem) (next : Option String) : Prop :=
  listAuditLogs lib b64 db ⟨actorId, action, cursor, limit⟩ = .ok ⟨items, next⟩

theorem clampLimit_pos (raw : Option Nat) : 0 < clampLimit raw := by
  unfold clampLimit
  omega

/-- The notifications go on behind the last row of a page. -/
theorem orderedKeyset_listNotifications {user : Uuid} {limit : Int} {unreadOnly : Bool}
    (hread : ∀ n ∈ db.notificationRows user unreadOnly, CursorReadsBack lib b64 n.createdAt n.id) :
    OrderedKeyset (NotificationAnswers lib b64 db user limit unreadOnly)
      (position NotificationDto.createdAt NotificationDto.id) (min (max limit 1) 100).toNat
      (db.notificationRows user unreadOnly) (fun n => encode lib b64 n.createdAt n.id)
      fun s => (decode lib b64 s).map toLex := by
  have hpos : 0 < (min (max limit 1) 100).toNat := by omega
  refine (orderedKeyset_full hpos fun n hn => decode_encode (hread n hn)).congr ?_
  intro c items next
  show NotificationListResponse.mk _ _ = ⟨items, next⟩ ↔ _
  rw [NotificationListResponse.mk.injEq]
  refine ⟨?_, ?_⟩
  · rintro ⟨rfl, rfl⟩
    exact ⟨rfl, rfl⟩
  · rintro ⟨rfl, rfl⟩
    exact ⟨rfl, rfl⟩

/-- The reports go on behind the last row of a page. -/
theorem orderedKeyset_listReports {status : Option ReportStatus} {limit : Option Nat}
    (hread : ∀ r ∈ db.reportRows status, CursorReadsBack lib b64 r.createdAt r.id) :
    OrderedKeyset (ReportAnswers lib b64 db (status.map ReportStatus.text) limit)
      (position ReportListItem.createdAt ReportListItem.id) (clampLimit limit)
      (db.reportRows status) (fun r => encode lib b64 r.createdAt r.id)
      fun s => (decode lib b64 s).map toLex := by
  refine (orderedKeyset_popExtra (clampLimit_pos limit) fun r hr => decode_encode (hread r hr)).congr ?_
  intro c items next
  have hquery (cursor : Option (Int × Uuid)) (n : Nat) :
      db.listReports (status.map ReportStatus.text) cursor n
        = .ok (page ReportListItem.createdAt ReportListItem.id (db.reportRows status) cursor n) := by
    cases status with
    | none => rfl
    | some status => simp [Database.listReports]
  simp only [ReportAnswers, listReports, hquery]
  show Except.ok (ReportListResponse.mk _ _) = Except.ok _ ↔ _
  rw [Except.ok.injEq, ReportListResponse.mk.injEq, Prod.ext_iff]

/-- The audit log goes on behind the last row of a page. -/
theorem orderedKeyset_listAuditLogs {actorId : Option Uuid} {action : Option AuditAction}
    {limit : Option Nat}
    (hread : ∀ a ∈ db.auditRows actorId action, CursorReadsBack lib b64 a.createdAt a.id) :
    OrderedKeyset (AuditAnswers lib b64 db actorId (action.map AuditAction.text) limit)
      (position AuditListItem.createdAt AuditListItem.id) (clampLimit limit)
      (db.auditRows actorId action) (fun a => encode lib b64 a.createdAt a.id)
      fun s => (decode lib b64 s).map toLex := by
  refine (orderedKeyset_popExtra (clampLimit_pos limit) fun a ha => decode_encode (hread a ha)).congr ?_
  intro c items next
  have hquery (cursor : Option (Int × Uuid)) (n : Nat) :
      db.listAuditLogs actorId (action.map AuditAction.text) cursor n
        = .ok (page AuditListItem.createdAt AuditListItem.id (db.auditRows actorId action) cursor n) := by
    cases action with
    | none => rfl
    | some action => simp [Database.listAuditLogs]
  simp only [AuditAnswers, listAuditLogs, hquery]
  show Except.ok (AuditListResponse.mk _ _) = Except.ok _ ↔ _
  rw [Except.ok.injEq, AuditListResponse.mk.injEq, Prod.ext_iff]

/-- A reader of a list sees its rows, each exactly once, latest first and of one time the greater id
    first, and comes to an end. -/
def ReadInOrder {α : Type} (respond : Option String → List α → Option String → Prop)
    (createdAt : α → Int) (id : α → Uuid) (rows : List α) : Prop :=
  ∃ inOrder : List α, inOrder.Perm rows
    ∧ inOrder.Pairwise (fun a b => Below createdAt id (createdAt a, id a) b)
    ∧ Enumerates respond inOrder

/-- A list that goes on behind the last row of a page is read in its order. -/
theorem readInOrder_of_orderedKeyset {α : Type} {createdAt : α → Int} {id : α → Uuid}
    {rows : List α} {n : Nat} {respond : Option String → List α → Option String → Prop}
    {enc : α → String} {dec : String → Option (Lex (Int × Uuid))}
    (h : OrderedKeyset respond (position createdAt id) n rows enc dec) (hids : (rows.map id).Nodup) :
    ReadInOrder respond createdAt id rows := by
  have hkeys : (rows.map (position createdAt id)).Nodup := by
    rw [List.nodup_map_iff_inj_on hids.of_map]
    intro a ha b hb heq
    have hid : id a = id b := congrArg (fun k => (ofLex k).2) heq
    exact List.inj_on_of_nodup_map hids ha hb hid
  refine ⟨_, Lib.stableSort_perm _ rows, ?_, h.enumerates hkeys⟩
  refine (Lib.pairwise_stableSort_of_nodup hkeys).imp ?_
  intro a b hab
  exact Prod.Lex.toLex_lt_toLex.mp hab

/-- **The lists are read completely.**  Whatever the tables contain, with any filter and any limit,
    a reader of the notifications of a user, of the reports or of the audit log who follows the
    cursors sees every matching row exactly once, in the order of time and id, and comes to an end;
    and a cursor gives back the position that it was made of. -/
theorem enumerates_lists (lib : Crates) (b64 : Base64) (db : Database)
    (hnotifications : ∀ n ∈ db.notifications, CursorReadsBack lib b64 n.createdAt n.id)
    (hreports : ∀ r ∈ db.reports, CursorReadsBack lib b64 r.createdAt r.id)
    (hauditLogs : ∀ a ∈ db.auditLogs, CursorReadsBack lib b64 a.createdAt a.id) :
    (∀ user limit unreadOnly,
        ReadInOrder (NotificationAnswers lib b64 db user limit unreadOnly) NotificationDto.createdAt
          NotificationDto.id (db.notificationRows user unreadOnly)
        ∧ db.notificationRows user unreadOnly
          = (db.notifications.filter fun n => n.userId = user ∧ (unreadOnly = true → n.readAt = none)).map
            db.notificationDto)
      ∧ (∀ status limit,
        ReadInOrder (ReportAnswers lib b64 db (status.map ReportStatus.text) limit)
          ReportListItem.createdAt ReportListItem.id (db.reportRows status)
        ∧ db.reportRows status
          = (db.reports.filter fun r => ∀ s ∈ status, r.status = s).map db.reportListItem)
      ∧ (∀ actorId action limit,
        ReadInOrder (AuditAnswers lib b64 db actorId (action.map AuditAction.text) limit)
          AuditListItem.createdAt AuditListItem.id (db.auditRows actorId action)
        ∧ db.auditRows actorId action
          = (db.auditLogs.filter fun a =>
              (∀ actor ∈ actorId, a.actorId = actor) ∧ ∀ kind ∈ action, a.action = kind).map mapAuditRow)
      ∧ ∀ createdAt id, CursorReadsBack lib b64 createdAt id →
        decode lib b64 (encode lib b64 createdAt id) = some (createdAt, id) := by
  refine ⟨?_, ?_, ?_, fun createdAt id h => decode_encode h⟩
  · intro user limit unreadOnly
    have hrows := notificationRows_eq db user unreadOnly
    refine ⟨readInOrder_of_orderedKeyset (orderedKeyset_listNotifications ?_) ?_, hrows⟩
    · intro n hn
      rw [hrows, List.mem_map] at hn
      obtain ⟨n, hn, rfl⟩ := hn
      exact hnotifications n (List.mem_of_mem_filter hn)
    · rw [hrows, List.map_map]
      exact db.notificationsKey.sublist (List.filter_sublist.map _)
  · intro status limit
    have hrows := reportRows_eq db status
    refine ⟨readInOrder_of_orderedKeyset (orderedKeyset_listReports ?_) ?_, hrows⟩
    · intro r hr
      rw [hrows, List.mem_map] at hr
      obtain ⟨r, hr, rfl⟩ := hr
      exact hreports r (List.mem_of_mem_filter hr)
    · rw [hrows, List.map_map]
      exact db.reportsKey.sublist (List.filter_sublist.map _)
  · intro actorId action limit
    refine ⟨readInOrder_of_orderedKeyset (orderedKeyset_listAuditLogs ?_) ?_, rfl⟩
    · intro a ha
      rw [Database.auditRows, List.mem_map] at ha
      obtain ⟨a, ha, rfl⟩ := ha
      exact hauditLogs a (List.mem_of_mem_filter ha)
    · rw [Database.auditRows, List.map_map]
      exact db.auditLogsKey.sublist (List.filter_sublist.map _)

/-! ### Two rows of one time -/

private def queueCrates : Crates where
  parseUuid s := if s = "00000000-0000-0000-0000-000000000001" then some 1
    else if s = "00000000-0000-0000-0000-000000000002" then some 2 else none
  parseFromRfc3339 s :=
    if s = "2026-01-01T00:00:00.123456+00:00" then some 1767225600123456 else none
  uuidText id := if id = 1 then "00000000-0000-0000-0000-000000000001"
    else "00000000-0000-0000-0000-000000000002"
  toRfc3339 _ := "2026-01-01T00:00:00.123456+00:00"

private def queueCursors : List (String × String) :=
  [("2026-01-01T00:00:00.123456+00:00|00000000-0000-0000-0000-000000000001",
      "MjAyNi0wMS0wMVQwMDowMDowMC4xMjM0NTYrMDA6MDB8MDAwMDAwMDAtMDAwMC0wMDAwLTAwMDAtMDAwMDAwMDAwMDAx"),
    ("2026-01-01T00:00:00.123456+00:00|00000000-0000-0000-0000-000000000002",
      "MjAyNi0wMS0wMVQwMDowMDowMC4xMjM0NTYrMDA6MDB8MDAwMDAwMDAtMDAwMC0wMDAwLTAwMDAtMDAwMDAwMDAwMDAy")]

private def queueBase64 : Base64 where
  encode s := (queueCursors.lookup s).getD ""
  decode s := (queueCursors.find? fun e => e.2 = s).map Prod.fst

/-- Two rows in each table, all written in the same microsecond. -/
private def tiedTables : Database where
  users := [⟨9, "ada", none, none⟩]
  posts := [⟨4, "leaf"⟩]
  notifications := [⟨1, 7, .liked, some 9, some 4, none, .null, none, 1767225600123456⟩,
    ⟨2, 7, .followed, some 9, none, none, .null, none, 1767225600123456⟩]
  reports := [⟨1, some 9, 4, "spam", none, .pending, 1767225600123456⟩,
    ⟨2, none, 4, "abuse", none, .pending, 1767225600123456⟩]
  auditLogs := [⟨1, 9, .postHidden, "post", 4, some 1, none, 1767225600123456⟩,
    ⟨2, 9, .authorWarned, "user", 9, some 2, none, 1767225600123456⟩]
  usersKey := by decide
  postsKey := by decide
  notificationsKey := by decide
  reportsKey := by decide
  auditLogsKey := by decide

private theorem queueReads_one : CursorReadsBack queueCrates queueBase64 1767225600123456 1 :=
  ⟨⟨by decide, by decide, by decide⟩, by decide⟩

private theorem queueReads_two : CursorReadsBack queueCrates queueBase64 1767225600123456 2 :=
  ⟨⟨by decide, by decide, by decide⟩, by decide⟩

/-- Pages of one row, over rows of one time. -/
theorem enumerates_tied :
    ReadInOrder (NotificationAnswers queueCrates queueBase64 tiedTables 7 1 true)
        NotificationDto.createdAt NotificationDto.id (tiedTables.notificationRows 7 true)
      ∧ ReadInOrder (ReportAnswers queueCrates queueBase64 tiedTables (some "pending") (some 1))
        ReportListItem.createdAt ReportListItem.id (tiedTables.reportRows (some .pending))
      ∧ ReadInOrder (AuditAnswers queueCrates queueBase64 tiedTables (some 9) none (some 1))
        AuditListItem.createdAt AuditListItem.id (tiedTables.auditRows (some 9) none)
      ∧ (tiedTables.notificationRows 7 true).map NotificationDto.id = [1, 2]
      ∧ (tiedTables.reportRows (some .pending)).map ReportListItem.id = [1, 2]
      ∧ (tiedTables.auditRows (some 9) none).map AuditListItem.id = [1, 2]
      ∧ (listNotifications queueCrates queueBase64 tiedTables 7 ⟨none, 1, true⟩).nextCursor
        = some "MjAyNi0wMS0wMVQwMDowMDowMC4xMjM0NTYrMDA6MDB8MDAwMDAwMDAtMDAwMC0wMDAwLTAwMDAtMDAwMDAwMDAwMDAy"
      ∧ decode queueCrates queueBase64
          "MjAyNi0wMS0wMVQwMDowMDowMC4xMjM0NTYrMDA6MDB8MDAwMDAwMDAtMDAwMC0wMDAwLTAwMDAtMDAwMDAwMDAwMDAy"
        = some (1767225600123456, 2) := by
  have h := enumerates_lists queueCrates queueBase64 tiedTables
    (by
      intro n hn
      rcases List.mem_pair.mp hn with rfl | rfl
      · exact queueReads_one
      · exact queueReads_two)
    (by
      intro r hr
      rcases List.mem_pair.mp hr with rfl | rfl
      · exact queueReads_one
      · exact queueReads_two)
    (by
      intro a ha
      rcases List.mem_pair.mp ha with rfl | rfl
      · exact queueReads_one
      · exact queueReads_two)
  exact ⟨(h.1 7 1 true).1, (h.2.1 (some .pending) (some 1)).1, (h.2.2.1 (some 9) none (some 1)).1,
    by decide, by decide, by decide, by decide, h.2.2.2 _ _ queueReads_two⟩

end Oecophylla.Listing.Queues
