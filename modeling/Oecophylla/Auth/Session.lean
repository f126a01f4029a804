import Oecophylla.Lib.OrderedDict
import Oecophylla.Lib.Run

namespace Oecophylla.Auth

open Lib (OrderedDict)

/-!
# Refresh sessions of the auth service

The requests of the auth service run concurrently, one database or Redis command at a time:

* `Phase` — how far a request has come, and what it has read;
* `advance` — its next command, under the source's names for the queries;
* `State`, `step` — any interleaving of the requests, with commands that fail or whose reply is
  lost, sessions that expire and accounts that others close or reopen;
* `Effect`, `advance_effect` — what a command can do to the sessions and the history;
* `Sound`, `step_sound` — every session was issued, to the user it is stored for.

A key `session:refresh:…` is written as the hash in it, and its value as the id that it prints.
The history has the newest event first.
-/

abbrev Uuid := Nat

/-- `sha256_hex` of a refresh token, as in its Redis key. -/
abbrev RefreshHash := String

/-- A row of `users`. -/
structure UserRow where
  id : Uuid
  username : String
  email : String
  passwordHash : String
  isActive : Bool
  deriving DecidableEq, Repr

/-- `RegisterReq`, without the display name. -/
structure RegisterReq where
  username : String
  email : String
  password : String
  deriving DecidableEq, Repr

structure LoginReq where
  emailOrUsername : String
  password : String
  deriving DecidableEq, Repr

structure ChangePasswordReq where
  currentPassword : String
  newPassword : String
  deriving DecidableEq, Repr

structure DeleteAccountReq where
  password : String
  deriving DecidableEq, Repr

/-- The packages: `validator` for a registration, and `argon2`. -/
structure Packages where
  /-- The text of the validation errors, if there are any. -/
  validate : RegisterReq → Option String
  hashPassword : (plain salt : String) → String
  verifyPassword : (plain hash : String) → Bool

/-- `AppError`, as far as this service returns it; `other` is a database or Redis error. -/
inductive AppError where
  | validation (field message : String)
  | unauthorized
  | conflict (kind : String)
  | other
  deriving DecidableEq, Repr

/-- A request.  `claims` is the `sub` of the access cookie if `verify_access` accepts it, `cookie`
    the hash of the refresh cookie if there is one. -/
inductive Request where
  | register (body : RegisterReq)
  | login (body : LoginReq)
  | refresh (cookie : Option RefreshHash)
  | logout (cookie : Option RefreshHash)
  | changePassword (claims : Option Uuid) (body : ChangePasswordReq)
  | deleteAccount (claims : Option Uuid) (cookie : Option RefreshHash) (body : DeleteAccountReq)
  deriving DecidableEq, Repr

/-- How far a request has come. -/
inductive Phase where
  | idle
  /-- Next: `insert_user`. -/
  | registering (body : RegisterReq)
  /-- Next: `find_by_email_or_username`. -/
  | loggingIn (body : LoginReq)
  /-- Next: the `SET` of `build_auth_response`; a refresh gives the token that it replaces. -/
  | signingIn (user : Uuid) (parent : Option RefreshHash)
  /-- Next: `GET`. -/
  | refreshing (hash : RefreshHash)
  /-- Next: `DEL`. -/
  | refreshRead (hash : RefreshHash) (user : Uuid)
  /-- Next: `find_by_id`. -/
  | refreshDeleted (hash : RefreshHash) (user : Uuid)
  /-- Next: `DEL`. -/
  | loggingOut (hash : RefreshHash)
  /-- Next: `find_by_id`. -/
  | changing (user : Uuid) (body : ChangePasswordReq)
  /-- Next: `update_password`. -/
  | changeVerified (user : Uuid) (newHash : String)
  /-- Next: `KEYS`. -/
  | changeUpdated (user : Uuid)
  /-- Next: `GET` of `key`; `keys` are those after it. -/
  | changeReading (user : Uuid) (key : RefreshHash) (keys : List RefreshHash)
  /-- Next: `DEL` of `key`. -/
  | changeMatched (user : Uuid) (key : RefreshHash) (keys : List RefreshHash)
  /-- Next: `find_by_id`. -/
  | deleting (user : Uuid) (cookie : Option RefreshHash) (body : DeleteAccountReq)
  /-- Next: `deactivate_user`. -/
  | deactivating (user : Uuid) (cookie : Option RefreshHash)
  /-- Next: `DEL`. -/
  | deactivated (hash : RefreshHash)
  | answered (status : Nat)
  | failed (error : AppError)
  deriving DecidableEq, Repr

/-- The request has no further command. -/
def Phase.done : Phase → Bool
  | .answered _ => true
  | .failed _ => true
  | _ => false

/-- What happened, and in which request. -/
inductive Event where
  /-- A session was stored, for a refresh in the place of its `parent`. -/
  | issued (request : Nat) (parent : Option RefreshHash) (hash : RefreshHash) (user : Uuid)
  /-- A refresh deleted the token that it had read. -/
  | deleted (request : Nat) (hash : RefreshHash)
  /-- A logout deleted its token. -/
  | loggedOut (request : Nat) (hash : RefreshHash)
  /-- The password was updated. -/
  | changed (request : Nat) (user : Uuid)
  /-- `change_password` has its list of keys. -/
  | listed (request : Nat) (user : Uuid)
  deriving DecidableEq, Repr

/-- The tokens that an event names. -/
def Event.hashes : Event → List RefreshHash
  | .issued _ parent hash _ => hash :: parent.toList
  | .deleted _ hash => [hash]
  | .loggedOut _ hash => [hash]
  | .changed _ _ => []
  | .listed _ _ => []

/-- The stores, and what happened so far. -/
structure Data where
  users : List UserRow
  sessions : OrderedDict RefreshHash Uuid
  log : List Event

/-- What a command draws: the id of a new user, a salt, a refresh token, and the order in which
    Redis lists its keys. -/
structure Draw where
  id : Uuid
  salt : String
  refreshHash : RefreshHash
  keys : List RefreshHash

/-- A random token was never seen before. -/
def Fresh (log : List Event) (hash : RefreshHash) : Prop := ∀ e ∈ log, hash ∉ e.hashes

instance (log : List Event) (hash : RefreshHash) : Decidable (Fresh log hash) :=
  inferInstanceAs (Decidable (∀ e ∈ log, _))

/-! ### The queries -/

def findById (users : List UserRow) (id : Uuid) : Option UserRow :=
  users.find? fun u => u.id = id && u.isActive

def findByEmailOrUsername (users : List UserRow) (key : String) : Option UserRow :=
  users.find? fun u => (u.email = key || u.username = key) && u.isActive

def updatePassword (users : List UserRow) (id : Uuid) (newHash : String) : List UserRow :=
  users.map fun u => if u.id = id then { u with passwordHash := newHash } else u

def setActive (users : List UserRow) (id : Uuid) (active : Bool) : List UserRow :=
  users.map fun u => if u.id = id then { u with isActive := active } else u

def deactivateUser (users : List UserRow) (id : Uuid) : List UserRow := setActive users id false

/-! ### The requests -/

/-- The loop of `change_password` over the keys. -/
def changeLoop (user : Uuid) : List RefreshHash → Phase
  | [] => .answered 204
  | key :: keys => .changeReading user key keys

section Step

variable (pkg : Packages)

/-- What a handler checks before its first command. -/
def arrive : Request → Phase
  | .register body =>
    match pkg.validate body with
    | some message => .failed (.validation "body" message)
    | none => .registering body
  | .login body => .loggingIn body
  | .refresh none => .failed .unauthorized
  | .refresh (some hash) => .refreshing hash
  | .logout none => .answered 204
  | .logout (some hash) => .loggingOut hash
  | .changePassword none _ => .failed .unauthorized
  | .changePassword (some user) body =>
    if body.newPassword.utf8ByteSize < 8 then
      .failed (.validation "new_password" "mật khẩu phải có ít nhất 8 ký tự")
    else .changing user body
  | .deleteAccount none _ _ => .failed .unauthorized
  | .deleteAccount (some user) cookie body => .deleting user cookie body

/-- The next command of a request, `none` when there is none or it cannot draw this. -/
def advance (r : Nat) (draw : Draw) (d : Data) : Phase → Option (Phase × Data)
  | .registering body =>
    if ∃ u ∈ d.users, u.username = body.username ∨ u.email = body.email then
      some (.failed (.conflict "user"), d)
    else if ∃ u ∈ d.users, u.id = draw.id then none
    else
      let hash := pkg.hashPassword body.password draw.salt
      let row : UserRow := ⟨draw.id, body.username, body.email, hash, true⟩
      some (.signingIn row.id none, { d with users := d.users ++ [row] })
  | .loggingIn body =>
    match findByEmailOrUsername d.users body.emailOrUsername with
    | none => some (.failed .unauthorized, d)
    | some row =>
      if pkg.verifyPassword body.password row.passwordHash then some (.signingIn row.id none, d)
      else some (.failed .unauthorized, d)
  | .signingIn user parent =>
    if Fresh d.log draw.refreshHash then
      some (.answered 200, { d with
        sessions := d.sessions.set draw.refreshHash user
        log := .issued r parent draw.refreshHash user :: d.log })
    else none
  | .refreshing hash =>
    match d.sessions.get hash with
    | none => some (.failed .unauthorized, d)
    | some user => some (.refreshRead hash user, d)
  | .refreshRead hash user =>
    -- `let _: ()`: the reply, whether there was such a key, is dropped.
    some (.refreshDeleted hash user, { d with
      sessions := d.sessions.pop hash
      log := .deleted r hash :: d.log })
  | .refreshDeleted hash user =>
    match findById d.users user with
    | none => some (.failed .unauthorized, d)
    | some row => some (.signingIn row.id (some hash), d)
  | .loggingOut hash =>
    some (.answered 204, { d with
      sessions := d.sessions.pop hash
      log := .loggedOut r hash :: d.log })
  | .changing user body =>
    match findById d.users user with
    | none => some (.failed .unauthorized, d)
    | some row =>
      if pkg.verifyPassword body.currentPassword row.passwordHash then
        some (.changeVerified row.id (pkg.hashPassword body.newPassword draw.salt), d)
      else some (.failed .unauthorized, d)
  | .changeVerified user newHash =>
    some (.changeUpdated user, { d with
      users := updatePassword d.users user newHash
      log := .changed r user :: d.log })
  | .changeUpdated user =>
    if draw.keys.Perm (d.sessions.map Prod.fst) then
      some (changeLoop user draw.keys, { d with log := .listed r user :: d.log })
    else none
  | .changeReading user key keys =>
    if d.sessions.get key = some user then some (.changeMatched user key keys, d)
    else some (changeLoop user keys, d)
  | .changeMatched user key keys =>
    some (changeLoop user keys, { d with sessions := d.sessions.pop key })
  | .deleting user cookie body =>
    match findById d.users user with
    | none => some (.failed .unauthorized, d)
    | some row =>
      if pkg.verifyPassword body.password row.passwordHash then
        some (.deactivating row.id cookie, d)
      else some (.failed .unauthorized, d)
  | .deactivating user none =>
    some (.answered 204, { d with users := deactivateUser d.users user })
  | .deactivating user (some hash) =>
    some (.deactivated hash, { d with users := deactivateUser d.users user })
  | .deactivated hash => some (.answered 204, { d with sessions := d.sessions.pop hash })
  | .idle => none
  | .answered _ => none
  | .failed _ => none

/-- The stores and the requests. -/
structure State where
  data : Data
  phase : Nat → Phase

/-- What can happen. -/
inductive Action where
  | begin (r : Nat) (req : Request)
  /-- The next command of the request. -/
  | next (r : Nat) (draw : Draw)
  /-- The command takes effect, but its reply is lost. -/
  | lose (r : Nat) (draw : Draw)
  /-- The command fails, or the request is dropped, without effect. -/
  | fail (r : Nat)
  /-- A session reaches the end of its time to live. -/
  | expire (hash : RefreshHash)
  /-- Another service closes or reopens an account. -/
  | moderate (user : Uuid) (active : Bool)

/-- One action. -/
def step (s : State) : Action → Option State
  | .begin r req =>
    if s.phase r = .idle then some { s with phase := Function.update s.phase r (arrive pkg req) }
    else none
  | .next r draw =>
    (advance pkg r draw s.data (s.phase r)).map fun (phase, data) =>
      ⟨data, Function.update s.phase r phase⟩
  | .lose r draw =>
    (advance pkg r draw s.data (s.phase r)).map fun (_, data) =>
      ⟨data, Function.update s.phase r (.failed .other)⟩
  | .fail r =>
    if (s.phase r).done then none
    else some { s with phase := Function.update s.phase r (.failed .other) }
  | .expire hash => some { s with data := { s.data with sessions := s.data.sessions.pop hash } }
  | .moderate user active =>
    some { s with data := { s.data with users := setActive s.data.users user active } }

/-- No sessions, no requests; any accounts. -/
def initial (users : List UserRow) : State := ⟨⟨users, [], []⟩, fun _ => .idle⟩

end Step

/-! ### What a command can do -/

/-- The phases that a command reaches without touching the sessions or the history. -/
inductive Reads (d : Data) : Phase → Phase → Prop
  | reject (phase : Phase) (e : AppError) (h : phase.done = false) : Reads d phase (.failed e)
  | register (body : RegisterReq) (user : Uuid) : Reads d (.registering body) (.signingIn user none)
  | login (body : LoginReq) (user : Uuid) : Reads d (.loggingIn body) (.signingIn user none)
  | redeem (hash : RefreshHash) (user : Uuid) (stored : d.sessions.get hash = some user) :
      Reads d (.refreshing hash) (.refreshRead hash user)
  | rotate (hash : RefreshHash) (user : Uuid) :
      Reads d (.refreshDeleted hash user) (.signingIn user (some hash))
  | verify (user : Uuid) (body : ChangePasswordReq) (newHash : String) :
      Reads d (.changing user body) (.changeVerified user newHash)
  | pick (user : Uuid) (key : RefreshHash) (keys : List RefreshHash) :
      Reads d (.changeReading user key keys) (.changeMatched user key keys)
  | skip (user : Uuid) (key : RefreshHash) (keys : List RefreshHash)
      (other : d.sessions.get key ≠ some user) :
      Reads d (.changeReading user key keys) (changeLoop user keys)
  | close (user : Uuid) (cookie : Option RefreshHash) (body : DeleteAccountReq) :
      Reads d (.deleting user cookie body) (.deactivating user cookie)
  | closed (user : Uuid) : Reads d (.deactivating user none) (.answered 204)
  | forget (user : Uuid) (hash : RefreshHash) :
      Reads d (.deactivating user (some hash)) (.deactivated hash)

/-- The phases around a `DEL` that is not recorded. -/
inductive Removes : RefreshHash → Phase → Phase → Prop
  | changed (user : Uuid) (key : RefreshHash) (keys : List RefreshHash) :
      Removes key (.changeMatched user key keys) (changeLoop user keys)
  | closed (hash : RefreshHash) : Removes hash (.deactivated hash) (.answered 204)

/-- What a command of the request `r` does, but for the accounts. -/
inductive Effect (r : Nat) (d : Data) : Phase → Phase → Data → Prop
  | reads (phase phase' : Phase) (users : List UserRow) (h : Reads d phase phase') :
      Effect r d phase phase' { d with users := users }
  | issues (user : Uuid) (parent : Option RefreshHash) (hash : RefreshHash)
      (fresh : Fresh d.log hash) :
      Effect r d (.signingIn user parent) (.answered 200) { d with
        sessions := d.sessions.set hash user
        log := .issued r parent hash user :: d.log }
  | deletes (hash : RefreshHash) (user : Uuid) :
      Effect r d (.refreshRead hash user) (.refreshDeleted hash user) { d with
        sessions := d.sessions.pop hash
        log := .deleted r hash :: d.log }
  | logsOut (hash : RefreshHash) :
      Effect r d (.loggingOut hash) (.answered 204) { d with
        sessions := d.sessions.pop hash
        log := .loggedOut r hash :: d.log }
  | changes (user : Uuid) (newHash : String) (users : List UserRow) :
      Effect r d (.changeVerified user newHash) (.changeUpdated user) { d with
        users := users
        log := .changed r user :: d.log }
  | lists (user : Uuid) (keys : List RefreshHash) (all : keys.Perm (d.sessions.map Prod.fst)) :
      Effect r d (.changeUpdated user) (changeLoop user keys) { d with
        log := .listed r user :: d.log }
  | removes (key : RefreshHash) (phase phase' : Phase) (h : Removes key phase phase') :
      Effect r d phase phase' { d with sessions := d.sessions.pop key }

theorem findById_id {users : List UserRow} {id : Uuid} {row : UserRow}
    (h : findById users id = some row) : row.id = id := by
  have hrow := List.find?_some h
  simp only [Bool.and_eq_true, decide_eq_true_eq] at hrow
  exact hrow.1

section Advance

variable {pkg : Packages} {r : Nat} {draw : Draw} {d d' : Data} {phase phase' : Phase}

/-- **What the next command of a request does.** -/
theorem advance_effect (h : advance pkg r draw d phase = some (phase', d')) :
    Effect r d phase phase' d' := by
  have reject : ∀ {phase} {e : AppError}, some (Phase.failed e, d) = some (phase', d') →
      phase.done = false → Effect r d phase phase' d' := by
    rintro phase e ⟨⟩ hdone
    exact .reads phase _ d.users (.reject phase e hdone)
  cases phase with
  | registering body =>
    simp only [advance] at h
    split_ifs at h
    · exact reject h rfl
    · obtain ⟨rfl, rfl⟩ := Prod.mk.inj (Option.some.inj h)
      exact .reads _ _ _ (.register body draw.id)
  | loggingIn body =>
    simp only [advance] at h
    split at h
    · exact reject h rfl
    · next row _ =>
      split_ifs at h
      · obtain ⟨rfl, rfl⟩ := Prod.mk.inj (Option.some.inj h)
        exact .reads _ _ d.users (.login body row.id)
      · exact reject h rfl
  | signingIn user parent =>
    simp only [advance] at h
    split_ifs at h with hfresh
    obtain ⟨rfl, rfl⟩ := Prod.mk.inj (Option.some.inj h)
    exact .issues user parent draw.refreshHash hfresh
  | refreshing hash =>
    simp only [advance] at h
    split at h
    · exact reject h rfl
    · next user hstored =>
      obtain ⟨rfl, rfl⟩ := Prod.mk.inj (Option.some.inj h)
      exact .reads _ _ d.users (.redeem hash user hstored)
  | refreshRead hash user =>
    obtain ⟨rfl, rfl⟩ := Prod.mk.inj (Option.some.inj h)
    exact .deletes hash user
  | refreshDeleted hash user =>
    simp only [advance] at h
    split at h
    · exact reject h rfl
    · next row hrow =>
      obtain ⟨rfl, rfl⟩ := Prod.mk.inj (Option.some.inj h)
      rw [findById_id hrow]
      exact .reads _ _ d.users (.rotate hash user)
  | loggingOut hash =>
    obtain ⟨rfl, rfl⟩ := Prod.mk.inj (Option.some.inj h)
    exact .logsOut hash
  | changing user body =>
    simp only [advance] at h
    split at h
    · exact reject h rfl
    · next row hrow =>
      split_ifs at h
      · obtain ⟨rfl, rfl⟩ := Prod.mk.inj (Option.some.inj h)
        rw [findById_id hrow]
        exact .reads _ _ d.users (.verify user body _)
      · exact reject h rfl
  | changeVerified user newHash =>
    obtain ⟨rfl, rfl⟩ := Prod.mk.inj (Option.some.inj h)
    exact .changes user newHash _
  | changeUpdated user =>
    simp only [advance] at h
    split_ifs at h with hall
    obtain ⟨rfl, rfl⟩ := Prod.mk.inj (Option.some.inj h)
    exact .lists user draw.keys hall
  | changeReading user key keys =>
    simp only [advance] at h
    split_ifs at h with hkey
    · obtain ⟨rfl, rfl⟩ := Prod.mk.inj (Option.some.inj h)
      exact .reads _ _ d.users (.pick user key keys)
    · obtain ⟨rfl, rfl⟩ := Prod.mk.inj (Option.some.inj h)
      exact .reads _ _ d.users (.skip user key keys hkey)
  | changeMatched user key keys =>
    obtain ⟨rfl, rfl⟩ := Prod.mk.inj (Option.some.inj h)
    exact .removes key _ _ (.changed user key keys)
  | deleting user cookie body =>
    simp only [advance] at h
    split at h
    · exact reject h rfl
    · next row hrow =>
      split_ifs at h
      · obtain ⟨rfl, rfl⟩ := Prod.mk.inj (Option.some.inj h)
        rw [findById_id hrow]
        exact .reads _ _ d.users (.close user cookie body)
      · exact reject h rfl
  | deactivating user cookie =>
    cases cookie with
    | none =>
      obtain ⟨rfl, rfl⟩ := Prod.mk.inj (Option.some.inj h)
      exact .reads _ _ _ (.closed user)
    | some hash =>
      obtain ⟨rfl, rfl⟩ := Prod.mk.inj (Option.some.inj h)
      exact .reads _ _ _ (.forget user hash)
  | deactivated hash =>
    obtain ⟨rfl, rfl⟩ := Prod.mk.inj (Option.some.inj h)
    exact .removes hash _ _ (.closed hash)
  | idle => cases h
  | answered status => cases h
  | failed e => cases h

/-- A request with a next command is not done. -/
theorem Effect.not_done (h : Effect r d phase phase' d') : phase.done = false := by
  cases h with
  | reads _ _ _ h =>
    cases h with
    | reject phase e h => exact h
    | _ => rfl
  | removes _ _ _ h => cases h <;> rfl
  | _ => rfl

end Advance

/-- The request whose next command is executed. -/
def Action.command : Action → Option Nat
  | .next r _ => some r
  | .lose r _ => some r
  | _ => none

/-- A request that ends with an error. -/
def State.fail (s : State) (r : Nat) : State :=
  { s with phase := Function.update s.phase r (.failed .other) }

/-- **Step rule.**  An action preserves what a command, the failure of a request, its arrival, the
    end of a session and a change of the accounts preserve; a lost reply is a command and then a
    failure. -/
theorem step_preserves {pkg : Packages} {P : State → Prop} {s t : State} {a : Action} (hs : P s)
    (hfail : ∀ u r, P u → P (u.fail r))
    (hbegin : ∀ r req, s.phase r = .idle →
      P { s with phase := Function.update s.phase r (arrive pkg req) })
    (heffect : ∀ r phase data, a.command = some r → Effect r s.data (s.phase r) phase data →
      P ⟨data, Function.update s.phase r phase⟩)
    (hexpire : ∀ hash, P { s with data := { s.data with sessions := s.data.sessions.pop hash } })
    (husers : ∀ users, P { s with data := { s.data with users := users } })
    (h : step pkg s a = some t) : P t := by
  cases a with
  | begin r req =>
    obtain ⟨hidle, ht⟩ := Option.ite_none_right_eq_some.mp h
    exact Option.some.inj ht ▸ hbegin r req hidle
  | next r draw =>
    obtain ⟨⟨phase, data⟩, hadvance, rfl⟩ := Option.map_eq_some_iff.mp h
    exact heffect r phase data rfl (advance_effect hadvance)
  | lose r draw =>
    obtain ⟨⟨phase, data⟩, hadvance, rfl⟩ := Option.map_eq_some_iff.mp h
    have hlost := hfail _ r (heffect r phase data rfl (advance_effect hadvance))
    unfold State.fail at hlost
    rw [Function.update_idem] at hlost
    exact hlost
  | fail r =>
    obtain ⟨_, ht⟩ := Option.ite_none_left_eq_some.mp h
    exact Option.some.inj ht ▸ hfail s r hs
  | expire hash => exact Option.some.inj h ▸ hexpire hash
  | moderate user active => exact Option.some.inj h ▸ husers _

/-! ### Every session was issued -/

/-- The token was issued to the user. -/
def Issued (log : List Event) (hash : RefreshHash) (user : Uuid) : Prop :=
  ∃ r parent, Event.issued r parent hash user ∈ log

theorem Issued.mono {log log' : List Event} {hash : RefreshHash} {user : Uuid}
    (h : Issued log hash user) (hsub : log ⊆ log') : Issued log' hash user := by
  obtain ⟨r, parent, hmem⟩ := h
  exact ⟨r, parent, hsub hmem⟩

theorem issued_cons {e : Event} {log : List Event} {hash : RefreshHash} {user : Uuid} :
    Issued (e :: log) hash user
      ↔ (∃ r parent, e = .issued r parent hash user) ∨ Issued log hash user := by
  simp only [Issued, List.mem_cons, exists_or, eq_comm]

theorem Fresh.not_issued {log : List Event} {hash : RefreshHash} {user : Uuid}
    (h : Fresh log hash) : ¬ Issued log hash user := by
  rintro ⟨r, parent, hmem⟩
  exact h _ hmem (by simp [Event.hashes])

/-- The token that a refresh has read, and its user. -/
def Phase.session : Phase → Option (RefreshHash × Uuid)
  | .refreshRead hash user => some (hash, user)
  | .refreshDeleted hash user => some (hash, user)
  | .signingIn user parent => parent.map fun hash => (hash, user)
  | _ => none

@[simp] theorem session_changeLoop (user : Uuid) (keys : List RefreshHash) :
    (changeLoop user keys).session = none := by
  cases keys <;> rfl

@[simp] theorem session_arrive (pkg : Packages) (req : Request) :
    (arrive pkg req).session = none := by
  unfold arrive
  split <;> try rfl
  · split <;> rfl
  · split <;> rfl

/-- The sessions, and those that refreshes have read, were issued to one user each. -/
structure Sound (s : State) : Prop where
  stored : ∀ hash user, s.data.sessions.get hash = some user → Issued s.data.log hash user
  owner : ∀ hash user user', Issued s.data.log hash user → Issued s.data.log hash user' → user = user'
  held : ∀ r hash user, (s.phase r).session = some (hash, user) → Issued s.data.log hash user

theorem sound_initial (users : List UserRow) : Sound (initial users) where
  stored hash user h := by cases h
  owner hash user user' h := by
    obtain ⟨r, parent, hmem⟩ := h
    cases hmem
  held r hash user h := by cases h

/-- A phase that holds a token which was issued can take the place of another. -/
theorem held_update {log log' : List Event} {phase : Nat → Phase} {r : Nat} {new : Phase}
    (hheld : ∀ q hash user, (phase q).session = some (hash, user) → Issued log hash user)
    (hsub : log ⊆ log')
    (hnew : ∀ hash user, new.session = some (hash, user) → Issued log' hash user) :
    ∀ q hash user, (Function.update phase r new q).session = some (hash, user) →
      Issued log' hash user := by
  refine (Function.forall_update_iff phase fun _ new => ∀ hash user,
    new.session = some (hash, user) → Issued log' hash user).mpr ⟨hnew, ?_⟩
  intro q _ hash user h
  exact (hheld q hash user h).mono hsub

/-- A command that stores no session keeps them sound. -/
theorem Sound.of_pop {s : State} (hs : Sound s) {data : Data} {r : Nat} {new : Phase}
    (hsessions : ∀ hash user, data.sessions.get hash = some user →
      s.data.sessions.get hash = some user)
    (hlog : ∀ hash user, Issued data.log hash user ↔ Issued s.data.log hash user)
    (hsub : s.data.log ⊆ data.log)
    (hnew : ∀ hash user, new.session = some (hash, user) → Issued s.data.log hash user) :
    Sound ⟨data, Function.update s.phase r new⟩ where
  stored hash user h := (hlog hash user).mpr (hs.stored hash user (hsessions hash user h))
  owner hash user user' h h' := hs.owner hash user user' ((hlog _ _).mp h) ((hlog _ _).mp h')
  held := held_update hs.held hsub fun hash user h => (hlog hash user).mpr (hnew hash user h)

theorem get_of_get_pop {sessions : OrderedDict RefreshHash Uuid} {key hash : RefreshHash}
    {user : Uuid} (h : (sessions.pop key).get hash = some user) : sessions.get hash = some user := by
  rw [OrderedDict.get_pop] at h
  split_ifs at h
  exact h

theorem get_pop_eq_none {sessions : OrderedDict RefreshHash Uuid} {hash : RefreshHash}
    (h : sessions.get hash = none) (key : RefreshHash) : (sessions.pop key).get hash = none := by
  rw [OrderedDict.get_pop, h, ite_self]

/-- The token of a new phase is one that the old phase held, or one that is stored. -/
theorem Reads.session {d : Data} {phase phase' : Phase} (h : Reads d phase phase')
    {hash : RefreshHash} {user : Uuid} (hsession : phase'.session = some (hash, user)) :
    phase.session = some (hash, user) ∨ d.sessions.get hash = some user := by
  cases h with
  | redeem token owner stored =>
    obtain ⟨rfl, rfl⟩ := Prod.mk.inj (Option.some.inj hsession)
    exact .inr stored
  | rotate token owner => exact .inl hsession
  | skip => rw [session_changeLoop] at hsession; cases hsession
  | _ => cases hsession

theorem Removes.session {key : RefreshHash} {phase phase' : Phase} (h : Removes key phase phase') :
    phase'.session = none := by
  cases h with
  | changed user key keys => exact session_changeLoop user keys
  | closed hash => rfl

/-- **Step lemma.** -/
theorem step_sound {pkg : Packages} {s t : State} {a : Action} (hs : Sound s)
    (h : step pkg s a = some t) : Sound t := by
  refine step_preserves hs ?_ ?_ ?_ ?_ ?_ h
  · intro u r hu
    exact hu.of_pop (fun _ _ h => h) (fun _ _ => Iff.rfl) (List.Subset.refl _) (by simp [Phase.session])
  · intro r req _
    refine hs.of_pop (fun _ _ h => h) (fun _ _ => Iff.rfl) (List.Subset.refl _) fun hash user h => ?_
    rw [session_arrive] at h
    cases h
  · intro r phase data _ heffect
    have hold := hs.held r
    generalize s.phase r = old at heffect hold
    cases heffect with
    | reads _ _ users hreads =>
      refine hs.of_pop (fun _ _ h => h) (fun _ _ => Iff.rfl) (List.Subset.refl _) fun hash user h => ?_
      rcases hreads.session h with hheld | hstored
      · exact hold hash user hheld
      · exact hs.stored hash user hstored
    | issues owner parent token fresh =>
      refine ⟨fun hash user h => ?_, fun hash user user' h h' => ?_, ?_⟩
      · rw [OrderedDict.get_set] at h
        split_ifs at h with heq
        · obtain rfl := Option.some.inj h
          exact issued_cons.mpr (.inl ⟨r, parent, by rw [heq]⟩)
        · exact issued_cons.mpr (.inr (hs.stored hash user h))
      · rcases issued_cons.mp h with ⟨q, p, he⟩ | hold
        · injection he with _ _ hhash huser
          subst hhash huser
          rcases issued_cons.mp h' with ⟨_, _, he'⟩ | hold'
          · injection he'
          · exact absurd hold' fresh.not_issued
        · rcases issued_cons.mp h' with ⟨_, _, he'⟩ | hold'
          · injection he' with _ _ hhash huser
            subst hhash
            exact absurd hold fresh.not_issued
          · exact hs.owner hash user user' hold hold'
      · exact held_update hs.held (List.subset_cons_self _ _) (by simp [Phase.session])
    | deletes token owner =>
      refine hs.of_pop (fun _ _ h => get_of_get_pop h) (fun _ _ => by simp [issued_cons])
        (List.subset_cons_self _ _) fun hash user h => hold hash user h
    | logsOut token =>
      exact hs.of_pop (fun _ _ h => get_of_get_pop h) (fun _ _ => by simp [issued_cons])
        (List.subset_cons_self _ _) (by simp [Phase.session])
    | changes user newHash users =>
      exact hs.of_pop (fun _ _ h => h) (fun _ _ => by simp [issued_cons])
        (List.subset_cons_self _ _) (by simp [Phase.session])
    | lists user keys all =>
      exact hs.of_pop (fun _ _ h => h) (fun _ _ => by simp [issued_cons])
        (List.subset_cons_self _ _) (by simp)
    | removes key _ _ hremoves =>
      exact hs.of_pop (fun _ _ h => get_of_get_pop h) (fun _ _ => Iff.rfl) (List.Subset.refl _)
        (by simp [hremoves.session])
  · intro hash
    exact ⟨fun _ _ h => hs.stored _ _ (get_of_get_pop h), hs.owner, hs.held⟩
  · intro users
    exact ⟨hs.stored, hs.owner, hs.held⟩

end Oecophylla.Auth
