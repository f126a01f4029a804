import Oecophylla.Json
import Oecophylla.Lib.OrderedDict
import Oecophylla.Lib.Run
import Oecophylla.Lib.SingleFlight

namespace Oecophylla.Frontend.ApiFetch

/-!
# Requests that refresh the session — `api.ts`

A call of `apiFetch` that is answered with 401 waits for the refresh of the session, the one under way
if there is one, and sends its request once more if the refresh went well.

`refreshLocks` is a `WeakMap` under the function that sends the requests.  Calls share a refresh only if
they were made with the same `fetchImpl`: the routes call with the `fetch` of the page, the telemetry
client with one that it binds for itself, and each of the two may refresh while the other does.  So the
state is that of one `fetchImpl` (`Page`), and the browser (`Browser`) has one for every function that
is used.

* `Page.step` — a call, an answer, or one of the continuations that an answer leaves;
* `Page.Sound` — what holds of the calls, the refreshes and the requests after any steps;
* `Page.calls_settle` — no call waits forever for another one;
* `Browser.step` — a step of one `fetchImpl`; it changes nothing for the others (`Lib.run_at`);
* `Browser.requests_of_calls` — for each `fetchImpl`: one refresh at a time, one retry at most, and only
  after a refresh.
-/

open Lib

/-! ### Requests and responses -/

/-- The body of a request: a text, or the parts of a `FormData`. -/
inductive Body where
  | text (s : String)
  | formData (parts : List (String × String))
  deriving DecidableEq, Repr

/-- `ApiFetchInit`. -/
structure Init where
  method : Option String := none
  credentials : Option String := none
  headers : OrderedDict String String := []
  body : Option Body := none
  deriving DecidableEq, Repr

/-- What `fetchImpl` is called with. -/
structure Request where
  target : String
  method : Option String
  credentials : String
  headers : OrderedDict String String
  body : Option Body
  deriving DecidableEq, Repr

/-- `path.startsWith(start)`. -/
def startsWith (path start : String) : Bool := start.toList.isPrefixOf path.toList

def getTarget (path : String) : String :=
  if startsWith path "/admin" then path else "/api/v1" ++ path

/-- A form sets its own content type. -/
def defaultHeaders (init : Init) : OrderedDict String String :=
  match init.body with
  | some (.formData _) => [("x-requested-with", "oec-web")]
  | _ => [("x-requested-with", "oec-web"), ("content-type", "application/json")]

def withDefaultHeaders (target : String) (init : Init) : Request where
  target := target
  method := init.method
  credentials := init.credentials.getD "include"
  headers := init.headers.foldl (fun headers h => headers.set h.1 h.2) (defaultHeaders init)
  body := init.body

def canRefresh (path : String) : Bool :=
  !startsWith path "/auth/login" && !startsWith path "/auth/register"
    && !startsWith path "/auth/logout" && !startsWith path "/auth/refresh"

/-- The request of `refreshSession`. -/
def refreshRequest : Request where
  target := "/api/v1/auth/refresh"
  method := some "POST"
  credentials := "include"
  headers := [("x-requested-with", "oec-web")]
  body := none

/-- `response.ok`. -/
def isOk (status : Nat) : Bool := 200 ≤ status && status ≤ 299

/-- A response; its text is `none` when it cannot be read. -/
structure Response where
  status : Nat
  text : Option String
  deriving DecidableEq, Repr

/-- How a call ends. -/
inductive Result where
  | value (v : Option Json)
  | apiException (status : Nat) (code : Json) (details : Option Json)
  | rejected

/-- `value?.name`. -/
def member (value : Option Json) (name : String) : Option Json :=
  match value with
  | some (.obj fields) => Object.get fields name
  | _ => none

/-- `value ?? other`. -/
def orElse (value : Option Json) (other : Json) : Json :=
  match value with
  | none | some .null => other
  | some v => v

/-- What `apiFetch` makes of the response that it does not refresh for. -/
def conclude (parse : String → Option Json) (res : Response) : Result :=
  if isOk res.status then
    match res.text with
    | none => .rejected
    | some text =>
      if text = "" then .value none
      else match parse text with
        | none => .rejected
        | some v => .value (some v)
  else
    let error := member (res.text.bind parse) "error"
    .apiException res.status (orElse (member error "code") (.str "UNKNOWN")) (member error "details")

/-- `PREFERENCE_ACTION_PATH`, for the methods that `notifyPreferenceAction` looks at. -/
def isPreferenceAction (path : String) (method : Option String) : Bool :=
  (method == some "POST" || method == some "DELETE")
    && match path.toList.splitOn '/' with
      | [start, posts, id, action] =>
        start.isEmpty && posts == "posts".toList && !id.isEmpty
          && ["like".toList, "save".toList, "share".toList, "comments".toList].contains action
      | _ => false

/-! ### The calls made with one `fetchImpl` -/

/-- Where a call stands. -/
inductive Phase where
  /-- `await fetchImpl(…)`, in a call with the given `allowRefresh`. -/
  | fetching (allowRefresh : Bool)
  /-- `await refreshSession(fetchImpl)` with the response 401; `creates` in the call that sent it. -/
  | awaiting (p : Nat) (creates : Bool) (res : Response)
  | done (r : Result)

/-- A call of `apiFetch`, and the refresh that it joined. -/
structure Call where
  path : String
  init : Init
  phase : Phase
  joined : Option Nat := none

namespace Call

def request (c : Call) : Request := withDefaultHeaders (getTarget c.path) c.init

end Call

/-- Who sends a request. -/
inductive Sender where
  | call (i : Nat)
  | refresh (p : Nat)
  deriving DecidableEq, Repr

/-- What was done with one `fetchImpl`: its calls and refreshes, the requests sent so far, and the calls
    whose preference action was announced.  The lock of the refreshes is `refreshLocks.get(fetchImpl)`.
    A refresh brings `response.ok`, or nothing when `fetchImpl` rejects. -/
structure Page where
  calls : List Call := []
  refreshes : Flights (Option Bool) := {}
  sent : List (Sender × Request) := []
  notified : List Nat := []

/-- What happens with one `fetchImpl`. -/
inductive Action where
  | apiFetch (path : String) (init : Init) (allowRefresh : Bool)
  /-- The response of a call, none when `fetchImpl` rejects. -/
  | answer (i : Nat) (res : Option Response)
  /-- A call of `refreshSession(fetchImpl)` from elsewhere, as the client of the telemetry makes with the
      `fetch` that it binds for itself. -/
  | refreshSession
  /-- The status of a refresh, none when `fetchImpl` rejects. -/
  | refreshed (p : Nat) (status : Option Nat)
  /-- `finally { refreshLocks.delete(fetchImpl) }`. -/
  | release (p : Nat)
  /-- The continuation of `await refreshSession(fetchImpl)` in a call. -/
  | resume (i : Nat)

namespace Page

/-- The requests of a sender, in order. -/
def sentBy (s : Page) (who : Sender) : List Request :=
  (s.sent.filter fun e => e.1 = who).map fun e => e.2

/-- `refreshSession(fetchImpl)` up to its await. -/
def joinRefresh (s : Page) : Page × Nat × Bool :=
  let (refreshes, p, creates) := s.refreshes.join
  ({ s with
      refreshes
      sent := s.sent ++ if creates then [(.refresh p, refreshRequest)] else [] }, p, creates)

/-- A call ends with a response; a successful one is announced first. -/
def finish (parse : String → Option Json) (s : Page) (i : Nat) (c : Call) (res : Response) : Page :=
  { s with
    calls := s.calls.set i { c with phase := .done (conclude parse res) }
    notified := s.notified ++
      if isOk res.status && isPreferenceAction c.path c.init.method then [i] else [] }

/-- One step. -/
def step (parse : String → Option Json) (s : Page) : Action → Option Page
  | .apiFetch path init allowRefresh =>
    let c : Call := ⟨path, init, .fetching allowRefresh, none⟩
    some { s with
      calls := s.calls ++ [c]
      sent := s.sent ++ [(.call s.calls.length, c.request)] }
  | .answer i res =>
    match s.calls[i]? with
    | some c =>
      match c.phase, res with
      | .fetching _, none => some { s with calls := s.calls.set i { c with phase := .done .rejected } }
      | .fetching allowRefresh, some res =>
        if res.status = 401 ∧ allowRefresh = true ∧ canRefresh c.path = true then
          let (t, p, creates) := s.joinRefresh
          some { t with
            calls := t.calls.set i { c with phase := .awaiting p creates res, joined := some p } }
        else some (s.finish parse i c res)
      | _, _ => none
    | none => none
  | .refreshSession => some s.joinRefresh.1
  | .refreshed p status =>
    (s.refreshes.land p (status.map isOk)).map fun refreshes => { s with refreshes }
  | .release p => (s.refreshes.release p).map fun refreshes => { s with refreshes }
  | .resume i =>
    match s.calls[i]? with
    | some c =>
      match c.phase with
      | .awaiting p creates res =>
        match s.refreshes.flights[p]? with
        | some ⟨some outcome, released⟩ =>
          -- The call that sent the refresh gives the lock back before it goes on.
          if creates = true ∧ released = false then none
          else match outcome with
            | some true =>
              some { s with
                calls := s.calls.set i { c with phase := .fetching false }
                sent := s.sent ++ [(.call i, c.request)] }
            | some false => some (s.finish parse i c res)
            | none => some { s with calls := s.calls.set i { c with phase := .done .rejected } }
        | _ => none
      | _ => none
    | none => none

/-! ### What holds of the calls -/

/-- The call sent its request again, after a refresh that went well. -/
def Retried (s : Page) (i : Nat) (c : Call) : Prop :=
  ∃ p, c.joined = some p ∧ s.refreshes.outcome p = some (some true)
    ∧ s.sentBy (.call i) = [c.request, c.request]

/-- The refresh of the call brought nothing, and the call ended with that. -/
def TurnedDown (s : Page) (i : Nat) (c : Call) (r : Result) : Prop :=
  ∃ p, c.joined = some p ∧ s.sentBy (.call i) = [c.request]
    ∧ (s.refreshes.outcome p = some none ∧ r = .rejected
      ∨ s.refreshes.outcome p = some (some false) ∧ ∃ code details, r = .apiException 401 code details)

/-- The call joined no refresh. -/
def SentOnce (s : Page) (i : Nat) (c : Call) : Prop :=
  c.joined = none ∧ s.sentBy (.call i) = [c.request]

/-- The requests of a call, from where it stands. -/
def Requested (s : Page) (i : Nat) (c : Call) : Prop :=
  match c.phase with
  | .fetching allowRefresh => s.SentOnce i c ∨ allowRefresh = false ∧ s.Retried i c
  | .awaiting p _ res =>
    c.joined = some p ∧ p < s.refreshes.flights.length ∧ res.status = 401
      ∧ s.sentBy (.call i) = [c.request]
  | .done r => s.SentOnce i c ∨ s.Retried i c ∨ s.TurnedDown i c r

/-- Whether the preference action of a call was announced. -/
def Announced (s : Page) (i : Nat) (c : Call) : Prop :=
  match c.phase with
  | .done (.value _) => i ∈ s.notified ↔ isPreferenceAction c.path c.init.method = true
  | .done .rejected => i ∈ s.notified → isPreferenceAction c.path c.init.method = true
  | _ => i ∉ s.notified

/-- The state of one call. -/
structure CallSound (s : Page) (i : Nat) (c : Call) : Prop where
  requested : s.Requested i c
  announced : s.Announced i c
  refreshable : c.joined.isSome = true → canRefresh c.path = true

/-- **Invariant.** -/
structure Sound (s : Page) : Prop where
  single : s.refreshes.Single
  refreshed : ∀ p, s.sentBy (.refresh p)
    = if p < s.refreshes.flights.length then [refreshRequest] else []
  calls : ∀ i c, s.calls[i]? = some c → s.CallSound i c
  fresh : ∀ i, s.calls.length ≤ i → s.sentBy (.call i) = [] ∧ i ∉ s.notified
  once : s.notified.Nodup

variable {parse : String → Option Json} {s t : Page} {i j : Nat} {c c' : Call}

theorem sentBy_append (extra : List (Sender × Request)) (who : Sender)
    (ht : t.sent = s.sent ++ extra) :
    t.sentBy who = s.sentBy who ++ (extra.filter fun e => e.1 = who).map fun e => e.2 := by
  simp [sentBy, ht]

/-- The state of a call depends on its own requests, and on what the refreshes brought. -/
theorem CallSound.frame (h : s.CallSound j c) (hsent : t.sentBy (.call j) = s.sentBy (.call j))
    (hnotified : j ∈ t.notified ↔ j ∈ s.notified)
    (hlength : s.refreshes.flights.length ≤ t.refreshes.flights.length)
    (houtcome : ∀ p v, s.refreshes.outcome p = some v → t.refreshes.outcome p = some v) :
    t.CallSound j c := by
  have honce (h : s.SentOnce j c) : t.SentOnce j c := ⟨h.1, hsent.trans h.2⟩
  have hretried (h : s.Retried j c) : t.Retried j c := by
    obtain ⟨p, hjoined, hp, hrequests⟩ := h
    exact ⟨p, hjoined, houtcome p _ hp, hsent.trans hrequests⟩
  have hturned (r : Result) (h : s.TurnedDown j c r) : t.TurnedDown j c r := by
    obtain ⟨p, hjoined, hrequests, hp⟩ := h
    exact ⟨p, hjoined, hsent.trans hrequests,
      hp.imp (fun hp => ⟨houtcome p _ hp.1, hp.2⟩) fun hp => ⟨houtcome p _ hp.1, hp.2⟩⟩
  refine ⟨?_, ?_, h.refreshable⟩
  · have hrequested := h.requested
    unfold Requested at hrequested ⊢
    cases hphase : c.phase with
    | fetching allowRefresh =>
      rw [hphase] at hrequested
      exact hrequested.imp honce fun hrequested => ⟨hrequested.1, hretried hrequested.2⟩
    | awaiting p creates res =>
      rw [hphase] at hrequested
      obtain ⟨hjoined, hp, hres, hrequests⟩ := hrequested
      exact ⟨hjoined, lt_of_lt_of_le hp hlength, hres, hsent.trans hrequests⟩
    | done r =>
      rw [hphase] at hrequested
      exact hrequested.imp honce (Or.imp hretried (hturned r))
  · have hannounced := h.announced
    unfold Announced at hannounced ⊢
    rwa [hnotified]

/-- A call goes on, and sends requests of its own. -/
theorem Sound.update (h : s.Sound) (hi : s.calls[i]? = some c) (reqs : List Request) (ns : List Nat)
    (hcalls : t.calls = s.calls.set i c') (hrefreshes : t.refreshes = s.refreshes)
    (hsent : t.sent = s.sent ++ reqs.map fun r => (.call i, r)) (hnotified : t.notified = s.notified ++ ns)
    (hns : ns = [] ∨ ns = [i] ∧ i ∉ s.notified) (hc : t.CallSound i c') : t.Sound := by
  have hlt : i < s.calls.length := (List.getElem?_eq_some_iff.mp hi).1
  have hother (who : Sender) (hwho : who ≠ .call i) : t.sentBy who = s.sentBy who := by
    rw [sentBy_append _ who hsent]
    simp [List.filter_eq_nil_iff, hwho.symm]
  have hmem (j : Nat) (hj : j ≠ i) : j ∈ t.notified ↔ j ∈ s.notified := by
    rw [hnotified]
    rcases hns with rfl | ⟨rfl, -⟩ <;> simp [hj]
  refine ⟨hrefreshes ▸ h.single, fun p => ?_, fun j d hd => ?_, fun j hj => ?_, ?_⟩
  · rw [hother (.refresh p) (by simp), h.refreshed p, hrefreshes]
  · rcases eq_or_ne j i with rfl | hne
    · rw [hcalls, List.getElem?_set_self hlt] at hd
      exact Option.some.inj hd ▸ hc
    · rw [hcalls, List.getElem?_set_ne hne.symm] at hd
      refine (h.calls j d hd).frame (hother (.call j) (by simpa using hne)) (hmem j hne) ?_ ?_
      · rw [hrefreshes]
      · rw [hrefreshes]
        exact fun p v hp => hp
  · have hlength : s.calls.length ≤ j := by simpa [hcalls] using hj
    have hne : j ≠ i := by omega
    rw [hother (.call j) (by simpa using hne), hmem j hne]
    exact h.fresh j hlength
  · rw [hnotified]
    rcases hns with rfl | ⟨rfl, hi⟩
    · simpa using h.once
    · refine List.nodup_append.mpr ⟨h.once, List.nodup_singleton i, ?_⟩
      rintro a ha b hb rfl
      exact hi (List.mem_singleton.mp hb ▸ ha)

/-- The refreshes go on; no call does. -/
theorem Sound.refreshes (h : s.Sound) {refreshes : Flights (Option Bool)} (hsingle : refreshes.Single)
    (hlength : refreshes.flights.length = s.refreshes.flights.length)
    (houtcome : ∀ p v, s.refreshes.outcome p = some v → refreshes.outcome p = some v) :
    Sound { s with refreshes } where
  single := hsingle
  refreshed p := by
    show s.sentBy (.refresh p) = _
    rw [h.refreshed p, hlength]
  calls j d hd := (h.calls j d hd).frame rfl Iff.rfl hlength.ge houtcome
  fresh := h.fresh
  once := h.once

/-! ### The steps -/

/-- A caller of `refreshSession` sends a refresh if none is under way. -/
theorem sound_joinRefresh (h : s.Sound) : s.joinRefresh.1.Sound := by
  obtain ⟨hlength, hlast⟩ := s.refreshes.length_join
  have happend : s.joinRefresh.1.sent = s.sent ++ if s.refreshes.join.2.2 then
      [(.refresh s.refreshes.join.2.1, refreshRequest)] else [] := rfl
  have hsent (who : Sender) : s.joinRefresh.1.sentBy who
      = s.sentBy who ++ if s.refreshes.join.2.2 = true ∧ Sender.refresh s.refreshes.join.2.1 = who
        then [refreshRequest] else [] := by
    rw [sentBy_append _ who happend]
    cases s.refreshes.join.2.2
    · simp
    · by_cases hwho : Sender.refresh s.refreshes.join.2.1 = who
      · simp [hwho]
      · simp [hwho]
  have hcall (j : Nat) : s.joinRefresh.1.sentBy (.call j) = s.sentBy (.call j) := by
    rw [hsent]
    simp
  have hlengthLe : s.refreshes.flights.length ≤ s.refreshes.join.1.flights.length := by omega
  refine ⟨Flights.single_join h.single, fun p => ?_, fun j d hd => ?_, fun j hj => ?_, h.once⟩
  · show s.joinRefresh.1.sentBy (.refresh p)
      = if p < s.refreshes.join.1.flights.length then [refreshRequest] else []
    rw [hsent, h.refreshed p, hlength]
    cases hcreates : s.refreshes.join.2.2 with
    | false => simp
    | true =>
      -- The new refresh comes after all the others.
      rw [hlast hcreates]
      rcases Nat.lt_trichotomy p s.refreshes.flights.length with hlt | rfl | hgt
      · have hne : s.refreshes.flights.length ≠ p := by omega
        simp [hlt, hne, Nat.lt_succ_of_lt hlt]
      · simp
      · have hne : s.refreshes.flights.length ≠ p := by omega
        have hle : ¬ p < s.refreshes.flights.length + 1 := by omega
        simp [hne, hle, Nat.not_lt_of_gt hgt]
  · exact (h.calls j d hd).frame (hcall j) Iff.rfl hlengthLe fun p v hp => by
      rw [show s.joinRefresh.1.refreshes = s.refreshes.join.1 from rfl, Flights.outcome_join, hp]
  · rw [hcall]
    exact h.fresh j hj

/-- A new call. -/
theorem sound_apiFetch (h : s.Sound) {path : String} {init : Init} {allowRefresh : Bool}
    (ht : s.step parse (.apiFetch path init allowRefresh) = some t) : t.Sound := by
  rw [← Option.some.inj ht]
  obtain ⟨hnone, hunnoticed⟩ := h.fresh s.calls.length le_rfl
  refine ⟨h.single, fun p => ?_, fun j d hd => ?_, fun j hj => ?_, h.once⟩
  · rw [sentBy_append _ _ rfl]
    simpa using h.refreshed p
  · rcases Nat.lt_trichotomy j s.calls.length with hlt | rfl | hgt
    · rw [List.getElem?_append_left hlt] at hd
      refine (h.calls j d hd).frame ?_ Iff.rfl le_rfl fun p v hp => hp
      have hne : s.calls.length ≠ j := by omega
      rw [sentBy_append _ _ rfl]
      simp [hne]
    · obtain rfl : (⟨path, init, .fetching allowRefresh, none⟩ : Call) = d := by simpa using hd
      refine ⟨Or.inl ⟨rfl, ?_⟩, hunnoticed, nofun⟩
      rw [sentBy_append _ _ rfl, hnone]
      simp
    · rw [List.getElem?_eq_none (by simp; omega)] at hd
      cases hd
  · have hlt : s.calls.length < j := by
      have hlength : s.calls.length + 1 ≤ j := by simpa using hj
      omega
    have hne : s.calls.length ≠ j := by omega
    obtain ⟨hnone, hunnoticed⟩ := h.fresh j hlt.le
    refine ⟨?_, hunnoticed⟩
    rw [sentBy_append _ _ rfl, hnone]
    simp [hne]

/-- A call that stands at a response ends with it. -/
theorem sound_finish (h : s.Sound) (hi : s.calls[i]? = some c) {res : Response}
    (hsilent : i ∉ s.notified)
    (hends : s.SentOnce i c ∨ s.Retried i c ∨ s.TurnedDown i c (conclude parse res)) :
    (s.finish parse i c res).Sound := by
  have hrefreshable := (h.calls i c hi).refreshable
  refine h.update hi [] _ rfl rfl (by simp [finish]) rfl ?_ ⟨hends, ?_, hrefreshable⟩
  · split
    · exact Or.inr ⟨rfl, hsilent⟩
    · exact Or.inl rfl
  · -- Only a successful response is announced, whatever its text says.
    have hmem : i ∈ (s.finish parse i c res).notified
        ↔ isOk res.status = true ∧ isPreferenceAction c.path c.init.method = true := by
      simp [finish, hsilent]
    unfold Announced
    rw [hmem]
    cases hok : isOk res.status with
    | false => simp [conclude, hok]
    | true =>
      simp only [conclude, hok, if_true, true_and]
      cases res.text with
      | none => exact id
      | some text =>
        dsimp only
        by_cases hempty : text = ""
        · simp [hempty]
        · rw [if_neg hempty]
          cases parse text with
          | none => exact id
          | some v => trivial

/-- A response arrives: the call ends with it, or waits for a refresh. -/
theorem sound_answer (h : s.Sound) {res : Option Response}
    (ht : s.step parse (.answer i res) = some t) : t.Sound := by
  unfold step at ht
  dsimp only at ht
  split at ht
  · next c hi =>
    have hc := h.calls i c hi
    have hrequested := hc.requested
    have hsilent (allowRefresh : Bool) (hphase : c.phase = .fetching allowRefresh) : i ∉ s.notified := by
      have hannounced := hc.announced
      unfold Announced at hannounced
      rwa [hphase] at hannounced
    split at ht
    · next allowRefresh hphase =>
      unfold Requested at hrequested
      rw [hphase] at hrequested
      obtain rfl := Option.some.inj ht
      refine h.update hi [] [] rfl rfl (by simp) (by simp) (Or.inl rfl) ⟨?_, ?_, hc.refreshable⟩
      · exact hrequested.imp id fun hretried => Or.inl hretried.2
      · exact fun hmem => absurd hmem (hsilent allowRefresh hphase)
    · next allowRefresh res hphase =>
      unfold Requested at hrequested
      rw [hphase] at hrequested
      split at ht
      · next hrefresh =>
        -- A call that may refresh has not done so before.
        have hsent : s.SentOnce i c := by
          refine hrequested.resolve_right fun hretried => ?_
          rw [hretried.1] at hrefresh
          exact Bool.false_ne_true hrefresh.2.1
        obtain rfl := Option.some.inj ht
        have hjoin := sound_joinRefresh h
        have hrequests : s.joinRefresh.1.sentBy (.call i) = [c.request] := by
          have hsame := (hjoin.calls i c hi).requested
          unfold Requested at hsame
          rw [hphase] at hsame
          exact (hsame.resolve_right fun hretried =>
            Bool.false_ne_true (hretried.1 ▸ hrefresh.2.1)).2
        refine hjoin.update hi [] [] rfl rfl (by simp) (by simp) (Or.inl rfl)
          ⟨⟨rfl, h.single.join_lt, hrefresh.1, hrequests⟩, ?_, fun _ => hrefresh.2.2⟩
        exact hsilent allowRefresh hphase
      · obtain rfl := Option.some.inj ht
        exact sound_finish h hi (hsilent allowRefresh hphase)
          (hrequested.imp id fun hretried => Or.inl hretried.2)
    · cases ht
  · cases ht

/-- A refresh has come back, and a call goes on with what it brought. -/
theorem sound_resume (h : s.Sound) (ht : s.step parse (.resume i) = some t) : t.Sound := by
  unfold step at ht
  dsimp only at ht
  split at ht
  · next c hi =>
    split at ht
    · next p creates res hphase =>
      have hc := h.calls i c hi
      have hrequested := hc.requested
      have hsilent := hc.announced
      unfold Requested at hrequested
      unfold Announced at hsilent
      rw [hphase] at hrequested hsilent
      obtain ⟨hjoined, hlt, hres, hrequests⟩ := hrequested
      split at ht
      · next outcome released hp =>
        have houtcome : s.refreshes.outcome p = some outcome := by simp [Flights.outcome, hp]
        split at ht
        · cases ht
        · split at ht
          · obtain rfl := Option.some.inj ht
            refine h.update hi [c.request] [] rfl rfl rfl (by simp) (Or.inl rfl)
              ⟨Or.inr ⟨rfl, p, hjoined, houtcome, ?_⟩, hsilent, hc.refreshable⟩
            rw [sentBy_append [(.call i, c.request)] _ rfl, hrequests]
            simp
            rfl
          · obtain rfl := Option.some.inj ht
            refine sound_finish h hi hsilent (Or.inr (Or.inr ⟨p, hjoined, hrequests, Or.inr ⟨houtcome, ?_⟩⟩))
            have hfails : isOk res.status = false := by rw [hres]; rfl
            unfold conclude
            rw [if_neg (by simp [hfails]), hres]
            exact ⟨_, _, rfl⟩
          · obtain rfl := Option.some.inj ht
            refine h.update hi [] [] rfl rfl (by simp) (by simp) (Or.inl rfl) ⟨?_, ?_, hc.refreshable⟩
            · exact Or.inr (Or.inr ⟨p, hjoined, hrequests, Or.inl ⟨houtcome, rfl⟩⟩)
            · exact fun hmem => absurd hmem hsilent
      · cases ht
    · cases ht
  · cases ht

/-- Every step keeps the invariant. -/
theorem sound_step {a : Action} (h : s.Sound) (ht : s.step parse a = some t) : t.Sound := by
  cases a with
  | apiFetch path init allowRefresh => exact sound_apiFetch h ht
  | answer i res => exact sound_answer h ht
  | refreshSession => exact Option.some.inj ht ▸ sound_joinRefresh h
  | refreshed p status =>
    obtain ⟨refreshes, hland, rfl⟩ := Option.map_eq_some_iff.mp ht
    exact h.refreshes (Flights.single_land h.single hland) (Flights.length_land hland)
      fun q v hq => Flights.outcome_mono_land hland hq
  | release p =>
    obtain ⟨refreshes, hrelease, rfl⟩ := Option.map_eq_some_iff.mp ht
    exact h.refreshes (Flights.single_release h.single hrelease) (Flights.length_release hrelease)
      fun q v hq => by rw [Flights.outcome_of_release hrelease, hq]
  | resume i => exact sound_resume h ht

theorem sound_new : Sound {} where
  single := Flights.single_new
  refreshed := by simp [sentBy]
  calls := by simp
  fresh := by simp [sentBy]
  once := List.nodup_nil

theorem sound_run {as : List Action} (hrun : run (step parse) {} as = some s) : s.Sound :=
  run_invariant (fun _ _ _ h ht => sound_step h ht) sound_new hrun

/-- One refresh is in the air, each was sent once, and who was turned away sent its request again. -/
theorem requests_of_run {as : List Action} (hrun : run (step parse) {} as = some s) :
    (∀ p q, s.refreshes.Pending p → s.refreshes.Pending q → p = q)
      ∧ (∀ p, s.sentBy (.refresh p)
          = if p < s.refreshes.flights.length then [refreshRequest] else [])
      ∧ (∀ i c, s.calls[i]? = some c → s.sentBy (.call i) = [c.request]
          ∨ s.sentBy (.call i) = [c.request, c.request] ∧ canRefresh c.path = true
            ∧ ∃ p, c.joined = some p ∧ s.refreshes.outcome p = some (some true))
      ∧ ∀ i c r p, s.calls[i]? = some c → c.phase = .done r → c.joined = some p →
          (s.refreshes.outcome p = some (some true) ∧ s.sentBy (.call i) = [c.request, c.request])
          ∨ s.sentBy (.call i) = [c.request]
            ∧ (s.refreshes.outcome p = some none ∧ r = .rejected
              ∨ s.refreshes.outcome p = some (some false)
                ∧ ∃ code details, r = .apiException 401 code details) := by
  have h := sound_run hrun
  refine ⟨fun p q => h.single.eq_of_pending, h.refreshed, fun i c hi => ?_, fun i c r p hi hr hp => ?_⟩
  · have hc := h.calls i c hi
    have hretried (hretried : s.Retried i c) : s.sentBy (.call i) = [c.request, c.request]
        ∧ canRefresh c.path = true
        ∧ ∃ p, c.joined = some p ∧ s.refreshes.outcome p = some (some true) := by
      obtain ⟨p, hjoined, hp, hrequests⟩ := hretried
      exact ⟨hrequests, hc.refreshable (by rw [hjoined]; rfl), p, hjoined, hp⟩
    have hrequested := hc.requested
    unfold Requested at hrequested
    cases hphase : c.phase with
    | fetching allowRefresh =>
      rw [hphase] at hrequested
      exact hrequested.imp (fun h => h.2) fun h => hretried h.2
    | awaiting p creates res =>
      rw [hphase] at hrequested
      exact Or.inl hrequested.2.2.2
    | done r =>
      rw [hphase] at hrequested
      rcases hrequested with honce | hagain | ⟨p, -, hrequests, -⟩
      · exact Or.inl honce.2
      · exact Or.inr (hretried hagain)
      · exact Or.inl hrequests
  · have hrequested := (h.calls i c hi).requested
    unfold Requested at hrequested
    rw [hr] at hrequested
    rcases hrequested with honce | ⟨q, hq, hgood, hrequests⟩ | ⟨q, hq, hrequests, hbad⟩
    · rw [honce.1] at hp
      cases hp
    · obtain rfl := Option.some.inj (hp.symm.trans hq)
      exact Or.inl ⟨hgood, hrequests⟩
    · obtain rfl := Option.some.inj (hp.symm.trans hq)
      exact Or.inr ⟨hrequests, hbad⟩

/-- Two calls that are turned away share a refresh, and both send their requests again. -/
def twoCalls : List Action :=
  [.apiFetch "/feed" {} true, .apiFetch "/posts/p1/like" { method := some "POST" } true,
    .answer 0 (some ⟨401, none⟩), .answer 1 (some ⟨401, none⟩), .refreshed 0 (some 204), .release 0,
    .resume 0, .resume 1, .answer 0 (some ⟨200, some ""⟩), .answer 1 (some ⟨201, some ""⟩)]

/-- A preference action is announced once, and only by a call that sent it with success. -/
theorem announced_of_calls {as : List Action} (hrun : run (step parse) {} as = some s) :
    s.notified.Nodup
      ∧ ∀ i c v, s.calls[i]? = some c → c.phase = .done (.value v) →
          (i ∈ s.notified ↔ isPreferenceAction c.path c.init.method = true) := by
  have h := sound_run hrun
  refine ⟨h.once, fun i c v hi hv => ?_⟩
  have hannounced := (h.calls i c hi).announced
  unfold Announced at hannounced
  rwa [hv] at hannounced

/-! ### No call waits forever -/

end Page

/-- The steps that are left to a call, those of the refresh that it may send among them. -/
def Phase.left : Phase → Nat
  | .fetching true => 5
  | .awaiting _ _ _ => 2
  | .fetching false => 1
  | .done _ => 0

/-- The action goes on with what the page has started. -/
def Action.Continues : Action → Prop
  | .apiFetch _ _ _ | .refreshSession => False
  | _ => True

namespace Page

/-- The steps that are left to the page. -/
def left (s : Page) : Nat := (s.calls.map fun c => c.phase.left).sum + s.refreshes.steps

variable {parse : String → Option Json} {s t : Page} {i : Nat} {c c' : Call}

/-- A call goes on, on a page whose refreshes took at most two more steps upon themselves. -/
theorem left_of_set {k : Nat} (hi : s.calls[i]? = some c) (ht : t.calls = s.calls.set i c')
    (hsteps : t.refreshes.steps ≤ s.refreshes.steps + k) (hless : c'.phase.left + k < c.phase.left) :
    t.left < s.left := by
  have hsum := sum_map_set (fun c : Call => c.phase.left) c' hi
  unfold left
  rw [ht]
  omega

theorem left_of_answer {res : Option Response} (ht : s.step parse (.answer i res) = some t) :
    t.left < s.left := by
  unfold step at ht
  dsimp only at ht
  split at ht
  · next c hi =>
    split at ht
    · next allowRefresh hphase =>
      obtain rfl := Option.some.inj ht
      refine left_of_set (k := 0) hi rfl le_rfl ?_
      rw [hphase]
      cases allowRefresh <;> simp [Phase.left]
    · next allowRefresh res hphase =>
      split at ht
      · next hrefresh =>
        obtain rfl := Option.some.inj ht
        refine left_of_set (k := 2) hi rfl Flights.steps_join ?_
        rw [hphase, hrefresh.2.1]
        simp [Phase.left]
      · obtain rfl := Option.some.inj ht
        refine left_of_set (k := 0) hi rfl le_rfl ?_
        rw [hphase]
        cases allowRefresh <;> simp [Phase.left]
    · cases ht
  · cases ht

theorem left_of_resume (ht : s.step parse (.resume i) = some t) : t.left < s.left := by
  unfold step at ht
  dsimp only at ht
  split at ht
  · next c hi =>
    split at ht
    · next p creates res hphase =>
      split at ht
      · split at ht
        · cases ht
        · split at ht <;>
          · obtain rfl := Option.some.inj ht
            refine left_of_set (k := 0) hi rfl le_rfl ?_
            rw [hphase]
            simp [Phase.left]
      · cases ht
    · cases ht
  · cases ht

/-- Every step that starts nothing new leaves less to do. -/
theorem left_of_step {a : Action} (ha : a.Continues) (ht : s.step parse a = some t) : t.left < s.left := by
  cases a with
  | apiFetch path init allowRefresh => cases ha
  | answer i res => exact left_of_answer ht
  | refreshSession => cases ha
  | refreshed p status =>
    obtain ⟨refreshes, hland, rfl⟩ := Option.map_eq_some_iff.mp ht
    have hsteps := Flights.steps_of_land hland
    simp only [left]
    omega
  | release p =>
    obtain ⟨refreshes, hrelease, rfl⟩ := Option.map_eq_some_iff.mp ht
    have hsteps := Flights.steps_of_release hrelease
    simp only [left]
    omega
  | resume i => exact left_of_resume ht

theorem length_le_left {bs : List Action} (hbs : ∀ b ∈ bs, b.Continues)
    (hrun : run (step parse) s bs = some t) : bs.length ≤ s.left := by
  induction bs generalizing s with
  | nil => exact Nat.zero_le _
  | cons b bs ih =>
    obtain ⟨u, hu, hrest⟩ := run_cons_eq_some.mp hrun
    have hless := left_of_step (hbs b List.mem_cons_self) hu
    have hlength := ih (fun b hb => hbs b (List.mem_cons_of_mem _ hb)) hrest
    rw [List.length_cons]
    omega

theorem left_le (s : Page) : s.left ≤ 5 * s.calls.length + 2 * s.refreshes.flights.length := by
  have hcalls : (s.calls.map fun c => c.phase.left).sum ≤ 5 * s.calls.length := by
    induction s.calls with
    | nil => simp
    | cons c l ih =>
      have hc : c.phase.left ≤ 5 := by
        unfold Phase.left
        split <;> omega
      simp only [List.map_cons, List.sum_cons, List.length_cons]
      omega
  have hsteps := s.refreshes.steps_le
  unfold left
  omega

/-- A refresh that has not come back can, and the lock of one that has can be given back. -/
theorem step_of_flight (parse : String → Option Json) {p : Nat} {f : Flight (Option Bool)} (hp : s.refreshes.flights[p]? = some f)
    (hf : f.outcome = none ∨ f.released = false) : ∃ a t, a.Continues ∧ s.step parse a = some t := by
  cases houtcome : f.outcome with
  | none =>
    obtain ⟨refreshes, hland⟩ := Flights.land_of_pending (v := (none : Option Nat).map isOk) hp houtcome
    exact ⟨.refreshed p none, { s with refreshes }, trivial,
      Option.map_eq_some_iff.mpr ⟨refreshes, hland, rfl⟩⟩
  | some v =>
    have hreleased : f.released = false := hf.resolve_left (by simp [houtcome])
    obtain ⟨refreshes, hrelease⟩ := Flights.release_of_landed hp houtcome hreleased
    exact ⟨.release p, { s with refreshes }, trivial,
      Option.map_eq_some_iff.mpr ⟨refreshes, hrelease, rfl⟩⟩

/-- As long as a call is not done, something goes on. -/
theorem step_of_call (parse : String → Option Json) (h : s.Sound) (hi : s.calls[i]? = some c) (hc : ∀ r, c.phase ≠ .done r) :
    ∃ a t, a.Continues ∧ s.step parse a = some t := by
  cases hphase : c.phase with
  | fetching allowRefresh =>
    refine ⟨.answer i none, { s with calls := s.calls.set i { c with phase := .done .rejected } },
      trivial, ?_⟩
    simp [step, hi, hphase]
  | awaiting p creates res =>
    have hrequested := (h.calls i c hi).requested
    unfold Requested at hrequested
    rw [hphase] at hrequested
    obtain ⟨f, hp⟩ : ∃ f, s.refreshes.flights[p]? = some f :=
      ⟨_, List.getElem?_eq_getElem hrequested.2.1⟩
    by_cases hwaits : f.outcome = none ∨ f.released = false
    · exact step_of_flight parse hp hwaits
    · -- The refresh is over: the call goes on with what it brought.
      obtain ⟨outcome, released⟩ := f
      simp only [not_or, Bool.not_eq_false] at hwaits
      obtain ⟨houtcome, rfl⟩ := hwaits
      obtain ⟨v, rfl⟩ := Option.ne_none_iff_exists'.mp houtcome
      cases hstep : s.step parse (.resume i) with
      | some t => exact ⟨.resume i, t, trivial, hstep⟩
      | none =>
        unfold step at hstep
        simp only [hi, hphase, hp, Bool.true_eq_false, and_false, if_false] at hstep
        cases v with
        | none => cases hstep
        | some ok => cases ok <;> cases hstep
  | done r => exact absurd hphase (hc r)

/-- **Every call comes to its end.**  Whatever has been done, the steps that go on with it are few; and
    where none is left, every call is done and nothing holds the lock. -/
theorem calls_settle {as : List Action} (hrun : run (step parse) {} as = some s) :
    (∀ bs t, (∀ b ∈ bs, b.Continues) → run (step parse) s bs = some t →
        bs.length ≤ 5 * s.calls.length + 2 * s.refreshes.flights.length)
      ∧ ((∀ a, a.Continues → s.step parse a = none) →
          s.refreshes.lock = none ∧ ∀ c ∈ s.calls, ∃ r, c.phase = .done r) := by
  have h := sound_run hrun
  refine ⟨fun bs t hbs ht => (length_le_left hbs ht).trans s.left_le, fun hrest => ⟨?_, fun c hc => ?_⟩⟩
  · by_contra hlock
    obtain ⟨p, hp⟩ := Option.ne_none_iff_exists'.mp hlock
    obtain ⟨f, hf⟩ : ∃ f, s.refreshes.flights[p]? = some f :=
      ⟨_, List.getElem?_eq_getElem (h.single.locked p hp)⟩
    obtain ⟨a, t, ha, ht⟩ := step_of_flight parse hf
      (Or.inr ((h.single.holder p f hf).mpr hp))
    rw [hrest a ha] at ht
    cases ht
  · by_contra hdone
    obtain ⟨i, hi⟩ := List.mem_iff_getElem?.mp hc
    obtain ⟨a, t, ha, ht⟩ := step_of_call parse h hi fun r hr => hdone ⟨r, hr⟩
    rw [hrest a ha] at ht
    cases ht

/-- Eight steps end the two calls. -/
theorem calls_settle_twoCalls : ∃ s, run (step fun _ => none) {} (twoCalls.take 2) = some s
    ∧ s.calls.length = 2 ∧ s.refreshes.flights.length = 0 ∧ (twoCalls.drop 2).length ≤ 5 * 2 + 2 * 0 := by
  obtain ⟨s, hrun⟩ : ∃ s, run (step fun _ => none) {} (twoCalls.take 2) = some s :=
    Option.isSome_iff_exists.mp (by decide +kernel)
  have hwhole : (run (step fun _ => none) {} (twoCalls.take 2 ++ twoCalls.drop 2)).isSome := by
    decide +kernel
  obtain ⟨t, ht⟩ := Option.isSome_iff_exists.mp hwhole
  obtain ⟨u, hu, hrest⟩ := run_append.mp ht
  obtain rfl : s = u := Option.some.inj (hrun.symm.trans hu)
  have hcalls : (run (step fun _ => none) {} (twoCalls.take 2)).map
      (fun s => (s.calls.length, s.refreshes.flights.length)) = some (2, 0) := by decide +kernel
  rw [hrun] at hcalls
  obtain ⟨htwo, hnone⟩ := Prod.mk.inj (Option.some.inj hcalls)
  refine ⟨s, hrun, htwo, hnone, ?_⟩
  have hbound := (calls_settle hrun).1 _ t (by simp [twoCalls, Action.Continues]) hrest
  rwa [htwo, hnone] at hbound

end Page

/-! ### The functions of a browser -/

/-- The state of every `fetchImpl`; `κ` tells the function values apart. -/
abbrev Browser (κ : Type) := κ → Page

namespace Browser

variable {κ : Type} [DecidableEq κ] {parse : String → Option Json} {b : Browser κ}

/-- Nothing was called yet. -/
def new : Browser κ := fun _ => {}

/-- Something happens with one of the functions. -/
def step (parse : String → Option Json) : Browser κ → κ × Action → Option (Browser κ) :=
  stepAt (Page.step parse)

/-- **One refresh at a time, and one retry.**  After any steps at most one refresh of a `fetchImpl` is
    in the air, and each was sent once; every call sent its request once, or twice where the refresh
    that it joined went well.  The calls that joined one refresh fare alike. -/
theorem requests_of_calls {as : List (κ × Action)} (hrun : run (step parse) new as = some b) (f : κ) :
    (∀ p q, (b f).refreshes.Pending p → (b f).refreshes.Pending q → p = q)
      ∧ (∀ p, (b f).sentBy (.refresh p)
          = if p < (b f).refreshes.flights.length then [refreshRequest] else [])
      ∧ (∀ i c, (b f).calls[i]? = some c → (b f).sentBy (.call i) = [c.request]
          ∨ (b f).sentBy (.call i) = [c.request, c.request] ∧ canRefresh c.path = true
            ∧ ∃ p, c.joined = some p ∧ (b f).refreshes.outcome p = some (some true))
      ∧ ∀ i c r p, (b f).calls[i]? = some c → c.phase = .done r → c.joined = some p →
          ((b f).refreshes.outcome p = some (some true)
            ∧ (b f).sentBy (.call i) = [c.request, c.request])
          ∨ (b f).sentBy (.call i) = [c.request]
            ∧ ((b f).refreshes.outcome p = some none ∧ r = .rejected
              ∨ (b f).refreshes.outcome p = some (some false)
                ∧ ∃ code details, r = .apiException 401 code details) :=
  Page.requests_of_run (run_at _ hrun f)

/-- The `fetch` of the page, and the one that the client of the telemetry binds for itself. -/
inductive Fetcher where
  | page
  | telemetry
  deriving DecidableEq, Repr

/-- Two calls of the page share a refresh, and the telemetry refreshes while they wait for it. -/
def twoFetchers : List (Fetcher × Action) :=
  [(.page, .apiFetch "/feed" {} true), (.page, .apiFetch "/posts/p1/like" { method := some "POST" } true),
    (.page, .answer 0 (some ⟨401, none⟩)), (.telemetry, .refreshSession),
    (.page, .answer 1 (some ⟨401, none⟩))]

/-- Each of the two functions has its one refresh in the air. -/
theorem requests_of_calls_twoFetchers : ∃ b, run (step fun _ => none) new twoFetchers = some b
    ∧ ∀ f, (b f).refreshes.Pending 0 ∧ (b f).sentBy (.refresh 0) = [refreshRequest]
      ∧ ∀ p, (b f).refreshes.Pending p → p = 0 := by
  obtain ⟨b, hrun⟩ : ∃ b, run (step fun _ => none) new twoFetchers = some b :=
    Option.isSome_iff_exists.mp (by decide +kernel)
  have hflights : (run (step fun _ => none) new twoFetchers).map
      (fun b => ((b .page).refreshes.flights, (b .telemetry).refreshes.flights))
      = some ([⟨none, false⟩], [⟨none, false⟩]) := by decide +kernel
  rw [hrun] at hflights
  obtain ⟨hpage, htelemetry⟩ := Prod.mk.inj (Option.some.inj hflights)
  have hone (f : Fetcher) : (b f).refreshes.flights = [⟨none, false⟩] := by
    cases f with
    | page => exact hpage
    | telemetry => exact htelemetry
  refine ⟨b, hrun, fun f => ?_⟩
  obtain ⟨hsingle, hrefreshed, -⟩ := requests_of_calls hrun f
  have hpending : (b f).refreshes.Pending 0 := ⟨⟨none, false⟩, by rw [hone f]; rfl, rfl⟩
  refine ⟨hpending, ?_, fun p hp => hsingle p 0 hp hpending⟩
  rw [hrefreshed, if_pos (by rw [hone f]; exact Nat.zero_lt_one)]

end Browser

end Oecophylla.Frontend.ApiFetch
