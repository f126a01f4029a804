import Oecophylla.Frontend.Telemetry

namespace Oecophylla.Frontend.Sessions

/-!
# One client a viewer — `getRecommendationTelemetryClient`

The page keeps one telemetry client.  When the viewer or the label version changes, the client is
disposed of and a new one takes its place; the trackers of the old one may still call it, its timeouts
may still fire, and the flush that it waits for goes on.

* `step` — a call of `getRecommendationTelemetryClient`, or what happens to one of the clients;
* `crosses_iff` — no request leaves a disposed client, exactly where none of its sessions is refreshed.
-/

open Telemetry

variable {K : Type*} [Field K] [LinearOrder K] [FloorRing K]

/-- A client with its options. -/
structure Session (K : Type*) where
  opts : ClientOptions
  client : Client K

/-- The clients of the page so far, and the variables of the module. -/
structure Page (K : Type*) where
  sessions : List (Session K) := []
  /-- Which of the clients is the present one. -/
  browserClient : Option Nat := none
  browserViewerId : Option String := none
  browserLabelVersion : LabelVersion := .v1

/-- What happens on a page. -/
inductive Action (K : Type*) where
  /-- `loaded` is the session id, none where the storage is blocked. -/
  | get (labelVersion : LabelVersion) (viewerId : Option String) (loaded : Option String)
  | client (i : Nat) (a : Telemetry.Action K)
  deriving DecidableEq, Repr

namespace Page

/-- The client of another viewer or label version is disposed of. -/
def discardOther (p : Page K) (labelVersion : LabelVersion) (viewerId : Option String) : Page K :=
  match p.browserClient with
  | none => p
  | some i =>
    if p.browserViewerId ≠ viewerId ∨ p.browserLabelVersion ≠ labelVersion then
      { p with
        sessions := p.sessions.modify i fun s => { s with client := s.client.discardPending }
        browserClient := none }
    else p

/-- `getRecommendationTelemetryClient(labelVersion, viewerId)`. -/
def get (p : Page K) (labelVersion : LabelVersion) (viewerId : Option String) (loaded : Option String) :
    Page K :=
  let kept := p.discardOther labelVersion viewerId
  match kept.browserClient, loaded with
  | none, some sessionId =>
    { sessions := kept.sessions ++ [⟨⟨viewerId, sessionId, labelVersion⟩, {}⟩]
      browserClient := some kept.sessions.length
      browserViewerId := viewerId
      browserLabelVersion := labelVersion }
  | _, _ => kept

/-- One action; a client is disposed of by `getRecommendationTelemetryClient` alone. -/
def step (randomUUID : Nat → Nat → String) (p : Page K) : Action K → Option (Page K)
  | .get labelVersion viewerId loaded => some (p.get labelVersion viewerId loaded)
  | .client _ .discardPending => none
  | .client i a =>
    match p.sessions[i]? with
    | none => none
    | some s => (s.client.step s.opts (randomUUID i) a).map fun client =>
      { p with sessions := p.sessions.set i { s with client } }

/-- No request that carries events was issued by a client that was disposed of. -/
def NoneCrosses (p : Page K) : Prop :=
  ∀ s ∈ p.sessions, ∀ request ∈ s.client.requests, request.disposed = true → request.batch = []

/-- The session that an action finds refreshed is not one of a client that was disposed of. -/
def KeepsApart (p : Page K) : Action K → Prop
  | .client i (.answer _ (.refreshed true)) => ∀ s ∈ p.sessions[i]?, s.client.disposed = false
  | _ => True

end Page

/-! ### The requests of one client -/

section Requests

variable {opts : ClientOptions} {randomUUID : Nat → String} {c t : Client K}

/-- No request, or one that a client which is not disposed of issues. -/
def Guarded (c t : Client K) : Prop :=
  t.requests = c.requests
    ∨ c.disposed = false ∧ ∃ batch, t.requests = c.requests ++ [⟨batch, false⟩]

omit [Field K] [LinearOrder K] [FloorRing K] in
/-- `flush` sends nothing once the client is disposed of. -/
theorem guarded_flush : Guarded c c.flush := by
  unfold Client.flush
  split
  · exact Or.inl rfl
  · next hlive =>
    have hdisposed : c.disposed = false := Bool.not_eq_true _ ▸ hlive
    dsimp only
    split
    · exact Or.inl rfl
    · split
      · exact Or.inl rfl
      · refine Or.inr ⟨hdisposed, c.queue.take maxBatchSize, ?_⟩
        show c.requests ++ [⟨_, c.disposed⟩] = _
        rw [hdisposed]
        rfl

theorem guarded_record (now : Int) (call : Call K) :
    Guarded c (c.record opts randomUUID now call) := by
  rcases Client.record_cases opts randomUUID now c call with hsame | hflush | ⟨_, _, _, _, _, _, henqueue⟩
  · rw [hsame]
    exact Or.inl rfl
  · rw [hflush]
    exact guarded_flush
  · left
    rw [henqueue]
    unfold Client.enqueue
    split
    · rfl
    · exact Client.scheduleFlush_same.2.2.2.1

omit [Field K] [LinearOrder K] [FloorRing K] in
theorem requests_takeStatus (batch : List (BehaviorEvent K)) (status : Nat) :
    (c.takeStatus batch status).requests = c.requests := by
  unfold Client.takeStatus
  split
  · exact Client.scheduleFlush_same.2.2.2.1
  · dsimp only
    split
    · rfl
    · exact Client.scheduleFlush_same.2.2.2.1

omit [Field K] [LinearOrder K] [FloorRing K] in
/-- A refreshed session repeats the request, whatever became of the client; no other answer sends
    anything. -/
theorem requests_resume {flight : Flight K} {answer : Answer} (ht : c.resume flight answer = some t) :
    t.requests = if answer = .refreshed true then c.requests ++ [⟨flight.batch, c.disposed⟩]
      else c.requests := by
  have hsettle (d : Client K) : (d.settle flight).requests = d.requests := rfl
  unfold Client.resume at ht
  split at ht
  · split at ht
    · rw [← Option.some.inj ht]
      rfl
    · rw [← Option.some.inj ht, hsettle, requests_takeStatus]
      rfl
  · rw [← Option.some.inj ht]
    rfl
  · rw [← Option.some.inj ht, hsettle, requests_takeStatus]
    rfl
  · rw [← Option.some.inj ht, hsettle, Client.scheduleFlush_same.2.2.2.1]
    rfl
  · rw [← Option.some.inj ht, hsettle, requests_takeStatus]
    rfl
  · rw [← Option.some.inj ht, hsettle, Client.scheduleFlush_same.2.2.2.1]
    rfl
  · rw [← Option.some.inj ht, hsettle, Client.scheduleFlush_same.2.2.2.1]
    rfl
  · cases ht

/-- What one action of a client sends: a guarded request, unless its flush finds the session
    refreshed, when it sends its batch again. -/
theorem requests_step {a : Telemetry.Action K} (h : Client.Sound randomUUID c)
    (ht : c.step opts randomUUID a = some t) :
    (∀ id, a ≠ .answer id (.refreshed true)) ∧ Guarded c t
      ∨ (∃ id, a = .answer id (.refreshed true))
        ∧ ∃ batch, batch ≠ [] ∧ t.requests = c.requests ++ [⟨batch, c.disposed⟩] := by
  cases a with
  | record call now =>
    rw [← Option.some.inj ht]
    exact Or.inl ⟨nofun, guarded_record now call⟩
  | timer handle =>
    unfold Client.step at ht
    dsimp only at ht
    split at ht
    · rw [← Option.some.inj ht]
      have hflush : Guarded { c with timers := c.timers.fire handle, flushTimer := none } _ := guarded_flush
      exact Or.inl ⟨nofun, hflush⟩
    · cases ht
  | answer id answer =>
    unfold Client.step at ht
    dsimp only at ht
    split at ht
    · cases ht
    · next flight hfind =>
      have hflight : flight ∈ c.flights := List.mem_of_find?_eq_some hfind
      have hrequests := requests_resume ht
      by_cases hrefreshed : answer = .refreshed true
      · rw [if_pos hrefreshed] at hrequests
        exact Or.inr ⟨⟨id, by rw [hrefreshed]⟩, flight.batch, (h.captured flight hflight).1, hrequests⟩
      · rw [if_neg hrefreshed] at hrequests
        refine Or.inl ⟨fun id' heq => hrefreshed ?_, Or.inl hrequests⟩
        exact (Telemetry.Action.answer.inj heq).2
  | discardPending =>
    rw [← Option.some.inj ht]
    exact Or.inl ⟨nofun, Or.inl rfl⟩

end Requests

/-! ### The page -/

namespace Page

variable {randomUUID : Nat → Nat → String} {p q : Page K}

/-- Every client of the page is sound. -/
def Sound (randomUUID : Nat → Nat → String) (p : Page K) : Prop :=
  ∀ i s, p.sessions[i]? = some s → Client.Sound (randomUUID i) s.client ∧ s.client.Live

/-- What an action of a client does to the page. -/
theorem step_client {i : Nat} {a : Telemetry.Action K} (hq : p.step randomUUID (.client i a) = some q) :
    a ≠ .discardPending
      ∧ ∃ s client, p.sessions[i]? = some s ∧ s.client.step s.opts (randomUUID i) a = some client
        ∧ q = { p with sessions := p.sessions.set i { s with client } } := by
  unfold step at hq
  split at hq
  · next heq => cases heq
  · cases hq
  · next hother heq =>
    obtain ⟨rfl, rfl⟩ := Action.client.inj heq
    split at hq
    · cases hq
    · next s hs =>
      obtain ⟨client, hclient, rfl⟩ := Option.map_eq_some_iff.mp hq
      exact ⟨hother, s, client, hs, hclient, rfl⟩

omit [Field K] [LinearOrder K] [FloorRing K] in
/-- Another viewer's client is disposed of; the others stay as they are. -/
theorem sessions_discardOther {labelVersion : LabelVersion} {viewerId : Option String} {i : Nat}
    {s : Session K} (h : (p.discardOther labelVersion viewerId).sessions[i]? = some s) :
    ∃ s₀, p.sessions[i]? = some s₀
      ∧ (s = s₀ ∨ s = { s₀ with client := s₀.client.discardPending }) := by
  unfold discardOther at h
  split at h
  · exact ⟨s, h, Or.inl rfl⟩
  · split at h
    · rw [List.getElem?_modify] at h
      obtain ⟨s₀, hs₀, hmodified⟩ := Option.map_eq_some_iff.mp h
      refine ⟨s₀, hs₀, ?_⟩
      split at hmodified
      · exact Or.inr hmodified.symm
      · exact Or.inl hmodified.symm
    · exact ⟨s, h, Or.inl rfl⟩

omit [Field K] [LinearOrder K] [FloorRing K] in
/-- The clients of the page after a call of `getRecommendationTelemetryClient`. -/
theorem sessions_get {labelVersion : LabelVersion} {viewerId loaded : Option String} {i : Nat}
    {s : Session K} (h : (p.get labelVersion viewerId loaded).sessions[i]? = some s) :
    (∃ s₀, p.sessions[i]? = some s₀ ∧ (s = s₀ ∨ s = { s₀ with client := s₀.client.discardPending }))
      ∨ s.client = {} := by
  unfold get at h
  dsimp only at h
  split at h
  · rw [List.getElem?_append] at h
    split at h
    · exact Or.inl (sessions_discardOther h)
    · right
      rw [List.mem_singleton.mp (List.mem_of_getElem? h)]
  · exact Or.inl (sessions_discardOther h)

/-- Every action leaves the clients sound. -/
theorem sound_step {a : Action K} (h : p.Sound randomUUID) (hq : p.step randomUUID a = some q) :
    q.Sound randomUUID := by
  cases a with
  | get labelVersion viewerId loaded =>
    intro i s hs
    rw [← Option.some.inj hq] at hs
    rcases sessions_get hs with ⟨s₀, hs₀, rfl | rfl⟩ | hnew
    · exact h i s hs₀
    · obtain ⟨hsound, hlive⟩ := h i s₀ hs₀
      have hdiscard : s₀.client.step s₀.opts (randomUUID i) .discardPending
          = some s₀.client.discardPending := rfl
      exact Client.sound_step hsound hlive hdiscard
    · have hstart : Lib.run (Client.step s.opts (randomUUID i)) ({} : Client K) [] = some {} := rfl
      rw [hnew]
      exact Client.sound_run hstart
  | client i a =>
    obtain ⟨-, s₀, client, hs₀, hclient, rfl⟩ := step_client hq
    intro j s hs
    rw [List.getElem?_set] at hs
    split at hs
    · next hij =>
      split at hs
      · subst hij
        rw [← Option.some.inj hs]
        obtain ⟨hsound, hlive⟩ := h i s₀ hs₀
        exact Client.sound_step hsound hlive hclient
      · cases hs
    · exact h j s hs

omit [Field K] [LinearOrder K] [FloorRing K] in
theorem noneCrosses_iff : p.NoneCrosses ↔ ∀ (i : Nat) (s : Session K), p.sessions[i]? = some s →
    ∀ request ∈ s.client.requests, request.disposed = true → request.batch = [] := by
  refine ⟨fun h i s hs => h s (List.mem_of_getElem? hs), fun h s hs => ?_⟩
  obtain ⟨i, hi⟩ := List.mem_iff_getElem?.mp hs
  exact h i s hi

/-- **One action** keeps every request on its side exactly where it keeps the viewers apart. -/
theorem noneCrosses_step {a : Action K} (h : p.Sound randomUUID) (hcross : p.NoneCrosses)
    (hq : p.step randomUUID a = some q) : q.NoneCrosses ↔ p.KeepsApart a := by
  cases a with
  | get labelVersion viewerId loaded =>
    refine iff_of_true ?_ trivial
    rw [noneCrosses_iff] at hcross ⊢
    intro i s hs
    rw [← Option.some.inj hq] at hs
    rcases sessions_get hs with ⟨s₀, hs₀, rfl | rfl⟩ | hnew
    · exact hcross i s hs₀
    · exact hcross i s₀ hs₀
    · rw [hnew]
      exact nofun
  | client i a =>
    obtain ⟨-, s₀, client, hs₀, hclient, rfl⟩ := step_client hq
    have hlt : i < p.sessions.length := (List.getElem?_eq_some_iff.mp hs₀).1
    have hold : ∀ request ∈ s₀.client.requests, request.disposed = true → request.batch = [] :=
      hcross s₀ (List.mem_of_getElem? hs₀)
    -- only the requests of this client can change
    have hnew : NoneCrosses { p with sessions := p.sessions.set i { s₀ with client } }
        ↔ ∀ request ∈ client.requests, request.disposed = true → request.batch = [] := by
      refine ⟨fun hall => hall _ (List.mem_set hlt _), fun hthis s hs => ?_⟩
      rcases List.mem_or_eq_of_mem_set hs with hin | rfl
      · exact hcross s hin
      · exact hthis
    rw [hnew]
    rcases requests_step (h i s₀ hs₀).1 hclient with ⟨hother, hguarded⟩ | ⟨⟨id, rfl⟩, batch, hne, hsent⟩
    · refine iff_of_true ?_ ?_
      · rcases hguarded with hsame | ⟨-, batch, hsent⟩
        · rw [hsame]
          exact hold
        · rw [hsent]
          intro request hrequest hlate
          rcases List.mem_append.mp hrequest with hin | hlast
          · exact hold request hin hlate
          · rw [List.mem_singleton.mp hlast] at hlate
            cases hlate
      · show KeepsApart p (.client i a)
        unfold KeepsApart
        split
        · next heq =>
          obtain ⟨-, rfl⟩ := Action.client.inj heq
          exact absurd rfl (hother _)
        · trivial
    · rw [hsent]
      show _ ↔ ∀ s ∈ p.sessions[i]?, s.client.disposed = false
      rw [hs₀]
      refine ⟨fun hall s hs => ?_, fun hlive request hrequest hlate => ?_⟩
      · rw [← Option.some.inj hs, Bool.eq_false_iff]
        intro hdisposed
        exact hne (hall ⟨batch, s₀.client.disposed⟩
          (List.mem_append_right _ (List.mem_singleton.mpr rfl)) hdisposed)
      · rcases List.mem_append.mp hrequest with hin | hlast
        · exact hold request hin hlate
        · rw [List.mem_singleton.mp hlast] at hlate
          exact absurd (hlate.symm.trans (hlive s₀ rfl)).symm Bool.false_ne_true

/-- **Telemetry that crosses sessions.**  Over every run of a page, no request with the events of a
    viewer leaves after the client was disposed of, exactly where no flush of a client that was disposed
    of finds its session refreshed. -/
theorem crosses_iff (randomUUID : Nat → Nat → String) {as : List (Action K)} {p : Page K}
    (hrun : Lib.run (step randomUUID) {} as = some p) :
    (∀ before q, before <+: as → Lib.run (step randomUUID) {} before = some q → q.NoneCrosses)
      ↔ Lib.Along (step randomUUID) KeepsApart {} as :=
  Lib.forall_prefix_iff_along (I := Sound randomUUID) (fun _ _ _ h _ hq => sound_step h hq)
    (fun _ _ _ h hcross hq => noneCrosses_step h hcross hq) nofun nofun hrun

/-- A viewer signs out while the server refreshes the session of the batch that was sent. -/
def signedOut : List (Action ℚ) :=
  [.get .v2 (some "first") (some "session"), .client 0 (.record (.click ⟨"post", none, none, none, none⟩) 0),
    .client 0 (.record .flush 1), .client 0 (.answer 0 (.status 401)),
    .get .v2 (some "second") (some "other"), .client 0 (.answer 0 (.refreshed true))]

/-- The batch of the viewer who left is sent again. -/
theorem sent_after_sign_out :
    ¬ ∀ before q, before <+: signedOut →
      Lib.run (step fun _ => Python.uuidText) {} before = some q → q.NoneCrosses := by
  intro h
  have hrun : ∃ p : Page ℚ, Lib.run (step fun _ => Python.uuidText) {} signedOut = some p
      ∧ ∃ s, p.sessions[0]? = some s ∧ ∃ r, s.client.requests[1]? = some r
        ∧ r.disposed = true ∧ r.batch.length = 1 := ⟨_, rfl, _, rfl, _, rfl, rfl, rfl⟩
  obtain ⟨p, hp, s, hs, request, hrequest, hlate, hlength⟩ := hrun
  have hempty := h signedOut p List.prefix_rfl hp s (List.mem_of_getElem? hs) request
    (List.mem_of_getElem? hrequest) hlate
  rw [hempty] at hlength
  cases hlength

/-- The viewer who stays until the answer has come. -/
theorem keeps_apart_before_sign_out :
    (∃ p : Page ℚ, Lib.run (step fun _ => Python.uuidText) {} (signedOut.take 5) = some p)
      ∧ ∀ before q, before <+: signedOut.take 5 →
        Lib.run (step fun _ => Python.uuidText) {} before = some q → q.NoneCrosses := by
  have hrun : ∃ p : Page ℚ, Lib.run (step fun _ => Python.uuidText) {} (signedOut.take 5) = some p :=
    ⟨_, rfl⟩
  refine ⟨hrun, ?_⟩
  obtain ⟨p, hp⟩ := hrun
  exact (crosses_iff _ hp).mpr
    ⟨trivial, fun _ _ => ⟨trivial, fun _ _ => ⟨trivial, fun _ _ => ⟨trivial, fun _ _ =>
      ⟨trivial, fun _ _ => trivial⟩⟩⟩⟩⟩

end Page

end Oecophylla.Frontend.Sessions
