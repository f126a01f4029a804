import Oecophylla.Auth.Session

namespace Oecophylla.Auth

open Lib (run Along OrderedDict)

/-!
# Refresh tokens that are redeemed more than once

A refresh reads its token with `GET`, deletes it with `DEL` and does not look at the reply:

* `RedeemedOnce` — one rotation of a token at most, and none that starts after a logout;
* `FirstToDelete` — no other refresh or logout has deleted the token that a refresh deletes;
* `redeemedOnce` — runs in which every refresh is the first to delete its token;
* `redeemed_twice` — two refreshes that read the token before either deletes it.
-/

/-- The tokens that were replaced by a new one. -/
def rotations (log : List Event) : List RefreshHash :=
  log.filterMap fun
    | .issued _ parent _ _ => parent
    | _ => none

/-- A token is replaced at most once; after its logout it is not stored, and a refresh that
    replaces it had deleted it before. -/
structure RedeemedOnce (s : State) : Prop where
  once : (rotations s.data.log).Nodup
  loggedOut : ∀ newer q hash older, s.data.log = newer ++ .loggedOut q hash :: older →
    s.data.sessions.get hash = none ∧
    ∀ r child user, .issued r (some hash) child user ∈ s.data.log → .deleted r hash ∈ older

/-- The token that a refresh or a logout deleted. -/
def Event.consumed : Event → Option RefreshHash
  | .deleted _ hash => some hash
  | .loggedOut _ hash => some hash
  | _ => none

/-- The token that a refresh is about to delete. -/
def Phase.reading : Phase → Option RefreshHash
  | .refreshRead hash _ => some hash
  | _ => none

/-- A refresh only deletes a token that no other refresh and no logout has deleted. -/
def FirstToDelete (s : State) (a : Action) : Prop :=
  ∀ r ∈ a.command, ∀ hash ∈ (s.phase r).reading, hash ∉ s.data.log.filterMap Event.consumed

instance (s : State) (a : Action) : Decidable (FirstToDelete s a) :=
  inferInstanceAs (Decidable (∀ r ∈ a.command, ∀ hash ∈ (s.phase r).reading, _))

/-- The token that a refresh has deleted, and is to replace. -/
def Phase.rotating : Phase → Option RefreshHash
  | .refreshDeleted hash _ => some hash
  | .signingIn _ parent => parent
  | _ => none

/-- What `FirstToDelete` keeps. -/
structure DeletedOnce (s : State) : Prop where
  single : ∀ q r hash, .deleted q hash ∈ s.data.log → .deleted r hash ∈ s.data.log → q = r
  before : ∀ newer q hash older, s.data.log = newer ++ .loggedOut q hash :: older →
    ∀ r, .deleted r hash ∈ s.data.log → .deleted r hash ∈ older
  gone : ∀ q hash, .loggedOut q hash ∈ s.data.log → s.data.sessions.get hash = none
  rotating : ∀ r, ∀ hash ∈ (s.phase r).rotating, .deleted r hash ∈ s.data.log
  rotated : ∀ r hash child user, .issued r (some hash) child user ∈ s.data.log →
    .deleted r hash ∈ s.data.log ∧ (s.phase r).done
  once : (rotations s.data.log).Nodup

theorem DeletedOnce.toRedeemedOnce {s : State} (hs : DeletedOnce s) : RedeemedOnce s where
  once := hs.once
  loggedOut newer q hash older hlog := by
    have hmem : .loggedOut q hash ∈ s.data.log := by
      rw [hlog]
      exact List.mem_append_right _ List.mem_cons_self
    refine ⟨hs.gone q hash hmem, fun r child user hissued => ?_⟩
    exact hs.before newer q hash older hlog r (hs.rotated r hash child user hissued).1

theorem deletedOnce_initial (users : List UserRow) : DeletedOnce (initial users) where
  single q r hash h := by cases h
  before newer q hash older h := by simp [initial] at h
  gone q hash h := by cases h
  rotating r hash h := by cases h
  rotated r hash child user h := by cases h
  once := List.nodup_nil

/-- A logout is followed by no deletion, also after an event that is neither. -/
theorem before_cons {log : List Event} {e : Event} (he : e.consumed = none)
    (h : ∀ newer q hash older, log = newer ++ .loggedOut q hash :: older →
      ∀ r, .deleted r hash ∈ log → .deleted r hash ∈ older) :
    ∀ newer q hash older, e :: log = newer ++ .loggedOut q hash :: older →
      ∀ r, .deleted r hash ∈ e :: log → .deleted r hash ∈ older := by
  intro newer q hash older hlog r hdeleted
  have hmem : .deleted r hash ∈ log := by
    rcases List.mem_cons.mp hdeleted with rfl | hmem
    · cases he
    · exact hmem
  rcases List.cons_eq_append_iff.mp hlog with ⟨-, heq⟩ | ⟨newer', -, heq⟩
  · injection heq with heq
    rw [← heq] at he
    cases he
  · exact h newer' q hash older heq r hmem

/-- A request that is done stays done. -/
theorem done_update {phase : Nat → Phase} {r q : Nat} {new : Phase}
    (hdone : (phase r).done = false ∨ new.done) (hq : (phase q).done) :
    (Function.update phase r new q).done := by
  by_cases hqr : q = r
  · subst hqr
    rw [Function.update_self]
    rcases hdone with hrunning | hdone
    · rw [hq] at hrunning
      cases hrunning
    · exact hdone
  · rw [Function.update_of_ne hqr]
    exact hq

/-- A request goes on, no session is stored and nothing is recorded. -/
theorem DeletedOnce.advance {s : State} (hs : DeletedOnce s) {r : Nat} {new : Phase} {data : Data}
    (hlog : data.log = s.data.log)
    (hsessions : ∀ hash, s.data.sessions.get hash = none → data.sessions.get hash = none)
    (hdone : (s.phase r).done = false ∨ new.done)
    (hnew : ∀ hash ∈ new.rotating, .deleted r hash ∈ s.data.log) :
    DeletedOnce ⟨data, Function.update s.phase r new⟩ where
  single := hlog ▸ hs.single
  before := hlog ▸ hs.before
  gone q hash h := hsessions hash (hs.gone q hash (hlog ▸ h))
  rotating := by
    rw [hlog]
    refine (Function.forall_update_iff s.phase fun q new => ∀ hash ∈ new.rotating,
      Event.deleted q hash ∈ s.data.log).mpr ⟨hnew, fun q _ => hs.rotating q⟩
  rotated q hash child user h := by
    rw [hlog] at h ⊢
    obtain ⟨hdeleted, hqdone⟩ := hs.rotated q hash child user h
    exact ⟨hdeleted, done_update hdone hqdone⟩
  once := hlog ▸ hs.once

/-- An event that names no token is recorded. -/
theorem DeletedOnce.record {s : State} (hs : DeletedOnce s) {e : Event} (he : e.hashes = []) :
    DeletedOnce { s with data := { s.data with log := e :: s.data.log } } := by
  have hold : ∀ {e'}, e' ∈ e :: s.data.log → e'.hashes ≠ [] → e' ∈ s.data.log := by
    intro e' hmem hne
    rcases List.mem_cons.mp hmem with rfl | hmem
    · exact absurd he hne
    · exact hmem
  have hconsumed : e.consumed = none := by
    cases e <;> first | rfl | cases he
  constructor
  · intro q r hash hq hr
    exact hs.single q r hash (hold hq (by simp [Event.hashes])) (hold hr (by simp [Event.hashes]))
  · exact before_cons hconsumed hs.before
  · intro q hash h
    exact hs.gone q hash (hold h (by simp [Event.hashes]))
  · intro r hash h
    exact List.mem_cons_of_mem _ (hs.rotating r hash h)
  · intro r hash child user h
    obtain ⟨hdeleted, hdone⟩ := hs.rotated r hash child user (hold h (by simp [Event.hashes]))
    exact ⟨List.mem_cons_of_mem _ hdeleted, hdone⟩
  · have hrotations : rotations (e :: s.data.log) = rotations s.data.log := by
      cases e <;> first | rfl | cases he
    show (rotations (e :: s.data.log)).Nodup
    rw [hrotations]
    exact hs.once

/-- A token is issued, in the place of one that the request has deleted. -/
theorem DeletedOnce.issue {s : State} (hs : DeletedOnce s) {r : Nat} {user : Uuid}
    {parent : Option RefreshHash} {hash : RefreshHash} (hphase : s.phase r = .signingIn user parent)
    (hfresh : Fresh s.data.log hash) :
    DeletedOnce ⟨{ s.data with
      sessions := s.data.sessions.set hash user
      log := .issued r parent hash user :: s.data.log },
      Function.update s.phase r (.answered 200)⟩ := by
  have hdeleted : ∀ token, parent = some token → .deleted r token ∈ s.data.log := by
    intro token htoken
    exact hs.rotating r token (by rw [hphase]; exact htoken)
  -- The request has issued nothing yet: it is not done.
  have hfirst : ∀ token, parent = some token → token ∉ rotations s.data.log := by
    intro token htoken hmem
    obtain ⟨e, he, hparent⟩ := List.mem_filterMap.mp hmem
    cases e with
    | issued q p child owner =>
      obtain rfl : p = some token := hparent
      obtain ⟨hq, hqdone⟩ := hs.rotated q token child owner he
      obtain rfl := hs.single q r token hq (hdeleted token htoken)
      rw [hphase] at hqdone
      cases hqdone
    | _ => cases hparent
  constructor
  · intro q q' token hq hq'
    exact hs.single q q' token (by simpa using hq) (by simpa using hq')
  · exact before_cons rfl hs.before
  · intro q token h
    have hout : .loggedOut q token ∈ s.data.log := by simpa using h
    have hne : token ≠ hash := fun heq => hfresh _ hout (by simp [Event.hashes, heq])
    show (s.data.sessions.set hash user).get token = none
    rw [OrderedDict.get_set, if_neg hne]
    exact hs.gone q token hout
  · refine (Function.forall_update_iff s.phase fun q new => ∀ token ∈ new.rotating,
      Event.deleted q token ∈ Event.issued r parent hash user :: s.data.log).mpr ⟨?_, ?_⟩
    · intro token h
      cases h
    · exact fun q _ token h => List.mem_cons_of_mem _ (hs.rotating q token h)
  · intro q token child owner h
    rcases List.mem_cons.mp h with heq | h
    · injection heq with hq hparent
      subst hq
      refine ⟨List.mem_cons_of_mem _ (hdeleted token hparent.symm), ?_⟩
      show (Function.update s.phase q (.answered 200) q).done = true
      rw [Function.update_self]
      rfl
    · obtain ⟨hdel, hdone⟩ := hs.rotated q token child owner h
      exact ⟨List.mem_cons_of_mem _ hdel, done_update (.inr rfl) hdone⟩
  · cases parent with
    | none => exact hs.once
    | some token => exact List.nodup_cons.mpr ⟨hfirst token rfl, hs.once⟩

/-- A refresh is the first to delete its token. -/
theorem DeletedOnce.delete {s : State} (hs : DeletedOnce s) {r : Nat} {hash : RefreshHash}
    {user : Uuid} (hphase : s.phase r = .refreshRead hash user)
    (hfirst : hash ∉ s.data.log.filterMap Event.consumed) :
    DeletedOnce ⟨{ s.data with
      sessions := s.data.sessions.pop hash
      log := .deleted r hash :: s.data.log },
      Function.update s.phase r (.refreshDeleted hash user)⟩ := by
  have hnew : ∀ q, .deleted q hash ∉ s.data.log := fun q h =>
    hfirst (List.mem_filterMap.mpr ⟨_, h, rfl⟩)
  have hin : ∀ q, .loggedOut q hash ∉ s.data.log := fun q h =>
    hfirst (List.mem_filterMap.mpr ⟨_, h, rfl⟩)
  constructor
  · intro q q' token hq hq'
    rcases List.mem_cons.mp hq with heq | hq
    · injection heq with hqr htoken
      subst htoken
      rcases List.mem_cons.mp hq' with heq' | hq'
      · injection heq' with hqr' _
        rw [hqr, hqr']
      · exact absurd hq' (hnew q')
    · rcases List.mem_cons.mp hq' with heq' | hq'
      · injection heq' with _ htoken
        exact absurd (htoken ▸ hq) (hnew q)
      · exact hs.single q q' token hq hq'
  · intro newer q token older hlog r' hdeleted
    rcases List.cons_eq_append_iff.mp hlog with ⟨-, heq⟩ | ⟨newer', -, heq⟩
    · injection heq with heq
      cases heq
    · have hout : .loggedOut q token ∈ s.data.log := by
        rw [heq]
        exact List.mem_append_right _ List.mem_cons_self
      rcases List.mem_cons.mp hdeleted with heq' | hdeleted
      · injection heq' with _ htoken
        subst htoken
        exact absurd hout (hin q)
      · exact hs.before newer' q token older heq r' hdeleted
  · intro q token h
    exact get_pop_eq_none (hs.gone q token (by simpa using h)) hash
  · refine (Function.forall_update_iff s.phase fun q new => ∀ token ∈ new.rotating,
      Event.deleted q token ∈ Event.deleted r hash :: s.data.log).mpr ⟨?_, ?_⟩
    · intro token h
      obtain rfl := Option.some.inj h
      exact List.mem_cons_self
    · exact fun q _ token h => List.mem_cons_of_mem _ (hs.rotating q token h)
  · intro q token child owner h
    obtain ⟨hdel, hdone⟩ := hs.rotated q token child owner (by simpa using h)
    exact ⟨List.mem_cons_of_mem _ hdel, done_update (.inl (by rw [hphase]; rfl)) hdone⟩
  · exact hs.once

/-- A logout deletes its token. -/
theorem DeletedOnce.logOut {s : State} (hs : DeletedOnce s) {r : Nat} {hash : RefreshHash} :
    DeletedOnce ⟨{ s.data with
      sessions := s.data.sessions.pop hash
      log := .loggedOut r hash :: s.data.log }, s.phase⟩ where
  single q q' token hq hq' := hs.single q q' token (by simpa using hq) (by simpa using hq')
  before newer q token older hlog r' hdeleted := by
    have hdel : .deleted r' token ∈ s.data.log := by simpa using hdeleted
    rcases List.cons_eq_append_iff.mp hlog with ⟨-, heq⟩ | ⟨newer', -, heq⟩
    · injection heq with _ heq
      exact heq ▸ hdel
    · exact hs.before newer' q token older heq r' hdel
  gone q token h := by
    rcases List.mem_cons.mp h with heq | h
    · injection heq with _ htoken
      show (s.data.sessions.pop hash).get token = none
      rw [OrderedDict.get_pop, if_pos htoken]
    · exact get_pop_eq_none (hs.gone q token h) hash
  rotating q token h := List.mem_cons_of_mem _ (hs.rotating q token h)
  rotated q token child owner h := by
    obtain ⟨hdel, hdone⟩ := hs.rotated q token child owner (by simpa using h)
    exact ⟨List.mem_cons_of_mem _ hdel, hdone⟩
  once := hs.once

/-- The token that a command is to replace is the one that its request has deleted. -/
theorem Reads.rotating {d : Data} {phase phase' : Phase} (h : Reads d phase phase')
    {hash : RefreshHash} (hrotating : hash ∈ phase'.rotating) : hash ∈ phase.rotating := by
  cases h with
  | rotate token user => exact hrotating
  | skip user key keys => cases keys <;> cases hrotating
  | _ => cases hrotating

theorem rotating_changeLoop (user : Uuid) (keys : List RefreshHash) :
    (changeLoop user keys).rotating = none := by
  cases keys <;> rfl

theorem rotating_arrive (pkg : Packages) (req : Request) : (arrive pkg req).rotating = none := by
  unfold arrive
  split <;> try rfl
  · split <;> rfl
  · split <;> rfl

/-- **Step lemma.** -/
theorem step_deletedOnce {pkg : Packages} {s t : State} {a : Action} (hs : DeletedOnce s)
    (hfirst : FirstToDelete s a) (h : step pkg s a = some t) : DeletedOnce t := by
  refine step_preserves hs ?_ ?_ ?_ ?_ ?_ h
  · intro u r hu
    exact hu.advance rfl (fun _ h => h) (.inr rfl) fun hash h => by cases h
  · intro r req hidle
    refine hs.advance rfl (fun _ h => h) (.inl (by rw [hidle]; rfl)) fun hash h => ?_
    rw [rotating_arrive] at h
    cases h
  · intro r phase data hcommand heffect
    have hrotating := hs.rotating r
    have hrunning := heffect.not_done
    generalize hphase : s.phase r = old at heffect
    cases heffect with
    | reads _ _ users hreads =>
      refine hs.advance rfl (fun _ h => h) (.inl hrunning) fun hash h => ?_
      exact hrotating hash (hphase ▸ hreads.rotating h)
    | issues user parent hash fresh => exact hs.issue hphase fresh
    | deletes hash user =>
      exact hs.delete hphase (hfirst r hcommand hash (by rw [hphase]; rfl))
    | logsOut hash =>
      have hanswered : DeletedOnce ⟨s.data, Function.update s.phase r (.answered 204)⟩ :=
        hs.advance rfl (fun _ h => h) (.inr rfl) fun hash h => by cases h
      exact hanswered.logOut
    | changes user newHash users =>
      have hupdated : DeletedOnce
          ⟨{ s.data with users := users }, Function.update s.phase r (.changeUpdated user)⟩ :=
        hs.advance rfl (fun _ h => h) (.inl hrunning) fun hash h => by cases h
      exact hupdated.record rfl
    | lists user keys all =>
      have hlisted : DeletedOnce ⟨s.data, Function.update s.phase r (changeLoop user keys)⟩ := by
        refine hs.advance rfl (fun _ h => h) (.inl hrunning) fun hash h => ?_
        rw [rotating_changeLoop] at h
        cases h
      exact hlisted.record rfl
    | removes key _ _ hremoves =>
      refine hs.advance rfl (fun _ h => get_pop_eq_none h key) (.inl hrunning) fun hash h => ?_
      cases hremoves with
      | changed user key keys =>
        rw [rotating_changeLoop] at h
        cases h
      | closed hash => cases h
  · intro hash
    exact { hs with gone := fun q token h => get_pop_eq_none (hs.gone q token h) hash }
  · intro users
    exact { hs with }

/-- **A token is redeemed at most once, and not after its logout**, in every run in which each
    refresh is the first to delete its token. -/
theorem redeemedOnce (pkg : Packages) (users : List UserRow) {s : State} {as : List Action}
    (hrun : run (step pkg) (initial users) as = some s)
    (hfirst : Along (step pkg) FirstToDelete (initial users) as) : RedeemedOnce s :=
  (Lib.run_invariant_along (fun _ _ _ hs hfirst h => step_deletedOnce hs hfirst h)
    (deletedOnce_initial users) hrun hfirst).toRedeemedOnce

/-! ### One account -/

/-- Packages that accept every registration and keep the password as it is. -/
private def plain : Packages := ⟨fun _ => none, fun password _ => password, fun p hash => p = hash⟩

private def accounts : List UserRow := [⟨1, "an", "an@oec.vn", "matkhau1", true⟩]

private def drawing (hash : RefreshHash) : Draw := ⟨2, "salt", hash, []⟩

/-- A login, and a refresh with its token. -/
private def refreshed : List Action :=
  [.begin 0 (.login ⟨"an", "matkhau1"⟩), .next 0 (drawing "t0"), .next 0 (drawing "t0"),
    .begin 1 (.refresh (some "t0")), .next 1 (drawing "t1"), .next 1 (drawing "t1"),
    .next 1 (drawing "t1"), .next 1 (drawing "t1"),
    .begin 2 (.logout (some "t1")), .next 2 (drawing "t2")]

private theorem refreshed_runs :
    (run (step plain) (initial accounts) refreshed).isSome := by decide +kernel

theorem redeemedOnce_refresh :
    RedeemedOnce ((run (step plain) (initial accounts) refreshed).get refreshed_runs) :=
  redeemedOnce plain accounts (Option.some_get _).symm (by decide +kernel)

/-- A login, and two refreshes that both read its token before one of them deletes it. -/
private def raced : List Action :=
  [.begin 0 (.login ⟨"an", "matkhau1"⟩), .next 0 (drawing "t0"), .next 0 (drawing "t0"),
    .begin 1 (.refresh (some "t0")), .begin 2 (.refresh (some "t0")),
    .next 1 (drawing "t1"), .next 2 (drawing "t2"), .next 1 (drawing "t1"), .next 2 (drawing "t2"),
    .next 1 (drawing "t1"), .next 2 (drawing "t2"), .next 1 (drawing "t1"), .next 2 (drawing "t2")]

/-- One token, two new pairs. -/
theorem redeemed_twice :
    ¬ ∀ (pkg : Packages) (users : List UserRow) (s : State) (as : List Action),
      run (step pkg) (initial users) as = some s → RedeemedOnce s := by
  intro h
  have hrotations : (run (step plain) (initial accounts) raced).map (fun s => rotations s.data.log)
      = some ["t0", "t0"] := by decide +kernel
  obtain ⟨s, hs, htwice⟩ := Option.map_eq_some_iff.mp hrotations
  have honce := (h plain accounts s raced hs).once
  rw [htwice] at honce
  exact absurd honce (by decide)

end Oecophylla.Auth
