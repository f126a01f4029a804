import Oecophylla.Auth.Session

namespace Oecophylla.Auth

open Lib (run Along OrderedDict)

/-!
# Sessions that survive a change of the password

`change_password` lists the keys of all sessions and deletes those of its user one by one:

* `stale` — the tokens that were issued before the password changed, or descend from one that was;
* `Revoked` — after a successful change none of them is stored;
* `RotatesUnlisted` — a refresh stores no successor of such a token after the keys were listed;
* `revoked` — runs that meet it;
* `rotated_during_change` — a refresh that has deleted its token when the keys are listed.
-/

/-- The tokens that were issued to a user. -/
def issuedTo (user : Uuid) (log : List Event) : List RefreshHash :=
  log.filterMap fun
    | .issued _ _ hash owner => if owner = user then some hash else none
    | _ => none

/-- The tokens of the user issued before the request `p` changed the password, and those that
    replaced them. -/
def stale (p : Nat) : List Event → List RefreshHash
  | [] => []
  | .issued _ (some parent) hash _ :: log =>
    if parent ∈ stale p log then hash :: stale p log else stale p log
  | .changed q user :: log => if q = p then issuedTo user log ++ stale p log else stale p log
  | _ :: log => stale p log

/-- No stale token is stored when the change has returned successfully. -/
def Revoked (s : State) : Prop :=
  ∀ p user, .changed p user ∈ s.data.log → ∀ status, s.phase p = .answered status →
    ∀ hash ∈ stale p s.data.log, s.data.sessions.get hash = none

/-- The request that has its list of keys. -/
def Event.lister : Event → Option Nat
  | .listed p _ => some p
  | _ => none

/-- The token that the next command replaces. -/
def Phase.replacing : Phase → Option RefreshHash
  | .signingIn _ parent => parent
  | _ => none

/-- The keys that a change of the password still has to look at. -/
def Phase.remaining : Phase → Option (List RefreshHash)
  | .changeReading _ key keys => some (key :: keys)
  | .changeMatched _ key keys => some (key :: keys)
  | .answered _ => some []
  | _ => none

/-- A refresh does not replace a token that is stale for a change which has listed the keys, and
    has not failed. -/
def RotatesUnlisted (s : State) (a : Action) : Prop :=
  ∀ r ∈ a.command, ∀ parent ∈ (s.phase r).replacing, ∀ p ∈ s.data.log.filterMap Event.lister,
    (s.phase p).remaining ≠ none → parent ∉ stale p s.data.log

instance (s : State) (a : Action) : Decidable (RotatesUnlisted s a) :=
  inferInstanceAs (Decidable (∀ r ∈ a.command, ∀ parent ∈ (s.phase r).replacing, _))

/-! ### Stale tokens -/

theorem mem_issuedTo {user : Uuid} {log : List Event} {hash : RefreshHash} :
    hash ∈ issuedTo user log ↔ Issued log hash user := by
  unfold issuedTo Issued
  rw [List.mem_filterMap]
  constructor
  · rintro ⟨e, he, hhash⟩
    split at hhash
    · split_ifs at hhash with howner
      obtain rfl := Option.some.inj hhash
      exact ⟨_, _, howner ▸ he⟩
    · cases hhash
  · rintro ⟨r, parent, hmem⟩
    exact ⟨_, hmem, if_pos rfl⟩

/-- The tokens that an event lets grow stale. -/
theorem stale_cons_of_ne {p : Nat} {e : Event} {log : List Event}
    (hissued : ∀ r parent hash user, e ≠ .issued r parent hash user)
    (hchanged : ∀ user, e ≠ .changed p user) : stale p (e :: log) = stale p log := by
  cases e with
  | issued r parent hash user => exact absurd rfl (hissued r parent hash user)
  | changed q user => exact if_neg fun hq => hchanged user (by rw [hq])
  | _ => rfl

theorem mem_stale_issued {p r : Nat} {parent : Option RefreshHash} {hash token : RefreshHash}
    {user : Uuid} {log : List Event} (h : token ∈ stale p (.issued r parent hash user :: log)) :
    token ∈ stale p log ∨ token = hash ∧ ∃ old ∈ parent, old ∈ stale p log := by
  cases parent with
  | none => exact .inl h
  | some old =>
    unfold stale at h
    split_ifs at h with hold
    · rcases List.mem_cons.mp h with rfl | h
      · exact .inr ⟨rfl, old, rfl, hold⟩
      · exact .inl h
    · exact .inl h

/-- Before the password changes no token is stale. -/
theorem stale_eq_nil {p : Nat} {log : List Event} (h : ∀ user, .changed p user ∉ log) :
    stale p log = [] := by
  induction log with
  | nil => rfl
  | cons e log ih =>
    have htail : stale p log = [] := ih fun user hmem => h user (List.mem_cons_of_mem _ hmem)
    apply List.eq_nil_iff_forall_not_mem.mpr
    intro token htoken
    cases e with
    | issued r parent hash user =>
      rcases mem_stale_issued htoken with hmem | ⟨-, old, -, hmem⟩
      · simp [htail] at hmem
      · simp [htail] at hmem
    | changed q user =>
      have hne : ∀ user', Event.changed q user ≠ .changed p user' := by
        intro user' heq
        exact h user' (heq ▸ List.mem_cons_self)
      rw [stale_cons_of_ne (by simp) hne, htail] at htoken
      cases htoken
    | _ =>
      rw [stale_cons_of_ne (by simp) (by simp), htail] at htoken
      cases htoken

/-! ### A change of the password under way -/

/-- The phases after `update_password` for the user. -/
def Phase.After (user : Uuid) : Phase → Prop
  | .changeUpdated u => u = user
  | .changeReading u _ _ => u = user
  | .changeMatched u _ _ => u = user
  | .answered _ => True
  | .failed _ => True
  | _ => False

/-- What a change of the password for `user` has achieved when it is in a phase. -/
structure Revoking (d : Data) (p : Nat) (user : Uuid) (phase : Phase) : Prop where
  after : phase.After user
  owned : ∀ hash ∈ stale p d.log, Issued d.log hash user
  listed : phase.remaining ≠ none → .listed p user ∈ d.log
  left : ∀ keys ∈ phase.remaining, ∀ hash ∈ stale p d.log, d.sessions.get hash ≠ none → hash ∈ keys

/-- Every change of the password is on its way. -/
def Changes (s : State) : Prop :=
  ∀ p user, .changed p user ∈ s.data.log → Revoking s.data p user (s.phase p)

theorem Changes.toRevoked {s : State} (hs : Changes s) : Revoked s := by
  intro p user hchanged status hphase hash hstale
  by_contra hstored
  have hleft := (hs p user hchanged).left [] (by rw [hphase]; rfl) hash hstale hstored
  cases hleft

theorem after_changeLoop (user : Uuid) (keys : List RefreshHash) :
    (changeLoop user keys).After user := by
  cases keys with
  | nil => trivial
  | cons key keys => rfl

theorem remaining_changeLoop (user : Uuid) (keys : List RefreshHash) :
    (changeLoop user keys).remaining = some keys := by
  cases keys <;> rfl

section Revoking

variable {d d' : Data} {p : Nat} {user : Uuid} {phase : Phase}

/-- The same stale tokens, no more of them stored. -/
theorem Revoking.mono (h : Revoking d p user phase) (hlog : d.log ⊆ d'.log)
    (hstale : phase.remaining ≠ none → stale p d'.log = stale p d.log)
    (howned : ∀ hash ∈ stale p d'.log, Issued d'.log hash user)
    (hstored : ∀ hash, Issued d.log hash user → d.sessions.get hash = none →
      d'.sessions.get hash = none) : Revoking d' p user phase where
  after := h.after
  owned := howned
  listed hremaining := hlog (h.listed hremaining)
  left keys hkeys hash hash_stale hnone := by
    have hremaining : phase.remaining ≠ none := by
      rw [show phase.remaining = some keys from hkeys]
      exact Option.some_ne_none keys
    rw [hstale hremaining] at hash_stale
    refine h.left keys hkeys hash hash_stale fun hget => hnone ?_
    exact hstored hash (h.owned hash hash_stale) hget

/-- Nothing is recorded that concerns the change, and no session is stored. -/
theorem Revoking.quiet (h : Revoking d p user phase) (hlog : d.log ⊆ d'.log)
    (hstale : stale p d'.log = stale p d.log)
    (hstored : ∀ hash, d.sessions.get hash = none → d'.sessions.get hash = none) :
    Revoking d' p user phase :=
  h.mono hlog (fun _ => hstale)
    (fun hash hmem => (h.owned hash (hstale ▸ hmem)).mono hlog) fun hash _ => hstored hash

end Revoking

/-- A request goes to another phase: the changes of the others are as before. -/
theorem Changes.update {s : State} (hs : Changes s) {data : Data} {r : Nat} {new : Phase}
    (hself : ∀ user, .changed r user ∈ data.log → Revoking data r user new)
    (hother : ∀ p user, p ≠ r → .changed p user ∈ data.log →
      Event.changed p user ∈ s.data.log ∧
        (Revoking s.data p user (s.phase p) → Revoking data p user (s.phase p))) :
    Changes ⟨data, Function.update s.phase r new⟩ := by
  intro p user hchanged
  show Revoking data p user (Function.update s.phase r new p)
  by_cases hp : p = r
  · subst hp
    rw [Function.update_self]
    exact hself user hchanged
  · rw [Function.update_of_ne hp]
    obtain ⟨hmem, hkeep⟩ := hother p user hp hchanged
    exact hkeep (hs p user hmem)

/-- A request goes on, and nothing is recorded or stored. -/
theorem Changes.advance {s : State} (hs : Changes s) {data : Data} {r : Nat} {new : Phase}
    (hlog : data.log = s.data.log)
    (hstored : ∀ hash, s.data.sessions.get hash = none → data.sessions.get hash = none)
    (hself : ∀ user, Revoking data r user (s.phase r) → Revoking data r user new) :
    Changes ⟨data, Function.update s.phase r new⟩ := by
  have hquiet : ∀ p user, Revoking s.data p user (s.phase p) → Revoking data p user (s.phase p) :=
    fun p user h => h.quiet (hlog ▸ List.Subset.refl _) (by rw [hlog]) hstored
  refine hs.update (fun user hchanged => ?_) fun p user _ hchanged => ?_
  · rw [hlog] at hchanged
    exact hself user (hquiet r user (hs r user hchanged))
  · rw [hlog] at hchanged
    exact ⟨hchanged, hquiet p user⟩

/-- A phase that leaves nothing to look at. -/
theorem Revoking.of_remaining_eq_none {d : Data} {p : Nat} {user : Uuid} {phase new : Phase}
    (h : Revoking d p user phase) (hafter : new.After user) (hremaining : new.remaining = none) :
    Revoking d p user new where
  after := hafter
  owned := h.owned
  listed hne := absurd hremaining hne
  left keys hkeys := by
    rw [hremaining] at hkeys
    cases hkeys

/-- The loop goes past a key that is not, or no longer, a session of the user. -/
theorem Revoking.loop {d : Data} {p : Nat} {user u : Uuid} {phase : Phase} {key : RefreshHash}
    {keys : List RefreshHash} (h : Revoking d p user phase) (hu : u = user)
    (hremaining : phase.remaining = some (key :: keys))
    (hkey : key ∈ stale p d.log → d.sessions.get key = none) :
    Revoking d p user (changeLoop u keys) where
  after := hu ▸ after_changeLoop u keys
  owned := h.owned
  listed _ := h.listed (by rw [hremaining]; exact Option.some_ne_none _)
  left keys' hkeys' hash hstale hstored := by
    rw [remaining_changeLoop] at hkeys'
    obtain rfl := Option.some.inj hkeys'
    rcases List.mem_cons.mp (h.left (key :: keys) hremaining hash hstale hstored) with rfl | hmem
    · exact absurd (hkey hstale) hstored
    · exact hmem

/-- **Step lemma for the commands that record nothing.** -/
theorem Changes.reads {s : State} (hs : Changes s) (hsound : Sound s) {r : Nat} {phase : Phase}
    {users : List UserRow} (hreads : Reads s.data (s.phase r) phase) :
    Changes ⟨{ s.data with users := users }, Function.update s.phase r phase⟩ := by
  refine hs.advance rfl (fun _ h => h) fun user hrevoking => ?_
  generalize s.phase r = old at hreads hrevoking
  have hafter := hrevoking.after
  cases hreads with
  | reject _ e _ => exact hrevoking.of_remaining_eq_none trivial rfl
  | pick owner key keys => exact ⟨hafter, hrevoking.owned, hrevoking.listed, hrevoking.left⟩
  | skip owner key keys hother =>
    refine hrevoking.loop hafter rfl fun hstale => ?_
    -- A session under the key would belong to the user, like every stale token.
    by_contra hstored
    obtain ⟨v, hv⟩ := Option.ne_none_iff_exists'.mp hstored
    have hv' : v = user := hsound.owner key v user (hsound.stored key v hv)
      (hrevoking.owned key hstale)
    exact hother (by rw [hafter, ← hv']; exact hv)
  | _ => exact absurd hafter (by simp [Phase.After])

/-- **Step lemma for a new session.** -/
theorem Changes.issues {s : State} (hs : Changes s) (hsound : Sound s) {r : Nat} {user : Uuid}
    {parent : Option RefreshHash} {hash : RefreshHash} (hphase : s.phase r = .signingIn user parent)
    (hfresh : Fresh s.data.log hash)
    (hlate : ∀ old ∈ parent, ∀ p ∈ s.data.log.filterMap Event.lister,
      (s.phase p).remaining ≠ none → old ∉ stale p s.data.log) :
    Changes ⟨{ s.data with
      sessions := s.data.sessions.set hash user
      log := .issued r parent hash user :: s.data.log },
      Function.update s.phase r (.answered 200)⟩ := by
  refine hs.update (fun owner hchanged => ?_) fun p owner _ hchanged => ?_
  · have hafter := (hs r owner (by simpa using hchanged)).after
    rw [hphase] at hafter
    exact hafter.elim
  · refine ⟨by simpa using hchanged, fun hrevoking => ?_⟩
    have hnew : hash ∉ stale p s.data.log := fun h => hfresh.not_issued (hrevoking.owned hash h)
    refine hrevoking.mono (List.subset_cons_self _ _) (fun hremaining => ?_) (fun token h => ?_) ?_
    · cases parent with
      | none => rfl
      | some old =>
        have hmem : p ∈ s.data.log.filterMap Event.lister :=
          List.mem_filterMap.mpr ⟨_, hrevoking.listed hremaining, rfl⟩
        exact if_neg (hlate old rfl p hmem hremaining)
    · rcases mem_stale_issued h with h | ⟨rfl, old, hold, h⟩
      · exact (hrevoking.owned token h).mono (List.subset_cons_self _ _)
      · -- The successor has the owner of the token that it replaces.
        have hheld : Issued s.data.log old user := by
          refine hsound.held r old user ?_
          rw [hphase]
          show parent.map (fun token => (token, user)) = some (old, user)
          rw [show parent = some old from hold]
          rfl
        have howner := hsound.owner old user owner hheld (hrevoking.owned old h)
        exact issued_cons.mpr (.inl ⟨r, parent, by rw [howner]⟩)
    · intro token hissued hnone
      show (s.data.sessions.set hash user).get token = none
      have hne : token ≠ hash := by
        rintro rfl
        exact hfresh.not_issued hissued
      rw [OrderedDict.get_set, if_neg hne]
      exact hnone

/-- **Step lemma for `update_password`.** -/
theorem Changes.changes {s : State} (hs : Changes s) {r : Nat} {user : Uuid} {newHash : String}
    {users : List UserRow} (hphase : s.phase r = .changeVerified user newHash) :
    Changes ⟨{ s.data with
      users := users
      log := .changed r user :: s.data.log }, Function.update s.phase r (.changeUpdated user)⟩ := by
  have hfirst : ∀ owner, .changed r owner ∉ s.data.log := by
    intro owner hmem
    have hafter := (hs r owner hmem).after
    rw [hphase] at hafter
    exact hafter
  refine hs.update (fun owner hchanged => ?_) fun p owner hp hchanged => ?_
  · obtain rfl : owner = user := by
      rcases List.mem_cons.mp hchanged with heq | hmem
      · injection heq
      · exact absurd hmem (hfirst owner)
    refine ⟨rfl, fun hash hstale => ?_, fun h => absurd rfl h, fun keys h => by cases h⟩
    have hmem : hash ∈ issuedTo owner s.data.log := by
      rw [show stale r (.changed r owner :: s.data.log) = issuedTo owner s.data.log ++ _
        from if_pos rfl, stale_eq_nil hfirst, List.append_nil] at hstale
      exact hstale
    exact (mem_issuedTo.mp hmem).mono (List.subset_cons_self _ _)
  · have hmem : .changed p owner ∈ s.data.log := by
      rcases List.mem_cons.mp hchanged with heq | hmem
      · injection heq with heq
        exact absurd heq hp
      · exact hmem
    refine ⟨hmem, fun hrevoking => hrevoking.quiet (List.subset_cons_self _ _) ?_ fun _ h => h⟩
    exact stale_cons_of_ne (by simp) fun user' heq => hp (by injection heq with heq; exact heq.symm)

/-- **Step lemma for `KEYS`.** -/
theorem Changes.lists {s : State} (hs : Changes s) {r : Nat} {user : Uuid} {keys : List RefreshHash}
    (hphase : s.phase r = .changeUpdated user) (hall : keys.Perm (s.data.sessions.map Prod.fst)) :
    Changes ⟨{ s.data with log := .listed r user :: s.data.log },
      Function.update s.phase r (changeLoop user keys)⟩ := by
  have hquiet : ∀ p owner, Revoking s.data p owner (s.phase p) →
      Revoking { s.data with log := .listed r user :: s.data.log } p owner (s.phase p) :=
    fun p owner h => h.quiet (List.subset_cons_self _ _) (stale_cons_of_ne (by simp) (by simp))
      fun _ h => h
  refine hs.update (fun owner hchanged => ?_) fun p owner _ hchanged => ?_
  · have hrevoking := hquiet r owner (hs r owner (by simpa using hchanged))
    have howner : user = owner := by
      have hafter := hrevoking.after
      rw [hphase] at hafter
      exact hafter
    refine ⟨howner ▸ after_changeLoop user keys, hrevoking.owned,
      fun _ => howner ▸ List.mem_cons_self, ?_⟩
    intro keys' hkeys' hash _ hstored
    rw [remaining_changeLoop] at hkeys'
    obtain rfl := Option.some.inj hkeys'
    obtain ⟨v, hv⟩ := Option.ne_none_iff_exists'.mp hstored
    exact hall.mem_iff.mpr (List.mem_map_of_mem (OrderedDict.mem_of_get hv))
  · exact ⟨by simpa using hchanged, hquiet p owner⟩

/-- A session is deleted and the deletion recorded; the request changes no password. -/
theorem Changes.deletes {s : State} (hs : Changes s) {r : Nat} {new : Phase} {hash : RefreshHash}
    {e : Event} (hphase : ∀ user, ¬ (s.phase r).After user)
    (hissued : ∀ r parent hash user, e ≠ .issued r parent hash user)
    (hchanged : ∀ p user, e ≠ .changed p user) :
    Changes ⟨{ s.data with
      sessions := s.data.sessions.pop hash
      log := e :: s.data.log }, Function.update s.phase r new⟩ := by
  have hold : ∀ p user, Event.changed p user ∈ e :: s.data.log → Event.changed p user ∈ s.data.log :=
    fun p user h => (List.mem_cons.mp h).resolve_left fun heq => hchanged p user heq.symm
  refine hs.update (fun user h => ?_) fun p user _ h => ⟨hold p user h, fun hrevoking => ?_⟩
  · exact absurd (hs r user (hold r user h)).after (hphase user)
  · exact hrevoking.quiet (List.subset_cons_self _ _) (stale_cons_of_ne hissued (hchanged p))
      fun _ h => get_pop_eq_none h hash

theorem Changes.arrive (pkg : Packages) {s : State} (hs : Changes s) {r : Nat}
    (hidle : s.phase r = .idle) (req : Request) :
    Changes { s with phase := Function.update s.phase r (Auth.arrive pkg req) } := by
  refine hs.advance rfl (fun _ h => h) fun user h => ?_
  have hafter := h.after
  rw [hidle] at hafter
  exact hafter.elim

/-- **Step lemma.** -/
theorem step_changes {pkg : Packages} {s t : State} {a : Action} (hsound : Sound s)
    (hs : Changes s) (hlate : RotatesUnlisted s a) (h : step pkg s a = some t) : Changes t := by
  refine step_preserves hs ?_ (fun r req hidle => hs.arrive pkg hidle req) ?_ ?_ ?_ h
  · intro u r hu
    exact hu.advance rfl (fun _ h => h) fun user hr => hr.of_remaining_eq_none trivial rfl
  · intro r phase data hcommand heffect
    generalize hphase : s.phase r = old at heffect
    cases heffect with
    | reads _ _ users hreads => exact hs.reads hsound (hphase ▸ hreads)
    | issues user parent hash fresh =>
      refine hs.issues hsound hphase fresh fun old hold p hp hremaining => ?_
      exact hlate r hcommand old (by rw [hphase]; exact hold) p hp hremaining
    | deletes hash user =>
      exact hs.deletes (by simp [hphase, Phase.After]) (by simp) (by simp)
    | logsOut hash => exact hs.deletes (by simp [hphase, Phase.After]) (by simp) (by simp)
    | changes user newHash users => exact hs.changes hphase
    | lists user keys all => exact hs.lists hphase all
    | removes key _ _ hremoves =>
      refine hs.advance rfl (fun _ h => get_pop_eq_none h key) fun user hrevoking => ?_
      rw [hphase] at hrevoking
      cases hremoves with
      | changed owner key keys =>
        refine hrevoking.loop hrevoking.after rfl fun _ => ?_
        show (s.data.sessions.pop key).get key = none
        rw [OrderedDict.get_pop, if_pos rfl]
      | closed hash => exact hrevoking.after.elim
  · intro hash p user hchanged
    exact (hs p user hchanged).quiet (List.Subset.refl _) rfl fun _ h => get_pop_eq_none h hash
  · intro users p user hchanged
    exact (hs p user hchanged).quiet (List.Subset.refl _) rfl fun _ h => h

/-- **A change of the password revokes every session**, in every run in which no refresh stores a
    successor of a stale token after the keys were listed. -/
theorem revoked (pkg : Packages) (users : List UserRow) {s : State} {as : List Action}
    (hrun : run (step pkg) (initial users) as = some s)
    (hlate : Along (step pkg) RotatesUnlisted (initial users) as) : Revoked s := by
  have hinitial : Sound (initial users) ∧ Changes (initial users) :=
    ⟨sound_initial users, fun p user h => by cases h⟩
  have hall := Lib.run_invariant_along (P := fun s => Sound s ∧ Changes s)
    (fun _ _ _ hs hlate h => ⟨step_sound hs.1 h, step_changes hs.1 hs.2 hlate h⟩)
    hinitial hrun hlate
  exact hall.2.toRevoked

/-! ### One account -/

/-- Packages that accept every registration and keep the password as it is. -/
private def packages : Packages :=
  ⟨fun _ => none, fun password _ => password, fun password hash => password = hash⟩

private def account : List UserRow := [⟨1, "an", "an@oec.vn", "matkhau1", true⟩]

private def draws (hash : RefreshHash) (keys : List RefreshHash) : Draw := ⟨2, "salt", hash, keys⟩

/-- A login, and a change of the password. -/
private def changedAlone : List Action :=
  [.begin 0 (.login ⟨"an", "matkhau1"⟩), .next 0 (draws "t0" []), .next 0 (draws "t0" []),
    .begin 1 (.changePassword (some 1) ⟨"matkhau1", "matkhau2"⟩),
    .next 1 (draws "" []), .next 1 (draws "" []), .next 1 (draws "" ["t0"]),
    .next 1 (draws "" []), .next 1 (draws "" [])]

private theorem changedAlone_runs :
    (run (step packages) (initial account) changedAlone).isSome := by decide +kernel

theorem revoked_alone :
    Revoked ((run (step packages) (initial account) changedAlone).get changedAlone_runs) :=
  revoked packages account (Option.some_get _).symm (by decide +kernel)

/-- A login, and a refresh that deletes its token before the keys are listed and stores the next
    one after that. -/
private def changedDuringRefresh : List Action :=
  [.begin 0 (.login ⟨"an", "matkhau1"⟩), .next 0 (draws "t0" []), .next 0 (draws "t0" []),
    .begin 2 (.refresh (some "t0")), .next 2 (draws "" []), .next 2 (draws "" []),
    .begin 1 (.changePassword (some 1) ⟨"matkhau1", "matkhau2"⟩),
    .next 1 (draws "" []), .next 1 (draws "" []), .next 1 (draws "" []),
    .next 2 (draws "" []), .next 2 (draws "t1" [])]

/-- The change has returned, and the successor of the old token is stored. -/
theorem rotated_during_change :
    ¬ ∀ (pkg : Packages) (users : List UserRow) (s : State) (as : List Action),
      run (step pkg) (initial users) as = some s → Revoked s := by
  intro h
  have hrun : (run (step packages) (initial account) changedDuringRefresh).map
      (fun s => (decide (Event.changed 1 1 ∈ s.data.log), s.phase 1, decide ("t1" ∈ stale 1 s.data.log),
        s.data.sessions.get "t1")) = some (true, .answered 204, true, some 1) := by decide +kernel
  obtain ⟨s, hs, hstate⟩ := Option.map_eq_some_iff.mp hrun
  simp only [Prod.mk.injEq, decide_eq_true_eq] at hstate
  obtain ⟨hchanged, hphase, hstale, hstored⟩ := hstate
  have hnone := h packages account s _ hs 1 1 hchanged 204 hphase "t1" hstale
  rw [hstored] at hnone
  cases hnone

end Oecophylla.Auth
