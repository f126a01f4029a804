import Oecophylla.Lib.Expiring
import Oecophylla.Lib.Run
import Oecophylla.Python.UuidText
import Oecophylla.Worker.Envelope

namespace Oecophylla.Feed.Cache

open Lib (Expiring run Along)
open Python (uuidText)

/-!
# The cached feed — `feed-service/src/cache.rs`, `cache-invalidator/src/consumer.rs`

The feed service keeps the feed that it has built for a user; the cache-invalidator deletes it when
the user does something.

* `Envelope.decode`, `extractUserId`, `invalidatesPreferences` — what the consumer makes of a message;
* `cacheKeysForUser`, `feedKey` — the keys of both services, `feedKey_mem_cacheKeysForUser`;
* `State`, `Action`, `step` — Redis, the builds under way and what was served;
* `Sound` — the invariant; `served_from_cache` — what it says of a feed from the cache;
* `fresh_iff_along` — nothing in the cache is older than the last deletion exactly when no deletion
  overtakes a build that is stored;
* `deletes_of_feature` — whatever counts for the preferences of a user deletes the user's feed.

A build reads the cache, asks the other services and writes the cache, and other things happen in
between.  A feed is written as JSON and read back; where that fails, the cache is not readable.
-/

/-- A 128-bit UUID; `str` and `Display` write it the same way. -/
abbrev Uuid := Fin (2 ^ 128)

/-! ### The consumer -/

/-- `CACHE_KEY_PREFIXES`. -/
def cacheKeyPrefixes : List String :=
  ["pref:", "pref:v1:", "pref:v2:", "history:v1:", "history:v2:", "feed:", "feed:v1:", "feed:v2:"]

/-- `cache_keys_for_user(user_id)`, and `preference_cache_keys(user_id)` of the user service and of the
    feature worker. -/
def cacheKeysForUser (userId : String) : List String := cacheKeyPrefixes.map fun p => p ++ userId

/-- `PREFERENCE_EVENTS`. -/
def preferenceEvents : List String :=
  ["viewed", "qualified_read", "liked", "unliked", "saved", "unsaved", "shared", "unshared", "hidden",
    "reported", "commented", "comment_replied", "visible", "view", "click", "dwell", "like", "unlike",
    "save", "unsave", "share", "unshare", "hide", "unhide", "report", "comment", "qualified_read_v2"]

/-- `invalidates_preferences(event_type)`. -/
def invalidatesPreferences (eventType : String) : Bool := eventType ∈ preferenceEvents

/-- `Envelope`; both fields have a default. -/
structure Envelope where
  eventType : Option String
  data : Json

/-- `event_type` of an envelope. -/
def eventTypeField : Option Json → Option (Option String)
  | none | some .null => some none
  | some (.str eventType) => some (some eventType)
  | some _ => none

/-- `serde_json::from_slice`: the fields of an object by their names, or the first items of an
    array. -/
def Envelope.decode : Json → Option Envelope
  | .obj fields =>
    (eventTypeField (Object.get fields "event_type")).map fun eventType =>
      ⟨eventType, (Object.get fields "data").getD .null⟩
  | .arr items =>
    if items.length ≤ 2 then
      (eventTypeField items[0]?).map fun eventType => ⟨eventType, items[1]?.getD .null⟩
    else none
  | _ => none

/-- `extract_user_id(env)`: the first of the keys that has a text. -/
def extractUserId (env : Envelope) : Option String := do
  let data ← env.data.asObject
  ["user_id", "reporter_id", "commenter_id"].findSome? fun key =>
    (Object.get data key).bind Json.asStr

/-- The user whose caches a message deletes; a message without a payload, or one that is not JSON, is
    `none`. -/
def invalidatedUser (payload : Option Json) : Option String := do
  let env ← payload.bind Envelope.decode
  if env.eventType.any invalidatesPreferences then extractUserId env else none

/-! ### The feed service -/

/-- `feed_key(user_id)`. -/
def feedKey (user : Uuid) : String := "feed:" ++ uuidText user.val

/-- A build under way: whose feed it is, and how often the caches of the user had been deleted when it
    found none. -/
structure Build where
  user : Uuid
  since : Nat
  deriving DecidableEq, Repr

/-- A feed in the cache.  Beside it: its build, how often the caches had been deleted when it was
    stored, and the time. -/
structure CachedFeed (F : Type) where
  feed : F
  build : Build
  upto : Nat
  storedAt : Nat

/-- A feed that was served from the cache, to whom, when, and how often the caches of the user had been
    deleted. -/
structure Served (F : Type) where
  user : Uuid
  cached : CachedFeed F
  deletions : Nat
  servedAt : Nat

/-- Redis, with the time in seconds; how often the caches of a user have been deleted; the builds that
    were begun, `none` when they are done; and what was served from the cache. -/
structure State (F : Type) where
  now : Nat
  redis : Expiring String (CachedFeed F)
  deletions : String → Nat
  builds : List (Option Build)
  served : List (Served F)

/-- What happens. -/
inductive Action (F : Type) where
  | wait (seconds : Nat)
  /-- The consumer has a message; Redis deletes the keys, or fails. -/
  | consume (payload : Option Json) (deleted : Bool)
  /-- `get_cached_feed`, and whether Redis answers with what can be read. -/
  | request (user : Uuid) (readable : Bool)
  /-- A build is done; Redis stores the feed, or fails. -/
  | finish (i : Nat) (feed : F) (stored : Bool)

variable {F : Type} (ttl : Nat)

/-- Nothing has happened. -/
def new : State F := ⟨0, fun _ => none, fun _ => 0, [], []⟩

/-- `invalidate_user_caches`. -/
def invalidate (s : State F) (userId : String) : State F :=
  { s with
    redis := s.redis.delete (cacheKeysForUser userId)
    deletions := Function.update s.deletions userId (s.deletions userId + 1) }

/-- The body of the loop of the consumer; the message is committed in any case. -/
def consume (s : State F) (payload : Option Json) (deleted : Bool) : State F :=
  match invalidatedUser payload with
  | none => s
  | some userId => if deleted then invalidate s userId else s

/-- `load_or_build_feed`, up to the answers of the other services. -/
def request (s : State F) (user : Uuid) (readable : Bool) : State F :=
  match if readable then s.redis.read s.now (feedKey user) else none with
  | some cached =>
    { s with served := s.served ++ [⟨user, cached, s.deletions (uuidText user.val), s.now⟩] }
  | none => { s with builds := s.builds ++ [some ⟨user, s.deletions (uuidText user.val)⟩] }

/-- `persist`, with `feed_cache_ttl_seconds`. -/
def persist (s : State F) (build : Build) (feed : F) : State F :=
  { s with
    redis := s.redis.setex s.now (feedKey build.user) ttl
      ⟨feed, build, s.deletions (uuidText build.user.val), s.now⟩ }

/-- One step. -/
def step (s : State F) : Action F → Option (State F)
  | .wait seconds => some { s with now := s.now + seconds }
  | .consume payload deleted => some (consume s payload deleted)
  | .request user readable => some (request s user readable)
  | .finish i feed stored => do
    let build ← (s.builds[i]?).join
    let t : State F := { s with builds := s.builds.set i none }
    some (if stored then persist ttl t build feed else t)

/-! ### Keys -/

/-- A version is not the beginning of an id. -/
theorem uuidText_ne_version {n : Nat} (version rest : List Char) (h : 'v' ∈ version) :
    (uuidText n).toList ≠ version ++ rest := by
  intro heq
  exact Python.not_mem_uuidText (by decide) (by decide) n (heq ▸ List.mem_append_left rest h)

/-- **Keys.**  The consumer deletes the feed of the user whose id the event has, and of nobody else,
    whatever text the event has for an id. -/
theorem feedKey_mem_cacheKeysForUser {user : Uuid} {userId : String} :
    feedKey user ∈ cacheKeysForUser userId ↔ userId = uuidText user.val := by
  unfold cacheKeysForUser cacheKeyPrefixes feedKey
  simp only [List.mem_map, List.mem_cons, List.not_mem_nil, or_false]
  constructor
  · rintro ⟨p, hp, heq⟩
    have hchars := congrArg String.toList heq
    rw [String.toList_append, String.toList_append] at hchars
    rcases hp with rfl | rfl | rfl | rfl | rfl | rfl | rfl | rfl
    · simp at hchars
    · simp at hchars
    · simp at hchars
    · simp at hchars
    · simp at hchars
    · exact String.ext (List.append_cancel_left hchars)
    · -- `feed:v1:` and an id, where `feed:` and an id are asked for
      have hfeed : "feed:v1:".toList = "feed:".toList ++ "v1:".toList := by decide
      rw [hfeed, List.append_assoc] at hchars
      exact absurd (List.append_cancel_left hchars).symm (uuidText_ne_version _ _ (by decide))
    · have hfeed : "feed:v2:".toList = "feed:".toList ++ "v2:".toList := by decide
      rw [hfeed, List.append_assoc] at hchars
      exact absurd (List.append_cancel_left hchars).symm (uuidText_ne_version _ _ (by decide))
  · rintro rfl
    exact ⟨"feed:", by simp, rfl⟩

theorem feedKey_injective {user user' : Uuid} (h : feedKey user = feedKey user') : user = user' := by
  have htext : uuidText user.val = uuidText user'.val := by
    have hchars := congrArg String.toList h
    unfold feedKey at hchars
    rw [String.toList_append, String.toList_append] at hchars
    exact String.ext (List.append_cancel_left hchars)
  exact Fin.ext (Python.uuidText_injective user.isLt user'.isLt htext)

/-! ### The invariant -/

/-- A feed in the cache was built for the user, and its user's caches were not deleted since; it is
    kept for `ttl` seconds. -/
structure CachedFeed.Sound (now deletions : Nat) (user : Uuid) (cached : CachedFeed F)
    (expiresAt : Nat) : Prop where
  user_eq : cached.build.user = user
  since_le : cached.build.since ≤ cached.upto
  upto_eq : cached.upto = deletions
  storedAt_le : cached.storedAt ≤ now
  expiresAt_eq : expiresAt = cached.storedAt + ttl

/-- What is served from the cache. -/
structure Served.Sound (r : Served F) : Prop where
  user_eq : r.cached.build.user = r.user
  since_le : r.cached.build.since ≤ r.cached.upto
  upto_eq : r.cached.upto = r.deletions
  storedAt_le : r.cached.storedAt ≤ r.servedAt
  servedAt_lt : r.servedAt < r.cached.storedAt + ttl

/-- **The invariant.** -/
structure Sound (s : State F) : Prop where
  cached : ∀ user entry, s.redis (feedKey user) = some entry →
    entry.value.Sound ttl s.now (s.deletions (uuidText user.val)) user entry.expiresAt
  builds : ∀ b ∈ s.builds, ∀ build ∈ b, build.since ≤ s.deletions (uuidText build.user.val)
  served : ∀ r ∈ s.served, r.Sound ttl

/-- No feed in the cache was begun before the last deletion. -/
def Fresh (s : State F) : Prop :=
  ∀ user entry, s.redis (feedKey user) = some entry →
    entry.value.build.since = s.deletions (uuidText user.val)

/-- A build that is stored was not overtaken by a deletion. -/
def NotOvertaken (s : State F) : Action F → Prop
  | .finish i _ true => ∀ build ∈ (s.builds[i]?).join,
      build.since = s.deletions (uuidText build.user.val)
  | _ => True

instance (s : State F) : DecidablePred (NotOvertaken s)
  | .finish i _ true => inferInstanceAs (Decidable (∀ build ∈ (s.builds[i]?).join,
      build.since = s.deletions (uuidText build.user.val)))
  | .finish _ _ false | .wait _ | .consume _ _ | .request _ _ => isTrue trivial

section Invariant

variable {ttl} {s t : State F} {a : Action F} {user : Uuid} {userId : String} {build : Build}
  {feed : F}

theorem sound_new : Sound ttl (new : State F) :=
  ⟨fun _ _ h => (nomatch h), fun _ h => (nomatch h), fun _ h => (nomatch h)⟩

/-- What is left of the feeds after a deletion. -/
theorem redis_invalidate (user : Uuid) : (invalidate s userId).redis (feedKey user)
    = if userId = uuidText user.val then none else s.redis (feedKey user) := by
  unfold invalidate Expiring.delete
  simp only [feedKey_mem_cacheKeysForUser]

theorem deletions_invalidate (text : String) : (invalidate s userId).deletions text
    = if text = userId then s.deletions userId + 1 else s.deletions text := by
  show Function.update s.deletions userId _ text = _
  rw [Function.update_apply]

/-- The feed of a user who is not concerned. -/
theorem of_redis_invalidate {entry : Expiring.Entry (CachedFeed F)}
    (h : (invalidate s userId).redis (feedKey user) = some entry) :
    s.redis (feedKey user) = some entry
      ∧ (invalidate s userId).deletions (uuidText user.val) = s.deletions (uuidText user.val) := by
  rw [redis_invalidate] at h
  split at h
  · cases h
  · next hne =>
    rw [deletions_invalidate, if_neg (Ne.symm hne)]
    exact ⟨h, rfl⟩

theorem sound_invalidate (hs : Sound ttl s) (userId : String) : Sound ttl (invalidate s userId) := by
  refine ⟨fun user entry hentry => ?_, fun b hb build hbuild => ?_, hs.served⟩
  · obtain ⟨hbefore, hdeletions⟩ := of_redis_invalidate hentry
    obtain ⟨huser, hsince, hupto, hstored, hexpires⟩ := hs.cached user entry hbefore
    exact ⟨huser, hsince, hupto.trans hdeletions.symm, hstored, hexpires⟩
  · have hle := hs.builds b hb build hbuild
    rw [deletions_invalidate]
    split
    · next heq =>
      rw [heq] at hle
      omega
    · exact hle

theorem redis_persist (ttl : Nat) (s : State F) (build : Build) (feed : F) (user : Uuid) :
    (persist ttl s build feed).redis (feedKey user) = if user = build.user then
        some ⟨⟨feed, build, s.deletions (uuidText build.user.val), s.now⟩, s.now + ttl⟩
      else s.redis (feedKey user) := by
  unfold persist
  dsimp only
  split
  · next heq => rw [heq, Expiring.setex_self]
  · next hne => rw [Expiring.setex_of_ne _ _ (fun h => hne (feedKey_injective h))]

theorem sound_persist (hs : Sound ttl s) (feed : F)
    (hbuild : build.since ≤ s.deletions (uuidText build.user.val)) :
    Sound ttl (persist ttl s build feed) := by
  refine ⟨fun user entry hentry => ?_, hs.builds, hs.served⟩
  rw [redis_persist] at hentry
  split at hentry
  · next heq =>
    obtain rfl := Option.some.inj hentry
    subst heq
    exact ⟨rfl, hbuild, rfl, le_rfl, rfl⟩
  · exact hs.cached user entry hentry

/-- What a request does. -/
theorem request_cases (s : State F) (user : Uuid) (readable : Bool) :
    (∃ entry, s.redis (feedKey user) = some entry ∧ s.now < entry.expiresAt
      ∧ request s user readable = { s with
        served := s.served ++ [⟨user, entry.value, s.deletions (uuidText user.val), s.now⟩] })
    ∨ request s user readable = { s with
        builds := s.builds ++ [some ⟨user, s.deletions (uuidText user.val)⟩] } := by
  unfold request
  cases readable with
  | false => exact Or.inr rfl
  | true =>
    rw [if_pos rfl]
    cases hread : s.redis.read s.now (feedKey user) with
    | none => exact Or.inr rfl
    | some cached =>
      obtain ⟨entry, hentry, hlive⟩ := Option.bind_eq_some_iff.mp hread
      split at hlive
      · next hlt =>
        obtain rfl := Option.some.inj hlive
        exact Or.inl ⟨entry, hentry, hlt, rfl⟩
      · cases hlive

theorem sound_request (hs : Sound ttl s) (user : Uuid) (readable : Bool) :
    Sound ttl (request s user readable) := by
  rcases request_cases s user readable with ⟨entry, hentry, hlt, heq⟩ | heq
  · rw [heq]
    refine ⟨hs.cached, hs.builds, fun r hr => ?_⟩
    rcases List.mem_append.mp hr with hr | hr
    · exact hs.served r hr
    · obtain rfl := List.mem_singleton.mp hr
      obtain ⟨huser, hsince, hupto, hstored, hexpires⟩ := hs.cached user entry hentry
      exact ⟨huser, hsince, hupto, hstored, hexpires ▸ hlt⟩
  · rw [heq]
    refine ⟨hs.cached, fun b hb => ?_, hs.served⟩
    rcases List.mem_append.mp hb with hb | hb
    · exact hs.builds b hb
    · obtain rfl := List.mem_singleton.mp hb
      rintro build ⟨⟩
      exact le_rfl

/-- What the end of a build does. -/
theorem finish_eq_some {i : Nat} {stored : Bool} (h : step ttl s (.finish i feed stored) = some t) :
    ∃ build, (s.builds[i]?).join = some build
      ∧ t = if stored then persist ttl { s with builds := s.builds.set i none } build feed
        else { s with builds := s.builds.set i none } := by
  obtain ⟨build, hbuild, h⟩ := Option.bind_eq_some_iff.mp h
  exact ⟨build, hbuild, (Option.some.inj h).symm⟩

theorem sound_done (hs : Sound ttl s) (i : Nat) :
    Sound ttl { s with builds := s.builds.set i none } := by
  refine ⟨hs.cached, fun b hb => ?_, hs.served⟩
  rcases List.mem_or_eq_of_mem_set hb with hb | rfl
  · exact hs.builds b hb
  · rintro build ⟨⟩

/-- A message deletes, or it changes nothing. -/
theorem consume_cases (s : State F) (payload : Option Json) (deleted : Bool) :
    (∃ userId, invalidatedUser payload = some userId ∧ deleted = true
      ∧ consume s payload deleted = invalidate s userId)
    ∨ consume s payload deleted = s := by
  unfold consume
  cases invalidatedUser payload with
  | none => exact Or.inr rfl
  | some userId =>
    cases deleted with
    | false => exact Or.inr rfl
    | true => exact Or.inl ⟨userId, rfl, rfl, rfl⟩

/-- The step. -/
theorem Sound.step (hs : Sound ttl s) (h : step ttl s a = some t) : Sound ttl t := by
  cases a with
  | wait seconds =>
    obtain rfl := Option.some.inj h
    refine ⟨fun user entry hentry => ?_, hs.builds, hs.served⟩
    obtain ⟨huser, hsince, hupto, hstored, hexpires⟩ := hs.cached user entry hentry
    exact ⟨huser, hsince, hupto, hstored.trans (Nat.le_add_right ..), hexpires⟩
  | consume payload deleted =>
    obtain rfl := Option.some.inj h
    rcases consume_cases s payload deleted with ⟨userId, -, -, heq⟩ | heq
    · rw [heq]
      exact sound_invalidate hs userId
    · rw [heq]
      exact hs
  | request user readable => exact Option.some.inj h ▸ sound_request hs user readable
  | finish i feed stored =>
    obtain ⟨build, hbuild, rfl⟩ := finish_eq_some h
    have hmem : some build ∈ s.builds := List.mem_of_getElem? (Option.join_eq_some_iff.mp hbuild)
    split
    · exact sound_persist (sound_done hs i) feed (hs.builds _ hmem build rfl)
    · exact sound_done hs i

/-- **The cache.**  Whatever happens, a feed that is served from the cache was built for the user to
    whom it is served and is younger than `ttl`; the caches of the user were not deleted since it was
    stored, so that it is older than the last deletion only if this came while it was built. -/
theorem served_from_cache {actions : List (Action F)} (hrun : run (Cache.step ttl) new actions = some s) :
    ∀ r ∈ s.served, r.cached.build.user = r.user
      ∧ r.cached.storedAt ≤ r.servedAt ∧ r.servedAt < r.cached.storedAt + ttl
      ∧ r.cached.upto = r.deletions
      ∧ (r.cached.build.since = r.deletions ↔ r.cached.build.since = r.cached.upto) := by
  have hsound : Sound ttl s := Lib.run_invariant (fun _ _ _ => Sound.step) sound_new hrun
  intro r hr
  obtain ⟨huser, -, hupto, hstored, hserved⟩ := hsound.served r hr
  exact ⟨huser, hstored, hserved, hupto, by rw [hupto]⟩

/-- A user asks, gets a new feed, and asks again ten seconds later. -/
def asked : List (Action String) :=
  [.request 1 true, .finish 0 "new" true, .wait 10, .request 1 true]

/-- The second request is served from the cache. -/
theorem served_from_cache_asked : ∃ s, run (Cache.step 60) new asked = some s ∧ s.served.length = 1
    ∧ (s.served.all fun r => r.cached.upto = r.deletions) = true :=
  ⟨_, rfl, by decide +kernel, List.all_eq_true.mpr fun r hr =>
    decide_eq_true (@served_from_cache String 60 _ asked rfl r hr).2.2.2.1⟩

/-- The step: nothing in the cache gets older than the last deletion, except by a build that was
    overtaken. -/
theorem fresh_step_iff (hfresh : Fresh s) (h : step ttl s a = some t) :
    Fresh t ↔ NotOvertaken s a := by
  cases a with
  | wait seconds => exact Option.some.inj h ▸ iff_of_true hfresh trivial
  | consume payload deleted =>
    obtain rfl := Option.some.inj h
    refine iff_of_true ?_ trivial
    rcases consume_cases s payload deleted with ⟨userId, -, -, heq⟩ | heq
    · rw [heq]
      intro user entry hentry
      obtain ⟨hbefore, hdeletions⟩ := of_redis_invalidate hentry
      rw [hdeletions]
      exact hfresh user entry hbefore
    · rw [heq]
      exact hfresh
  | request user readable =>
    obtain rfl := Option.some.inj h
    refine iff_of_true ?_ trivial
    rcases request_cases s user readable with ⟨entry, -, -, heq⟩ | heq
    · rw [heq]
      exact hfresh
    · rw [heq]
      exact hfresh
  | finish i feed stored =>
    obtain ⟨build, hbuild, rfl⟩ := finish_eq_some h
    cases stored with
    | false => exact iff_of_true hfresh trivial
    | true =>
      rw [if_pos rfl]
      show Fresh (persist ttl { s with builds := s.builds.set i none } build feed)
        ↔ ∀ build ∈ (s.builds[i]?).join, build.since = s.deletions (uuidText build.user.val)
      simp only [hbuild, Option.mem_some_iff, forall_eq']
      constructor
      · intro hall
        have hself := redis_persist ttl { s with builds := s.builds.set i none } build feed build.user
        rw [if_pos rfl] at hself
        exact hall build.user _ hself
      · intro hsince user entry hentry
        rw [redis_persist] at hentry
        split at hentry
        · next heq =>
          obtain rfl := Option.some.inj hentry
          rw [heq]
          exact hsince
        · exact hfresh user entry hentry

/-- **Freshness.**  In every state of a run no feed in the cache was begun before the last deletion of
    its user's caches, exactly when in no step of the run a build is stored that a deletion has
    overtaken; and then every feed that is served from the cache is as fresh. -/
theorem fresh_iff_along {actions : List (Action F)} (hrun : run (Cache.step ttl) new actions = some s) :
    ((∀ earlier u, earlier <+: actions → run (Cache.step ttl) new earlier = some u → Fresh u)
        ↔ Along (Cache.step ttl) NotOvertaken new actions)
      ∧ (Along (Cache.step ttl) NotOvertaken new actions →
          ∀ r ∈ s.served, r.cached.build.since = r.deletions) := by
  have hnew : Fresh (new : State F) := fun _ _ h => (nomatch h)
  constructor
  · exact Lib.forall_prefix_iff_along (I := fun _ => True) (fun _ _ _ _ _ _ => trivial)
      (fun _ _ _ _ hfresh hstep => fresh_step_iff hfresh hstep) trivial hnew hrun
  · intro halong
    have hstep : ∀ (s : State F) (a : Action F) t,
        (Fresh s ∧ ∀ r ∈ s.served, r.cached.build.since = r.deletions) → NotOvertaken s a →
          Cache.step ttl s a = some t →
          (Fresh t ∧ ∀ r ∈ t.served, r.cached.build.since = r.deletions) := by
      rintro s a t ⟨hfresh, hserved⟩ hnot hstep
      refine ⟨(fresh_step_iff hfresh hstep).mpr hnot, ?_⟩
      cases a with
      | wait seconds => exact Option.some.inj hstep ▸ hserved
      | consume payload deleted =>
        obtain rfl := Option.some.inj hstep
        rcases consume_cases s payload deleted with ⟨userId, -, -, heq⟩ | heq
        · rw [heq]
          exact hserved
        · rw [heq]
          exact hserved
      | request user readable =>
        obtain rfl := Option.some.inj hstep
        rcases request_cases s user readable with ⟨entry, hentry, -, heq⟩ | heq
        · rw [heq]
          intro r hr
          rcases List.mem_append.mp hr with hr | hr
          · exact hserved r hr
          · obtain rfl := List.mem_singleton.mp hr
            exact hfresh user entry hentry
        · rw [heq]
          exact hserved
      | finish i feed stored =>
        obtain ⟨build, -, rfl⟩ := finish_eq_some hstep
        cases stored <;> exact hserved
    exact (Lib.run_invariant_along hstep ⟨hnew, fun _ h => (nomatch h)⟩ hrun halong).2

/-- No deletion comes in between. -/
theorem fresh_asked : ∃ s, run (Cache.step 60) new asked = some s ∧ s.served.length = 1
    ∧ (s.served.all fun r => r.cached.build.since = r.deletions) = true :=
  ⟨_, rfl, by decide +kernel, List.all_eq_true.mpr fun r hr =>
    decide_eq_true ((@fresh_iff_along String 60 _ asked rfl).2 (by decide +kernel) r hr)⟩

end Invariant

/-! ### What counts for the preferences -/

/-- A record of the topic, as the feature worker sees it: the fields of an object whose `data` is an
    object. -/
def workerEnvelope (fields data : Object) (h : Object.get fields "data" = some (.obj data)) :
    Worker.Envelope where
  fields := Python.ofJsonFields fields
  data := Python.ofJsonFields data
  data_eq := by
    show Python.Dict.get _ _ = _
    rw [Python.get_ofJsonFields, h]
    rfl

/-- The first of the keys that is there, with a text, is the first that has a text. -/
theorem findSome?_asStr {data : Object} {text : String} {keys : List String}
    (h : keys.findSome? (Object.get data) = some (.str text)) :
    (keys.findSome? fun key => (Object.get data key).bind Json.asStr) = some text := by
  induction keys with
  | nil => cases h
  | cons key keys ih =>
    rw [List.findSome?_cons] at h ⊢
    cases hkey : Object.get data key with
    | none =>
      rw [hkey] at h
      exact ih h
    | some v =>
      rw [hkey] at h
      obtain rfl := Option.some.inj h
      rfl

/-- Every event with a weight is in the consumer's list. -/
theorem mem_preferenceEvents_of_weight {eventType : String} {w : Decimal}
    (h : Worker.weights.lookup eventType = some w) (hw : w.digits ≠ 0) :
    eventType ∈ preferenceEvents := by
  have hall : ∀ row ∈ Worker.weights, row.2.digits ≠ 0 → row.1 ∈ preferenceEvents := by decide
  obtain ⟨before, after, heq, -⟩ := List.lookup_eq_some_iff.mp h
  exact hall (eventType, w) (heq ▸ by simp) hw

/-- The keys in a dictionary of the worker. -/
theorem findSome?_get_ofJsonFields (data : Object) (keys : List String) :
    (keys.findSome? fun key => Python.Dict.get (Python.ofJsonFields data) key)
      = (keys.findSome? (Object.get data)).map Python.ofJson := by
  induction keys with
  | nil => rfl
  | cons key keys ih =>
    rw [List.findSome?_cons, List.findSome?_cons, Python.get_ofJsonFields, ih]
    cases Object.get data key <;> rfl

/-- **What counts.**  A record whose type is a text, and whose first id is a text that `Uuid` writes:
    when the feature worker applies it to the weights of a user, the consumer deletes the feed of this
    user, and no other feed. -/
theorem deletes_of_feature {q : Int} {fields data : Object}
    (hdata : Object.get fields "data" = some (.obj data)) {text : String} {w : Decimal}
    {user id : Nat}
    (htype : Object.get fields "event_type"
      = some (.str (Worker.eventType (workerEnvelope fields data hdata))))
    (hfirst : Worker.uuidKeys.findSome? (Object.get data) = some (.str text))
    (htext : ∃ v : Uuid, text = uuidText v.val)
    (hfeature : Worker.classify q (workerEnvelope fields data hdata) = .feature user id)
    (hweight : Worker.weights.lookup (Worker.eventType (workerEnvelope fields data hdata)) = some w)
    (hw : w.digits ≠ 0) (s : State F) :
    ∃ v : Uuid, v.val = user ∧ (consume s (some (.obj fields)) true).redis (feedKey v) = none
      ∧ ∀ other, other ≠ v →
        (consume s (some (.obj fields)) true).redis (feedKey other) = s.redis (feedKey other) := by
  obtain ⟨v, rfl⟩ := htext
  have hextract : Worker.extractUser (workerEnvelope fields data hdata) = some v.val := by
    unfold Worker.extractUser workerEnvelope
    rw [findSome?_get_ofJsonFields, hfirst]
    simp only [Option.map_some, Option.bind_some, Python.ofJson, Python.str]
    exact Python.uuidOfText_uuidText v.isLt
  have huser : some v.val = some user := hextract.symm.trans (Worker.of_classify_eq_feature hfeature).1
  have hinvalidated : invalidatedUser (some (.obj fields)) = some (uuidText v.val) := by
    have hmem := mem_preferenceEvents_of_weight hweight hw
    unfold invalidatedUser
    simp only [Option.bind_some, Envelope.decode, htype, eventTypeField, Option.map_some, hdata,
      Option.getD_some]
    show (if invalidatesPreferences _ then _ else none) = _
    rw [invalidatesPreferences, if_pos (decide_eq_true hmem)]
    exact findSome?_asStr hfirst
  have hconsume : consume s (some (.obj fields)) true = invalidate s (uuidText v.val) := by
    unfold consume
    rw [hinvalidated]
    rfl
  rw [hconsume]
  refine ⟨v, Option.some.inj huser, ?_, fun other hother => ?_⟩
  · exact (redis_invalidate v).trans (if_pos rfl)
  · have hne : uuidText v.val ≠ uuidText other.val :=
      fun h => hother (Fin.ext (Python.uuidText_injective v.isLt other.isLt h).symm)
    exact (redis_invalidate other).trans (if_neg hne)

/-- A like. -/
def likeData : Object := [("user_id", .str (uuidText 1)), ("post_id", .str (uuidText 2))]

/-- Its record. -/
def likeFields : Object :=
  [("event_id", .str (uuidText 3)), ("event_type", .str "liked"), ("data", .obj likeData)]

theorem deletes_like : ∃ v : Uuid, v.val = 1
    ∧ (consume (new : State String) (some (.obj likeFields)) true).redis (feedKey v) = none := by
  have htype : "liked" = Worker.eventType (workerEnvelope likeFields likeData rfl) := by
    decide +kernel
  obtain ⟨v, hv, hnone, -⟩ := @deletes_of_feature String 10000 likeFields likeData rfl (uuidText 1)
    ⟨false, 15, -1⟩ 1 3 (congrArg (fun t => some (Json.str t)) htype) rfl ⟨1, rfl⟩
    (by decide +kernel) (by decide +kernel) (by decide) new
  exact ⟨v, hv, hnone⟩

end Oecophylla.Feed.Cache
