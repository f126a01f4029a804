import Oecophylla.Lib.KeysetScan
import Oecophylla.Preference.Readable
import Oecophylla.Preference.RecentTopics

namespace Oecophylla.Preference.Backfill

open Lib (OrderedDict ordered scanLoop stableSort visitAll)
open AnySettings (Insertable Payload Settings)
open Oecophylla.Python (Float64 uuidText)

/-!
# Rebuilding the v2 vectors — `_backfill_v2` and `rebuild_v2.py`

A vector is rebuilt from the behavior that the table has of its user.  The worker does so at its start
for those who have none, page by page; `rebuild_v2.py` does so for everyone, by keyset paging, and
replaces vectors only when it is told to.

* `rebuildV2ForUser` — one user;
* `backfillV2`, `replayAll` — the two loops;
* `backfill_resumes` — the first loop ends, and a run that was broken off ends as one that was not;
* `replayAll_spec` — the second loop is one pass over the users in their order.
-/

/-- A UUID. -/
abbrev Uuid := Nat

/-- A row of `behavior_events`, with the fields of its metadata that are read. -/
structure BehaviorEvent where
  id : Uuid
  userId : Uuid
  postId : Uuid
  impressionId : Option Uuid
  sessionId : Option Uuid
  eventType : String
  dwellMs : Option Int
  readTrigger : Option String
  visitId : Option String
  topicSnapshot : Option (List (Option String))
  occurredAt : Instant
  deriving DecidableEq

/-- A row of `posts`. -/
structure Post where
  id : Uuid
  topics : Option (List (Option String))
  tags : Option (List (Option String))
  deriving DecidableEq

/-- The tables that the rebuild reads; an event goes when its post goes. -/
structure Tables where
  behavior : List BehaviorEvent
  posts : List Post
  postsExist : ∀ e ∈ behavior, ∃ p ∈ posts, p.id = e.postId

/-- What the rebuild writes: `user_preference_vectors_v2`, and the keys in Redis. -/
structure Vectors where
  vectors : OrderedDict Uuid (Payload Float64)
  cache : List String

/-- The configuration of the worker. -/
structure Config where
  exp2 : ℚ → ℚ
  settings : Settings
  qualifiedReadMs : Int
  backfillBatchSize : Nat

/-! ### One user -/

/-- Whether the `CHECK` of a weight holds. -/
def storable : Float64 → Bool
  | .finite q => decide (¬ (q < 0 ∨ 10 < q))
  | _ => false

theorem storable_iff (x : Float64) :
    storable x = true ↔ ∃ q, x = .finite q ∧ ¬ (q < 0 ∨ 10 < q) := by
  cases x <;> simp [storable]

instance : DecidablePred Insertable := fun payload =>
  have : DecidablePred fun x : Float64 => ∃ q, x = .finite q ∧ ¬ (q < 0 ∨ 10 < q) := fun x =>
    decidable_of_iff _ (storable_iff x)
  inferInstanceAs (Decidable (_ ∧ (∀ entry ∈ payload.positive, _) ∧ ∀ entry ∈ payload.negative, _))

/-- The columns that are selected of an event and its post. -/
def canonicalRow (e : BehaviorEvent) (p : Post) : CanonicalRow where
  eventId := uuidText e.id
  postId := uuidText e.postId
  impressionId := e.impressionId.map uuidText
  sessionId := e.sessionId.map uuidText
  eventType := e.eventType
  dwellMs := e.dwellMs
  readTrigger := e.readTrigger
  visitId := e.visitId
  topicSnapshot := e.topicSnapshot
  occurredAt := e.occurredAt
  topics := p.topics
  tags := p.tags

/-- `preference_cache_keys(user_id)`. -/
def preferenceCacheKeys (user : Uuid) : List String :=
  ["pref:", "pref:v1:", "pref:v2:", "history:v1:", "history:v2:", "feed:", "feed:v1:", "feed:v2:"].map
    fun start => start ++ uuidText user

namespace Tables

variable (db : Tables)

/-- The query of one user. -/
def canonicalRows (user : Uuid) : List CanonicalRow :=
  stableSort RecentTopics.compareRows ((db.behavior.filter fun e => e.userId = user).flatMap fun e =>
    (db.posts.filter fun p => p.id = e.postId).map (canonicalRow e))

/-- `SELECT user_id FROM preference_vector_v2_backfill_users`. -/
def queue : List Uuid := (db.behavior.map BehaviorEvent.userId).dedup

/-- `last_event_at` of that view. -/
def lastEventAt (user : Uuid) : Instant :=
  (((db.behavior.filter fun e => e.userId = user).map BehaviorEvent.occurredAt).max?).getD 0

end Tables

section Rebuild

variable (cfg : Config) (db : Tables)

/-- The vector of a user, and what raises on the way to it; the clock would be read for no events. -/
def vectorOf (user : Uuid) : Except String (Payload Float64) :=
  match AnySettings.buildPreferenceVectorV2 cfg.exp2 (canonicalPreferenceEvents (db.canonicalRows user)) none 0
    cfg.settings cfg.qualifiedReadMs with
  | .error e => .error e
  | .ok vector => if Insertable vector then .ok vector else .error "CheckViolationError"

/-- `_upsert_vector_v2`, and the keys that are deleted after it. -/
def put (s : Vectors) (user : Uuid) (vector : Payload Float64) : Vectors where
  vectors := s.vectors.set user vector
  cache := s.cache.filter fun key => key ∉ preferenceCacheKeys user

/-- `_rebuild_v2_for_user(user_id)`. -/
def rebuildV2ForUser (s : Vectors) (user : Uuid) : Except String Vectors :=
  if canonicalPreferenceEvents (db.canonicalRows user) = [] then .ok s
  else (vectorOf cfg db user).map (put s user)

/-! ### The loops -/

/-- `ORDER BY queue.last_event_at, queue.user_id`. -/
def compareQueue (a b : Uuid) : Ordering :=
  (compare (db.lastEventAt a) (db.lastEventAt b)).then (compare a b)

/-- The users who have no vector yet. -/
def pending (s : Vectors) : List Uuid := db.queue.filter fun user => (s.vectors.get user).isNone

/-- `_backfill_v2()`: page after page, until there is none. -/
def backfillV2 : Nat → Vectors → Option (Vectors × Except String Unit)
  | 0, _ => none
  | fuel + 1, s =>
    match (stableSort (compareQueue db) (pending db s)).take cfg.backfillBatchSize with
    | [] => some (s, .ok ())
    | user :: users =>
      match visitAll (rebuildV2ForUser cfg db) s (user :: users) 0 with
      | (t, .error e) => some (t, .error e)
      | (t, .ok _) => backfillV2 fuel t

/-- `replay_user(worker, user_id, replace_existing_vectors=…)`. -/
def replayUser (replace : Bool) (s : Vectors) (user : Uuid) : Except String Vectors :=
  if ¬ ∃ e ∈ db.behavior, e.userId = user then
    .error ("no canonical behavior_events remain for user " ++ uuidText user)
  else if (s.vectors.get user).isSome ∧ ¬ replace then
    .error ("user " ++ uuidText user ++ " already has a v2 vector; verify the retained "
      ++ "source history before using --replace-existing-vectors")
  else rebuildV2ForUser cfg db s user

/-- The users of `PAGE_USERS_SQL`: a `UNION`. -/
def users (s : Vectors) : List Uuid := (db.queue ++ s.vectors.map Prod.fst).dedup

/-- `replay_all(worker, batch_size, replace_existing_vectors=…)`. -/
def replayAll (batchSize : Nat) (replace : Bool) (fuel : Nat) (s : Vectors) :
    Option (Vectors × Except String Nat) :=
  if ¬ replace ∧ s.vectors ≠ [] then
    some (s, .error ("v2 vectors already exist; verify the retained source history "
      ++ "before using --replace-existing-vectors"))
  else scanLoop id (replayUser cfg db replace) (users db) batchSize fuel s none 0

/-- `run_rebuild(user_id, all_users, batch_size, replace_existing_vectors=…)`. -/
def runRebuild (userId : Option Uuid) (allUsers : Bool) (batchSize : Int) (replace : Bool) (fuel : Nat)
    (s : Vectors) : Option (Vectors × Except String Nat) :=
  if batchSize ≤ 0 ∧ (allUsers = true ∨ userId ≠ none) then
    some (s, .error "batch size must be positive")
  else if allUsers then replayAll cfg db batchSize.toNat replace fuel s
  else
    match userId with
    | none => some (s, .error "choose --all or --user-id")
    | some user =>
      match replayUser cfg db replace s user with
      | .error e => some (s, .error e)
      | .ok t => some (t, .ok 1)

end Rebuild

/-! ### Visiting users -/

section Visits

variable {cfg : Config} {db : Tables} {s t : Vectors} {user : Uuid}

/-- The vectors of all users in the queue can be built. -/
def Builds (cfg : Config) (db : Tables) (vector : Uuid → Payload Float64) : Prop :=
  ∀ user ∈ db.queue, vectorOf cfg db user = .ok (vector user)

/-- Settings that are accepted and safe build everything. -/
theorem exists_builds (db : Tables) (hexp2 : ∀ x, 0 ≤ cfg.exp2 x)
    (hhalf : ¬ AnySettings.notPositive cfg.settings.preferenceHalfLifeHours)
    (hbound : ¬ AnySettings.notPositive cfg.settings.preferenceChannelBound)
    (hsafe : AnySettings.Settings.Safe cfg.settings) : ∃ vector, Builds cfg db vector := by
  have hall : ∀ user, ∃ vector, vectorOf cfg db user = .ok vector := by
    intro user
    cases hbuild : AnySettings.buildPreferenceVectorV2 cfg.exp2
        (canonicalPreferenceEvents (db.canonicalRows user)) none 0 cfg.settings cfg.qualifiedReadMs with
    | error e =>
      unfold AnySettings.buildPreferenceVectorV2 at hbuild
      rw [if_neg (not_or.mpr ⟨hhalf, hbound⟩)] at hbuild
      cases hbuild
    | ok vector =>
      have hinsertable := (AnySettings.readable_of_safe hexp2 hsafe hbuild).1
      exact ⟨vector, by unfold vectorOf; simp only [hbuild, if_pos hinsertable]⟩
  choose vector hvector using hall
  exact ⟨vector, fun user _ => hvector user⟩

theorem mem_queue : user ∈ db.queue ↔ ∃ e ∈ db.behavior, e.userId = user := by
  unfold Tables.queue
  rw [List.mem_dedup, List.mem_map]

/-- Who is in the queue has events: their posts are there. -/
theorem canonicalRows_ne_nil (h : user ∈ db.queue) :
    canonicalPreferenceEvents (db.canonicalRows user) ≠ [] := by
  obtain ⟨e, he, huser⟩ := mem_queue.mp h
  obtain ⟨p, hp, hpost⟩ := db.postsExist e he
  have hrow : canonicalRow e p ∈ db.canonicalRows user := by
    unfold Tables.canonicalRows
    rw [Lib.mem_stableSort, List.mem_flatMap]
    exact ⟨e, by simpa using ⟨he, huser⟩, List.mem_map_of_mem (by simpa using ⟨hp, hpost⟩)⟩
  exact List.ne_nil_of_mem (List.mem_map_of_mem hrow)

theorem rebuild_of_mem {vector : Uuid → Payload Float64} (hbuilds : Builds cfg db vector)
    (h : user ∈ db.queue) : rebuildV2ForUser cfg db s user = .ok (put s user (vector user)) := by
  unfold rebuildV2ForUser
  rw [if_neg (canonicalRows_ne_nil h), hbuilds user h]
  rfl

/-- The vectors after some users have been rebuilt. -/
def putAll (vector : Uuid → Payload Float64) (s : Vectors) (users : List Uuid) : Vectors :=
  users.foldl (fun s user => put s user (vector user)) s

theorem isSome_get {d : OrderedDict Uuid (Payload Float64)} :
    (d.get user).isSome = true ↔ user ∈ d.map Prod.fst := by
  induction d with
  | nil => simp
  | cons e d ih =>
    rw [OrderedDict.get_cons, List.map_cons, List.mem_cons]
    by_cases h : user = e.1
    · simp [h]
    · simp [h, ih]

theorem get_putAll (vector : Uuid → Payload Float64) (s : Vectors) (users : List Uuid) (user : Uuid) :
    (putAll vector s users).vectors.get user
      = if user ∈ users then some (vector user) else s.vectors.get user := by
  induction users generalizing s with
  | nil => simp [putAll]
  | cons first users ih =>
    show (putAll vector (put s first (vector first)) users).vectors.get user = _
    rw [ih]
    by_cases hin : user ∈ users
    · simp [hin]
    · rw [if_neg hin]
      show (s.vectors.set first (vector first)).get user = _
      rw [OrderedDict.get_set]
      by_cases hfirst : user = first
      · simp [hfirst]
      · simp [hfirst, hin]

/-- Rebuilding a vector leaves the others, and makes no key up. -/
theorem mem_cache_putAll (vector : Uuid → Payload Float64) (s : Vectors) (users : List Uuid)
    (key : String) : key ∈ (putAll vector s users).cache
      ↔ key ∈ s.cache ∧ ∀ user ∈ users, key ∉ preferenceCacheKeys user := by
  induction users generalizing s with
  | nil => simp [putAll]
  | cons first users ih =>
    show key ∈ (putAll vector (put s first (vector first)) users).cache ↔ _
    rw [ih]
    simp [put, and_assoc]

theorem visitAll_rebuild {vector : Uuid → Payload Float64} (hbuilds : Builds cfg db vector)
    {users : List Uuid} (husers : ∀ user ∈ users, user ∈ db.queue) (s : Vectors) (count : Nat) :
    visitAll (rebuildV2ForUser cfg db) s users count
      = (putAll vector s users, .ok (count + users.length)) := by
  induction users generalizing s count with
  | nil => rfl
  | cons user users ih =>
    unfold visitAll
    rw [rebuild_of_mem hbuilds (husers user List.mem_cons_self)]
    dsimp only
    rw [ih (fun u hu => husers u (List.mem_cons_of_mem user hu)), List.length_cons,
      Nat.add_assoc, Nat.add_comm 1]
    rfl

/-! ### The backfill -/

theorem mem_pending : user ∈ pending db s ↔ user ∈ db.queue ∧ s.vectors.get user = none := by
  unfold pending
  rw [List.mem_filter, Option.isNone_iff_eq_none]

/-- The users of a page are no longer pending. -/
theorem length_pending_putAll (vector : Uuid → Payload Float64) {page : List Uuid} {first : Uuid}
    (hpage : ∀ user ∈ page, user ∈ pending db s) (hfirst : first ∈ page) :
    (pending db (putAll vector s page)).length < (pending db s).length := by
  have hleft : pending db (putAll vector s page) = (pending db s).filter fun u => u ∉ page := by
    unfold pending
    rw [List.filter_filter]
    refine List.filter_congr fun user _ => ?_
    rw [get_putAll]
    by_cases hin : user ∈ page <;> simp [hin]
  rw [hleft]
  exact List.length_filter_lt_length_iff_exists.mpr ⟨first, hpage first hfirst, by simpa using hfirst⟩

/-- **The backfill ends.**  Everyone in the queue has got a vector, and who had one keeps it. -/
theorem backfill_eq {vector : Uuid → Payload Float64} (hbuilds : Builds cfg db vector)
    (hbatch : 0 < cfg.backfillBatchSize) {fuel : Nat} (hfuel : (pending db s).length < fuel) :
    ∃ users, (∀ user, user ∈ users ↔ user ∈ pending db s)
      ∧ backfillV2 cfg db fuel s = some (putAll vector s users, .ok ()) := by
  induction fuel generalizing s with
  | zero => omega
  | succ fuel ih =>
    unfold backfillV2
    split
    · next hempty =>
      have hnone : pending db s = [] := by
        have hsorted := (List.take_eq_nil_iff.mp hempty).resolve_left (by omega)
        rw [← List.length_eq_zero_iff, ← @Lib.length_stableSort _ (compareQueue db), hsorted]
        rfl
      exact ⟨[], fun user => by rw [hnone], rfl⟩
    · next first rest hpage =>
      have hmem : ∀ user ∈ first :: rest, user ∈ pending db s := fun user hu => by
        rw [← hpage] at hu
        exact Lib.mem_stableSort.mp (List.mem_of_mem_take hu)
      rw [visitAll_rebuild hbuilds fun user hu => (mem_pending.mp (hmem user hu)).1]
      have hless := length_pending_putAll vector hmem List.mem_cons_self
      obtain ⟨users, husers, hrest⟩ := ih (s := putAll vector s (first :: rest)) (by omega)
      refine ⟨(first :: rest) ++ users, fun user => ?_, ?_⟩
      · rw [List.mem_append, husers, mem_pending, get_putAll]
        by_cases hin : user ∈ first :: rest
        · simp only [hin, true_or, true_iff]
          exact hmem user hin
        · simp only [hin, false_or, if_false]
          exact mem_pending.symm
      · dsimp only
        rw [hrest]
        unfold putAll
        rw [List.foldl_append]

theorem get_of_backfill {vector : Uuid → Payload Float64} (hbuilds : Builds cfg db vector)
    {users : List Uuid} (husers : ∀ user, user ∈ users ↔ user ∈ pending db s) (user : Uuid) :
    (putAll vector s users).vectors.get user
      = (s.vectors.get user).or (if user ∈ db.queue then (vectorOf cfg db user).toOption else none) := by
  rw [get_putAll]
  by_cases hin : user ∈ users
  · obtain ⟨hqueue, hnone⟩ := mem_pending.mp ((husers user).mp hin)
    rw [if_pos hin, hnone, if_pos hqueue, hbuilds user hqueue]
    rfl
  · rw [if_neg hin]
    cases hget : s.vectors.get user with
    | some payload => rfl
    | none =>
      have hqueue : user ∉ db.queue := fun h => hin ((husers user).mpr (mem_pending.mpr ⟨h, hget⟩))
      rw [if_neg hqueue]
      rfl

/-- **The backfill resumes.**  Under settings that are accepted and safe the backfill ends.  Everyone
    who has behavior has got the vector of it, except who had a vector and keeps it; the cache has
    nothing of those who got one.  A run that was broken off after any of them, and started again, ends
    with the same vectors. -/
theorem backfill_resumes (cfg : Config) (db : Tables) (s : Vectors) (hexp2 : ∀ x, 0 ≤ cfg.exp2 x)
    (hhalf : ¬ AnySettings.notPositive cfg.settings.preferenceHalfLifeHours)
    (hbound : ¬ AnySettings.notPositive cfg.settings.preferenceChannelBound)
    (hsafe : AnySettings.Settings.Safe cfg.settings) (hbatch : 0 < cfg.backfillBatchSize) :
    ∃ t, backfillV2 cfg db ((pending db s).length + 1) s = some (t, .ok ())
      ∧ (∀ user, t.vectors.get user = (s.vectors.get user).or
          (if user ∈ db.queue then (vectorOf cfg db user).toOption else none))
      ∧ (∀ key, key ∈ t.cache
          ↔ key ∈ s.cache ∧ ∀ user ∈ pending db s, key ∉ preferenceCacheKeys user)
      ∧ ∀ (users : List Uuid) (s' : Vectors), (∀ user ∈ users, user ∈ pending db s) →
          visitAll (rebuildV2ForUser cfg db) s users 0 = (s', .ok users.length) →
          ∃ t', backfillV2 cfg db ((pending db s').length + 1) s' = some (t', .ok ())
            ∧ ∀ user, t'.vectors.get user = t.vectors.get user := by
  obtain ⟨vector, hbuilds⟩ := exists_builds db hexp2 hhalf hbound hsafe
  obtain ⟨users, husers, hrun⟩ := backfill_eq hbuilds hbatch (Nat.lt_succ_self (pending db s).length)
  refine ⟨_, hrun, get_of_backfill hbuilds husers, fun key => ?_, fun done s' hdone hvisited => ?_⟩
  · rw [mem_cache_putAll]
    simp only [husers]
  · -- What was done is what the whole run does for these users.
    rw [visitAll_rebuild hbuilds fun user hu => (mem_pending.mp (hdone user hu)).1] at hvisited
    obtain ⟨rfl, -⟩ := Prod.mk.inj hvisited
    obtain ⟨rest, hrest, hrun'⟩ :=
      backfill_eq hbuilds hbatch (Nat.lt_succ_self (pending db (putAll vector s done)).length)
    refine ⟨_, hrun', fun user => ?_⟩
    rw [get_of_backfill hbuilds hrest, get_of_backfill hbuilds husers, get_putAll]
    by_cases hin : user ∈ done
    · obtain ⟨hqueue, hnone⟩ := mem_pending.mp (hdone user hin)
      rw [if_pos hin, hnone, if_pos hqueue, hbuilds user hqueue]
      rfl
    · rw [if_neg hin]

/-- The defaults, with a page of two, where nothing decays. -/
def defaults : Config := ⟨fun _ => 1, ⟨.finite 720, .finite 10⟩, 10000, 2⟩

theorem safe_defaults : AnySettings.Settings.Safe defaults.settings :=
  .inr (.inr (.inr ⟨10, rfl, by decide +kernel⟩))

/-- A like of user 7. -/
def oneLike : Tables where
  behavior := [⟨1, 7, 5, none, none, "like", none, none, none, none, 0⟩]
  posts := [⟨5, none, none⟩]
  postsExist := by
    intro e he
    obtain rfl := List.mem_singleton.mp he
    exact ⟨_, List.mem_singleton_self _, rfl⟩

/-- The defaults, with pages of one, where nothing decays. -/
def pagesOfOne : Config := { defaults with backfillBatchSize := 1 }

/-- Users 7 and 8 like a post. -/
def twoLikes : Tables where
  behavior := [⟨1, 7, 5, none, none, "like", none, none, none, none, 0⟩,
    ⟨2, 8, 5, none, none, "like", none, none, none, none, 0⟩]
  posts := [⟨5, none, none⟩]
  postsExist := by
    intro e he
    simp only [List.mem_cons, List.not_mem_nil, or_false] at he
    rcases he with rfl | rfl
    · exact ⟨_, List.mem_singleton_self _, rfl⟩
    · exact ⟨_, List.mem_singleton_self _, rfl⟩

/-- The backfill gives both users their vectors, and so does one that was broken off after the first. -/
theorem backfill_resumes_twoLikes : ∃ t s' t',
    backfillV2 pagesOfOne twoLikes 3 ⟨[], ["feed:x"]⟩ = some (t, .ok ())
      ∧ t.vectors.get 7 = (vectorOf pagesOfOne twoLikes 7).toOption
      ∧ t.vectors.get 8 = (vectorOf pagesOfOne twoLikes 8).toOption
      ∧ visitAll (rebuildV2ForUser pagesOfOne twoLikes) ⟨[], ["feed:x"]⟩ [7] 0 = (s', .ok 1)
      ∧ s'.vectors.get 8 = none
      ∧ backfillV2 pagesOfOne twoLikes 2 s' = some (t', .ok ())
      ∧ ∀ user, t'.vectors.get user = t.vectors.get user := by
  obtain ⟨t, hrun, hget, -, hresumes⟩ := backfill_resumes pagesOfOne twoLikes ⟨[], ["feed:x"]⟩
    (fun _ => zero_le_one) (by decide) (by decide) safe_defaults (by decide)
  obtain ⟨vector, hbuilds⟩ : ∃ vector, Builds pagesOfOne twoLikes vector :=
    exists_builds twoLikes (fun _ => zero_le_one) (by decide) (by decide) safe_defaults
  have huser : ∀ user ∈ [7], user ∈ twoLikes.queue := by decide
  have hvisited := visitAll_rebuild hbuilds huser ⟨[], ["feed:x"]⟩ 0
  obtain ⟨t', hrun', hsame⟩ := hresumes [7] _ (by decide) hvisited
  exact ⟨t, _, t', hrun, hget 7, hget 8, hvisited, rfl, hrun', hsame⟩

/-! ### Everyone -/

/-- A replay does not change who there is. -/
theorem users_perm {replace : Bool} (ht : replayUser cfg db replace s user = .ok t) :
    (users db t).Perm (users db s) := by
  unfold replayUser at ht
  split at ht
  · cases ht
  · next hsource =>
    split at ht
    · cases ht
    · have hqueue : user ∈ db.queue := mem_queue.mpr (not_not.mp hsource)
      unfold rebuildV2ForUser at ht
      split at ht
      · rw [Except.ok.inj ht]
      · cases hvector : vectorOf cfg db user with
        | error e =>
          rw [hvector] at ht
          cases ht
        | ok payload =>
          rw [hvector] at ht
          obtain rfl := Except.ok.inj ht
          unfold users
          refine (List.perm_ext_iff_of_nodup (List.nodup_dedup _) (List.nodup_dedup _)).mpr fun u => ?_
          rw [List.mem_dedup, List.mem_dedup, List.mem_append, List.mem_append]
          -- The user was in the queue before there was a vector.
          have hkeys : u ∈ (put s user payload).vectors.map Prod.fst
              ↔ u = user ∨ u ∈ s.vectors.map Prod.fst := by
            show u ∈ (s.vectors.set user payload).map Prod.fst ↔ _
            rw [← isSome_get, ← isSome_get, OrderedDict.get_set]
            by_cases hu : u = user <;> simp [hu]
          rw [hkeys]
          constructor
          · rintro (h | rfl | h)
            · exact Or.inl h
            · exact Or.inl hqueue
            · exact Or.inr h
          · rintro (h | h)
            · exact Or.inl h
            · exact Or.inr (Or.inr h)

/-- The users who are visited, in their order. -/
def everyone (db : Tables) (s : Vectors) : List Uuid := stableSort compare (users db s)

theorem nodup_everyone (db : Tables) (s : Vectors) : (everyone db s).Nodup :=
  (Lib.stableSort_perm _ _).nodup_iff.mpr (List.nodup_dedup _)

theorem mem_everyone : user ∈ everyone db s ↔ user ∈ db.queue ∨ user ∈ s.vectors.map Prod.fst := by
  unfold everyone users
  rw [Lib.mem_stableSort, List.mem_dedup, List.mem_append]

/-- **One pass.**  The pages are one pass over everyone, whatever the replays write in between. -/
theorem replayAll_eq {replace : Bool} {batchSize : Nat} (hbatch : 0 < batchSize)
    (h : replace = true ∨ s.vectors = []) {fuel : Nat} (hfuel : (users db s).length < fuel) :
    replayAll cfg db batchSize replace fuel s
      = some (visitAll (replayUser cfg db replace) s (everyone db s) 0) := by
  have hall : ordered id none (users db s) = everyone db s := by
    unfold ordered everyone
    rw [List.filter_eq_self.mpr fun u _ => by simp]
    rfl
  unfold replayAll
  rw [if_neg (by rcases h with rfl | h <;> simp_all), ← hall]
  refine Lib.scanLoop_eq hbatch (P := fun _ => True) (fun u r t _ ht => ⟨trivial, users_perm ht⟩)
    (fun u _ => ?_) trivial none 0 ?_
  · rw [List.map_id]
    exact List.nodup_dedup _
  · rw [hall]
    unfold everyone
    rwa [Lib.length_stableSort]

/-- Users in the queue are replayed, as long as nobody's vector is in the way. -/
theorem visitAll_replay {vector : Uuid → Payload Float64} (hbuilds : Builds cfg db vector)
    {replace : Bool} {users : List Uuid} (hnodup : users.Nodup) (husers : ∀ user ∈ users, user ∈ db.queue)
    (h : replace = true ∨ ∀ user ∈ users, s.vectors.get user = none) (count : Nat) :
    visitAll (replayUser cfg db replace) s users count
      = (putAll vector s users, .ok (count + users.length)) := by
  induction users generalizing s count with
  | nil => rfl
  | cons user users ih =>
    obtain ⟨hfirst, hrest⟩ := List.nodup_cons.mp hnodup
    have hqueue := husers user List.mem_cons_self
    have hreplay : replayUser cfg db replace s user = .ok (put s user (vector user)) := by
      unfold replayUser
      rw [if_neg (not_not.mpr (mem_queue.mp hqueue)), if_neg, rebuild_of_mem hbuilds hqueue]
      rintro ⟨hsome, hreplace⟩
      rcases h with rfl | h
      · exact hreplace rfl
      · simp [h user List.mem_cons_self] at hsome
    unfold visitAll
    rw [hreplay]
    dsimp only
    rw [ih hrest (fun u hu => husers u (List.mem_cons_of_mem user hu)) ?_, List.length_cons,
      Nat.add_assoc, Nat.add_comm 1]
    · rfl
    · refine h.imp_right fun h u hu => ?_
      -- The vector of a user who comes later is not written yet.
      have hne : u ≠ user := fun heq => hfirst (heq ▸ hu)
      show (s.vectors.set user (vector user)).get u = none
      rw [OrderedDict.get_set, if_neg hne]
      exact h u (List.mem_cons_of_mem user hu)

/-- **Replaying everyone.**  A batch must not be empty, and vectors that exist are kept unless they are
    to be replaced: then nothing is written.  Otherwise the users are replayed once each, in their
    order, up to the first one whose vector has outlived the behavior: who came before has the vector
    of the behavior, and nobody after is touched.  Where there is no such user, the vectors are those
    of the behavior. -/
theorem replayAll_spec (cfg : Config) (db : Tables) (s : Vectors) (hexp2 : ∀ x, 0 ≤ cfg.exp2 x)
    (hhalf : ¬ AnySettings.notPositive cfg.settings.preferenceHalfLifeHours)
    (hbound : ¬ AnySettings.notPositive cfg.settings.preferenceChannelBound)
    (hsafe : AnySettings.Settings.Safe cfg.settings) (userId : Option Uuid) (batchSize : Int)
    (replace : Bool) :
    let result := runRebuild cfg db userId true batchSize replace ((users db s).length + 1) s
    (batchSize ≤ 0 ∨ replace = false ∧ s.vectors ≠ [] → ∃ e, result = some (s, .error e))
      ∧ (0 < batchSize → replace = true ∨ s.vectors = [] →
        ((∀ user ∈ everyone db s, user ∈ db.queue) →
          ∃ t, result = some (t, .ok (everyone db s).length)
            ∧ ∀ user, t.vectors.get user
              = if user ∈ db.queue then (vectorOf cfg db user).toOption else none)
        ∧ ∀ before user after, everyone db s = before ++ user :: after →
          (∀ u ∈ before, u ∈ db.queue) → user ∉ db.queue →
            ∃ t, result
                = some (t, .error ("no canonical behavior_events remain for user " ++ uuidText user))
              ∧ ∀ u, t.vectors.get u
                = if u ∈ before then (vectorOf cfg db u).toOption else s.vectors.get u) := by
  obtain ⟨vector, hbuilds⟩ := exists_builds db hexp2 hhalf hbound hsafe
  dsimp only
  refine ⟨fun hrefused => ?_, fun hbatch hreplace => ?_⟩
  · unfold runRebuild
    split
    · exact ⟨_, rfl⟩
    · next hpositive =>
      have hkept : ¬ replace = true ∧ s.vectors ≠ [] := by
        rcases hrefused with h | ⟨h, hvectors⟩
        · exact absurd ⟨h, Or.inl rfl⟩ hpositive
        · exact ⟨by simp [h], hvectors⟩
      rw [if_pos rfl]
      unfold replayAll
      rw [if_pos hkept]
      exact ⟨_, rfl⟩
  · have hrun : runRebuild cfg db userId true batchSize replace ((users db s).length + 1) s
        = some (visitAll (replayUser cfg db replace) s (everyone db s) 0) := by
      unfold runRebuild
      rw [if_neg (fun h => absurd h.1 (not_le.mpr hbatch)), if_pos rfl]
      exact replayAll_eq (by omega) hreplace (Nat.lt_succ_self _)
    have hfree (l : List Uuid) : replace = true ∨ ∀ user ∈ l, s.vectors.get user = none :=
      hreplace.imp_right fun h user _ => by rw [h, OrderedDict.get_nil]
    rw [hrun]
    refine ⟨fun hall => ?_, fun before user after heq hbefore hout => ?_⟩
    · rw [visitAll_replay hbuilds (nodup_everyone db s) hall (hfree _)]
      refine ⟨_, by rw [Nat.zero_add], fun user => ?_⟩
      rw [get_putAll]
      by_cases hqueue : user ∈ db.queue
      · rw [if_pos (mem_everyone.mpr (Or.inl hqueue)), if_pos hqueue, hbuilds user hqueue]
        rfl
      · have hnone : user ∉ everyone db s := fun h => hqueue (hall user h)
        rw [if_neg hnone, if_neg hqueue, ← Option.not_isSome_iff_eq_none, isSome_get]
        exact fun h => hnone (mem_everyone.mpr (Or.inr h))
    · have hnodup : before.Nodup := by
        have h := nodup_everyone db s
        rw [heq] at h
        exact h.of_append_left
      rw [heq, Lib.visitAll_append, visitAll_replay hbuilds hnodup hbefore (hfree _)]
      dsimp only
      unfold visitAll replayUser
      rw [if_pos (by rwa [← mem_queue])]
      refine ⟨_, rfl, fun u => ?_⟩
      rw [get_putAll]
      by_cases hin : u ∈ before
      · rw [if_pos hin, if_pos hin, hbuilds u (hbefore u hin)]
        rfl
      · rw [if_neg hin, if_neg hin]

/-- The vector of user 9 has no behavior left: the replay of everyone stops there, after user 7. -/
theorem replayAll_spec_oneLike :
    ∃ t e, runRebuild defaults oneLike none true 1 true 3 ⟨[(9, ⟨"", [], [], 0, 0⟩)], []⟩
        = some (t, .error e)
      ∧ t.vectors.get 7 = (vectorOf defaults oneLike 7).toOption
      ∧ t.vectors.get 9 = some ⟨"", [], [], 0, 0⟩ := by
  obtain ⟨-, hspec⟩ := replayAll_spec defaults oneLike ⟨[(9, ⟨"", [], [], 0, 0⟩)], []⟩
    (fun _ => zero_le_one) (by decide) (by decide) safe_defaults none 1 true
  obtain ⟨t, hrun, hget⟩ := (hspec (by decide) (Or.inl rfl)).2 [7] 9 [] (by decide) (by decide) (by decide)
  exact ⟨t, _, hrun, hget 7, hget 9⟩

end Visits

end Oecophylla.Preference.Backfill
