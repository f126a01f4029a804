import Oecophylla.Lib.Expiring
import Oecophylla.Recommendation.Rebuild
import Mathlib.Data.List.Dedup

namespace Oecophylla.Recommendation

open Ingestion (Uuid)
open Lib (Expiring OrderedDict)
open Worker (Envelope Floats Post Store TopicWeights applyForUser eventType)

/-!
# The cached v1 vector — `rebuild_features`, `fetch_user_vector`, `_refresh_preference_cache`

The worker caches the vector of a user under `pref:` and under `pref:v1:`, the rebuild under
`pref:` only.  The reader looks under `pref:v1:` first.

* `State`, `Step`, `exec` — PostgreSQL and Redis, and what the worker, the API and the users do;
* `fetchUserVector` — the v1 read;
* `rebuildFeatures` — the rebuild of some users;
* `SameScores` — two vectors that the reader cannot tell apart;
* `fetchUserVector_rebuildFeatures_iff` — the read after a rebuild gives the rebuilt weights
  exactly when the vector the worker has cached is gone by then, or has the same scores.

A vector is stored as `json.dumps` and read back with `json.loads`, which keeps texts and doubles.
-/

/-- A Redis key `namespace ++ str(user)`; the text of a UUID has no colon. -/
structure Key where
  space : String
  user : Uuid
  deriving DecidableEq, Repr

/-- `preference_cache_keys(user_id)`. -/
def preferenceCacheKeys (user : Uuid) : List Key :=
  ["pref:", "pref:v1:", "pref:v2:", "history:v1:", "history:v2:", "feed:", "feed:v1:",
    "feed:v2:"].map fun space => ⟨space, user⟩

/-- What the keys hold: the v1 weights, or the text of a v2 payload. -/
inductive Cached (F : Type) where
  | weights (vec : TopicWeights F)
  | payload (text : String)

/-- `_decode_v1(raw)`: the schema version of a v2 payload is not a number. -/
def decodeV1 {F : Type} : Cached F → Option (TopicWeights F)
  | .weights vec => some vec
  | .payload _ => none

/-- A command to Redis. -/
inductive Command (F : Type) where
  | delete (keys : List Key)
  | setex (key : Key) (ttl : Nat) (value : Cached F)

/-- Perform a command. -/
def execute {F : Type} (now : Nat) (redis : Expiring Key (Cached F)) :
    Command F → Expiring Key (Cached F)
  | .delete keys => redis.delete keys
  | .setex key ttl value => redis.setex now key ttl value

/-- The settings. -/
structure Settings (F : Type) where
  worker : Worker.Config F
  prefTtlSeconds : Nat
  declaredTopicWeight : F

/-- PostgreSQL and Redis.  `rows` are the weights in `interactions` with their posts, `recent` the
    rows of `user_recent_topic_preferences`: whether topics were refreshed.  `pending` are the
    commands that the worker and the API are about to send. -/
structure State (F : Type) where
  now : Nat
  redis : Expiring Key (Cached F)
  store : Store F
  rows : Uuid → List (F × Post)
  topicPrefs : Uuid → List String
  recent : Uuid → Option Bool
  pending : List (List (Command F))

/-- What happens.  A process that stops leaves its commands pending for good. -/
inductive Step (F : Type) where
  | wait (seconds : Nat)
  | register (user : Uuid) (topics : List String)
  | publish (post : Post)
  | interact (user : Uuid) (rows : List (F × Post))
  /-- The transaction of `_apply_for_user`, with the recent topics and the v2 payload it finds. -/
  | flush (user : Uuid) (events : List Envelope) (topics : List String) (payload : Option String)
  /-- `_rebuild_v2_for_user`, `_refresh_due_recent_topics`. -/
  | invalidate (user : Uuid)
  /-- The upsert of `rebuild_features`. -/
  | rebuild (user : Uuid)
  /-- Redis performs the next command of a process. -/
  | command (process : Nat)

section Steps

variable {F : Type} (cfg : Settings F)

/-- The commands of `_refresh_preference_cache`. -/
def refreshPreferenceCache (user : Uuid) (vec : TopicWeights F) (payload : Option String) :
    List (Command F) :=
  [.delete (preferenceCacheKeys user),
    .setex ⟨"pref:", user⟩ cfg.prefTtlSeconds (.weights vec),
    .setex ⟨"pref:v1:", user⟩ cfg.prefTtlSeconds (.weights vec)]
    ++ (payload.map fun text =>
      Command.setex ⟨"pref:v2:", user⟩ cfg.prefTtlSeconds (.payload text)).toList

/-- `_apply_for_user(user_id, events)`; an exception rolls the transaction back. -/
def flush (s : State F) (user : Uuid) (events : List Envelope) (topics : List String)
    (payload : Option String) : State F :=
  match applyForUser cfg.worker s.store user events with
  | none => s
  | some (store, applied) =>
    let viewed := applied.any fun env =>
      eventType env ∈ ["viewed", "view_observed", "qualified_read", "dwell"]
    { s with
      store := store
      topicPrefs := if viewed then Function.update s.topicPrefs user topics else s.topicPrefs
      recent := if viewed then Function.update s.recent user (some (topics ≠ [])) else s.recent
      pending :=
        if user ∈ store.users then
          s.pending ++ [refreshPreferenceCache cfg user (store.topicWeights user) payload]
        else s.pending }

/-- `aggregate_topic_weights` and `upsert_user_vector`, with the command that follows.  Without the
    user, the upsert raises. -/
def upsertUserVector (s : State F) (user : Uuid) : Option (State F × Command F) :=
  let weights := aggregateRows cfg.worker.floats (s.rows user)
  if user ∈ s.store.users then
    some ({ s with store := s.store.upsertWeights user weights },
      .setex ⟨"pref:", user⟩ 1800 (.weights weights))
  else none

/-- The body of the loop of `rebuild_features`. -/
def rebuildUser (s : State F) (user : Uuid) : Option (State F) :=
  (upsertUserVector cfg s user).map fun (t, command) =>
    { t with redis := execute t.now t.redis command }

/-- `rebuild_features`, for the targets one after the other. -/
def rebuildFeatures (s : State F) (targets : List Uuid) : Option (State F) :=
  targets.foldlM (rebuildUser cfg) s

/-- Time passes. -/
def State.wait (s : State F) (seconds : Nat) : State F := { s with now := s.now + seconds }

/-- One step. -/
def step (s : State F) : Step F → State F
  | .wait seconds => s.wait seconds
  | .register user topics =>
    { s with
      store := { s.store with users := user :: s.store.users }
      topicPrefs := Function.update s.topicPrefs user topics }
  | .publish post => { s with store := { s.store with posts := post :: s.store.posts } }
  | .interact user rows => { s with rows := Function.update s.rows user rows }
  | .flush user events topics payload => flush cfg s user events topics payload
  | .invalidate user => { s with redis := s.redis.delete (preferenceCacheKeys user) }
  | .rebuild user =>
    match upsertUserVector cfg s user with
    | none => s
    | some (t, command) => { t with pending := t.pending ++ [[command]] }
  | .command process =>
    match s.pending[process]? with
    | some (command :: commands) =>
      { s with
        redis := execute s.now s.redis command
        pending := s.pending.set process commands }
    | _ => s

/-- Nothing is stored. -/
def empty : State F where
  now := 0
  redis := fun _ => none
  store := ⟨[], [], [], []⟩
  rows := fun _ => []
  topicPrefs := fun _ => []
  recent := fun _ => none
  pending := []

/-- A run from the empty state. -/
def exec (run : List (Step F)) : State F := run.foldl (step cfg) empty

/-! ### The rebuild -/

theorem lookup_upsertWeights (store : Store F) (user u : Uuid) (vec : TopicWeights F) :
    (store.upsertWeights user vec).preferences.lookup u
      = if u = user then some vec else store.preferences.lookup u := by
  show List.lookup u ((user, vec) :: store.preferences.filter fun row => row.1 ≠ user) = _
  rw [List.lookup_cons]
  by_cases h : u = user
  · simp [h]
  · have hne : (u == user) = false := by simpa using h
    rw [hne, if_neg h, Worker.lookup_filter_ne h]

/-- What a rebuild of `targets` does to what the v1 reader sees. -/
structure Rebuilt (s t : State F) (targets : List Uuid) : Prop where
  now_eq : t.now = s.now
  rows_eq : t.rows = s.rows
  topicPrefs_eq : t.topicPrefs = s.topicPrefs
  recent_eq : t.recent = s.recent
  v1_eq : ∀ u, t.redis ⟨"pref:v1:", u⟩ = s.redis ⟨"pref:v1:", u⟩
  row_eq : ∀ u, t.store.preferences.lookup u
    = if u ∈ targets then some (aggregateRows cfg.worker.floats (s.rows u))
      else s.store.preferences.lookup u
  pref_eq : ∀ u, t.redis ⟨"pref:", u⟩
    = if u ∈ targets then
        some ⟨.weights (aggregateRows cfg.worker.floats (s.rows u)), s.now + 1800⟩
      else s.redis ⟨"pref:", u⟩

variable {cfg}

theorem upsertUserVector_eq_some {s t : State F} {user : Uuid} {command : Command F}
    (h : upsertUserVector cfg s user = some (t, command)) :
    t = { s with
        store := s.store.upsertWeights user (aggregateRows cfg.worker.floats (s.rows user)) }
      ∧ command = .setex ⟨"pref:", user⟩ 1800
        (.weights (aggregateRows cfg.worker.floats (s.rows user))) := by
  unfold upsertUserVector at h
  dsimp only at h
  split at h
  · rw [Option.some.injEq, Prod.mk.injEq] at h
    exact ⟨h.1.symm, h.2.symm⟩
  · cases h

/-- The step: one user. -/
theorem rebuilt_of_rebuildUser {s t : State F} {user : Uuid} (h : rebuildUser cfg s user = some t) :
    Rebuilt cfg s t [user] := by
  obtain ⟨⟨t, command⟩, hupsert, rfl⟩ := Option.map_eq_some_iff.mp h
  obtain ⟨rfl, rfl⟩ := upsertUserVector_eq_some hupsert
  refine ⟨rfl, rfl, rfl, rfl, fun u => ?_, fun u => ?_, fun u => ?_⟩
  · have hne : (⟨"pref:v1:", u⟩ : Key) ≠ ⟨"pref:", user⟩ := by simp
    exact Expiring.setex_of_ne s.redis s.now hne 1800
      (.weights (aggregateRows cfg.worker.floats (s.rows user)))
  · dsimp only
    rw [lookup_upsertWeights]
    by_cases hu : u = user
    · rw [if_pos hu, if_pos (List.mem_singleton.mpr hu), hu]
    · rw [if_neg hu, if_neg (mt List.mem_singleton.mp hu)]
  · by_cases hu : u = user
    · subst hu
      rw [if_pos (List.mem_singleton.mpr rfl)]
      exact Expiring.setex_self s.redis s.now ⟨"pref:", u⟩ 1800
        (.weights (aggregateRows cfg.worker.floats (s.rows u)))
    · have hne : (⟨"pref:", u⟩ : Key) ≠ ⟨"pref:", user⟩ := by simp [hu]
      rw [if_neg (mt List.mem_singleton.mp hu)]
      exact Expiring.setex_of_ne s.redis s.now hne 1800
        (.weights (aggregateRows cfg.worker.floats (s.rows user)))

/-- The loop. -/
theorem rebuilt_of_rebuildFeatures {s t : State F} {targets : List Uuid}
    (h : rebuildFeatures cfg s targets = some t) : Rebuilt cfg s t targets := by
  induction targets generalizing s with
  | nil =>
    obtain rfl := Option.some.inj h
    exact ⟨rfl, rfl, rfl, rfl, fun _ => rfl, fun _ => rfl, fun _ => rfl⟩
  | cons user targets ih =>
    obtain ⟨u, hu, ht⟩ := Option.bind_eq_some_iff.mp (by rwa [rebuildFeatures, List.foldlM_cons] at h)
    have hfirst := rebuilt_of_rebuildUser hu
    have hrest := ih ht
    refine ⟨hrest.now_eq.trans hfirst.now_eq, hrest.rows_eq.trans hfirst.rows_eq,
      hrest.topicPrefs_eq.trans hfirst.topicPrefs_eq, hrest.recent_eq.trans hfirst.recent_eq,
      fun v => (hrest.v1_eq v).trans (hfirst.v1_eq v), fun v => ?_, fun v => ?_⟩
    · rw [hrest.row_eq, hfirst.rows_eq, hfirst.row_eq]
      by_cases hv : v ∈ targets
      · rw [if_pos hv, if_pos (List.mem_cons_of_mem _ hv)]
      · simp only [hv, List.mem_cons, or_false, List.not_mem_nil, ↓reduceIte]
    · rw [hrest.pref_eq, hfirst.rows_eq, hfirst.now_eq, hfirst.pref_eq]
      by_cases hv : v ∈ targets
      · rw [if_pos hv, if_pos (List.mem_cons_of_mem _ hv)]
      · simp only [hv, List.mem_cons, or_false, List.not_mem_nil, ↓reduceIte]

end Steps

/-! ### The reader -/

section Reader

variable {F : Type} (cfg : Settings F) [LE F] [DecidableLE F]

/-- `_merge_v1_with_declared`: every declared topic gains the weight once. -/
def mergeV1WithDeclared (declared : List String) (behavior : TopicWeights F) : TopicWeights F :=
  if cfg.declaredTopicWeight ≤ cfg.worker.floats.zero then behavior
  else declared.dedup.foldl (fun merged topic => Object.set merged topic
    (cfg.worker.floats.add ((merged.lookup topic).getD cfg.worker.floats.zero)
      cfg.declaredTopicWeight)) behavior

/-- `(len(topics) - index) / len(topics)`. -/
def rankedTopics (topics : List String) : TopicWeights F :=
  topics.zipIdx.map fun entry =>
    (entry.1, cfg.worker.floats.div
      (cfg.worker.floats.ofDecimal ⟨false, topics.length - entry.2, 0⟩) topics.length)

/-- The v1 weights behind a key. -/
def cachedWeights (s : State F) (key : Key) : Option (TopicWeights F) :=
  (s.redis.read s.now key).bind decodeV1

/-- `fetch_user_vector(db, redis, user_id)`, unless the schema version is `v2`. -/
def fetchUserVector (s : State F) (user : Uuid) : TopicWeights F :=
  match s.recent user with
  | some refreshed => rankedTopics cfg (if refreshed then s.topicPrefs user else []).eraseDups
  | none =>
    match (cachedWeights s ⟨"pref:v1:", user⟩).or (cachedWeights s ⟨"pref:", user⟩) with
    | some vec => mergeV1WithDeclared cfg (s.topicPrefs user) vec
    | none =>
      match s.store.preferences.lookup user with
      | some vec => mergeV1WithDeclared cfg (s.topicPrefs user) vec
      | none =>
        if cfg.declaredTopicWeight ≤ cfg.worker.floats.zero then []
        else (s.topicPrefs user).dedup.map fun topic => (topic, cfg.declaredTopicWeight)

/-- Equal as dictionaries. -/
def SameEntries (vec vec' : TopicWeights F) : Prop := ∀ topic, vec.lookup topic = vec'.lookup topic

/-- **The same scores**: the same entry for a topic that is not declared, the same sum for a topic
    that is. -/
def SameScores (declared : List String) (vec vec' : TopicWeights F) : Prop :=
  ∀ topic,
    if ¬ cfg.declaredTopicWeight ≤ cfg.worker.floats.zero ∧ topic ∈ declared then
      cfg.worker.floats.add ((vec.lookup topic).getD cfg.worker.floats.zero) cfg.declaredTopicWeight
        = cfg.worker.floats.add ((vec'.lookup topic).getD cfg.worker.floats.zero)
          cfg.declaredTopicWeight
    else vec.lookup topic = vec'.lookup topic

/-! ### Merging -/

omit [LE F] [DecidableLE F] in
/-- Adding a weight to some topics, each of them once. -/
theorem lookup_foldl_add (fl : Floats F) (weight : F) {topics : List String} (h : topics.Nodup)
    (vec : TopicWeights F) (topic : String) :
    (topics.foldl (fun merged name => Object.set merged name
        (fl.add ((merged.lookup name).getD fl.zero) weight)) vec).lookup topic
      = if topic ∈ topics then some (fl.add ((vec.lookup topic).getD fl.zero) weight)
        else vec.lookup topic := by
  induction topics generalizing vec with
  | nil => simp
  | cons name topics ih =>
    obtain ⟨hname, hnodup⟩ := List.nodup_cons.mp h
    have hset : ∀ x, List.lookup topic (Object.set vec name x)
        = if topic = name then some x else vec.lookup topic :=
      fun x => OrderedDict.get_set vec name x topic
    rw [List.foldl_cons, ih hnodup, hset]
    by_cases heq : topic = name
    · rw [if_pos heq, if_neg (heq ▸ hname), if_pos (heq ▸ List.mem_cons_self), heq]
    · simp only [List.mem_cons, heq, false_or, ↓reduceIte]

theorem lookup_mergeV1WithDeclared (declared : List String) (vec : TopicWeights F)
    (topic : String) :
    (mergeV1WithDeclared cfg declared vec).lookup topic
      = if ¬ cfg.declaredTopicWeight ≤ cfg.worker.floats.zero ∧ topic ∈ declared then
          some (cfg.worker.floats.add ((vec.lookup topic).getD cfg.worker.floats.zero)
            cfg.declaredTopicWeight)
        else vec.lookup topic := by
  unfold mergeV1WithDeclared
  by_cases hweight : cfg.declaredTopicWeight ≤ cfg.worker.floats.zero
  · rw [if_pos hweight, if_neg fun h => h.1 hweight]
  · rw [if_neg hweight, lookup_foldl_add _ _ (List.nodup_dedup _)]
    simp only [List.mem_dedup, hweight, not_false_eq_true, true_and]

/-- The reader cannot tell two vectors apart exactly when they have the same scores. -/
theorem sameEntries_merge_iff (declared : List String) (vec vec' : TopicWeights F) :
    SameEntries (mergeV1WithDeclared cfg declared vec) (mergeV1WithDeclared cfg declared vec')
      ↔ SameScores cfg declared vec vec' := by
  refine forall_congr' fun topic => ?_
  rw [lookup_mergeV1WithDeclared, lookup_mergeV1WithDeclared]
  split
  · exact Option.some_inj
  · rfl

variable {cfg}

/-- The read after a rebuild: the vector under `pref:v1:` if it is still there, the rebuilt one
    otherwise. -/
theorem fetchUserVector_of_rebuilt {s t : State F} {targets : List Uuid} {user : Uuid}
    (h : Rebuilt cfg s t targets) (huser : user ∈ targets) (hrecent : s.recent user = none)
    (seconds : Nat) :
    fetchUserVector cfg (t.wait seconds) user
      = mergeV1WithDeclared cfg (s.topicPrefs user)
        ((cachedWeights (s.wait seconds) ⟨"pref:v1:", user⟩).getD
          (aggregateRows cfg.worker.floats (s.rows user))) := by
  have hv1 : cachedWeights (t.wait seconds) ⟨"pref:v1:", user⟩
      = cachedWeights (s.wait seconds) ⟨"pref:v1:", user⟩ := by
    show (Expiring.read t.redis (t.now + seconds) _).bind _
      = (Expiring.read s.redis (s.now + seconds) _).bind _
    unfold Expiring.read
    rw [h.v1_eq, h.now_eq]
  have hpref : cachedWeights (t.wait seconds) ⟨"pref:", user⟩ = none
      ∨ cachedWeights (t.wait seconds) ⟨"pref:", user⟩
        = some (aggregateRows cfg.worker.floats (s.rows user)) := by
    show (Expiring.read t.redis (t.now + seconds) _).bind _ = none
      ∨ (Expiring.read t.redis (t.now + seconds) _).bind _ = _
    unfold Expiring.read
    rw [h.pref_eq, if_pos huser, Option.bind_some]
    split
    · exact .inr rfl
    · exact .inl rfl
  have hrow : (t.wait seconds).store.preferences.lookup user
      = some (aggregateRows cfg.worker.floats (s.rows user)) := by
    show t.store.preferences.lookup user = _
    rw [h.row_eq, if_pos huser]
  have hrecent' : (t.wait seconds).recent user = none := (congrFun h.recent_eq user).trans hrecent
  have htopics : (t.wait seconds).topicPrefs user = s.topicPrefs user :=
    congrFun h.topicPrefs_eq user
  unfold fetchUserVector
  rw [hrecent', hv1, htopics]
  dsimp only
  cases cachedWeights (s.wait seconds) ⟨"pref:v1:", user⟩ with
  | some cached => rfl
  | none =>
    rcases hpref with hpref | hpref
    · rw [hpref, hrow]
      rfl
    · rw [hpref]
      rfl

/-- **When the read after a rebuild is coherent.**  After any run, the v1 read of a rebuilt user
    without recent topics gives the rebuilt weights, merged with the declared topics, exactly when
    the vector that the worker has cached is gone by then, or has the same scores. -/
theorem fetchUserVector_rebuildFeatures_iff (cfg : Settings F) (run : List (Step F)) {t : State F}
    {targets : List Uuid} {user : Uuid}
    (hrebuild : rebuildFeatures cfg (exec cfg run) targets = some t) (huser : user ∈ targets)
    (hrecent : (exec cfg run).recent user = none) (seconds : Nat) :
    SameEntries (fetchUserVector cfg (t.wait seconds) user)
        (mergeV1WithDeclared cfg ((exec cfg run).topicPrefs user)
          (aggregateRows cfg.worker.floats ((exec cfg run).rows user)))
      ↔ ∀ cached, cachedWeights ((exec cfg run).wait seconds) ⟨"pref:v1:", user⟩ = some cached →
          SameScores cfg ((exec cfg run).topicPrefs user) cached
            (aggregateRows cfg.worker.floats ((exec cfg run).rows user)) := by
  rw [fetchUserVector_of_rebuilt (rebuilt_of_rebuildFeatures hrebuild) huser hrecent,
    sameEntries_merge_iff]
  cases cachedWeights ((exec cfg run).wait seconds) ⟨"pref:v1:", user⟩ with
  | none =>
    refine ⟨fun _ cached h => (by cases h), fun _ topic => ?_⟩
    split
    · rfl
    · rfl
  | some cached =>
    refine ⟨fun h cached' heq => ?_, fun h => h cached rfl⟩
    obtain rfl := Option.some.inj heq
    exact h

/-- The settings of a small system: a declared topic counts as one. -/
def smallSettings : Settings Int := ⟨Worker.smallConfig, 1800, 10000⟩

/-- The user likes a post about `lean`, and comments on it; the worker has both events. -/
def likedAndCommented : List (Step Int) :=
  [.publish ⟨2, ["lean"], []⟩, .register 7 [], .interact 7 [(15000, ⟨2, ["lean"], []⟩)],
    .flush 7 [Worker.interaction 1 "liked"] [] none, .command 0, .command 0, .command 0,
    .flush 7 [Worker.interaction 3 "commented"] [] none, .command 1, .command 1, .command 1]

/-- A rebuild half an hour later. -/
theorem fetchUserVector_rebuildFeatures_iff_later :
    SameEntries
      (fetchUserVector smallSettings
        (((rebuildFeatures smallSettings (exec smallSettings likedAndCommented) [7]).get
          (by decide +kernel)).wait 1800) 7)
      (mergeV1WithDeclared smallSettings ((exec smallSettings likedAndCommented).topicPrefs 7)
        (aggregateRows smallSettings.worker.floats
          ((exec smallSettings likedAndCommented).rows 7))) :=
  (fetchUserVector_rebuildFeatures_iff smallSettings likedAndCommented
    (Option.some_get (by decide +kernel)).symm (by decide) (by decide +kernel) 1800).mpr
    (fun cached h => absurd h (by
      have hgone : cachedWeights ((exec smallSettings likedAndCommented).wait 1800)
          ⟨"pref:v1:", 7⟩ = none := by decide +kernel
      rw [hgone]
      exact fun h => by cases h))

/-- A read right after the rebuild still counts the comment. -/
theorem stale_after_rebuild :
    (exec smallSettings likedAndCommented).recent 7 = none
      ∧ (rebuildFeatures smallSettings (exec smallSettings likedAndCommented) [7]).map
          (fun t => fetchUserVector smallSettings t 7) = some [("lean", 25000)]
      ∧ mergeV1WithDeclared smallSettings ((exec smallSettings likedAndCommented).topicPrefs 7)
          (aggregateRows smallSettings.worker.floats
            ((exec smallSettings likedAndCommented).rows 7)) = [("lean", 15000)] := by
  decide +kernel

end Reader

end Oecophylla.Recommendation
