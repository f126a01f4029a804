import Oecophylla.Content.Process
import Oecophylla.Lib.KeysetScan
import Mathlib.Algebra.Order.BigOperators.Group.List
import Mathlib.Data.Prod.Lex

namespace Oecophylla.Content.Rebuild

open Lib (After scanPage)

/-!
# The rebuild and its checkpoint — `nlp_worker/app/rebuild.py`, `repository.py`

The rebuild reads the published posts in the order of `(updated_at, id)`, page by page.  Processing
a post may give it topics, and the trigger of `posts` then stamps it with `NOW()`: it moves towards
the end of the order while the table is read.  Meanwhile other transactions write posts, too.

`NOW()` is when a transaction began, and its row is seen when it commits.  A transaction that began
before the last row of a page was stamped may therefore commit after the page was read: its row comes
to stand behind the cursor, and no later page has it.  This is why the results about the checkpoint
have the condition `CommitsAhead` on the commits of the other transactions.

* `Database` — the posts, their ids apart and none stamped in the future;
* `step` — a run of `BatchRebuilder` is started, crashes or goes on, its posts in any order, and
  other transactions commit;
* `Good`, `good_step` — what every action keeps: what is at or before the checkpoint was processed, and
  the page at work has everything up to its last row;
* `State.cost`, `cost_step` — what every action of a run uses up;
* `rebuild_checkpoint` — a post at or before the checkpoint was processed with success; a run that
  returns without failures has processed what was after the checkpoint; every run ends.

The cursor is the pair that its text encodes.  What an attempt is about is the text of a post
(`Post.work`): a post that is written with another text has not been processed yet.
-/

/-! ### The table -/

/-- A row of `posts`. -/
structure Post where
  id : Nat
  updatedAt : Int
  published : Bool
  content : String
  topics : List String
  deriving DecidableEq, Repr

/-- A place in `ORDER BY updated_at, id`. -/
abbrev Cursor := Int ×ₗ Nat

namespace Post

/-- `(updated_at, id)`. -/
def key (p : Post) : Cursor := toLex (p.updatedAt, p.id)

/-- What `process` has to do: which post it is, and its text. -/
def work (p : Post) : Nat × String := (p.id, p.content)

/-- `UPDATE posts SET topics = $1 WHERE id = $2 AND coalesce(cardinality(topics), 0) = 0`, with the
    stamp of the trigger: `NOW()`, when the statement began. -/
def ensureTopics (postId : Nat) (topics : List String) (begun : Int) (p : Post) : Post :=
  if p.id = postId ∧ p.topics = [] then { p with topics, updatedAt := begun } else p

variable {postId : Nat} {topics : List String} {begun : Int} {p q : Post}

theorem id_eq_of_work_eq (h : p.work = q.work) : p.id = q.id := congrArg Prod.fst h

@[simp] theorem id_ensureTopics : (p.ensureTopics postId topics begun).id = p.id := by
  unfold ensureTopics
  split <;> rfl

@[simp] theorem work_ensureTopics : (p.ensureTopics postId topics begun).work = p.work := by
  unfold ensureTopics
  split <;> rfl

@[simp] theorem published_ensureTopics :
    (p.ensureTopics postId topics begun).published = p.published := by
  unfold ensureTopics
  split <;> rfl

/-- The row stays as it is, or it is the one that is stamped. -/
theorem ensureTopics_cases : p.ensureTopics postId topics begun = p
    ∨ p.id = postId ∧ (p.ensureTopics postId topics begun).updatedAt = begun := by
  unfold ensureTopics
  split
  · next hrow => exact Or.inr ⟨hrow.1, rfl⟩
  · exact Or.inl rfl

end Post

/-- The posts and the clock of the database.  `updated_at` is stamped by the database alone, with
    a time that has come. -/
structure Database where
  posts : List Post
  now : Int
  nodup_ids : (posts.map Post.id).Nodup
  stamped : ∀ p ∈ posts, p.updatedAt ≤ now

namespace Database

/-- `ensure_topics(post_id, topics)`: the statement began at `begun` and goes through now, maybe after
    it has waited for the lock of the row. -/
def ensureTopics (db : Database) (postId : Nat) (topics : List String) (begun : Int) (elapsed : Nat)
    (h : begun ≤ db.now + elapsed) : Database where
  posts := db.posts.map (Post.ensureTopics postId topics begun)
  now := db.now + elapsed
  nodup_ids := by
    have hids : (db.posts.map (Post.ensureTopics postId topics begun)).map Post.id
        = db.posts.map Post.id := by
      rw [List.map_map]
      exact List.map_congr_left fun p _ => Post.id_ensureTopics
    rw [hids]
    exact db.nodup_ids
  stamped := by
    intro q hq
    obtain ⟨p, hp, rfl⟩ := List.mem_map.mp hq
    have hle := db.stamped p hp
    rcases Post.ensureTopics_cases (p := p) with hsame | ⟨-, hstamp⟩
    · rw [hsame]
      omega
    · rw [hstamp]
      exact h

/-- Another transaction commits the row of a post, new or in the place of the one with its id. -/
def write (db : Database) (post : Post) (elapsed : Nat) (h : post.updatedAt ≤ db.now + elapsed) :
    Database where
  posts := post :: db.posts.filter fun p => p.id ≠ post.id
  now := db.now + elapsed
  nodup_ids := by
    rw [List.map_cons, List.nodup_cons]
    refine ⟨fun hmem => ?_, db.nodup_ids.sublist (List.filter_sublist.map Post.id)⟩
    obtain ⟨p, hp, hid⟩ := List.mem_map.mp hmem
    exact of_decide_eq_true (List.mem_filter.mp hp).2 hid
  stamped := by
    intro q hq
    rcases List.mem_cons.mp hq with rfl | hq
    · exact h
    · have hle := db.stamped q (List.mem_filter.mp hq).1
      omega

/-- Another transaction deletes a post. -/
def delete (db : Database) (id : Nat) : Database where
  posts := db.posts.filter fun p => p.id ≠ id
  now := db.now
  nodup_ids := db.nodup_ids.sublist (List.filter_sublist.map Post.id)
  stamped := fun p hp => db.stamped p (List.mem_filter.mp hp).1

/-- The published posts. -/
def published (db : Database) : List Post := db.posts.filter fun p => p.published

/-- `fetch_batch(cursor, limit)`. -/
def fetchBatch (db : Database) (cursor : Option Cursor) (limit : Nat) : List Post × Option Cursor :=
  let rows := scanPage Post.key cursor limit db.published
  (rows, rows.getLast?.map Post.key)

theorem mem_published {db : Database} {p : Post} :
    p ∈ db.published ↔ p ∈ db.posts ∧ p.published = true := List.mem_filter

/-- After a commit of another transaction, a published post is the one that was written, or it was
    there before. -/
theorem mem_published_write {db : Database} {post q : Post} {elapsed : Nat}
    (h : post.updatedAt ≤ db.now + elapsed) (hq : q ∈ (db.write post elapsed h).published) :
    q = post ∨ q ∈ db.published := by
  obtain ⟨hposts, hlive⟩ := mem_published.mp hq
  refine (List.mem_cons.mp hposts).imp_right fun hold => ?_
  exact mem_published.mpr ⟨(List.mem_filter.mp hold).1, hlive⟩

theorem mem_published_delete {db : Database} {id : Nat} {q : Post}
    (hq : q ∈ (db.delete id).published) : q ∈ db.published := by
  obtain ⟨hposts, hlive⟩ := mem_published.mp hq
  exact mem_published.mpr ⟨(List.mem_filter.mp hposts).1, hlive⟩

/-- Rows of one place are one row. -/
theorem nodup_keys (db : Database) : (db.published.map Post.key).Nodup := by
  have hids : (db.published.map Post.id).Nodup :=
    db.nodup_ids.sublist (List.filter_sublist.map Post.id)
  have hkeys : db.published.map Post.id = (db.published.map Post.key).map fun k => (ofLex k).2 := by
    rw [List.map_map]
    rfl
  rw [hkeys] at hids
  exact hids.of_map

end Database

/-! ### The rebuild -/

/-- `RebuildConfig`, from the settings of the worker. -/
structure RebuildConfig where
  batchSize : Nat
  maxRetries : Nat
  concurrency : Nat
  batchSize_pos : 0 < batchSize
  concurrency_pos : 0 < concurrency

/-- `RebuildResult`. -/
structure RebuildResult where
  processed : Nat := 0
  created : Nat := 0
  unchanged : Nat := 0
  fallback : Nat := 0
  failed : Nat := 0
  deriving DecidableEq, Repr

namespace RebuildResult

/-- The counts with the result of one more post. -/
def add (counts : RebuildResult) : Option Status → RebuildResult
  | none => { counts with processed := counts.processed + 1, failed := counts.failed + 1 }
  | some .created => { counts with processed := counts.processed + 1, created := counts.created + 1 }
  | some .unchanged =>
    { counts with processed := counts.processed + 1, unchanged := counts.unchanged + 1 }
  | some .fallback =>
    { counts with
      processed := counts.processed + 1
      fallback := counts.fallback + 1
      failed := counts.failed + 1 }

end RebuildResult

/-- A post was processed: neither an exception nor a fallback. -/
def succeeded : Option Status → Bool
  | some .created => true
  | some .unchanged => true
  | _ => false

/-- `one(record)`, for a post of the page. -/
structure Task where
  record : Post
  /-- It is in the semaphore, or has been. -/
  started : Bool := false
  attempt : Nat := 0
  /-- `ensure_topics` of this attempt has gone through. -/
  ensured : Bool := false
  /-- What it returned, if it has. -/
  result : Option (Option Status) := none
  deriving DecidableEq, Repr

/-- What happens to one post of the page. -/
inductive TaskAction where
  | acquire
  /-- The statement of `ensure_topics`, begun at `begun`, goes through. -/
  | ensureTopics (begun : Int) (elapsed : Nat)
  /-- An attempt ends: with a result of `process`, or with an exception. -/
  | attempted (result : Option Status)
  deriving DecidableEq, Repr

/-- How many posts of the page are in the semaphore. -/
def inFlight (tasks : List Task) : Nat := tasks.countP fun task => task.started && task.result.isNone

section Step

variable (u : Unicode) (nfkc : String → String) (config : RebuildConfig)

/-- The topics that `process(record)` ensures. -/
def recordTopics (record : Post) : Except ValueError (List String) :=
  normalizeTopics u (if record.topics ≠ [] then record.topics
    else inferTopics nfkc u.lower record.content)

namespace Task

/-- It returns after a success or its last attempt, and otherwise tries again. -/
def finish (task : Task) (result : Option Status) : Task :=
  if succeeded result ∨ config.maxRetries ≤ task.attempt then { task with result := some result }
  else { task with attempt := task.attempt + 1, ensured := false }

/-- One action of `one(record)`; the page was read at `readAt`, and the semaphore has `running`
    posts. -/
def step (readAt : Int) (running : Nat) (db : Database) (task : Task) :
    TaskAction → Option (Task × Database)
  | .acquire =>
    if task.started = false ∧ running < config.concurrency then some ({ task with started := true }, db)
    else none
  | .ensureTopics begun elapsed =>
    if task.started ∧ task.result = none ∧ task.ensured = false then
      match recordTopics u nfkc task.record with
      | .error _ => none
      | .ok topics =>
        -- the clock has gone on since the page came back
        if h : readAt < begun ∧ begun ≤ db.now + elapsed then
          some ({ task with ensured := true },
            db.ensureTopics task.record.id topics begun elapsed h.2)
        else none
    else none
  | .attempted result =>
    -- `process` returns after `ensure_topics` only
    if task.started ∧ task.result = none ∧ (result.isSome → task.ensured) then
      some (task.finish config result, db)
    else none

end Task

/-- Where the rebuild is. -/
inductive Phase where
  /-- No run has been started, or the last one has crashed. -/
  | idle
  | fetching (cursor : Option Cursor)
  /-- The page was read at `readAt`, and its posts are at work. -/
  | page (readAt : Int) (next : Option Cursor) (tasks : List Task)
  | finished
  deriving DecidableEq

/-- The database, the checkpoint and the present run. -/
structure State where
  db : Database
  checkpoint : Option Cursor := none
  phase : Phase := .idle
  counts : RebuildResult := {}
  /-- The attempts so far, latest first, each with whether it succeeded. -/
  history : List ((Nat × String) × Bool) := []

/-- What happens: `BatchRebuilder` acts, or another transaction commits. -/
inductive Action where
  | start
  | fetch
  | task (k : Nat) (action : TaskAction)
  /-- `gather` returns and the page is counted. -/
  | settle
  | crash
  /-- `updated_at` is when the transaction began. -/
  | write (post : Post) (elapsed : Nat)
  | delete (id : Nat)
  deriving DecidableEq, Repr

/-- The attempt that an action ends. -/
def attemptOf (record : Post) : TaskAction → List ((Nat × String) × Bool)
  | .attempted result => [(record.work, succeeded result)]
  | _ => []

/-- The page was counted. -/
def State.settle (s : State) (next : Option Cursor) (results : List (Option Status)) : State :=
  let counts := results.foldl RebuildResult.add s.counts
  if ∃ result ∈ results, succeeded result = false then { s with phase := .finished, counts }
  else
    match next with
    | none => { s with phase := .finished, counts }
    | some cursor => { s with checkpoint := some cursor, phase := .fetching (some cursor), counts }

/-- One action. -/
def step (s : State) : Action → Option State
  | .start =>
    match s.phase with
    | .idle | .finished => some { s with phase := .fetching s.checkpoint, counts := {} }
    | _ => none
  | .fetch =>
    match s.phase with
    | .fetching cursor =>
      match s.db.fetchBatch cursor config.batchSize with
      | ([], _) => some { s with phase := .finished }
      | (posts, next) =>
        some { s with phase := .page s.db.now next (posts.map fun record => { record }) }
    | _ => none
  | .task k action =>
    match s.phase with
    | .page readAt next tasks =>
      match tasks[k]? with
      | none => none
      | some task =>
        (task.step u nfkc config readAt (inFlight tasks) s.db action).map fun (task', db) =>
          { s with
            db
            phase := .page readAt next (tasks.set k task')
            history := attemptOf task.record action ++ s.history }
    | _ => none
  | .settle =>
    match s.phase with
    | .page _ next tasks =>
      if ∀ task ∈ tasks, task.result.isSome then
        some (s.settle next (tasks.filterMap Task.result))
      else none
    | _ => none
  | .crash => some { s with phase := .idle }
  | .write post elapsed =>
    if h : post.updatedAt ≤ s.db.now + elapsed then some { s with db := s.db.write post elapsed h }
    else none
  | .delete id => some { s with db := s.db.delete id }

/-- An action of a run that goes on. -/
def GoesOn : Action → Prop
  | .fetch => True
  | .task _ _ => True
  | .settle => True
  | _ => False

/-- A commit of another transaction that is about the post. -/
def Writes (id : Nat) : Action → Prop
  | .write post _ => post.id = id
  | .delete deleted => deleted = id
  | _ => False

end Step

/-! ### The commits of other transactions -/

/-- The post comes to stand after the cursor, unless it stood at or before it with the same text. -/
def Database.Ahead (db : Database) (cursor : Option Cursor) (post : Post) : Prop :=
  post.published = true → After cursor post.key
    ∨ ∃ p ∈ db.posts, p.published = true ∧ p.work = post.work ∧ ¬ After cursor p.key

instance (db : Database) (cursor : Option Cursor) (post : Post) : Decidable (db.Ahead cursor post) :=
  inferInstanceAs (Decidable (_ → _ ∨ ∃ p ∈ db.posts, _))

/-- How far the run has read. -/
def State.readTo (s : State) : Option Cursor :=
  match s.phase with
  | .page _ next _ => next
  | _ => s.checkpoint

/-- A post that another transaction writes comes to stand after the checkpoint, and after the page that
    is at work. -/
def CommitsAhead (s : State) : Action → Prop
  | .write post _ => s.db.Ahead s.checkpoint post ∧ s.db.Ahead s.readTo post
  | _ => True

instance (s : State) (a : Action) : Decidable (CommitsAhead s a) :=
  match a with
  | .write _ _ => inferInstanceAs (Decidable (_ ∧ _))
  | .start => .isTrue trivial
  | .fetch => .isTrue trivial
  | .task _ _ => .isTrue trivial
  | .settle => .isTrue trivial
  | .crash => .isTrue trivial
  | .delete _ => .isTrue trivial

/-! ### One post of a page -/

section Tasks

variable {u : Unicode} {nfkc : String → String} {config : RebuildConfig} {readAt : Int}
  {running : Nat} {db db' : Database} {task task' : Task} {action : TaskAction}

/-- What an action does to its post: a row may be updated, or the attempt ends. -/
theorem Task.step_cases (h : task.step u nfkc config readAt running db action = some (task', db')) :
    (action = .acquire ∧ task.started = false ∧ running < config.concurrency
        ∧ task' = { task with started := true } ∧ db' = db)
      ∨ (∃ begun elapsed topics hnow, action = .ensureTopics begun elapsed ∧ task.started = true
        ∧ task.result = none ∧ task.ensured = false ∧ recordTopics u nfkc task.record = .ok topics
        ∧ readAt < begun ∧ task' = { task with ensured := true }
        ∧ db' = db.ensureTopics task.record.id topics begun elapsed hnow)
      ∨ ∃ result, action = .attempted result ∧ task.started = true ∧ task.result = none
        ∧ task' = task.finish config result ∧ db' = db := by
  cases action with
  | acquire =>
    unfold Task.step at h
    dsimp only at h
    split at h
    · next hfree =>
      obtain ⟨rfl, rfl⟩ := Prod.mk.inj (Option.some.inj h)
      exact Or.inl ⟨rfl, hfree.1, hfree.2, rfl, rfl⟩
    · cases h
  | ensureTopics begun elapsed =>
    unfold Task.step at h
    dsimp only at h
    split at h
    · next hrunning =>
      split at h
      · cases h
      · next topics htopics =>
        split at h
        · next hclock =>
          obtain ⟨rfl, rfl⟩ := Prod.mk.inj (Option.some.inj h)
          exact Or.inr (Or.inl ⟨begun, elapsed, topics, hclock.2, rfl, hrunning.1, hrunning.2.1,
            hrunning.2.2, htopics, hclock.1, rfl, rfl⟩)
        · cases h
    · cases h
  | attempted result =>
    unfold Task.step at h
    dsimp only at h
    split at h
    · next hrunning =>
      obtain ⟨rfl, rfl⟩ := Prod.mk.inj (Option.some.inj h)
      exact Or.inr (Or.inr ⟨result, rfl, hrunning.1, hrunning.2.1, rfl, rfl⟩)
    · cases h

@[simp] theorem Task.record_finish (result : Option Status) :
    (task.finish config result).record = task.record := by
  unfold Task.finish
  split <;> rfl

/-- The post of a task stays. -/
theorem Task.record_step (h : task.step u nfkc config readAt running db action = some (task', db')) :
    task'.record = task.record := by
  rcases Task.step_cases h with ⟨-, -, -, rfl, -⟩ | ⟨_, _, _, _, -, -, -, -, -, -, rfl, -⟩ |
    ⟨_, -, -, -, rfl, -⟩
  · rfl
  · rfl
  · exact Task.record_finish _

/-- A row of the table after an action is one from before; that of the task may have been stamped
    since the page was read. -/
theorem Task.mem_posts_step
    (h : task.step u nfkc config readAt running db action = some (task', db')) {q : Post}
    (hq : q ∈ db'.posts) : ∃ p ∈ db.posts, p.work = q.work ∧ p.published = q.published
      ∧ (p = q ∨ p.id = task.record.id ∧ readAt < q.updatedAt) := by
  rcases Task.step_cases h with ⟨-, -, -, -, rfl⟩ |
    ⟨begun, elapsed, topics, _, -, -, -, -, -, hread, -, rfl⟩ | ⟨_, -, -, -, -, rfl⟩
  · exact ⟨q, hq, rfl, rfl, Or.inl rfl⟩
  · obtain ⟨p, hp, rfl⟩ := List.mem_map.mp hq
    refine ⟨p, hp, Post.work_ensureTopics.symm, Post.published_ensureTopics.symm, ?_⟩
    rcases Post.ensureTopics_cases (p := p) with hsame | ⟨hid, hstamp⟩
    · exact Or.inl hsame.symm
    · exact Or.inr ⟨hid, hread.trans_eq hstamp.symm⟩
  · exact ⟨q, hq, rfl, rfl, Or.inl rfl⟩

/-- Every row stays in the table, with its text. -/
theorem Task.exists_post_step
    (h : task.step u nfkc config readAt running db action = some (task', db')) {p : Post}
    (hp : p ∈ db.posts) : ∃ q ∈ db'.posts, q.work = p.work ∧ q.published = p.published := by
  rcases Task.step_cases h with ⟨-, -, -, -, rfl⟩ | ⟨_, _, _, _, -, -, -, -, -, -, -, rfl⟩ |
    ⟨_, -, -, -, -, rfl⟩
  · exact ⟨p, hp, rfl, rfl⟩
  · exact ⟨_, List.mem_map_of_mem hp, Post.work_ensureTopics, Post.published_ensureTopics⟩
  · exact ⟨p, hp, rfl, rfl⟩

/-- A task returns what its last attempt came to. -/
theorem Task.result_step (h : task.step u nfkc config readAt running db action = some (task', db'))
    {result : Option Status} (hresult : task'.result = some result) :
    task.result = some result ∨ action = .attempted result := by
  rcases Task.step_cases h with ⟨-, -, -, rfl, -⟩ | ⟨_, _, _, _, -, -, -, -, -, -, rfl, -⟩ |
    ⟨ended, rfl, -, hnone, rfl, -⟩
  · exact Or.inl hresult
  · exact Or.inl hresult
  · -- a failed attempt with attempts left has no result
    unfold Task.finish at hresult
    split at hresult
    · rw [Option.some.inj hresult]
      exact Or.inr rfl
    · exact Or.inl hresult

end Tasks

/-! ### The checkpoint -/

section Checkpoint

variable {u : Unicode} {nfkc : String → String} {config : RebuildConfig}

/-- A page at work: it has every published post between the checkpoint and `next` that was not
    processed before, the rows of its posts are after the checkpoint, and what a post returned is how
    its last attempt ended. -/
structure PageGood (old : Nat × String → Prop) (new : List ((Nat × String) × Bool)) (s : State)
    (readAt : Int) (next : Option Cursor) (tasks : List Task) : Prop where
  failed : s.counts.failed = 0
  exists_next : ∃ c, next = some c
  /-- A stamp since the page was read is beyond it. -/
  beyond : ∀ q : Post, readAt < q.updatedAt → After s.checkpoint q.key ∧ After next q.key
  ids : (tasks.map fun task => task.record.id).Nodup
  covers : ∀ p ∈ s.db.published, After s.checkpoint p.key → ¬ After next p.key →
    (p.work ∈ tasks.map fun task => task.record.work) ∨ old p.work ∨ new.lookup p.work = some true
  after : ∀ p ∈ s.db.published, (p.id ∈ tasks.map fun task => task.record.id) →
    After s.checkpoint p.key
  last : ∀ task ∈ tasks, ∀ result, task.result = some result → succeeded result = true →
    new.lookup task.record.work = some true

/-- Every published post up to the checkpoint is one of the `old` ones, or its last attempt since
    then, of those in `new`, succeeded. -/
structure Good (old : Nat × String → Prop) (new : List ((Nat × String) × Bool)) (s : State) :
    Prop where
  passed : ∀ p ∈ s.db.published, ¬ After s.checkpoint p.key →
    old p.work ∨ new.lookup p.work = some true
  fetching : ∀ cursor, s.phase = .fetching cursor → cursor = s.checkpoint ∧ s.counts.failed = 0
  page : ∀ readAt next tasks, s.phase = .page readAt next tasks →
    PageGood old new s readAt next tasks

variable {old : Nat × String → Prop} {new : List ((Nat × String) × Bool)} {s t : State}

/-- What an action does to the rebuild. -/
theorem step_cases {a : Action} (h : step u nfkc config s a = some t) :
    (a = .start ∧ t = { s with phase := .fetching s.checkpoint, counts := {} })
      ∨ (∃ cursor, a = .fetch ∧ s.phase = .fetching cursor
        ∧ scanPage Post.key cursor config.batchSize s.db.published = []
        ∧ t = { s with phase := .finished })
      ∨ (∃ cursor last, a = .fetch ∧ s.phase = .fetching cursor
        ∧ (scanPage Post.key cursor config.batchSize s.db.published).getLast? = some last
        ∧ t = { s with
          phase := .page s.db.now (some last.key)
            ((scanPage Post.key cursor config.batchSize s.db.published).map fun record =>
              { record }) })
      ∨ (∃ readAt next tasks k task task' db action, a = .task k action
        ∧ s.phase = .page readAt next tasks ∧ tasks[k]? = some task
        ∧ task.step u nfkc config readAt (inFlight tasks) s.db action = some (task', db)
        ∧ t = { s with
          db
          phase := .page readAt next (tasks.set k task')
          history := attemptOf task.record action ++ s.history })
      ∨ (∃ readAt next tasks, a = .settle ∧ s.phase = .page readAt next tasks
        ∧ (∀ task ∈ tasks, task.result.isSome)
        ∧ t = s.settle next (tasks.filterMap Task.result))
      ∨ (a = .crash ∧ t = { s with phase := .idle })
      ∨ (∃ post elapsed hnow, a = .write post elapsed
        ∧ t = { s with db := s.db.write post elapsed hnow })
      ∨ ∃ id, a = .delete id ∧ t = { s with db := s.db.delete id } := by
  cases a with
  | start =>
    unfold step at h
    dsimp only at h
    split at h
    · exact Or.inl ⟨rfl, (Option.some.inj h).symm⟩
    · exact Or.inl ⟨rfl, (Option.some.inj h).symm⟩
    · cases h
  | fetch =>
    unfold step at h
    dsimp only at h
    split at h
    · next cursor hphase =>
      refine Or.inr ?_
      split at h
      · next hnil =>
        exact Or.inl ⟨cursor, rfl, hphase, congrArg Prod.fst hnil, (Option.some.inj h).symm⟩
      · next posts next hnonempty hfetched =>
        have hpage : scanPage Post.key cursor config.batchSize s.db.published = posts :=
          congrArg Prod.fst hfetched
        have hnext : posts.getLast?.map Post.key = next := hpage ▸ congrArg Prod.snd hfetched
        have hne : posts ≠ [] := fun hnil => hnonempty (hnil ▸ rfl)
        have hlast := List.getLast?_eq_some_getLast hne
        rw [hlast] at hnext
        refine Or.inr (Or.inl ⟨cursor, posts.getLast hne, rfl, hphase, hpage ▸ hlast, ?_⟩)
        rw [← Option.some.inj h, hpage, ← hnext]
        rfl
    · cases h
  | task k action =>
    unfold step at h
    dsimp only at h
    split at h
    · next readAt next tasks hphase =>
      split at h
      · cases h
      · next task hk =>
        obtain ⟨⟨task', db⟩, hstep, rfl⟩ := Option.map_eq_some_iff.mp h
        exact Or.inr (Or.inr (Or.inr (Or.inl
          ⟨readAt, next, tasks, k, task, task', db, action, rfl, hphase, hk, hstep, rfl⟩)))
    · cases h
  | settle =>
    unfold step at h
    dsimp only at h
    split at h
    · next readAt next tasks hphase =>
      split at h
      · next hdone =>
        exact Or.inr (Or.inr (Or.inr (Or.inr (Or.inl
          ⟨readAt, next, tasks, rfl, hphase, hdone, (Option.some.inj h).symm⟩))))
      · cases h
    · cases h
  | crash =>
    exact Or.inr (Or.inr (Or.inr (Or.inr (Or.inr (Or.inl ⟨rfl, (Option.some.inj h).symm⟩)))))
  | write post elapsed =>
    unfold step at h
    dsimp only at h
    split at h
    · next hnow =>
      exact Or.inr (Or.inr (Or.inr (Or.inr (Or.inr (Or.inr (Or.inl
        ⟨post, elapsed, hnow, rfl, (Option.some.inj h).symm⟩))))))
    · cases h
  | delete id =>
    exact Or.inr (Or.inr (Or.inr (Or.inr (Or.inr (Or.inr (Or.inr
      ⟨id, rfl, (Option.some.inj h).symm⟩))))))

/-- Counting a page keeps the table and the history. -/
theorem State.settle_keeps (next : Option Cursor) (results : List (Option Status)) :
    (s.settle next results).db = s.db ∧ (s.settle next results).history = s.history := by
  unfold State.settle
  dsimp only
  split
  · exact ⟨rfl, rfl⟩
  · split <;> exact ⟨rfl, rfl⟩

theorem failed_add (counts : RebuildResult) (result : Option Status) :
    (counts.add result).failed = counts.failed + if succeeded result then 0 else 1 := by
  unfold RebuildResult.add
  split <;> rfl

/-- No failure is counted exactly where none has happened. -/
theorem failed_foldl_add (results : List (Option Status)) (counts : RebuildResult) :
    (results.foldl RebuildResult.add counts).failed = 0
      ↔ counts.failed = 0 ∧ ∀ result ∈ results, succeeded result = true := by
  induction results generalizing counts with
  | nil => simp
  | cons result results ih =>
    rw [List.foldl_cons, ih, failed_add, List.forall_mem_cons, ← and_assoc]
    refine and_congr_left fun _ => ?_
    cases succeeded result <;> simp

/-- **A page is read**: its posts are the next ones after the checkpoint. -/
theorem good_fetch {cursor : Option Cursor} {last : Post} (h : Good old new s)
    (hphase : s.phase = .fetching cursor)
    (hlast : (scanPage Post.key cursor config.batchSize s.db.published).getLast? = some last) :
    Good old new { s with
      phase := .page s.db.now (some last.key)
        ((scanPage Post.key cursor config.batchSize s.db.published).map fun record =>
          { record }) } := by
  obtain ⟨rfl, hfailed⟩ := h.fetching cursor hphase
  -- the page is at the posts after the checkpoint, with nothing failed
  have hids : (s.db.published.map Post.id).Nodup :=
    s.db.nodup_ids.sublist (List.filter_sublist.map Post.id)
  refine ⟨h.passed, nofun, ?_⟩
  intro readAt next tasks hpage
  obtain ⟨rfl, rfl, rfl⟩ := Phase.page.inj hpage
  obtain ⟨hlastPublished, hlastAfter⟩ := Lib.mem_scanPage (List.mem_of_getLast? hlast)
  refine ⟨hfailed, ⟨_, rfl⟩, ?_, ?_, ?_, ?_, ?_⟩
  · -- every row of the page was stamped before
    intro q hq
    have hstamp := s.db.stamped last (Database.mem_published.mp hlastPublished).1
    have hlt : last.key < q.key := Prod.Lex.toLex_lt_toLex.mpr (Or.inl (hstamp.trans_lt hq))
    exact ⟨hlastAfter.mono hlt.le, Lib.after_some.mpr hlt⟩
  · rw [List.map_map]
    exact Lib.nodup_map_scanPage hids
  · -- a post between the checkpoint and the last one of the page is on the page
    intro p hp hafter hupto
    rw [Lib.after_some, not_lt] at hupto
    left
    rw [List.map_map]
    exact List.mem_map_of_mem (Lib.mem_scanPage_of_le s.db.nodup_keys hlast hp hafter hupto)
  · intro p hp hid
    rw [List.map_map] at hid
    obtain ⟨record, hrecord, hid⟩ := List.mem_map.mp hid
    obtain ⟨hpublished, hafter⟩ := Lib.mem_scanPage hrecord
    have hsame : p = record := List.inj_on_of_nodup_map s.db.nodup_ids
      (Database.mem_published.mp hp).1 (Database.mem_published.mp hpublished).1 hid.symm
    exact hsame ▸ hafter
  · intro task htask result hresult
    obtain ⟨record, -, rfl⟩ := List.mem_map.mp htask
    cases hresult

/-- Attempts at something else do not count. -/
theorem lookup_attemptOf {record : Post} {action : TaskAction} {work : Nat × String}
    (h : work ≠ record.work) : (attemptOf record action ++ new).lookup work = new.lookup work := by
  cases action with
  | attempted result =>
    show List.lookup work ((record.work, succeeded result) :: new) = _
    rw [List.lookup_cons, beq_false_of_ne h]
  | _ => rfl

/-- The posts of a page stay the same ones. -/
theorem map_record_set {β : Type} (f : Post → β) {tasks : List Task} {k : Nat} {task task' : Task}
    (hk : tasks[k]? = some task) (hrecord : task'.record = task.record) :
    (tasks.set k task').map (fun task => f task.record) = tasks.map fun task => f task.record := by
  obtain ⟨hlt, hget⟩ := List.getElem?_eq_some_iff.mp hk
  apply List.ext_getElem
  · simp
  · intro j hj hj'
    rw [List.getElem_map, List.getElem_map, List.getElem_set]
    split
    · next hjk =>
      subst hjk
      rw [hrecord, hget]
    · rfl

/-- **A post of the page** leaves what is up to the checkpoint alone. -/
theorem good_task {readAt : Int} {next : Option Cursor} {tasks : List Task} {k : Nat}
    {task task' : Task} {db : Database} {running : Nat} {action : TaskAction} (h : Good old new s)
    (hphase : s.phase = .page readAt next tasks) (hk : tasks[k]? = some task)
    (hstep : task.step u nfkc config readAt running s.db action = some (task', db)) :
    Good old (attemptOf task.record action ++ new)
      { s with
        db
        phase := .page readAt next (tasks.set k task')
        history := attemptOf task.record action ++ s.history } := by
  have hpage := h.page readAt next tasks hphase
  have hrecord := Task.record_step hstep
  have htask : task ∈ tasks := List.mem_of_getElem? hk
  have hpublished : ∀ q ∈ db.published, ∃ p ∈ s.db.published, p.work = q.work
      ∧ (p = q ∨ p.id = task.record.id ∧ readAt < q.updatedAt) := by
    intro q hq
    obtain ⟨hq, hlive⟩ := Database.mem_published.mp hq
    obtain ⟨p, hp, hwork, hsame, hmoved⟩ := Task.mem_posts_step hstep hq
    exact ⟨p, Database.mem_published.mpr ⟨hp, hsame.trans hlive⟩, hwork, hmoved⟩
  refine ⟨?_, nofun, ?_⟩
  · intro q hq hbefore
    -- a row that is stamped now is beyond the checkpoint, so that this one was there before
    obtain ⟨p, hp, -, rfl | ⟨-, hstamp⟩⟩ := hpublished q hq
    · have hother : p.work ≠ task.record.work := by
        intro hwork
        refine hbefore (hpage.after p hp ?_)
        exact List.mem_map.mpr ⟨task, htask, (Post.id_eq_of_work_eq hwork).symm⟩
      rw [lookup_attemptOf hother]
      exact h.passed p hp hbefore
    · exact absurd (hpage.beyond q hstamp).1 hbefore
  · intro readAt' next' tasks' hphase'
    obtain ⟨rfl, rfl, rfl⟩ := Phase.page.inj hphase'
    refine ⟨hpage.failed, hpage.exists_next, hpage.beyond, ?_, ?_, ?_, ?_⟩
    · rw [map_record_set Post.id hk hrecord]
      exact hpage.ids
    · intro q hq hafter hupto
      rw [map_record_set Post.work hk hrecord]
      obtain ⟨p, hp, -, rfl | ⟨-, hstamp⟩⟩ := hpublished q hq
      · by_cases hwork : p.work = task.record.work
        · exact Or.inl (List.mem_map.mpr ⟨task, htask, hwork.symm⟩)
        · rw [lookup_attemptOf hwork]
          exact hpage.covers p hp hafter hupto
      · exact absurd (hpage.beyond q hstamp).2 hupto
    · intro q hq hin
      rw [map_record_set Post.id hk hrecord] at hin
      obtain ⟨p, hp, -, rfl | ⟨-, hstamp⟩⟩ := hpublished q hq
      · exact hpage.after p hp hin
      · exact (hpage.beyond q hstamp).1
    · intro other hother result hresult hsucceeded
      obtain ⟨j, hj⟩ := List.mem_iff_getElem?.mp hother
      rw [List.getElem?_set] at hj
      split at hj
      · next hjk =>
        split at hj
        · obtain rfl := Option.some.inj hj
          rw [hrecord]
          rcases Task.result_step hstep hresult with hbefore | rfl
          · -- it had returned before, and no attempt goes on
            have hlast := hpage.last task htask result hbefore hsucceeded
            rcases Task.step_cases hstep with ⟨rfl, -⟩ | ⟨_, _, _, _, rfl, -⟩ | ⟨_, rfl, -, hnone, -⟩
            · exact hlast
            · exact hlast
            · rw [hnone] at hbefore
              cases hbefore
          · show List.lookup _ ((task.record.work, succeeded result) :: new) = _
            rw [List.lookup_cons_self, hsucceeded]
        · cases hj
      · next hjk =>
        -- an attempt at this post says nothing about the others of the page
        have hdistinct : other.record.id ≠ task.record.id := by
          intro hsame
          have hids := hpage.ids
          rw [List.nodup_iff_injective_getElem] at hids
          obtain ⟨hjlt, hjget⟩ := List.getElem?_eq_some_iff.mp hj
          obtain ⟨hklt, hkget⟩ := List.getElem?_eq_some_iff.mp hk
          have heq := @hids ⟨j, by simpa using hjlt⟩ ⟨k, by simpa using hklt⟩
            (by simpa [hjget, hkget] using hsame)
          exact hjk (Fin.mk.inj heq).symm
        rw [lookup_attemptOf fun hwork => hdistinct (Post.id_eq_of_work_eq hwork)]
        exact hpage.last other (List.mem_of_getElem? hj) result hresult hsucceeded

/-- **The page is counted**: the checkpoint moves over posts that were processed. -/
theorem good_settle {readAt : Int} {next : Option Cursor} {tasks : List Task} (h : Good old new s)
    (hphase : s.phase = .page readAt next tasks) (hdone : ∀ task ∈ tasks, task.result.isSome) :
    Good old new (s.settle next (tasks.filterMap Task.result)) := by
  have hpage := h.page readAt next tasks hphase
  have hcounts := failed_foldl_add (tasks.filterMap Task.result) s.counts
  unfold State.settle
  dsimp only
  split
  · -- one failure ends the run, and the checkpoint stays
    exact ⟨h.passed, nofun, nofun⟩
  · next hgood =>
    have hall : ∀ result ∈ tasks.filterMap Task.result, succeeded result = true := by
      intro result hresult
      by_contra hbad
      exact hgood ⟨result, hresult, Bool.eq_false_iff.mpr hbad⟩
    obtain ⟨c, rfl⟩ := hpage.exists_next
    refine ⟨?_, ?_, nofun⟩
    · intro p hp hupto
      by_cases hafter : After s.checkpoint p.key
      · rcases hpage.covers p hp hafter hupto with hwork | hpassed
        · -- it was on the page, and all of the page succeeded
          obtain ⟨task, htask, hwork⟩ := List.mem_map.mp hwork
          obtain ⟨result, hresult⟩ := Option.isSome_iff_exists.mp (hdone task htask)
          have hin : result ∈ tasks.filterMap Task.result :=
            List.mem_filterMap.mpr ⟨task, htask, hresult⟩
          right
          rw [← hwork]
          exact hpage.last task htask result hresult (hall result hin)
        · exact hpassed
      · exact h.passed p hp hafter
    · intro cursor hcursor
      exact ⟨(Phase.fetching.inj hcursor).symm, hcounts.mpr ⟨hpage.failed, hall⟩⟩

/-- **Another transaction writes a post** in front of the rebuild. -/
theorem good_write {post : Post} {elapsed : Nat} {hnow : post.updatedAt ≤ s.db.now + elapsed}
    (h : Good old new s) (hcheckpoint : s.db.Ahead s.checkpoint post)
    (hreadTo : s.db.Ahead s.readTo post) :
    Good old new { s with db := s.db.write post elapsed hnow } := by
  refine ⟨?_, h.fetching, ?_⟩
  · intro q hq hbefore
    rcases Database.mem_published_write hnow hq with rfl | hold
    · rcases hcheckpoint (Database.mem_published.mp hq).2 with hafter | ⟨p, hp, hlive, hwork, hpassed⟩
      · exact absurd hafter hbefore
      · rw [← hwork]
        exact h.passed p (Database.mem_published.mpr ⟨hp, hlive⟩) hpassed
    · exact h.passed q hold hbefore
  · intro readAt next tasks hphase
    have hpage := h.page readAt next tasks hphase
    have hread : s.readTo = next := by
      unfold State.readTo
      rw [show s.phase = .page readAt next tasks from hphase]
    rw [hread] at hreadTo
    refine ⟨hpage.failed, hpage.exists_next, hpage.beyond, hpage.ids, ?_, ?_, hpage.last⟩
    · intro q hq hafter hupto
      rcases Database.mem_published_write hnow hq with rfl | hold
      · -- it stood on the page already, or before it
        rcases hreadTo (Database.mem_published.mp hq).2 with hbeyond | ⟨p, hp, hlive, hwork, hbefore⟩
        · exact absurd hbeyond hupto
        · have hp := Database.mem_published.mpr ⟨hp, hlive⟩
          rw [← hwork]
          by_cases hpassed : After s.checkpoint p.key
          · exact hpage.covers p hp hpassed hbefore
          · exact Or.inr (h.passed p hp hpassed)
      · exact hpage.covers q hold hafter hupto
    · intro q hq hid
      rcases Database.mem_published_write hnow hq with rfl | hold
      · rcases hcheckpoint (Database.mem_published.mp hq).2 with hafter | ⟨p, hp, hlive, hwork, hbefore⟩
        · exact hafter
        · have hin := hpage.after p (Database.mem_published.mpr ⟨hp, hlive⟩)
            (Post.id_eq_of_work_eq hwork ▸ hid)
          exact absurd hin hbefore
      · exact hpage.after q hold hid

/-- A post that is deleted is not missed. -/
theorem good_delete {id : Nat} (h : Good old new s) :
    Good old new { s with db := s.db.delete id } := by
  refine ⟨fun p hp => h.passed p (Database.mem_published_delete hp), h.fetching, ?_⟩
  intro readAt next tasks hphase
  have hpage := h.page readAt next tasks hphase
  exact ⟨hpage.failed, hpage.exists_next, hpage.beyond, hpage.ids,
    fun p hp => hpage.covers p (Database.mem_published_delete hp),
    fun p hp => hpage.after p (Database.mem_published_delete hp), hpage.last⟩

/-- **One action** keeps the checkpoint good; the history only grows. -/
theorem good_step {a : Action} (h : Good old new s) (hahead : CommitsAhead s a)
    (ht : step u nfkc config s a = some t) :
    ∃ more, t.history = more ++ s.history ∧ Good old (more ++ new) t := by
  rcases step_cases ht with ⟨-, rfl⟩ | ⟨cursor, -, hphase, hnil, rfl⟩ |
    ⟨cursor, last, -, hphase, hlast, rfl⟩ |
    ⟨readAt, next, tasks, k, task, task', db, action, -, hphase, hk, hstep, rfl⟩ |
    ⟨readAt, next, tasks, -, hphase, hdone, rfl⟩ | ⟨-, rfl⟩ | ⟨post, elapsed, hnow, rfl, rfl⟩ |
    ⟨id, -, rfl⟩
  · refine ⟨[], rfl, h.passed, fun cursor hcursor => ?_, nofun⟩
    exact ⟨(Phase.fetching.inj hcursor).symm, rfl⟩
  · exact ⟨[], rfl, h.passed, nofun, nofun⟩
  · exact ⟨[], rfl, good_fetch h hphase hlast⟩
  · exact ⟨attemptOf task.record action, rfl, good_task h hphase hk hstep⟩
  · exact ⟨[], (State.settle_keeps next _).2, good_settle h hphase hdone⟩
  · exact ⟨[], rfl, h.passed, nofun, nofun⟩
  · exact ⟨[], rfl, good_write h hahead.1 hahead.2⟩
  · exact ⟨[], rfl, good_delete h⟩

/-- **A whole run** keeps the checkpoint good. -/
theorem good_run {as : List Action} (h : Good old new s)
    (halong : Lib.Along (step u nfkc config) CommitsAhead s as)
    (hrun : Lib.run (step u nfkc config) s as = some t) :
    ∃ more, t.history = more ++ s.history ∧ Good old (more ++ new) t := by
  refine Lib.run_invariant_along (P := fun t => ∃ more, t.history = more ++ s.history
    ∧ Good old (more ++ new) t) ?_ ⟨[], rfl, h⟩ hrun halong
  rintro t a t' ⟨more, hhistory, hgood⟩ hahead ht
  obtain ⟨latest, hlatest, hgood⟩ := good_step hgood hahead ht
  refine ⟨latest ++ more, ?_, ?_⟩
  · rw [hlatest, hhistory, List.append_assoc]
  · rw [List.append_assoc]
    exact hgood

/-- **A run returns** without failures when nothing is left after the checkpoint. -/
theorem not_after_of_finished {a : Action} (h : Good old new s) (ha : GoesOn a)
    (ht : step u nfkc config s a = some t) (hfinished : t.phase = .finished)
    (hfailed : t.counts.failed = 0) : ∀ p ∈ t.db.published, ¬ After t.checkpoint p.key := by
  rcases step_cases ht with ⟨rfl, -⟩ | ⟨cursor, -, hphase, hnil, rfl⟩ | ⟨_, _, -, -, -, rfl⟩ |
    ⟨_, _, _, _, _, _, _, _, -, -, -, -, rfl⟩ | ⟨readAt, next, tasks, -, hphase, -, rfl⟩ |
    ⟨rfl, -⟩ | ⟨_, _, _, rfl, -⟩ | ⟨_, rfl, -⟩
  · exact ha.elim
  · obtain ⟨rfl, -⟩ := h.fetching cursor hphase
    exact (Lib.scanPage_eq_nil_iff config.batchSize_pos).mp hnil
  · cases hfinished
  · cases hfinished
  · -- a page that is counted ends the run only with a failure
    obtain ⟨c, rfl⟩ := (h.page readAt next tasks hphase).exists_next
    have hcounts := failed_foldl_add (tasks.filterMap Task.result) s.counts
    unfold State.settle at hfinished hfailed
    dsimp only at hfinished hfailed
    split at hfinished
    · next hbad =>
      rw [if_pos hbad] at hfailed
      obtain ⟨result, hresult, hbad⟩ := hbad
      rw [(hcounts.mp hfailed).2 result hresult] at hbad
      cases hbad
    · cases hfinished
  · exact ha.elim
  · exact ha.elim
  · exact ha.elim

end Checkpoint

/-! ### The end of a run -/

/-- What a row can still make the run do: it is after the cursor, and it can be moved up. -/
def Post.weight (cursor : Option Cursor) (p : Post) : Nat :=
  (if p.published = true ∧ After cursor p.key then 1 else 0) + if p.topics = [] then 1 else 0

/-- What the table can still make the run do. -/
def Database.potential (db : Database) (cursor : Option Cursor) : Nat :=
  (db.posts.map (Post.weight cursor)).sum

/-- How often a post of a page can still act. -/
def Task.cost (config : RebuildConfig) (task : Task) : Nat :=
  if task.result.isSome then 0
  else 2 * (config.maxRetries + 1 - task.attempt) + (if task.started then 0 else 1)
    - if task.ensured then 1 else 0

/-- More than a page can act. -/
def RebuildConfig.pageCost (config : RebuildConfig) : Nat :=
  config.batchSize * (2 * config.maxRetries + 3) + 2

/-- How often the run can still act. -/
def State.cost (config : RebuildConfig) (s : State) : Nat :=
  match s.phase with
  | .fetching cursor => (s.db.potential cursor + 1) * config.pageCost
  | .page _ next tasks =>
    (s.db.potential next + 1) * config.pageCost + (tasks.map (Task.cost config)).sum + 1
  | _ => 0

section Ends

variable {u : Unicode} {nfkc : String → String} {config : RebuildConfig} {s t : State}

/-- A post of a page has attempts left, and was read without topics if its row has none. -/
structure TaskFit (config : RebuildConfig) (db : Database) (task : Task) : Prop where
  attempt_le : task.attempt ≤ config.maxRetries
  waiting : task.started = false → task.result = none ∧ task.ensured = false
  topics : ∀ p ∈ db.posts, p.id = task.record.id → p.topics = [] → task.record.topics = []

/-- Every post of the page does. -/
def Fit (config : RebuildConfig) (s : State) : Prop :=
  ∀ readAt next tasks, s.phase = .page readAt next tasks → ∀ task ∈ tasks, TaskFit config s.db task

/-- A row without topics had none before. -/
theorem topics_ensureTopics {postId : Nat} {topics : List String} {begun : Int} {p : Post}
    (h : (p.ensureTopics postId topics begun).topics = []) : p.topics = [] := by
  unfold Post.ensureTopics at h
  split at h
  · next hrow => exact hrow.2
  · exact h

/-- A row that is given topics moves up for the last time. -/
theorem weight_ensureTopics_le {postId : Nat} {topics : List String} {begun : Int} {p : Post}
    (htopics : p.id = postId → p.topics = [] → topics ≠ []) (cursor : Option Cursor) :
    (p.ensureTopics postId topics begun).weight cursor ≤ p.weight cursor := by
  unfold Post.ensureTopics
  split
  · next hrow =>
    unfold Post.weight
    dsimp only
    rw [if_pos hrow.2, if_neg (htopics hrow.1 hrow.2)]
    split <;> omega
  · exact le_rfl

/-- `process` ensures topics for a post that was read without. -/
theorem recordTopics_ne_nil (hplain : u.Plain) {record : Post} {topics : List String}
    (h : recordTopics u nfkc record = .ok topics) (hnone : record.topics = []) : topics ≠ [] := by
  unfold recordTopics at h
  rw [if_neg (not_not.mpr hnone)] at h
  exact normalizeTopics_inferTopics_ne_nil hplain h

/-- An action at a post does not make the table more to do. -/
theorem potential_step (hplain : u.Plain) {readAt : Int} {running : Nat} {db db' : Database}
    {task task' : Task} {action : TaskAction} (hfit : TaskFit config db task)
    (h : task.step u nfkc config readAt running db action = some (task', db'))
    (cursor : Option Cursor) : db'.potential cursor ≤ db.potential cursor := by
  rcases Task.step_cases h with ⟨-, -, -, -, rfl⟩ |
    ⟨begun, elapsed, topics, _, -, -, -, -, htopics, -, -, rfl⟩ | ⟨_, -, -, -, -, rfl⟩
  · exact le_rfl
  · show ((db.posts.map (Post.ensureTopics _ _ _)).map (Post.weight cursor)).sum ≤ _
    rw [List.map_map]
    refine List.sum_le_sum fun p hp => weight_ensureTopics_le (fun hid hnone => ?_) cursor
    exact recordTopics_ne_nil hplain htopics (hfit.topics p hp hid hnone)
  · exact le_rfl

/-- An action at a post uses up one of those it has left. -/
theorem Task.cost_step {readAt : Int} {running : Nat} {db db' : Database} {task task' : Task}
    {action : TaskAction} (hfit : TaskFit config db task)
    (h : task.step u nfkc config readAt running db action = some (task', db')) :
    task'.cost config < task.cost config := by
  have hattempt := hfit.attempt_le
  rcases Task.step_cases h with ⟨-, hidle, -, rfl, -⟩ |
    ⟨_, _, _, _, -, hstarted, hnone, hensured, -, -, rfl, -⟩ | ⟨result, -, hstarted, hnone, rfl, -⟩
  · -- the start is used up; then an `ensure_topics`; then an attempt
    obtain ⟨hnone, hensured⟩ := hfit.waiting hidle
    simp [Task.cost, hnone, hensured, hidle]
  · simp [Task.cost, hnone, hensured, hstarted]
    omega
  · unfold Task.finish
    split
    · simp only [Task.cost, Option.isSome_some, if_true, hnone, hstarted]
      simp only [Option.isSome_none, Bool.false_eq_true, if_false]
      split <;> omega
    · simp only [Task.cost, hnone, hstarted, Option.isSome_none, Bool.false_eq_true, if_false, if_true]
      split <;> omega

/-- A post of the page stays fit. -/
theorem TaskFit.step {readAt : Int} {running : Nat} {db db' : Database} {task task' : Task}
    {action : TaskAction} (hfit : TaskFit config db task)
    (h : task.step u nfkc config readAt running db action = some (task', db')) :
    TaskFit config db' task' ∧ ∀ other, TaskFit config db other → TaskFit config db' other := by
  have htopics : ∀ q ∈ db'.posts, q.topics = [] → ∃ p ∈ db.posts, p.id = q.id ∧ p.topics = [] := by
    intro q hq hnone
    rcases Task.step_cases h with ⟨-, -, -, -, rfl⟩ | ⟨_, _, _, _, -, -, -, -, -, -, -, rfl⟩ |
      ⟨_, -, -, -, -, rfl⟩
    · exact ⟨q, hq, rfl, hnone⟩
    · obtain ⟨p, hp, rfl⟩ := List.mem_map.mp hq
      exact ⟨p, hp, Post.id_ensureTopics.symm, topics_ensureTopics hnone⟩
    · exact ⟨q, hq, rfl, hnone⟩
  have hkept : ∀ other, TaskFit config db other → TaskFit config db' other := by
    intro other hother
    refine ⟨hother.attempt_le, hother.waiting, fun q hq hid hnone => ?_⟩
    obtain ⟨p, hp, hsame, hnone⟩ := htopics q hq hnone
    exact hother.topics p hp (hsame.trans hid) hnone
  refine ⟨?_, hkept⟩
  have hdb := hkept task hfit
  rcases Task.step_cases h with ⟨-, hidle, -, rfl, -⟩ |
    ⟨_, _, _, _, -, hstarted, -, -, -, -, rfl, -⟩ | ⟨result, -, hstarted, -, rfl, -⟩
  · exact ⟨hdb.attempt_le, nofun, hdb.topics⟩
  · refine ⟨hdb.attempt_le, fun hidle => ?_, hdb.topics⟩
    rw [show task.started = false from hidle] at hstarted
    cases hstarted
  · unfold Task.finish
    split
    · refine ⟨hdb.attempt_le, fun hidle => ?_, hdb.topics⟩
      rw [show task.started = false from hidle] at hstarted
      cases hstarted
    · next hagain =>
      refine ⟨?_, fun hidle => ?_, hdb.topics⟩
      · show task.attempt + 1 ≤ config.maxRetries
        omega
      · rw [show task.started = false from hidle] at hstarted
        cases hstarted

/-- One summand becomes smaller. -/
private theorem sum_map_set_lt {tasks : List Task} {k : Nat} {task task' : Task}
    (hk : tasks[k]? = some task) (hlt : task'.cost config < task.cost config) :
    ((tasks.set k task').map (Task.cost config)).sum < (tasks.map (Task.cost config)).sum := by
  obtain ⟨hlength, hget⟩ := List.getElem?_eq_some_iff.mp hk
  have hsplit : tasks = tasks.take k ++ task :: tasks.drop (k + 1) := by
    rw [← hget, List.getElem_cons_drop, List.take_append_drop]
  have hset : tasks.set k task' = tasks.take k ++ task' :: tasks.drop (k + 1) :=
    List.set_eq_take_append_cons_drop.trans (if_pos hlength)
  rw [hset]
  conv_rhs => rw [hsplit]
  simp only [List.map_append, List.map_cons, List.sum_append, List.sum_cons]
  omega

/-- A page that is read leaves less after its last row. -/
theorem potential_lt_of_page {db : Database} {cursor : Option Cursor} {limit : Nat} {last : Post}
    (hlast : (scanPage Post.key cursor limit db.published).getLast? = some last) :
    db.potential (some last.key) < db.potential cursor := by
  have hmem := List.mem_of_getLast? hlast
  obtain ⟨hpublished, hafter⟩ := Lib.mem_scanPage hmem
  obtain ⟨hposts, hlive⟩ := Database.mem_published.mp hpublished
  -- the last row was after the cursor, and is not after itself
  have hmono : ∀ p : Post, After (some last.key) p.key → After cursor p.key :=
    fun p hp => hafter.mono (Lib.after_some.mp hp).le
  refine List.sum_lt_sum _ _ (fun p hp => ?_) ⟨last, hposts, ?_⟩
  · unfold Post.weight
    refine Nat.add_le_add_right ?_ _
    split
    · next hin => rw [if_pos ⟨hin.1, hmono p hin.2⟩]
    · exact Nat.zero_le _
  · have hout : ¬ (last.published = true ∧ After (some last.key) last.key) := fun hin =>
      lt_irrefl _ (Lib.after_some.mp hin.2)
    have hin : last.published = true ∧ After cursor last.key := ⟨hlive, hafter⟩
    unfold Post.weight
    rw [if_neg hout, if_pos hin]
    omega

/-- The posts of a page cannot act more often than `pageCost`. -/
theorem sum_cost_le {posts : List Post} (h : posts.length ≤ config.batchSize) :
    ((posts.map fun record => ({ record } : Task)).map (Task.cost config)).sum + 1
      < config.pageCost := by
  have hcost : ((posts.map fun record => ({ record } : Task)).map (Task.cost config)).sum
      = posts.length * (2 * config.maxRetries + 3) := by
    rw [List.map_map, List.map_congr_left (g := fun _ => 2 * config.maxRetries + 3),
      List.map_const', List.sum_replicate_nat]
    intro record _
    show 2 * (config.maxRetries + 1 - 0) + 1 - 0 = _
    omega
  have hle := Nat.mul_le_mul_right (2 * config.maxRetries + 3) h
  unfold RebuildConfig.pageCost
  omega

/-- **One action of a run** uses up some of what it can still do. -/
theorem cost_step (hplain : u.Plain) {a : Action} (hfit : Fit config s) (ha : GoesOn a)
    (ht : step u nfkc config s a = some t) :
    t.cost config < s.cost config ∧ Fit config t ∧ t.phase ≠ .idle := by
  rcases step_cases ht with ⟨rfl, -⟩ | ⟨cursor, -, hphase, -, rfl⟩ |
    ⟨cursor, last, -, hphase, hlast, rfl⟩ |
    ⟨readAt, next, tasks, k, task, task', db, action, -, hphase, hk, hstep, rfl⟩ |
    ⟨readAt, next, tasks, -, hphase, hdone, rfl⟩ | ⟨rfl, -⟩ | ⟨_, _, _, rfl, -⟩ | ⟨_, rfl, -⟩
  · exact ha.elim
  · refine ⟨?_, nofun, nofun⟩
    show 0 < s.cost config
    unfold State.cost RebuildConfig.pageCost
    rw [hphase]
    dsimp only
    positivity
  · refine ⟨?_, ?_, nofun⟩
    · -- the page is paid by its last row, after which less is left
      have hlength : (scanPage Post.key cursor config.batchSize s.db.published).length
          ≤ config.batchSize := Lib.length_scanPage_le
      have hpage := sum_cost_le hlength
      have hpotential : (s.db.potential (some last.key) + 1) * config.pageCost + config.pageCost
          ≤ (s.db.potential cursor + 1) * config.pageCost := by
        rw [← Nat.succ_mul]
        exact Nat.mul_le_mul_right _ (by have := potential_lt_of_page hlast; omega)
      unfold State.cost
      rw [hphase]
      dsimp only
      omega
    · intro readAt next tasks hphase' task htask
      obtain ⟨rfl, rfl, rfl⟩ := Phase.page.inj hphase'
      obtain ⟨record, hrecord, rfl⟩ := List.mem_map.mp htask
      refine ⟨Nat.zero_le _, fun _ => ⟨rfl, rfl⟩, fun p hp hid hnone => ?_⟩
      have hin : record ∈ s.db.posts :=
        (Database.mem_published.mp (Lib.mem_scanPage hrecord).1).1
      have hsame : p = record := List.inj_on_of_nodup_map s.db.nodup_ids hp hin hid
      exact hsame ▸ hnone
  · have htask := hfit readAt next tasks hphase task (List.mem_of_getElem? hk)
    refine ⟨?_, ?_, nofun⟩
    · have hpotential := potential_step hplain htask hstep next
      have hsum := sum_map_set_lt hk (Task.cost_step htask hstep)
      have hle : (db.potential next + 1) * config.pageCost
          ≤ (s.db.potential next + 1) * config.pageCost := Nat.mul_le_mul_right _ (by omega)
      unfold State.cost
      rw [hphase]
      dsimp only
      omega
    · intro readAt' next' tasks' hphase' other hother
      obtain ⟨rfl, rfl, rfl⟩ := Phase.page.inj hphase'
      rcases List.mem_or_eq_of_mem_set hother with hin | rfl
      · exact (htask.step hstep).2 other (hfit readAt next tasks hphase other hin)
      · exact (htask.step hstep).1
  · have hpageCost : 0 < (s.db.potential next + 1) * config.pageCost := by
      unfold RebuildConfig.pageCost
      positivity
    have hcost : s.cost config = (s.db.potential next + 1) * config.pageCost
        + (tasks.map (Task.cost config)).sum + 1 := by
      unfold State.cost
      rw [hphase]
    -- the run goes on after `next`, or it ends
    unfold State.settle
    dsimp only
    split
    · refine ⟨?_, nofun, nofun⟩
      show 0 < s.cost config
      omega
    · split
      · refine ⟨?_, nofun, nofun⟩
        show 0 < s.cost config
        omega
      · next cursor =>
        refine ⟨?_, nofun, nofun⟩
        show (s.db.potential (some cursor) + 1) * config.pageCost < s.cost config
        omega
  · exact ha.elim
  · exact ha.elim
  · exact ha.elim

/-- **A run** acts no more often than that. -/
theorem length_run_le (hplain : u.Plain) {as : List Action} (hfit : Fit config s)
    (has : ∀ a ∈ as, GoesOn a) (hphase : s.phase ≠ .idle)
    (hrun : Lib.run (step u nfkc config) s as = some t) :
    as.length + t.cost config ≤ s.cost config ∧ t.phase ≠ .idle := by
  induction as generalizing s with
  | nil =>
    obtain rfl := Option.some.inj hrun
    exact ⟨by simp, hphase⟩
  | cons a as ih =>
    obtain ⟨mid, hmid, hrest⟩ := Lib.run_cons_eq_some.mp hrun
    obtain ⟨hless, hfit', hphase'⟩ := cost_step hplain hfit (has a List.mem_cons_self) hmid
    obtain ⟨hle, hend⟩ := ih hfit' (fun b hb => has b (List.mem_cons_of_mem a hb)) hphase' hrest
    rw [List.length_cons]
    exact ⟨by omega, hend⟩

/-- A run that has not finished can go on. -/
theorem exists_goesOn (hidle : s.phase ≠ .idle) (hfinished : s.phase ≠ .finished) :
    ∃ a, GoesOn a ∧ (step u nfkc config s a).isSome := by
  cases hphase : s.phase with
  | idle => exact absurd hphase hidle
  | finished => exact absurd hphase hfinished
  | fetching cursor =>
    refine ⟨.fetch, trivial, ?_⟩
    unfold step
    rw [hphase]
    dsimp only
    split <;> rfl
  | page readAt next tasks =>
    by_cases hdone : ∀ task ∈ tasks, task.result.isSome
    · refine ⟨.settle, trivial, ?_⟩
      unfold step
      rw [hphase]
      dsimp only
      rw [if_pos hdone]
      rfl
    · by_cases hrunning : ∃ task ∈ tasks, task.started = true ∧ task.result = none
      · obtain ⟨task, htask, hstarted, hnone⟩ := hrunning
        obtain ⟨k, hk⟩ := List.mem_iff_getElem?.mp htask
        refine ⟨.task k (.attempted none), trivial, ?_⟩
        unfold step
        rw [hphase]
        dsimp only
        rw [hk]
        simp [Task.step, hstarted, hnone]
      · -- the semaphore is free
        have hfree : inFlight tasks = 0 := by
          unfold inFlight
          rw [List.countP_eq_zero]
          intro task htask hin
          rw [Bool.and_eq_true, Option.isNone_iff_eq_none] at hin
          exact hrunning ⟨task, htask, hin⟩
        push Not at hdone
        obtain ⟨task, htask, hwaits⟩ := hdone
        have hnone : task.result = none := Option.not_isSome_iff_eq_none.mp hwaits
        have hstarted : task.started = false := by
          by_contra hstarted
          exact hrunning ⟨task, htask, Bool.not_eq_false _ ▸ hstarted, hnone⟩
        obtain ⟨k, hk⟩ := List.mem_iff_getElem?.mp htask
        refine ⟨.task k .acquire, trivial, ?_⟩
        unfold step
        rw [hphase]
        dsimp only
        rw [hk]
        simp [Task.step, hstarted, hfree, config.concurrency_pos]

end Ends

/-! ### The rebuild as a whole -/

/-- What a start does. -/
theorem step_start {u : Unicode} {nfkc : String → String} {config : RebuildConfig} {s t : State}
    (ht : step u nfkc config s .start = some t) :
    t = { s with phase := .fetching s.checkpoint, counts := {} } := by
  unfold step at ht
  dsimp only at ht
  split at ht
  · exact (Option.some.inj ht).symm
  · exact (Option.some.inj ht).symm
  · cases ht

/-- A post stays in the table with its text, as long as no other transaction is about it. -/
theorem exists_post_step {u : Unicode} {nfkc : String → String} {config : RebuildConfig}
    {s t : State} {a : Action} (ht : step u nfkc config s a = some t) {p : Post}
    (hp : p ∈ s.db.posts) (ha : ¬ Writes p.id a) :
    ∃ q ∈ t.db.posts, q.work = p.work ∧ q.published = p.published := by
  rcases step_cases ht with ⟨-, rfl⟩ | ⟨_, -, -, -, rfl⟩ | ⟨_, _, -, -, -, rfl⟩ |
    ⟨_, _, _, _, _, _, _, _, -, -, -, hstep, rfl⟩ | ⟨_, next, tasks, -, -, -, rfl⟩ | ⟨-, rfl⟩ |
    ⟨post, _, _, rfl, rfl⟩ | ⟨id, rfl, rfl⟩
  · exact ⟨p, hp, rfl, rfl⟩
  · exact ⟨p, hp, rfl, rfl⟩
  · exact ⟨p, hp, rfl, rfl⟩
  · exact Task.exists_post_step hstep hp
  · rw [(State.settle_keeps next _).1]
    exact ⟨p, hp, rfl, rfl⟩
  · exact ⟨p, hp, rfl, rfl⟩
  · have hother : p.id ≠ post.id := fun hid => ha hid.symm
    exact ⟨p, List.mem_cons_of_mem _ (List.mem_filter.mpr ⟨hp, decide_eq_true hother⟩), rfl, rfl⟩
  · have hother : p.id ≠ id := fun hid => ha hid.symm
    exact ⟨p, List.mem_filter.mpr ⟨hp, decide_eq_true hother⟩, rfl, rfl⟩

/-- It stays so through a whole run. -/
theorem exists_post_run {u : Unicode} {nfkc : String → String} {config : RebuildConfig}
    {s t : State} {as : List Action} (hrun : Lib.run (step u nfkc config) s as = some t) {p : Post}
    (hp : p ∈ s.db.posts) (has : ∀ a ∈ as, ¬ Writes p.id a) :
    ∃ q ∈ t.db.posts, q.work = p.work ∧ q.published = p.published := by
  have halong : Lib.Along (step u nfkc config) (fun _ a => ¬ Writes p.id a) s as :=
    Lib.along_of_forall (fun a ha _ => has a ha) s
  refine Lib.run_invariant_along
    (P := fun t => ∃ q ∈ t.db.posts, q.work = p.work ∧ q.published = p.published) ?_
    ⟨p, hp, rfl, rfl⟩ hrun halong
  rintro t a t' ⟨q, hq, hwork, hsame⟩ ha ht
  obtain ⟨q', hq', hwork', hsame'⟩ := exists_post_step ht hq
    (by rwa [Post.id_eq_of_work_eq hwork])
  exact ⟨q', hq', hwork'.trans hwork, hsame'.trans hsame⟩

/-- **A run that returns without failures** has processed every published post but those that were at
    or before the checkpoint when it was started. -/
theorem processed_since {u : Unicode} {nfkc : String → String} {config : RebuildConfig}
    {s t : State} {bs : List Action} {b : Action} (hb : GoesOn b)
    (halong : Lib.Along (step u nfkc config) CommitsAhead s (.start :: bs))
    (ht : Lib.run (step u nfkc config) s (.start :: bs ++ [b]) = some t)
    (hfinished : t.phase = .finished) (hfailed : t.counts.failed = 0) :
    ∃ since, t.history = since ++ s.history ∧ ∀ q ∈ t.db.posts, q.published = true →
      since.lookup q.work = some true
        ∨ ∃ p ∈ s.db.posts, p.published = true ∧ p.work = q.work ∧ ¬ After s.checkpoint p.key := by
  obtain ⟨last, hlast, hreturn⟩ := Lib.run_append.mp ht
  obtain ⟨mid, hmid, hrest⟩ := Lib.run_cons_eq_some.mp hlast
  have hrestAlong := halong.2 mid hmid
  obtain rfl := step_start hmid
  obtain ⟨u', hu', hu⟩ := Lib.run_cons_eq_some.mp hreturn
  obtain rfl := Option.some.inj hu
  -- the posts up to the checkpoint are the ones from before
  let old : Nat × String → Prop := fun work =>
    ∃ p ∈ s.db.posts, p.published = true ∧ p.work = work ∧ ¬ After s.checkpoint p.key
  have hstart : Good old [] { s with phase := .fetching s.checkpoint, counts := {} } := by
    refine ⟨fun p hp hupto => ?_, fun cursor hcursor => ?_, nofun⟩
    · obtain ⟨hposts, hlive⟩ := Database.mem_published.mp hp
      exact Or.inl ⟨p, hposts, hlive, rfl, hupto⟩
    · exact ⟨(Phase.fetching.inj hcursor).symm, rfl⟩
  obtain ⟨more, hhistory, hgood⟩ := good_run hstart hrestAlong hrest
  have hahead : CommitsAhead last b := by
    cases b <;> first | exact trivial | exact hb.elim
  obtain ⟨latest, hlatest, hgood'⟩ := good_step hgood hahead hu'
  rw [List.append_nil] at hgood'
  refine ⟨latest ++ more, ?_, fun q hq hlive => ?_⟩
  · rw [hlatest, hhistory, List.append_assoc]
  · have hq := Database.mem_published.mpr ⟨hq, hlive⟩
    have hpassed := hgood'.passed q hq (not_after_of_finished hgood hb hu' hfinished hfailed q hq)
    exact hpassed.symm

/-- **The checkpoint of the rebuild.**  Over every run on every table, with crashes, failures and
    commits of other transactions anywhere:

    * when every commit is ahead of the rebuild, the last attempt at a published post up to the
      checkpoint succeeded;
    * when every commit since a start is ahead of the rebuild, a run that returns without failures has
      processed every published post that was not at or before the checkpoint at the start, and thus
      each one that was after it and that no other transaction is about;
    * a run acts a bounded number of times while no other transaction commits, and until it has
      returned it can go on. -/
theorem rebuild_checkpoint {u : Unicode} {nfkc : String → String} (hplain : u.Plain)
    (config : RebuildConfig) (db : Database) {as : List Action} {s : State}
    (hrun : Lib.run (step u nfkc config) { db } as = some s) :
    (Lib.Along (step u nfkc config) CommitsAhead { db } as →
        ∀ c ∈ s.checkpoint, ∀ p ∈ s.db.posts, p.published = true → p.key ≤ c →
          s.history.lookup p.work = some true)
      ∧ (∀ bs b t, GoesOn b → Lib.Along (step u nfkc config) CommitsAhead s (.start :: bs) →
        Lib.run (step u nfkc config) s (.start :: bs ++ [b]) = some t →
        t.phase = .finished → t.counts.failed = 0 → ∃ since, t.history = since ++ s.history
          ∧ (∀ q ∈ t.db.posts, q.published = true → since.lookup q.work = some true
            ∨ ∃ p ∈ s.db.posts, p.published = true ∧ p.work = q.work ∧ ¬ After s.checkpoint p.key)
          ∧ ∀ p ∈ s.db.posts, p.published = true → After s.checkpoint p.key →
            (∀ a ∈ bs, ¬ Writes p.id a) → since.lookup p.work = some true)
      ∧ ∀ bs t, (∀ b ∈ bs, GoesOn b) → Lib.run (step u nfkc config) s (.start :: bs) = some t →
        bs.length ≤ (s.db.potential s.checkpoint + 1) * config.pageCost
          ∧ (t.phase = .finished ∨ ∃ a, GoesOn a ∧ (step u nfkc config t a).isSome) := by
  refine ⟨?_, ?_, ?_⟩
  · intro halong c hc p hp hlive hle
    have hstart : Good (fun _ => False) [] { db } :=
      ⟨fun p _ hbefore => absurd (Lib.after_none _) hbefore, nofun, nofun⟩
    obtain ⟨more, hhistory, hgood⟩ := good_run hstart halong hrun
    rw [show s.history = more ++ [] from hhistory]
    have hupto : ¬ After s.checkpoint p.key := Lib.not_after.mpr ⟨c, hc, hle⟩
    exact (hgood.passed p (Database.mem_published.mpr ⟨hp, hlive⟩) hupto).resolve_left id
  · intro bs b t hb halong ht hfinished hfailed
    obtain ⟨since, hhistory, hprocessed⟩ := processed_since hb halong ht hfinished hfailed
    refine ⟨since, hhistory, hprocessed, fun p hp hlive hafter hbs => ?_⟩
    have hnone : ∀ a ∈ Action.start :: bs ++ [b], ¬ Writes p.id a := by
      intro a ha hwrites
      rcases List.mem_append.mp ha with ha | ha
      · rcases List.mem_cons.mp ha with rfl | ha
        · exact hwrites
        · exact hbs a ha hwrites
      · obtain rfl := List.mem_singleton.mp ha
        cases a <;> first | exact hwrites | exact hb
    -- its row may have moved, but it was after the checkpoint
    obtain ⟨q, hq, hwork, hsame⟩ := exists_post_run ht hp hnone
    rw [← hwork]
    refine (hprocessed q hq (hsame.trans hlive)).resolve_right ?_
    rintro ⟨p', hp', -, hwork', hupto⟩
    have hsameRow : p' = p := List.inj_on_of_nodup_map s.db.nodup_ids hp' hp
      (Post.id_eq_of_work_eq (hwork'.trans hwork))
    exact hupto (hsameRow ▸ hafter)
  · intro bs t hbs ht
    obtain ⟨mid, hmid, hrest⟩ := Lib.run_cons_eq_some.mp ht
    obtain rfl := step_start hmid
    have hfit : Fit config { s with phase := .fetching s.checkpoint, counts := {} } := by
      intro readAt next tasks hphase
      cases hphase
    obtain ⟨hle, hgoing⟩ := length_run_le hplain hfit hbs nofun hrest
    change bs.length + t.cost config ≤ (s.db.potential s.checkpoint + 1) * config.pageCost at hle
    refine ⟨by omega, ?_⟩
    by_cases hfinished : t.phase = .finished
    · exact Or.inl hfinished
    · exact Or.inr (exists_goesOn hgoing hfinished)

/-- Two posts of one moment, the first of them without topics. -/
def tied : Database where
  posts := [⟨1, 5, true, "Hi", []⟩, ⟨2, 5, true, "Hi", ["ai"]⟩]
  now := 6
  nodup_ids := by decide
  stamped := by decide

/-- Pages of one post. -/
def single : RebuildConfig := ⟨1, 3, 1, by decide, by decide⟩

/-- The first post moves up, and a third one is written ahead; the run crashes at the second. -/
def crashes : List Action :=
  [.start, .fetch, .task 0 .acquire, .task 0 (.ensureTopics 7 1), .task 0 (.attempted (some .created)),
    .write ⟨3, 6, true, "Hello", ["ai"]⟩ 1, .settle, .fetch, .task 0 .acquire,
    .task 0 (.attempted none), .crash]

/-- The pages of the next run: the second post, the third and the first. -/
def resumes : List Action :=
  [.fetch, .task 0 .acquire, .task 0 (.ensureTopics 9 1), .task 0 (.attempted (some .created)),
    .settle, .fetch, .task 0 .acquire, .task 0 (.ensureTopics 10 1),
    .task 0 (.attempted (some .unchanged)), .settle, .fetch, .task 0 .acquire,
    .task 0 (.ensureTopics 11 1), .task 0 (.attempted (some .unchanged)), .settle]

/-- The checkpoint is at the first post, of which the last attempt succeeded; the next run processes
    the second one and the one that was written. -/
theorem checkpoint_tied :
    ∃ s t since, Lib.run (step asciiUnicode id single) { db := tied } crashes = some s
      ∧ s.checkpoint = some (toLex (5, 1))
      ∧ (∀ c ∈ s.checkpoint, ∀ p ∈ s.db.posts, p.published = true → p.key ≤ c →
        s.history.lookup p.work = some true)
      ∧ Lib.run (step asciiUnicode id single) s (.start :: resumes ++ [.fetch]) = some t
      ∧ t.history = since ++ s.history
      ∧ (∀ p ∈ s.db.posts, p.published = true → After s.checkpoint p.key →
        (∀ a ∈ resumes, ¬ Writes p.id a) → since.lookup p.work = some true)
      ∧ resumes.length ≤ (s.db.potential s.checkpoint + 1) * single.pageCost := by
  have hcrashes : (Lib.run (step asciiUnicode id single) { db := tied } crashes).map State.checkpoint
      = some (some (toLex (5, 1))) := by decide +kernel
  obtain ⟨s, hs, hcheckpoint⟩ := Option.map_eq_some_iff.mp hcrashes
  have hahead : Lib.Along (step asciiUnicode id single) CommitsAhead { db := tied }
      (crashes ++ .start :: resumes) := by decide +kernel
  obtain ⟨hcrashesAhead, hresumesAhead⟩ := (Lib.along_append hs).mp hahead
  -- the next run returns without failures
  have hresumes : (Lib.run (step asciiUnicode id single) { db := tied }
      (crashes ++ (.start :: resumes ++ [.fetch]))).map (fun t => (t.phase, t.counts.failed))
      = some (.finished, 0) := by decide +kernel
  obtain ⟨t, ht, hreturned⟩ := Option.map_eq_some_iff.mp hresumes
  obtain ⟨s', hs', ht⟩ := Lib.run_append.mp ht
  obtain rfl : s = s' := Option.some.inj (hs.symm.trans hs')
  obtain ⟨mid, hmid, -⟩ := Lib.run_append.mp ht
  obtain ⟨hpassed, hreturns, hends⟩ := rebuild_checkpoint plain_asciiUnicode single tied hs
  obtain ⟨since, hsince, -, hprocessed⟩ := hreturns resumes .fetch t trivial hresumesAhead ht
    (congrArg Prod.fst hreturned) (congrArg Prod.snd hreturned)
  have hgoesOn : ∀ a ∈ resumes, GoesOn a := by
    simp [resumes, GoesOn]
  exact ⟨s, t, since, hs, hcheckpoint, hpassed hcrashesAhead, ht, hsince, hprocessed,
    (hends resumes mid hgoesOn hmid).1⟩

/-- One post, which the rebuild has processed. -/
def processed : Database where
  posts := [⟨2, 5, true, "Hi", ["ai"]⟩]
  now := 6
  nodup_ids := by decide
  stamped := by decide

/-- A transaction that began before the post was stamped commits another one after the page was read;
    the rebuild is run once more. -/
def overtaken : List Action :=
  [.start, .fetch, .task 0 .acquire, .task 0 (.ensureTopics 7 1), .task 0 (.attempted (some .created)),
    .settle, .write ⟨1, 4, true, "Hello", ["ai"]⟩ 1, .fetch, .start, .fetch]

/-- The post that was committed is behind the checkpoint, and was never attempted; the runs have
    returned without failures. -/
theorem committed_behind_the_checkpoint :
    ∃ s, Lib.run (step asciiUnicode id single) { db := processed } overtaken = some s
      ∧ s.phase = .finished ∧ s.counts.failed = 0
      ∧ ∃ c ∈ s.checkpoint, ∃ p ∈ s.db.posts, p.published = true ∧ p.key ≤ c
        ∧ s.history.lookup p.work = none := by
  have hrun : (Lib.run (step asciiUnicode id single) { db := processed } overtaken).map (fun s =>
      (s.checkpoint, s.db.posts)) = some (some (toLex (5, 2)),
        [⟨1, 4, true, "Hello", ["ai"]⟩, ⟨2, 5, true, "Hi", ["ai"]⟩]) := by decide +kernel
  have hreturned : (Lib.run (step asciiUnicode id single) { db := processed } overtaken).map (fun s =>
      (s.phase, s.counts.failed, s.history)) = some (.finished, 0, [((2, "Hi"), true)]) := by
    decide +kernel
  obtain ⟨s, hs, hstate⟩ := Option.map_eq_some_iff.mp hrun
  rw [hs, Option.map_some, Option.some.injEq] at hreturned
  simp only [Prod.mk.injEq] at hstate hreturned
  obtain ⟨hphase, hfailed, hhistory⟩ := hreturned
  obtain ⟨hcheckpoint, hposts⟩ := hstate
  refine ⟨s, hs, hphase, hfailed, toLex (5, 2), hcheckpoint, ⟨1, 4, true, "Hello", ["ai"]⟩, ?_, rfl,
    by decide, ?_⟩
  · rw [hposts]
    exact List.mem_cons_self
  · rw [hhistory]
    decide

end Oecophylla.Content.Rebuild
