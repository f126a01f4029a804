import Oecophylla.Content.Posts
import Oecophylla.Content.Topics
import Oecophylla.Lib.Except
import Oecophylla.Python.Timestamp

namespace Oecophylla.Content

open Oecophylla.Python (Timestamp)

/-!
# The worker — `nlp_worker/app/embedding_worker.py`, `kafka_consumer.py`

* `Replies` — what the database, the clock and the model answer while one post is processed;
* `process` — `EmbeddingService.process`;
* `process_returns_iff` — it returns exactly when the topics of the post are normalizable;
* `processBatch` — `_process_batch`, which is committed exactly when no post of it is poison.

`validateEmbedding` is a parameter here, since it computes with doubles (see `Content.Embedding`).
`updated_at` is read from the database, with its timezone.
-/

/-- `PostRecord`. -/
structure PostRecord where
  postId : Nat
  content : String
  topics : List String
  updatedAt : Timestamp

/-- `PostFeature`. -/
structure PostFeature (F : Type) where
  schemaVersion : String
  postId : Nat
  encoderVersion : String
  normalizationVersion : String
  contentHash : String
  embedding : List F
  normalizedTopics : List String
  sourceUpdatedAt : Timestamp
  computedAt : Timestamp

/-- An exception of the model. -/
inductive ModelError where
  | valueError
  | other

/-- The answers to one call of `process`; `insertFeature` is an error when the statement fails. -/
structure Replies (F : Type) where
  featureExists : Bool
  clock : Timestamp
  encodePassage : String → Except ModelError (List F)
  insertFeature : Except Unit Bool

/-- `ProcessResult.status`. -/
inductive Status where
  | created
  | unchanged
  | fallback
  deriving DecidableEq, Repr

/-- The result, the reason of a fallback, the topics for `ensure_topics`, and the feature for
    `insert_feature`. -/
structure Outcome (F : Type) where
  status : Status
  reason : Option String
  topics : List String
  feature : Option (PostFeature F)

/-- `ENCODER_VERSION`. -/
def encoderVersion : String :=
  "intfloat/multilingual-e5-small@614241f622f53c4eeff9890bdc4f31cfecc418b3"

section Process

variable (u : Unicode) (nfkc : String → String) {F : Type}
  (validateEmbedding : List F → Except ValueError (List F))

/-- `content_hash(normalize_content(content))`. -/
def digest (content : String) : Except ValueError String := do
  let normalized ← normalizeContent u content
  contentHash u normalized

/-- `_fallback(reason)`. -/
def fallback (topics : List String) (reason : String) : Outcome F :=
  ⟨.fallback, some reason, topics, none⟩

/-- `process`, after `ensure_topics`. -/
def embed (record : PostRecord) (topics : List String) (replies : Replies F) : Outcome F :=
  match normalizeContent u record.content, digest u record.content with
  | .ok normalized, .ok digest =>
    if replies.featureExists then ⟨.unchanged, none, topics, none⟩
    else if replies.clock < record.updatedAt then fallback topics "future_source"
    else
      match replies.encodePassage normalized with
      | .error .valueError => fallback topics "validation"
      | .error .other => fallback topics "model"
      | .ok values =>
        match validateEmbedding values with
        | .error _ => fallback topics "validation"
        | .ok embedding =>
          let feature : PostFeature F :=
            { schemaVersion := "post-content-features-v1"
              postId := record.postId
              encoderVersion := encoderVersion
              normalizationVersion := contentHashVersion
              contentHash := digest
              embedding := embedding
              normalizedTopics := topics
              sourceUpdatedAt := record.updatedAt
              computedAt := replies.clock }
          match replies.insertFeature with
          | .error _ => ⟨.fallback, some "storage", topics, some feature⟩
          | .ok inserted =>
            ⟨if inserted then .created else .unchanged, none, topics, some feature⟩
  | _, _ => fallback topics "validation"

/-- `process(record)`; outside its `try` blocks a `ValueError` is raised. -/
def process (record : PostRecord) (replies : Replies F) : Except ValueError (Outcome F) := do
  let topics ← normalizeTopics u
    (if record.topics ≠ [] then record.topics else inferTopics nfkc u.lower record.content)
  pure (embed u validateEmbedding record topics replies)

/-- `_process_one(conn, envelope, …)`, of an envelope with this `post_id`; the replies may depend on
    the post. -/
def processOne (getPost : Nat → Option PostRecord) (replies : PostRecord → Replies F)
    (postId : Option Nat) : Except ValueError Unit :=
  match postId.bind getPost with
  | none => .ok ()
  | some record => do
    let _ ← process u nfkc validateEmbedding record (replies record)
    pure ()

/-- `_process_batch(conn, messages, …)`; the offsets are committed when it returns. -/
def processBatch (getPost : Nat → Option PostRecord) (replies : PostRecord → Replies F) :
    List (Option Nat) → Except ValueError Unit
  | [] => .ok ()
  | postId :: messages => do
    processOne u nfkc validateEmbedding getPost replies postId
    processBatch getPost replies messages

end Process

variable {u : Unicode} {nfkc : String → String} {F : Type}
  {validateEmbedding : List F → Except ValueError (List F)}

/-- **No poison.**  `process` returns, whatever the model and the database answer, exactly when the
    topics of the post are normalizable. -/
theorem process_returns_iff (hplain : u.Plain) (record : PostRecord) (replies : Replies F) :
    (∃ outcome, process u nfkc validateEmbedding record replies = .ok outcome)
      ↔ Normalizable u record.topics := by
  have hprocess : (∃ outcome, process u nfkc validateEmbedding record replies = .ok outcome)
      ↔ ∃ topics, normalizeTopics u (if record.topics ≠ [] then record.topics
          else inferTopics nfkc u.lower record.content) = .ok topics := by
    unfold process
    cases normalizeTopics u (if record.topics ≠ [] then record.topics
      else inferTopics nfkc u.lower record.content) with
    | error e => exact iff_of_false (by rintro ⟨_, h⟩; cases h) (by rintro ⟨_, h⟩; cases h)
    | ok topics => exact iff_of_true ⟨_, rfl⟩ ⟨_, rfl⟩
  rw [hprocess, normalizeTopics_isOk_iff]
  by_cases htopics : record.topics = []
  · rw [if_neg (not_not.mpr htopics), htopics]
    exact iff_of_true (normalizable_inferTopics hplain record.content) ⟨nofun, Nat.zero_le _⟩
  · rw [if_pos htopics]

/-- A batch is committed exactly when all its posts are processed. -/
theorem processBatch_eq_ok_iff {getPost : Nat → Option PostRecord}
    {replies : PostRecord → Replies F} {messages : List (Option Nat)} :
    processBatch u nfkc validateEmbedding getPost replies messages = .ok ()
      ↔ ∀ postId ∈ messages, ∀ record ∈ postId.bind getPost,
        ∃ outcome, process u nfkc validateEmbedding record (replies record) = .ok outcome := by
  induction messages with
  | nil => exact iff_of_true rfl nofun
  | cons postId messages ih =>
    unfold processBatch
    rw [Lib.except_bind_eq_ok, List.forall_mem_cons, ← ih]
    have hone : processOne u nfkc validateEmbedding getPost replies postId = .ok ()
        ↔ ∀ record ∈ postId.bind getPost,
          ∃ outcome, process u nfkc validateEmbedding record (replies record) = .ok outcome := by
      unfold processOne
      cases postId.bind getPost with
      | none => exact iff_of_true rfl nofun
      | some record =>
        simp only [Lib.except_bind_eq_ok, Option.mem_some_iff, forall_eq']
        exact ⟨fun ⟨outcome, h, _⟩ => ⟨outcome, h⟩, fun ⟨outcome, h⟩ => ⟨outcome, h, rfl⟩⟩
    rw [← hone]
    exact ⟨fun ⟨_, h, hrest⟩ => ⟨h, hrest⟩, fun ⟨h, hrest⟩ => ⟨(), h, hrest⟩⟩

/-- **Poison posts.**  Whatever is answered, `process` returns exactly when the topics of the post
    are normalizable, and a batch of the consumer is committed exactly when those of all its posts
    are. -/
theorem no_poison_post_iff (hplain : u.Plain) :
    (∀ (record : PostRecord) (replies : Replies F),
        (∃ outcome, process u nfkc validateEmbedding record replies = .ok outcome)
          ↔ Normalizable u record.topics)
      ∧ ∀ (getPost : Nat → Option PostRecord) (replies : PostRecord → Replies F)
          (messages : List (Option Nat)),
        processBatch u nfkc validateEmbedding getPost replies messages = .ok ()
          ↔ ∀ postId ∈ messages, ∀ record ∈ postId.bind getPost,
            Normalizable u record.topics := by
  refine ⟨process_returns_iff hplain, fun getPost replies messages => ?_⟩
  simp only [processBatch_eq_ok_iff, process_returns_iff hplain]

/-- A post with the topic `AI`, while the model does not work. -/
theorem no_poison_post_iff_hi :
    ∃ outcome, process asciiUnicode id (fun values : List Int => .ok values)
      ⟨1, "Hi", ["AI"], ⟨⟨2026, 5, 1, 12, 0, 0, 0, some 0⟩, rfl⟩⟩
      ⟨false, ⟨⟨2026, 5, 1, 12, 0, 1, 0, some 0⟩, rfl⟩, fun _ => .error .other, .ok true⟩
        = .ok outcome :=
  ((no_poison_post_iff plain_asciiUnicode).1 _ _).mpr (by decide)

/-- A post with one long topic, which `create` admits. -/
theorem long_topic_is_poison :
    ∃ post, createPost ⟨"Hi", [], [], [String.ofList (List.replicate 65 'a')]⟩ = .ok post
      ∧ ∀ (u : Unicode) (replies : Replies Int) (postId : Nat) (updatedAt : Timestamp), u.Plain →
        ¬ ∃ outcome, process u id (fun values => .ok values)
          ⟨postId, post.content, post.topics, updatedAt⟩ replies = .ok outcome := by
  refine ⟨⟨"Hi", [], [], [String.ofList (List.replicate 65 'a')]⟩, by decide, ?_⟩
  intro u replies postId updatedAt hplain h
  obtain ⟨hshort, -⟩ := (process_returns_iff hplain _ replies).mp h
  have hlabel : topicLabel u (String.ofList (List.replicate 65 'a'))
      = String.ofList (List.replicate 65 'a') := by
    apply topicLabel_word hplain
    rw [String.toList_ofList]
    intro c hc
    rw [List.eq_of_mem_replicate hc]
    decide
  have hle := hshort (String.ofList (List.replicate 65 'a'))
    (List.mem_filter.mpr ⟨List.mem_map.mpr ⟨_, List.mem_singleton_self _, hlabel⟩, by decide⟩)
  rw [String.length_ofList, List.length_replicate] at hle
  omega

end Oecophylla.Content
