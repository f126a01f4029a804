import Oecophylla.Content.Process
import Oecophylla.Dataset.Export
import Oecophylla.Lib.Table

namespace Oecophylla.Content

open Dataset (ArticleFeatureRecord AvailableAt compareNewest selectHistoryFeature)
open Lib (Taken insertNew insertAllNew firstLeast)
open Oecophylla.Python (Timestamp)

/-!
# The revisions of a post and their features

A post is created and edited, and the worker processes each revision before the next edit.
`post_content_features` has one row for each content hash, which keeps the time of the first
revision with this hash.

* `State`, `revise`, `editPost`, `history` — content-service and the worker, one revision after the
  other;
* `Version` — a revision, with the feature the worker would store if the table were empty;
* `Coherent`, `mem_rows_iff` — the table has the first feature of each hash;
* `liveVersion`, `latestFeature` — the content at a time, and the query of `candidates_semantic`;
* `Current` — the condition: what has got a feature by then was introduced before the live content;
* `selected_iff` — the selected feature is that of the live content exactly then;
* `stale_after_restore` — an edit restores the first content.
-/

/-- What the worker meets with a revision; `id` is the `uuidv7()` of the row. -/
structure Work (F : Type) where
  clock : Timestamp
  encodePassage : String → Except ModelError (List F)
  storageFails : Bool
  id : Nat

/-- An edit, its `NOW()`, and the work on it. -/
structure Edit (F : Type) where
  input : UpdatePostInput
  updatedAt : Timestamp
  work : Work F

/-- A revision, and the feature that is stored for it unless its hash is taken. -/
structure Version (F : Type) where
  content : String
  updatedAt : Timestamp
  attempt : Option (ArticleFeatureRecord F)

/-- A post, the rows of its features, and its revisions so far. -/
structure State (F : Type) where
  post : Post
  rows : List (ArticleFeatureRecord F)
  versions : List (Version F)

/-- The row of a feature. -/
def PostFeature.row {F : Type} (feature : PostFeature F) (id : Nat) : ArticleFeatureRecord F where
  id := id
  postId := feature.postId
  encoderVersion := feature.encoderVersion
  contentHash := feature.contentHash
  embedding := feature.embedding
  sourceUpdatedAt := feature.sourceUpdatedAt
  computedAt := feature.computedAt

/-- The key of `uq_post_content_features_content_revision`. -/
def revisionKey {F : Type} (row : ArticleFeatureRecord F) : Nat × String × String :=
  (row.postId, row.encoderVersion, row.contentHash)

section History

variable (u : Unicode) (nfkc : String → String) {F : Type}
  (validateEmbedding : List F → Except ValueError (List F)) (postId : Nat)

/-- `feature_exists` and `insert_feature` over a table; nobody else writes features of the post. -/
def replies (rows : List (ArticleFeatureRecord F)) (record : PostRecord) (work : Work F) :
    Replies F :=
  let taken : Bool := match digest u record.content with
    | .ok digest => decide (Taken revisionKey rows (record.postId, encoderVersion, digest))
    | .error _ => false
  { featureExists := taken
    clock := work.clock
    encodePassage := work.encodePassage
    insertFeature := if work.storageFails then .error () else .ok !taken }

/-- The row that is inserted. -/
def Outcome.inserted (outcome : Outcome F) (id : Nat) : Option (ArticleFeatureRecord F) :=
  match outcome.status, outcome.feature with
  | .created, some feature => some (feature.row id)
  | _, _ => none

/-- The row that is inserted into an empty table. -/
def attempt (record : PostRecord) (work : Work F) : Option (ArticleFeatureRecord F) :=
  (process u nfkc validateEmbedding record (replies u [] record work)).toOption.bind
    fun outcome => outcome.inserted work.id

/-- A revision is stored and processed; `ensure_topics` only sets empty topics. -/
def revise (s : State F) (post : Post) (updatedAt : Timestamp) (work : Work F) : State F :=
  let record : PostRecord := ⟨postId, post.content, post.topics, updatedAt⟩
  let versions := s.versions ++
    [⟨post.content, updatedAt, attempt u nfkc validateEmbedding record work⟩]
  match process u nfkc validateEmbedding record (replies u s.rows record work) with
  | .error _ => ⟨post, s.rows, versions⟩
  | .ok outcome =>
    ⟨if post.topics = [] then { post with topics := outcome.topics } else post,
      s.rows ++ (outcome.inserted work.id).toList, versions⟩

/-- An edit; one that is refused changes nothing. -/
def editPost (s : State F) (edit : Edit F) : State F :=
  match updatePost s.post edit.input with
  | .error _ => s
  | .ok post => revise u nfkc validateEmbedding postId s post edit.updatedAt edit.work

/-- A post is created, and edited. -/
def history (body : CreatePostReq) (updatedAt : Timestamp) (work : Work F) (edits : List (Edit F)) :
    Except ValidationError (State F) := do
  let post ← createPost body
  pure (edits.foldl (editPost u nfkc validateEmbedding postId)
    (revise u nfkc validateEmbedding postId ⟨post, [], []⟩ post updatedAt work))

/-- The revision that is live at a time. -/
def liveVersion (versions : List (Version F)) (t : Timestamp) : Option (Version F) :=
  (versions.filter fun v => v.updatedAt ≤ t).getLast?

/-- The lateral query of `candidates_semantic`. -/
def latestFeature (rows : List (ArticleFeatureRecord F)) (observedAt : Timestamp) :
    Option (ArticleFeatureRecord F) :=
  firstLeast compareNewest (rows.filter fun f => f.postId = postId
    ∧ f.encoderVersion = encoderVersion ∧ f.sourceUpdatedAt ≤ observedAt ∧ f.computedAt ≤ observedAt)

/-- A revision brings a hash into the table: no revision before it has stored a feature with it. -/
def Introduces (versions : List (Version F)) (v : Version F) (row : ArticleFeatureRecord F) : Prop :=
  ∃ before after, versions = before ++ v :: after ∧ v.attempt = some row
    ∧ ∀ w ∈ before, ∀ row' ∈ w.attempt, row'.contentHash ≠ row.contentHash

/-- **The condition.**  Every other content that has got its feature by the time was introduced by a
    revision before the one that introduced `content`, which has got its feature by then, too. -/
def Current (versions : List (Version F)) (t : Timestamp) (content : String) : Prop :=
  ∀ v row, Introduces versions v row → v.updatedAt ≤ t → row.computedAt ≤ t →
    digest u content ≠ .ok row.contentHash →
    ∃ v' row', Introduces versions v' row' ∧ v.updatedAt < v'.updatedAt ∧ v'.updatedAt ≤ t
      ∧ row'.computedAt ≤ t ∧ digest u content = .ok row'.contentHash

end History

/-! ### One revision -/

section Revise

variable {u : Unicode} {nfkc : String → String} {F : Type}
  {validateEmbedding : List F → Except ValueError (List F)} {postId : Nat}
  {record : PostRecord} {work : Work F} {row : ArticleFeatureRecord F}

/-- What the table answers, for content with a hash. -/
theorem featureExists_replies {hash : String} (hdigest : digest u record.content = .ok hash)
    (rows : List (ArticleFeatureRecord F)) : (replies u rows record work).featureExists
      = decide (Taken revisionKey rows (record.postId, encoderVersion, hash)) := by
  unfold replies
  rw [hdigest]

/-- The row that `embed` inserts into the empty table. -/
theorem inserted_embed_empty {topics : List String}
    (h : (embed u validateEmbedding record topics (replies u [] record work)).inserted work.id
      = some row) :
    row.postId = record.postId ∧ row.encoderVersion = encoderVersion
      ∧ digest u record.content = .ok row.contentHash ∧ row.sourceUpdatedAt = record.updatedAt := by
  unfold embed at h
  split at h
  · next normalized hash _ hdigest =>
    split at h
    · cases h
    split at h
    · cases h
    split at h
    · cases h
    · cases h
    split at h
    · cases h
    dsimp only at h
    split at h
    · cases h
    · split at h
      · obtain rfl := Option.some.inj h
        exact ⟨rfl, rfl, hdigest, rfl⟩
      · cases h
  · cases h

/-- What `embed` inserts into a table: what it inserts into the empty one, unless that is taken. -/
theorem inserted_embed (topics : List String) (rows : List (ArticleFeatureRecord F)) :
    (embed u validateEmbedding record topics (replies u rows record work)).inserted work.id
      = ((embed u validateEmbedding record topics (replies u [] record work)).inserted work.id).filter
        fun row => ¬ Taken revisionKey rows (revisionKey row) := by
  have hkey : ∀ {row hash}, digest u record.content = .ok hash →
      (embed u validateEmbedding record topics (replies u [] record work)).inserted work.id = some row →
      revisionKey row = (record.postId, encoderVersion, hash) := by
    intro row hash hdigest h
    obtain ⟨hpost, hencoder, hhash, -⟩ := inserted_embed_empty h
    rw [revisionKey, hpost, hencoder, Except.ok.inj (hhash.symm.trans hdigest)]
  cases hdigest : digest u record.content with
  | error e =>
    unfold embed
    rw [hdigest]
    cases normalizeContent u record.content <;> rfl
  | ok hash =>
    have hempty : ¬ Taken revisionKey ([] : List (ArticleFeatureRecord F))
        (record.postId, encoderVersion, hash) := nofun
    by_cases htaken : Taken revisionKey rows (record.postId, encoderVersion, hash)
    · have hnone : (embed u validateEmbedding record topics (replies u rows record work)).inserted work.id
          = none := by
        unfold embed
        rw [featureExists_replies hdigest, decide_eq_true htaken]
        split <;> rfl
      rw [hnone]
      symm
      rw [Option.filter_eq_none_iff]
      intro row hrow
      rw [hkey hdigest hrow]
      simpa using htaken
    · have hreplies : replies u rows record work = replies u [] record work := by
        unfold replies
        rw [hdigest]
        simp only [htaken, hempty]
      rw [hreplies]
      cases hrow : (embed u validateEmbedding record topics (replies u [] record work)).inserted
          work.id with
      | none => rfl
      | some row =>
        rw [Option.filter_some_pos]
        rw [hkey hdigest hrow]
        exact decide_eq_true htaken

/-- What `process` inserts into a table: what it inserts into the empty one, unless that is taken. -/
theorem inserted_process (rows : List (ArticleFeatureRecord F)) :
    ((process u nfkc validateEmbedding record (replies u rows record work)).toOption.bind
        fun outcome => outcome.inserted work.id)
      = (attempt u nfkc validateEmbedding record work).filter
        fun row => ¬ Taken revisionKey rows (revisionKey row) := by
  unfold attempt process
  cases normalizeTopics u (if record.topics ≠ [] then record.topics
    else inferTopics nfkc u.lower record.content) with
  | error e => rfl
  | ok topics => exact inserted_embed topics rows

/-- The row of an attempt. -/
theorem attempt_eq_some (h : attempt u nfkc validateEmbedding record work = some row) :
    row.postId = record.postId ∧ row.encoderVersion = encoderVersion
      ∧ digest u record.content = .ok row.contentHash ∧ row.sourceUpdatedAt = record.updatedAt := by
  unfold attempt process at h
  cases hnormalize : normalizeTopics u (if record.topics ≠ [] then record.topics
      else inferTopics nfkc u.lower record.content) with
  | error e =>
    rw [hnormalize] at h
    cases h
  | ok topics =>
    rw [hnormalize] at h
    exact inserted_embed_empty h

end Revise

/-! ### All revisions -/

section Rows

variable {u : Unicode} {nfkc : String → String} {F : Type}
  {validateEmbedding : List F → Except ValueError (List F)} {postId : Nat}
  {s : State F} {post : Post} {t updatedAt : Timestamp} {work : Work F}

/-- **The invariant.**  The table holds what the attempts give, the first of each hash; an attempt
    is of its revision; and the last revision is the post. -/
structure Coherent (u : Unicode) (postId : Nat) (s : State F) : Prop where
  rows : s.rows = insertAllNew revisionKey [] (s.versions.filterMap Version.attempt)
  attempts : ∀ v ∈ s.versions, ∀ row ∈ v.attempt, row.postId = postId
    ∧ row.encoderVersion = encoderVersion ∧ digest u v.content = .ok row.contentHash
    ∧ row.sourceUpdatedAt = v.updatedAt
  live : ∀ v ∈ s.versions.getLast?, v.content = s.post.content

/-- What `revise` makes of the table and of the revisions. -/
theorem rows_revise : (revise u nfkc validateEmbedding postId s post updatedAt work).rows
    = s.rows ++ ((attempt u nfkc validateEmbedding ⟨postId, post.content, post.topics, updatedAt⟩
        work).filter fun row => ¬ Taken revisionKey s.rows (revisionKey row)).toList := by
  rw [← inserted_process]
  unfold revise
  dsimp only
  cases process u nfkc validateEmbedding ⟨postId, post.content, post.topics, updatedAt⟩
      (replies u s.rows ⟨postId, post.content, post.topics, updatedAt⟩ work) with
  | error e => exact (List.append_nil _).symm
  | ok outcome => rfl

theorem versions_revise : (revise u nfkc validateEmbedding postId s post updatedAt work).versions
    = s.versions ++ [⟨post.content, updatedAt, attempt u nfkc validateEmbedding
        ⟨postId, post.content, post.topics, updatedAt⟩ work⟩] := by
  unfold revise
  dsimp only
  split <;> rfl

/-- A revision preserves the invariant. -/
theorem coherent_revise (h : Coherent u postId s) :
    Coherent u postId (revise u nfkc validateEmbedding postId s post updatedAt work) := by
  constructor
  · rw [rows_revise, versions_revise, List.filterMap_append, insertAllNew, List.foldl_append]
    show _ = insertAllNew revisionKey (insertAllNew revisionKey [] _) _
    rw [← h.rows]
    cases hattempt : attempt u nfkc validateEmbedding
        ⟨postId, post.content, post.topics, updatedAt⟩ work with
    | none => exact List.append_nil _
    | some row =>
      show s.rows ++ _ = insertNew revisionKey s.rows row
      unfold insertNew
      rw [Option.filter_some]
      by_cases htaken : Taken revisionKey s.rows (revisionKey row)
      · rw [if_pos htaken, if_neg (by simpa using htaken)]
        exact List.append_nil _
      · rw [if_neg htaken, if_pos (decide_eq_true htaken)]
        rfl
  · rw [versions_revise]
    intro v hv row hrow
    rcases List.mem_append.mp hv with hv | hv
    · exact h.attempts v hv row hrow
    · rw [List.mem_singleton.mp hv] at hrow ⊢
      exact attempt_eq_some hrow
  · rw [versions_revise, List.getLast?_concat]
    intro v hv
    rw [← Option.some.inj hv]
    unfold revise
    dsimp only
    split
    · rfl
    · split <;> rfl

/-- A history preserves it, and the live post is the last revision. -/
theorem coherent_history {body : CreatePostReq} {edits : List (Edit F)}
    (h : history u nfkc validateEmbedding postId body updatedAt work edits = .ok s) :
    Coherent u postId s := by
  obtain ⟨post, -, h⟩ := Lib.except_bind_eq_ok.mp h
  obtain rfl := Except.ok.inj h
  refine List.foldlRecOn edits _ (coherent_revise ⟨rfl, nofun, nofun⟩) fun s hs edit _ => ?_
  unfold editPost
  split
  · exact hs
  · exact coherent_revise hs

/-- The times of the revisions are among those of the creation and the edits. -/
theorem updatedAt_history {body : CreatePostReq} {edits : List (Edit F)}
    (h : history u nfkc validateEmbedding postId body updatedAt work edits = .ok s) :
    (s.versions.map Version.updatedAt).Sublist (updatedAt :: edits.map Edit.updatedAt) := by
  have hedits : ∀ (edits : List (Edit F)) (s : State F),
      ((edits.foldl (editPost u nfkc validateEmbedding postId) s).versions.map
        Version.updatedAt).Sublist (s.versions.map Version.updatedAt ++ edits.map Edit.updatedAt) := by
    intro edits
    induction edits with
    | nil =>
      intro s
      rw [List.map_nil, List.append_nil]
      exact List.Sublist.refl _
    | cons edit edits ih =>
      intro s
      refine (ih (editPost u nfkc validateEmbedding postId s edit)).trans ?_
      rw [List.map_cons, List.append_cons]
      refine List.Sublist.append_right ?_ _
      unfold editPost
      split
      · exact List.sublist_append_left _ _
      · rw [versions_revise, List.map_append]
        exact List.Sublist.refl _
  obtain ⟨post, -, h⟩ := Lib.except_bind_eq_ok.mp h
  obtain rfl := Except.ok.inj h
  refine (hedits edits _).trans ?_
  rw [versions_revise]
  exact List.Sublist.refl _

/-- **The table** holds a row exactly when a revision introduces it. -/
theorem mem_rows_iff (h : Coherent u postId s) {row : ArticleFeatureRecord F} :
    row ∈ s.rows ↔ ∃ v, Introduces s.versions v row := by
  rw [h.rows, Lib.insertAllNew_eq, List.nil_append, Lib.mem_newRows_filterMap_iff, exists_comm]
  refine exists_congr fun v => exists_congr fun before => exists_congr fun after => ?_
  refine and_congr_right fun hversions => and_congr_right fun hrow => ?_
  obtain ⟨hpost, hencoder, -⟩ := h.attempts v (by simp [hversions]) row hrow
  refine forall₄_congr fun w hw row' hrow' => not_congr ?_
  obtain ⟨hpost', hencoder', -⟩ := h.attempts w (by simp [hversions, hw]) row' hrow'
  unfold revisionKey
  rw [hpost, hencoder, hpost', hencoder']
  simp

/-- What a revision introduces. -/
theorem Introduces.spec (h : Coherent u postId s) {v : Version F} {row : ArticleFeatureRecord F}
    (hintro : Introduces s.versions v row) : row.postId = postId
      ∧ row.encoderVersion = encoderVersion ∧ digest u v.content = .ok row.contentHash
      ∧ row.sourceUpdatedAt = v.updatedAt := by
  obtain ⟨before, after, hversions, hrow, -⟩ := hintro
  exact h.attempts v (by simp [hversions]) row hrow

/-- Rows of different revisions have different times. -/
theorem nodup_sourceUpdatedAt (h : Coherent u postId s)
    (hincreasing : (s.versions.map Version.updatedAt).Pairwise (· < ·)) :
    (s.rows.map fun f => f.sourceUpdatedAt.micros).Nodup := by
  rw [h.rows, Lib.insertAllNew_eq, List.nil_append]
  refine List.Nodup.sublist (Lib.newRows_sublist.map _) ?_
  unfold List.Nodup
  rw [List.pairwise_map, List.pairwise_filterMap]
  rw [List.pairwise_map] at hincreasing
  refine hincreasing.imp_of_mem ?_
  intro v w hv hw hlt row hrow row' hrow'
  rw [(h.attempts v hv row hrow).2.2.2, (h.attempts w hw row' hrow').2.2.2]
  exact ne_of_lt (Timestamp.lt_iff.mp hlt)

/-- The queries are the selection of the dataset. -/
theorem latestFeature_eq (h : Coherent u postId s) :
    latestFeature postId s.rows t = selectHistoryFeature s.rows t := by
  unfold latestFeature selectHistoryFeature
  congr 1
  refine List.filter_congr fun f hf => ?_
  obtain ⟨v, hintro⟩ := (mem_rows_iff h).mp hf
  obtain ⟨hpost, hencoder, -⟩ := hintro.spec h
  rw [hpost, hencoder]
  exact decide_eq_decide.mpr ⟨fun ⟨_, _, h⟩ => h, fun h => ⟨rfl, rfl, h⟩⟩

/-- When all revisions are in the past, the live one is the post. -/
theorem liveVersion_now (h : Coherent u postId s) (hpast : ∀ v ∈ s.versions, v.updatedAt ≤ t) :
    ∀ v ∈ liveVersion s.versions t, v.content = s.post.content := by
  unfold liveVersion
  rw [List.filter_eq_self.mpr fun v hv => decide_eq_true (hpast v hv)]
  exact h.live

/-- **The selection** is of the content exactly under the condition. -/
theorem selected_iff_current (h : Coherent u postId s)
    (hincreasing : (s.versions.map Version.updatedAt).Pairwise (· < ·)) (content : String) :
    (∀ f, selectHistoryFeature s.rows t = some f → digest u content = .ok f.contentHash)
      ↔ Current u s.versions t content := by
  have havailable : ∀ {v row}, Introduces s.versions v row → v.updatedAt ≤ t → row.computedAt ≤ t →
      row ∈ s.rows.filter fun f => AvailableAt t f := by
    intro v row hintro hle hcomputed
    obtain ⟨-, -, -, hupdated⟩ := hintro.spec h
    refine List.mem_filter.mpr ⟨(mem_rows_iff h).mpr ⟨v, hintro⟩, decide_eq_true ⟨?_, hcomputed⟩⟩
    rw [hupdated]
    exact hle
  have hnewest : ∀ {f g}, selectHistoryFeature s.rows t = some f →
      g ∈ s.rows.filter (fun f => AvailableAt t f) → g.sourceUpdatedAt ≤ f.sourceUpdatedAt := by
    intro f g hf hg
    have hle : (compareNewest f g).isLE = true := Lib.firstLeast_le hf hg
    exact Timestamp.le_iff.mpr (Std.isLE_compare.mp (Ordering.isLE_left_of_isLE_then hle))
  constructor
  · intro hselected v row hintro hle hcomputed hother
    have hrow := havailable hintro hle hcomputed
    obtain ⟨f, hf⟩ := Option.isSome_iff_exists.mp (Lib.firstLeast_isSome compareNewest hrow)
    obtain ⟨hmem, hf₁, hf₂⟩ := Dataset.selectHistoryFeature_eq_some hf
    obtain ⟨v', hintro'⟩ := (mem_rows_iff h).mp hmem
    have hdigest := hselected f hf
    have hne : row ≠ f := by
      rintro rfl
      exact hother hdigest
    have hlt : row.sourceUpdatedAt < f.sourceUpdatedAt := by
      have hle := Timestamp.le_iff.mp (hnewest hf hrow)
      have htime : row.sourceUpdatedAt.micros ≠ f.sourceUpdatedAt.micros := fun heq =>
        hne (List.inj_on_of_nodup_map (nodup_sourceUpdatedAt h hincreasing)
          (List.mem_filter.mp hrow).1 hmem heq)
      rw [Timestamp.lt_iff]
      omega
    rw [(hintro.spec h).2.2.2, (hintro'.spec h).2.2.2] at hlt
    rw [(hintro'.spec h).2.2.2] at hf₁
    exact ⟨v', f, hintro', hlt, hf₁, hf₂, hdigest⟩
  · intro hcurrent f hf
    by_contra hother
    obtain ⟨hmem, hf₁, hf₂⟩ := Dataset.selectHistoryFeature_eq_some hf
    obtain ⟨v, hintro⟩ := (mem_rows_iff h).mp hmem
    have hupdated := (hintro.spec h).2.2.2
    rw [hupdated] at hf₁
    obtain ⟨v', row', hintro', hlt, hle', hcomputed', -⟩ := hcurrent v f hintro hf₁ hf₂ hother
    have hnewer := hnewest hf (havailable hintro' hle' hcomputed')
    rw [(hintro'.spec h).2.2.2, hupdated, Timestamp.le_iff] at hnewer
    rw [Timestamp.lt_iff] at hlt
    omega

end Rows

/-- **The feature of the live content.**  At every time of every history the selected feature, of the
    dataset and of the query, is that of the live content exactly under the condition. -/
theorem selected_iff {u : Unicode} {nfkc : String → String} {F : Type}
    {validateEmbedding : List F → Except ValueError (List F)} {postId : Nat} {body : CreatePostReq}
    {updatedAt : Timestamp} {work : Work F} {edits : List (Edit F)} {s : State F}
    (hhistory : history u nfkc validateEmbedding postId body updatedAt work edits = .ok s)
    (hincreasing : (updatedAt :: edits.map Edit.updatedAt).Pairwise (· < ·)) :
    (∀ t, ∀ v ∈ liveVersion s.versions t,
        (∀ f, selectHistoryFeature s.rows t = some f → digest u v.content = .ok f.contentHash)
          ↔ Current u s.versions t v.content)
      ∧ (∀ t, latestFeature postId s.rows t = selectHistoryFeature s.rows t)
      ∧ ∀ t, (∀ v ∈ s.versions, v.updatedAt ≤ t) →
          ∀ v ∈ liveVersion s.versions t, v.content = s.post.content := by
  have hcoherent := coherent_history hhistory
  have htimes := hincreasing.sublist (updatedAt_history hhistory)
  exact ⟨fun t v _ => selected_iff_current hcoherent htimes v.content,
    fun t => latestFeature_eq hcoherent, fun t hpast => liveVersion_now hcoherent hpast⟩

/-! ### A restored content -/

/-- `hashlib.sha256` on the normalized contents `A` and `B`. -/
def twoHashes : Unicode where
  nfc s := s
  lower s := s
  sha256 s := if s = "post-content-normalization-v1\nA"
    then "1cecdf72863a7fdc5babf36e94fa9d5d732b04fe9e2169994e602437f9219bc9"
    else "ed277113c247823a0bbb7e30323e89a908a499575010f021e5a0f829ece4a688"

/-- Noon of a day of May 2026. -/
def noon (day second : Nat) : Timestamp := ⟨⟨2026, 5, day, 12, 0, second, 0, some 0⟩, rfl⟩

/-- The worker, a second after the noon of the day. -/
def prompt (day : Nat) : Work Int :=
  ⟨noon day 1, fun _ => .ok (1 :: List.replicate 383 0), false, day⟩

/-- The content is replaced. -/
def replaceContent (day : Nat) (content : String) : Edit Int :=
  ⟨⟨some content, none, none, none⟩, noon day 0, prompt day⟩

/-- A post with the content `A`, and its edits. -/
def editedPost (edits : List (Edit Int)) : Except ValidationError (State Int) :=
  history twoHashes id (fun values => .ok values) 1 ⟨"A", [], [], ["news"]⟩ (noon 1 0) (prompt 1) edits

/-- A post whose live version and selected feature at a time meet a condition. -/
private theorem exists_selected {edits : List (Edit Int)} {t : Timestamp}
    {p : Version Int → ArticleFeatureRecord Int → Bool}
    (h : ((editedPost edits).toOption.any fun s => (liveVersion s.versions t).any fun v =>
      (selectHistoryFeature s.rows t).any fun f => p v f) = true) :
    ∃ s v f, editedPost edits = .ok s ∧ liveVersion s.versions t = some v
      ∧ selectHistoryFeature s.rows t = some f ∧ p v f = true := by
  cases hedited : editedPost edits with
  | error e => simp [hedited, Except.toOption] at h
  | ok s =>
    rw [hedited] at h
    obtain ⟨s', hs, h⟩ := (Option.any_eq_true _ _).mp h
    obtain rfl : s = s' := Option.some.inj hs
    obtain ⟨v, hv, h⟩ := (Option.any_eq_true _ _).mp h
    obtain ⟨f, hf, hp⟩ := (Option.any_eq_true _ _).mp h
    exact ⟨s, v, f, rfl, hv, hf, hp⟩

/-- The content `A` is replaced by `B`, and the condition is met. -/
theorem selected_iff_replaced : ∃ s, editedPost [replaceContent 2 "B"] = .ok s
    ∧ ∀ v ∈ liveVersion s.versions (noon 4 0), Current twoHashes s.versions (noon 4 0) v.content := by
  obtain ⟨s, v, f, hhistory, hlive, hselected, hdigest⟩ := @exists_selected [replaceContent 2 "B"] (noon 4 0)
    (fun v f => decide (digest twoHashes v.content = .ok f.contentHash)) (by decide +kernel)
  refine ⟨s, hhistory, fun v' hv' => ((selected_iff hhistory (by decide)).1 _ v' hv').mp fun f' hf' => ?_⟩
  rw [← Option.some.inj (hlive.symm.trans hv'), ← Option.some.inj (hselected.symm.trans hf')]
  exact of_decide_eq_true hdigest

/-- `A` is replaced by `B`, and restored: the feature of `B` is selected. -/
theorem stale_after_restore :
    ∃ s v f, editedPost [replaceContent 2 "B", replaceContent 3 "A"] = .ok s
      ∧ v ∈ liveVersion s.versions (noon 4 0) ∧ selectHistoryFeature s.rows (noon 4 0) = some f
      ∧ digest twoHashes v.content ≠ .ok f.contentHash := by
  obtain ⟨s, v, f, hhistory, hlive, hselected, hdigest⟩ :=
    @exists_selected [replaceContent 2 "B", replaceContent 3 "A"] (noon 4 0)
      (fun v f => decide (digest twoHashes v.content ≠ .ok f.contentHash)) (by decide +kernel)
  exact ⟨s, v, f, hhistory, hlive, hselected, of_decide_eq_true hdigest⟩

end Oecophylla.Content
