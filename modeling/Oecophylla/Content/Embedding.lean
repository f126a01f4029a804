import Mathlib.Analysis.Real.Sqrt
import Oecophylla.Dataset.Validate

namespace Oecophylla.Content

open Dataset (ArticleRepresentation Runtime raiseIf IsPrivateHash Falsy
  validateArticleRepresentation validateEmbeddedArticle)
open Oecophylla.Python (Timestamp)

/-!
# Who accepts an embedding

The same vector is checked by the worker that writes it (`validate_embedding`), by the table, by the
serving context (`_embedding`) and by the dataset (`_validate_article_representation`).  A finite
double is a real number here, and sums and roots are exact.

* `validateEmbedding`, `postContentEmbeddingIsValid`, `servingEmbedding`, `exactRuntime` — the four;
* `validateEmbeddedArticle_eq_ok` — what the dataset looks at in an embedding;
* `isClose_iff` — the norms that it accepts;
* `accepted_iff` — a vector of the worker is accepted by the dataset exactly when its norm is that
  close to one; the table and the serving context accept all of them.
-/

/-- A double: the finite ones are real numbers. -/
inductive Number where
  | real (x : ℝ)
  | infinite (negative : Bool)
  | nan

/-- `math.isfinite(x)`. -/
def Number.isfinite : Number → Bool
  | .real _ => true
  | .infinite _ => false
  | .nan => false

/-- The value of a finite double.  Others are rejected before they are computed with. -/
def Number.value : Number → ℝ
  | .real x => x
  | .infinite _ => 0
  | .nan => 0

/-- `math.sqrt(sum(value * value for value in values))`. -/
noncomputable def norm (values : List Number) : ℝ :=
  √((values.map fun v => v.value * v.value).sum)

/-- `EMBEDDING_DIMENSION`. -/
def embeddingDimension : Nat := 384

section Validators

open Classical

/-- `validate_embedding(values)`. -/
noncomputable def validateEmbedding (values : List Number) : Except String (List Number) :=
  if values.length ≠ embeddingDimension then .error "embedding must contain exactly 384 values"
  else if ¬ ∀ v ∈ values, v.isfinite = true then .error "embedding values must be finite"
  else if 1 / 1000 < |norm values - 1| then .error "embedding must be L2-normalized"
  else .ok values

/-- `post_content_embedding_is_valid(vector_values, expected_dimension)`, of a one-dimensional array
    without nulls. -/
def postContentEmbeddingIsValid (values : List Number) (expectedDimension : Nat) : Prop :=
  values.length = expectedDimension ∧ (∀ v ∈ values, v.isfinite = true)
    ∧ |norm values - 1| ≤ 1 / 1000

/-- `_embedding(value, dimension)` of the serving context. -/
noncomputable def servingEmbedding (values : List Number) (dimension : Nat) :
    Except String (List Number) :=
  if values.length ≠ dimension ∨ ¬ ∀ v ∈ values, v.isfinite = true then
    .error "invalid feature embedding"
  else if 1 / 1000 < |norm values - 1| then .error "unnormalized feature embedding"
  else .ok values

/-- `math.isclose(norm, 1.0, rel_tol=1e-5, abs_tol=1e-5)`. -/
def IsClose (norm : ℝ) : Prop :=
  |norm - 1| ≤ max (1 / 100000 * max |norm| |1|) (1 / 100000)

/-- The runtime of the dataset builder, with exact arithmetic. -/
noncomputable def exactRuntime (rt : Runtime Number) : Runtime Number :=
  { rt with
    isfinite := Number.isfinite
    unitNorm := fun values => decide (IsClose (norm values)) }

/-- The norms that the dataset accepts. -/
theorem exactRuntime_unitNorm {rt : Runtime Number} {values : List Number} :
    (exactRuntime rt).unitNorm values = true ↔ IsClose (norm values) :=
  decide_eq_true_iff

end Validators

/-! ### The worker, the table and the serving context -/

theorem norm_nonneg (values : List Number) : 0 ≤ norm values := Real.sqrt_nonneg _

/-- What the worker accepts. -/
theorem validateEmbedding_eq_ok {values embedding : List Number} :
    validateEmbedding values = .ok embedding
      ↔ embedding = values ∧ postContentEmbeddingIsValid values embeddingDimension := by
  unfold validateEmbedding postContentEmbeddingIsValid
  split
  · next hlength => simp [hlength]
  next hlength =>
  split
  · next hfinite => simp [hfinite]
  next hfinite =>
  split
  · next hnorm =>
    constructor
    · intro h
      cases h
    · rintro ⟨-, -, -, h⟩
      exact absurd hnorm (not_lt.mpr h)
  · next hnorm =>
    have hlen : values.length = embeddingDimension := not_not.mp hlength
    have hall : ∀ v ∈ values, v.isfinite = true := not_not.mp hfinite
    rw [Except.ok.injEq]
    exact ⟨fun h => ⟨h.symm, hlen, hall, not_lt.mp hnorm⟩, fun h => h.1.symm⟩

/-- The serving context accepts what the table accepts. -/
theorem servingEmbedding_of_valid {values : List Number} {dimension : Nat}
    (h : postContentEmbeddingIsValid values dimension) :
    servingEmbedding values dimension = .ok values := by
  obtain ⟨hlength, hfinite, hnorm⟩ := h
  unfold servingEmbedding
  rw [if_neg (not_or.mpr ⟨not_not.mpr hlength, not_not.mpr hfinite⟩), if_neg (not_lt.mpr hnorm)]

/-! ### The dataset -/

section Dataset

variable {F : Type} {rt : Runtime F} {article : ArticleRepresentation F}
  {encoderVersion : Option String} {dimension : Option Nat} {availableAt : Option Timestamp}

/-- The checks of an embedded article that do not look at its embedding. -/
structure OtherChecks (rt : Runtime F) (article : ArticleRepresentation F)
    (encoderVersion : Option String) (availableAt : Option Timestamp) : Prop where
  provenance : ¬ (Falsy article.encoderVersion ∨ Falsy article.contentHash)
  revision : ∃ source computed, article.featureSourceUpdatedAt = some source
    ∧ article.featureComputedAt = some computed ∧ ¬ computed < source
    ∧ ¬ ∃ available ∈ availableAt, available < source ∨ available < computed
  hash : IsPrivateHash rt (article.contentHash.getD "")
  encoder : ¬ (encoderVersion ≠ none ∧ article.encoderVersion ≠ encoderVersion)

private theorem raiseIf_eq_ok {bad : Prop} [Decidable bad] {text : String} {u : Unit} :
    raiseIf bad text = .ok u ↔ ¬ bad := by
  unfold raiseIf
  split
  · next h => simp [h]
  · next h => simp [h]

/-- **What the dataset looks at in an embedding**: its values, its dimension and its norm. -/
theorem validateEmbeddedArticle_eq_ok :
    validateEmbeddedArticle rt article encoderVersion dimension availableAt = .ok ()
      ↔ OtherChecks rt article encoderVersion availableAt
        ∧ ∃ embedding, article.embedding = some embedding ∧ embedding ≠ []
          ∧ (∀ v ∈ embedding, rt.isfinite v = true) ∧ (∀ d ∈ dimension, embedding.length = d)
          ∧ rt.unitNorm embedding = true := by
  unfold validateEmbeddedArticle
  cases hembedding : article.embedding with
  | none => simp
  | some embedding =>
    cases hsource : article.featureSourceUpdatedAt with
    | none =>
      simp only [Lib.except_bind_eq_ok, raiseIf_eq_ok]
      constructor
      · rintro ⟨-, -, -, -, _, h, -⟩
        cases h
      · rintro ⟨hother, -⟩
        obtain ⟨_, _, hsome, -⟩ := hother.revision
        rw [hsource] at hsome
        cases hsome
    | some source =>
      cases hcomputed : article.featureComputedAt with
      | none =>
        simp only [Lib.except_bind_eq_ok, raiseIf_eq_ok]
        constructor
        · rintro ⟨-, -, -, -, _, h, -⟩
          cases h
        · rintro ⟨hother, -⟩
          obtain ⟨_, _, -, hsome, -⟩ := hother.revision
          rw [hcomputed] at hsome
          cases hsome
      | some computed =>
        simp only [Lib.except_bind_eq_ok, raiseIf_eq_ok]
        constructor
        · rintro ⟨-, hvalues, -, hprovenance, -, horder, -, hpast, -, hhash, -, hencoder, -,
            hdimension, hnorm⟩
          obtain ⟨hne, hfinite⟩ := not_or.mp hvalues
          refine ⟨⟨hprovenance, ⟨source, computed, hsource, hcomputed, horder, hpast⟩,
            not_not.mp hhash, hencoder⟩, embedding, rfl, hne, ?_, ?_, ?_⟩
          · intro v hv
            exact Bool.eq_true_of_not_eq_false fun h => hfinite ⟨v, hv, h⟩
          · intro d hd
            exact not_not.mp fun h => hdimension ⟨d, hd, h⟩
          · exact Bool.eq_true_of_not_eq_false hnorm
        · rintro ⟨⟨hprovenance, hrevision, hhash, hencoder⟩, e, he, hne, hfinite, hdimension, hnorm⟩
          cases he
          obtain ⟨_, _, hs, hc, horder, hpast⟩ := hrevision
          rw [hsource] at hs
          rw [hcomputed] at hc
          cases hs
          cases hc
          refine ⟨(), not_or.mpr ⟨hne, ?_⟩, (), hprovenance, (), horder, (), hpast, (),
            not_not.mpr hhash, (), hencoder, (), ?_, ?_⟩
          · rintro ⟨v, hv, h⟩
            rw [hfinite v hv] at h
            cases h
          · rintro ⟨d, hd, h⟩
            exact h (hdimension d hd)
          · rw [hnorm]
            exact Bool.noConfusion

/-- The checks that come before those of the representation. -/
def HeadChecks (rt : Runtime F) (article : ArticleRepresentation F)
    (availableAt : Option Timestamp) : Prop :=
  (¬ ∃ published ∈ article.publishedAt, ∃ available ∈ availableAt, available < published)
    ∧ match article.language with
      | none => ¬ article.languageDetectorVersion.isSome = true
      | some language =>
          ¬ (rt.islower language = false ∨ ¬ (2 ≤ language.length ∧ language.length ≤ 16))
            ∧ ¬ Falsy article.languageDetectorVersion

/-- An article with an embedding passes the two parts of its checks. -/
theorem validateArticleRepresentation_eq_ok
    (htype : article.representationType = "post-content-embedding-v1") :
    validateArticleRepresentation rt article encoderVersion dimension availableAt = .ok ()
      ↔ HeadChecks rt article availableAt
        ∧ validateEmbeddedArticle rt article encoderVersion dimension availableAt = .ok () := by
  unfold validateArticleRepresentation HeadChecks
  cases article.language with
  | none =>
    simp only [htype, if_true, Lib.except_bind_eq_ok, raiseIf_eq_ok]
    constructor
    · rintro ⟨-, h, -, hnone, rest⟩
      exact ⟨⟨h, hnone⟩, rest⟩
    · rintro ⟨⟨h, hnone⟩, rest⟩
      exact ⟨(), h, (), hnone, rest⟩
  | some language =>
    simp only [htype, if_true, Lib.except_bind_eq_ok, raiseIf_eq_ok]
    constructor
    · rintro ⟨-, h, -, hcode, -, hdetector, rest⟩
      exact ⟨⟨h, hcode, hdetector⟩, rest⟩
    · rintro ⟨⟨h, hcode, hdetector⟩, rest⟩
      exact ⟨(), h, (), hcode, (), hdetector, rest⟩

/-- Where one embedding is accepted, another is when it passes the checks of embeddings. -/
theorem validateArticleRepresentation_replace {other embedding : List F}
    (htype : article.representationType = "post-content-embedding-v1")
    (hother : validateArticleRepresentation rt { article with embedding := some other }
      encoderVersion dimension availableAt = .ok ()) :
    validateArticleRepresentation rt { article with embedding := some embedding }
        encoderVersion dimension availableAt = .ok ()
      ↔ embedding ≠ [] ∧ (∀ v ∈ embedding, rt.isfinite v = true)
        ∧ (∀ d ∈ dimension, embedding.length = d) ∧ rt.unitNorm embedding = true := by
  -- the type of the article is not the embedding's
  have htypes (e : Option (List F)) :
      { article with embedding := e }.representationType = "post-content-embedding-v1" := htype
  obtain ⟨hhead, hbody⟩ := (validateArticleRepresentation_eq_ok (htypes (some other))).mp hother
  obtain ⟨hchecks, -⟩ := validateEmbeddedArticle_eq_ok.mp hbody
  rw [validateArticleRepresentation_eq_ok (htypes (some embedding)), validateEmbeddedArticle_eq_ok]
  constructor
  · rintro ⟨-, -, e, he, h⟩
    cases he
    exact h
  · intro h
    exact ⟨hhead, ⟨hchecks.1, hchecks.2, hchecks.3, hchecks.4⟩, embedding, rfl, h⟩

end Dataset

/-! ### The norms that the dataset accepts -/

/-- `math.isclose` accepts the norms from `1 - 1e-5` to `1 / (1 - 1e-5)`. -/
theorem isClose_iff {n : ℝ} (h0 : 0 ≤ n) :
    IsClose n ↔ 99999 / 100000 ≤ n ∧ n ≤ 100000 / 99999 := by
  unfold IsClose
  rw [abs_of_nonneg h0, abs_one]
  rcases le_total n 1 with h | h
  · have hmax : max (1 / 100000 * max n 1) (1 / 100000) = (1 / 100000 : ℝ) := by
      rw [max_eq_right h, mul_one, max_self]
    rw [hmax, abs_of_nonpos (by linarith)]
    constructor
    · intro hclose
      exact ⟨by linarith, by linarith⟩
    · intro hclose
      linarith [hclose.1]
  · have hmax : max (1 / 100000 * max n 1) (1 / 100000) = 1 / 100000 * n := by
      rw [max_eq_left h, max_eq_left (by linarith)]
    rw [hmax, abs_of_nonneg (by linarith)]
    constructor
    · intro hclose
      exact ⟨by linarith, by linarith⟩
    · intro hclose
      linarith [hclose.2]

/-- **Who accepts an embedding of the worker**: the table and the serving context always do, the
    dataset does exactly when the norm is within its own, narrower tolerance. -/
theorem accepted_iff (rt : Runtime Number) (article : ArticleRepresentation Number)
    (encoderVersion : Option String) (dimension : Option Nat) (availableAt : Option Timestamp)
    (values embedding other : List Number) (hworker : validateEmbedding values = .ok embedding)
    (htype : article.representationType = "post-content-embedding-v1")
    (hlength : other.length = embeddingDimension)
    (hother : validateArticleRepresentation (exactRuntime rt) { article with embedding := some other }
      encoderVersion dimension availableAt = .ok ()) :
    (postContentEmbeddingIsValid embedding embeddingDimension
        ∧ servingEmbedding embedding embeddingDimension = .ok embedding
        ∧ validateArticleRepresentation (exactRuntime rt)
            { article with embedding := some embedding } encoderVersion dimension availableAt = .ok ())
      ↔ 99999 / 100000 ≤ norm values ∧ norm values ≤ 100000 / 99999 := by
  obtain ⟨rfl, hvalid⟩ := validateEmbedding_eq_ok.mp hworker
  have hdimension : ∀ d ∈ dimension, embedding.length = d := by
    intro d hd
    rw [hvalid.1, ← hlength]
    exact ((validateArticleRepresentation_replace htype hother).mp hother).2.2.1 d hd
  have hne : embedding ≠ [] := by
    intro h
    have hlen := hvalid.1
    rw [h] at hlen
    exact absurd hlen (by decide)
  rw [validateArticleRepresentation_replace htype hother, ← isClose_iff (norm_nonneg embedding)]
  constructor
  · rintro ⟨-, -, -, -, -, hnorm⟩
    exact exactRuntime_unitNorm.mp hnorm
  · intro hclose
    exact ⟨hvalid, servingEmbedding_of_valid hvalid, hne, hvalid.2.1, hdimension,
      exactRuntime_unitNorm.mpr hclose⟩

/-! ### One long vector -/

/-- The vector of the given length in the first direction. -/
def axis (x : ℝ) : List Number := .real x :: List.replicate 383 (.real 0)

theorem norm_axis {x : ℝ} (h0 : 0 ≤ x) : norm (axis x) = x := by
  unfold norm axis
  rw [List.map_cons, List.map_replicate, List.sum_cons, List.sum_replicate]
  show √(x * x + 383 • (0 * 0)) = x
  rw [mul_zero, smul_zero, add_zero, Real.sqrt_mul_self h0]

theorem isfinite_axis {x : ℝ} : ∀ v ∈ axis x, v.isfinite = true := by
  intro v hv
  rcases List.mem_cons.mp hv with rfl | hv
  · rfl
  · rw [List.eq_of_mem_replicate hv]
    rfl

theorem length_axis {x : ℝ} : (axis x).length = embeddingDimension := by
  rw [axis, List.length_cons, List.length_replicate]
  rfl

/-- The worker accepts a first component near one. -/
theorem validateEmbedding_axis {x : ℝ} (h0 : 0 ≤ x) (hx : |x - 1| ≤ 1 / 1000) :
    validateEmbedding (axis x) = .ok (axis x) :=
  validateEmbedding_eq_ok.mpr ⟨rfl, length_axis, isfinite_axis, by rwa [norm_axis h0]⟩

private def newYear : Timestamp := ⟨⟨2026, 1, 1, 0, 0, 0, 0, some 0⟩, rfl⟩

private def plain : Runtime Number where
  sha256 text := text
  hmacSha256 _ text := text
  lower text := text
  islower _ := true
  isfinite := Number.isfinite
  unitNorm _ := true

private def pinned : ArticleRepresentation Number where
  articleGroup := String.ofList (List.replicate 64 'a')
  representationType := "post-content-embedding-v1"
  encoderVersion := some "intfloat/multilingual-e5-small@614241f622f53c4eeff9890bdc4f31cfecc418b3"
  contentHash := some "0123456789abcdef0123456789abcdef0123456789abcdef0123456789abcdef"
  featureSourceUpdatedAt := some newYear
  featureComputedAt := some newYear

private theorem pinned_accepted {x : ℝ} (h0 : 0 ≤ x) (hx : IsClose x) :
    validateArticleRepresentation (exactRuntime plain) { pinned with embedding := some (axis x) }
      pinned.encoderVersion (some 384) (some newYear) = .ok () := by
  refine (validateArticleRepresentation_eq_ok rfl).mpr ⟨⟨?_, ?_⟩,
    validateEmbeddedArticle_eq_ok.mpr ⟨⟨?_, ⟨newYear, newYear, rfl, rfl, ?_⟩, ?_, ?_⟩, axis x, rfl,
      List.cons_ne_nil _ _, isfinite_axis, ?_, exactRuntime_unitNorm.mpr (by rwa [norm_axis h0])⟩⟩
  · rintro ⟨_, h, -⟩
    cases h
  · exact Bool.noConfusion
  · show ¬ (Falsy pinned.encoderVersion ∨ Falsy pinned.contentHash)
    decide
  · decide
  · show IsPrivateHash plain (pinned.contentHash.getD "")
    decide
  · rintro ⟨-, h⟩
    exact h rfl
  · intro d hd
    cases hd
    exact length_axis

theorem accepted_iff_unit :
    postContentEmbeddingIsValid (axis 1) embeddingDimension
      ∧ servingEmbedding (axis 1) embeddingDimension = .ok (axis 1)
      ∧ validateArticleRepresentation (exactRuntime plain)
          { pinned with embedding := some (axis 1) } pinned.encoderVersion (some 384)
          (some newYear) = .ok () := by
  have hclose : IsClose 1 := (isClose_iff zero_le_one).mpr (by norm_num)
  refine (accepted_iff plain pinned pinned.encoderVersion (some 384) (some newYear) (axis 1)
    (axis 1) (axis 1) (validateEmbedding_axis zero_le_one (by norm_num)) rfl length_axis
    (pinned_accepted zero_le_one hclose)).mpr ?_
  rw [norm_axis zero_le_one]
  norm_num

/-- A norm of 1.0005 is written and served, and fails the dataset. -/
theorem long_vector_refused :
    validateEmbedding (axis (10005 / 10000)) = .ok (axis (10005 / 10000))
      ∧ postContentEmbeddingIsValid (axis (10005 / 10000)) embeddingDimension
      ∧ servingEmbedding (axis (10005 / 10000)) embeddingDimension = .ok (axis (10005 / 10000))
      ∧ validateArticleRepresentation (exactRuntime plain) { pinned with embedding := some (axis 1) }
          pinned.encoderVersion (some 384) (some newYear) = .ok ()
      ∧ validateArticleRepresentation (exactRuntime plain)
          { pinned with embedding := some (axis (10005 / 10000)) } pinned.encoderVersion (some 384)
          (some newYear) ≠ .ok () := by
  have h0 : (0 : ℝ) ≤ 10005 / 10000 := by norm_num
  have hworker := validateEmbedding_axis h0 (by norm_num [abs_of_nonneg])
  have hvalid := (validateEmbedding_eq_ok.mp hworker).2
  have hunit := pinned_accepted zero_le_one ((isClose_iff zero_le_one).mpr (by norm_num))
  refine ⟨hworker, hvalid, servingEmbedding_of_valid hvalid, hunit, ?_⟩
  rw [Ne, validateArticleRepresentation_replace rfl hunit, exactRuntime_unitNorm, norm_axis h0,
    isClose_iff h0]
  norm_num

end Oecophylla.Content
