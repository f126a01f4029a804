import Mathlib.Data.Finset.Card
import Oecophylla.Lib.Batch
import Oecophylla.Lib.Run
import Oecophylla.Mind.Large

namespace Oecophylla.Mind

open Lib (OrderedDict except_bind_eq_ok fill)

/-!
# The vectors of the articles — `ai_pipeline/mind_large.py`, `ai_pipeline/benchmark_data.py`

* `cachedEmbeddings` — the vectors in a file, or those of the encoder when there is no file;
* `mergeEmbeddings` — the vectors of a reference dataset, and encoded ones for the other articles;
* `encodeStage` — the stage `encode` of a benchmark;
* `mergeEmbeddings_eq` — merging raises on a revised or repeated article, and else is as good as
  encoding everything;
* `encodeStages_plain` — in every run of stages.

A row of an array is a function of its columns, so that arrays are rectangular.
-/

/-- A two-dimensional array. -/
structure Vectors (F : Type) where
  width : Nat
  rows : List (Fin width → F)

/-- What the functions take from NumPy and the hash. -/
structure Numpy (F : Type) where
  /-- `np.isfinite(row).all()` and `np.allclose(np.linalg.norm(row), 1, atol=0.001)`. -/
  unit : {width : Nat} → (Fin width → F) → Bool
  /-- The hash of the JSON text of the texts, the encoder and the dimension. -/
  fingerprint : (texts : List String) → (encoder : String) → (dimension : Nat) → String

section Model

variable {F : Type} (np : Numpy F)

/-- The shape is `(count, dimension)`, and the rows are finite unit vectors. -/
def Vectors.valid (v : Vectors F) (count dimension : Nat) : Bool :=
  v.rows.length == count && v.width == dimension && v.rows.all np.unit

/-- The file `embeddings.npz`. -/
structure EmbeddingCache (F : Type) where
  fingerprint : String
  vectors : Vectors F

/-- `cached_embeddings(articles, target, …)`, with the file that it leaves. -/
def cachedEmbeddings (articles : List Article) (target : Option (EmbeddingCache F))
    (encode : List String → Except Raised (Vectors F)) (encoderVersion : String)
    (dimension : Nat) : Except Raised (Vectors F × EmbeddingCache F) := do
  let texts := articles.map Article.text
  let fingerprint := np.fingerprint texts encoderVersion dimension
  let vectors ← match target with
    | some cache =>
      if cache.fingerprint ≠ fingerprint then
        .error (.valueError "embedding cache does not match text and encoder")
      else .ok cache.vectors
    | none => encode texts
  if vectors.valid np texts.length dimension then .ok (vectors, target.getD ⟨fingerprint, vectors⟩)
  else .error (.valueError "invalid embedding vectors")

/-- What `merge_embeddings` reports. -/
structure EmbeddingAudit where
  reusedArticles : Nat
  encodedArticles : Nat
  deriving DecidableEq, Repr

/-- `{article["article_group"]: index for index, article in enumerate(reference)}`. -/
def byId (reference : List Article) : OrderedDict String Nat :=
  OrderedDict.update [] (reference.zipIdx.map fun (article, index) => (article.articleGroup, index))

/-- The row that one article gets from the reference. -/
def reuse (reference : List Article) (vectors : Vectors F) (article : Article) :
    Except Raised (Option (Fin vectors.width → F)) :=
  match (byId reference).get article.articleGroup with
  | none => .ok none
  | some old =>
    if reference[old]?.map Article.text ≠ some article.text then
      .error (.valueError "cached article text revision mismatch")
    else .ok vectors.rows[old]?

/-- The rows of the articles, with the encoded ones where there is none. -/
def fillRows (missing : List Article) {width : Nat} (rows : List (Option (Fin width → F)))
    (encode : List String → Except Raised (Vectors F)) : Except Raised (List (Fin width → F)) := do
  if missing = [] then .ok (fill rows [])
  else
    let encoded ← encode (missing.map Article.text)
    if h : encoded.width = width ∧ encoded.rows.length = missing.length
        ∧ encoded.rows.all np.unit = true then
      .ok (fill rows (h.1 ▸ encoded.rows))
    else .error (.valueError "encoder returned invalid embeddings")

/-- `merge_embeddings(articles, reference, reference_vectors, encode=encode)`. -/
def mergeEmbeddings (articles reference : List Article) (referenceVectors : Vectors F)
    (encode : List String → Except Raised (Vectors F)) :
    Except Raised (Vectors F × EmbeddingAudit) := do
  if referenceVectors.valid np reference.length referenceVectors.width = false then
    .error (.valueError "invalid reference embeddings")
  else if (byId reference).length ≠ reference.length then
    .error (.valueError "duplicate reference article identity")
  else
    let rows ← articles.mapM (reuse reference referenceVectors)
    let missing := articles.filter fun a => ((byId reference).get a.articleGroup).isNone
    let rows ← fillRows np missing rows encode
    pure (⟨referenceVectors.width, rows⟩, ⟨articles.length - missing.length, missing.length⟩)

/-- The encoder of a call that only reads: `lambda _: None`, an array without dimensions. -/
def encodeNothing (_ : List String) : Except Raised (Vectors F) :=
  .error (.valueError "invalid embedding vectors")

/-- The stage `encode`: the reference is read, the rest encoded, and the file written. -/
def encodeStage (articles reference : List Article) (referenceCache target : Option (EmbeddingCache F))
    (encode : List String → Except Raised (Vectors F)) (encoderVersion : String) (dimension : Nat) :
    Except Raised (Vectors F × EmbeddingAudit × EmbeddingCache F) := do
  let (oldVectors, _) ←
    cachedEmbeddings np reference referenceCache encodeNothing encoderVersion dimension
  let (vectors, audit) ← mergeEmbeddings np articles reference oldVectors encode
  let (vectors, cache) ←
    cachedEmbeddings np articles target (fun _ => .ok vectors) encoderVersion dimension
  pure (vectors, audit, cache)

/-- The files `embeddings.npz` of the directories, and what the stages returned: the version of the
    encoder, the articles and their vectors. -/
structure EmbeddingFiles (F : Type) where
  caches : String → Option (EmbeddingCache F)
  returned : List (String × List Article × Vectors F)

/-- What is done with the files; every process has its version of the encoder. -/
inductive EmbeddingStage where
  /-- The stage `encode` of `mind_large.py`. -/
  | encode (directory version : String) (articles : List Article)
  /-- A later stage, which only reads. -/
  | read (directory version : String) (articles : List Article)
  /-- The stage `encode` of `benchmark_data.py`, with its reference. -/
  | merge (directory version : String) (articles : List Article)
      (reference : String) (referenceArticles : List Article)
  /-- Somebody deletes a file. -/
  | remove (directory : String)

/-- The texts of a stage, with the version under which they are encoded. -/
def EmbeddingStage.inputs : EmbeddingStage → List (List String × String)
  | .encode _ version articles => [(articles.map Article.text, version)]
  | .read _ version articles => [(articles.map Article.text, version)]
  | .merge _ version articles _ referenceArticles =>
    [(articles.map Article.text, version), (referenceArticles.map Article.text, version)]
  | .remove _ => []

namespace EmbeddingFiles

/-- No files, and no stages so far. -/
def new : EmbeddingFiles F := ⟨fun _ => none, []⟩

/-- What a stage that returned leaves. -/
def store (s : EmbeddingFiles F) (directory version : String) (articles : List Article)
    (vectors : Vectors F) (cache : EmbeddingCache F) : EmbeddingFiles F where
  caches := Function.update s.caches directory (some cache)
  returned := (version, articles, vectors) :: s.returned

/-- One stage; one that raises leaves the files as they are. -/
def step (encode : (version : String) → List String → Except Raised (Vectors F)) (dimension : Nat)
    (s : EmbeddingFiles F) : EmbeddingStage → EmbeddingFiles F
  | .encode directory version articles =>
    match cachedEmbeddings np articles (s.caches directory) (encode version) version dimension with
    | .ok (vectors, cache) => s.store directory version articles vectors cache
    | .error _ => s
  | .read directory version articles =>
    match cachedEmbeddings np articles (s.caches directory) encodeNothing version dimension with
    | .ok (vectors, cache) => s.store directory version articles vectors cache
    | .error _ => s
  | .merge directory version articles reference referenceArticles =>
    match encodeStage np articles referenceArticles (s.caches reference) (s.caches directory)
        (encode version) version dimension with
    | .ok (vectors, _, cache) => s.store directory version articles vectors cache
    | .error _ => s
  | .remove directory => { s with caches := Function.update s.caches directory none }

end EmbeddingFiles

end Model

section Plain

variable {F : Type} {np : Numpy F} {width : Nat} {f : String → Fin width → F}
  {articles reference : List Article}

/-- What encoding every article gives. -/
abbrev plainVectors (f : String → Fin width → F) (articles : List Article) : Vectors F :=
  ⟨width, articles.map fun article => f article.text⟩

/-- An encoder that treats every text by itself. -/
def encodeWith (f : String → Fin width → F) (texts : List String) : Except Raised (Vectors F) :=
  .ok ⟨width, texts.map f⟩

theorem valid_plainVectors (hunit : ∀ text, np.unit (f text) = true) (articles : List Article) :
    (plainVectors f articles).valid np articles.length width = true := by
  unfold Vectors.valid plainVectors
  simp only [List.length_map, beq_self_eq_true, Bool.and_self, Bool.true_and, List.all_map,
    List.all_eq_true]
  exact fun article _ => hunit article.text

/-! ### The index of the reference -/

theorem map_fst_indexed (reference : List Article) :
    (reference.zipIdx.map fun (article, index) => (article.articleGroup, index)).map Prod.fst
      = reference.map Article.articleGroup := by
  rw [List.map_map]
  show reference.zipIdx.map (Article.articleGroup ∘ Prod.fst) = _
  rw [← List.map_map, List.zipIdx_map_fst]

theorem isSome_get_byId (group : String) :
    ((byId reference).get group).isSome = decide (group ∈ reference.map Article.articleGroup) := by
  unfold byId
  rw [OrderedDict.isSome_get_update, map_fst_indexed]
  simp

theorem nodup_byId (reference : List Article) : ((byId reference).map Prod.fst).Nodup := by
  unfold byId OrderedDict.update
  generalize reference.zipIdx.map _ = entries
  induction entries using List.reverseRecOn with
  | nil => exact List.nodup_nil
  | append_singleton entries e ih =>
    rw [List.foldl_append]
    exact OrderedDict.nodup_set ih e.1 e.2

/-- No identity is repeated exactly when the index has all of them. -/
theorem length_byId_iff :
    (byId reference).length = reference.length ↔ (reference.map Article.articleGroup).Nodup := by
  have hkeys : ((byId reference).map Prod.fst).toFinset
      = (reference.map Article.articleGroup).toFinset := by
    ext group
    rw [List.mem_toFinset, List.mem_toFinset]
    have hsome := @isSome_get_byId reference group
    rw [← decide_eq_true_iff (p := group ∈ reference.map _), ← hsome]
    constructor
    · intro hmem
      obtain ⟨⟨k, v⟩, hkv, rfl⟩ := List.mem_map.mp hmem
      rw [OrderedDict.get_of_mem (nodup_byId reference) hkv]
      rfl
    · intro hget
      obtain ⟨v, hv⟩ := Option.isSome_iff_exists.mp hget
      exact List.mem_map.mpr ⟨_, OrderedDict.mem_of_get hv, rfl⟩
  have hcard := congrArg Finset.card hkeys
  rw [List.toFinset_card_of_nodup (nodup_byId reference), List.length_map, List.card_toFinset]
    at hcard
  rw [hcard]
  constructor
  · intro hlength
    rw [← List.dedup_eq_self]
    refine (List.dedup_sublist _).eq_of_length ?_
    rw [hlength, List.length_map]
  · intro hnodup
    rw [hnodup.dedup, List.length_map]

theorem get_byId (hnodup : (reference.map Article.articleGroup).Nodup) {i : Nat} {article : Article}
    (hi : reference[i]? = some article) : (byId reference).get article.articleGroup = some i := by
  unfold byId
  refine OrderedDict.get_update_of_mem (by rwa [map_fst_indexed]) [] ?_
  exact List.mem_map.mpr ⟨(article, i), List.mem_zipIdx_iff_getElem?.mpr hi, rfl⟩

/-! ### Merging -/

/-- An article of the reference has another text. -/
def Revised (articles reference : List Article) : Prop :=
  ∃ a ∈ articles, ∃ b ∈ reference, b.articleGroup = a.articleGroup ∧ b.text ≠ a.text

/-- Where the identities are known, the reuse of a row either is right or finds a revision. -/
theorem reuse_cases (hnodup : (reference.map Article.articleGroup).Nodup) (article : Article) :
    reuse reference (plainVectors f reference) article
        = .ok (if article.articleGroup ∈ reference.map Article.articleGroup then some (f article.text)
            else none)
      ∧ (∀ b ∈ reference, b.articleGroup = article.articleGroup → b.text = article.text)
    ∨ reuse reference (plainVectors f reference) article
        = .error (.valueError "cached article text revision mismatch")
      ∧ ∃ b ∈ reference, b.articleGroup = article.articleGroup ∧ b.text ≠ article.text := by
  unfold reuse
  by_cases hmem : article.articleGroup ∈ reference.map Article.articleGroup
  · obtain ⟨b, hb, hgroup⟩ := List.mem_map.mp hmem
    obtain ⟨i, hi⟩ := List.mem_iff_getElem?.mp hb
    have hget : (byId reference).get article.articleGroup = some i := hgroup ▸ get_byId hnodup hi
    rw [hget]
    dsimp only
    by_cases htext : b.text = article.text
    · left
      refine ⟨?_, fun c hc hcgroup => ?_⟩
      · have hrow : (plainVectors f reference).rows[i]? = some (f article.text) := by
          show (reference.map fun a => f a.text)[i]? = _
          rw [List.getElem?_map, hi, Option.map_some, htext]
        rw [if_neg (by simp [hi, htext]), if_pos hmem, hrow]
      · -- the identity is that of `b` only
        rw [List.inj_on_of_nodup_map hnodup hc hb (hcgroup.trans hgroup.symm)]
        exact htext
    · right
      rw [if_pos (by simp [hi, htext])]
      exact ⟨rfl, b, hb, hgroup, htext⟩
  · left
    have hget : (byId reference).get article.articleGroup = none := by
      rw [← Option.not_isSome_iff_eq_none, isSome_get_byId]
      simpa using hmem
    rw [hget, if_neg hmem]
    exact ⟨rfl, fun b hb hgroup => absurd (hgroup ▸ List.mem_map_of_mem hb) hmem⟩

/-- **Merging.**  It raises on a repeated identity and on a revised article; else what comes out is
    as good as encoding everything. -/
theorem mergeEmbeddings_eq (hunit : ∀ text, np.unit (f text) = true) :
    (¬ (reference.map Article.articleGroup).Nodup →
      mergeEmbeddings np articles reference (plainVectors f reference) (encodeWith f)
        = .error (.valueError "duplicate reference article identity"))
    ∧ ((reference.map Article.articleGroup).Nodup → Revised articles reference →
      mergeEmbeddings np articles reference (plainVectors f reference) (encodeWith f)
        = .error (.valueError "cached article text revision mismatch"))
    ∧ ((reference.map Article.articleGroup).Nodup → ¬ Revised articles reference →
      ∃ audit, mergeEmbeddings np articles reference (plainVectors f reference) (encodeWith f)
          = .ok (plainVectors f articles, audit)
        ∧ audit.encodedArticles = articles.countP fun a =>
            decide (a.articleGroup ∉ reference.map Article.articleGroup)) := by
  have hvalid : (plainVectors f reference).valid np reference.length
      (plainVectors f reference).width = true := valid_plainVectors hunit reference
  unfold mergeEmbeddings
  rw [if_neg (by rw [hvalid]; exact Bool.noConfusion)]
  refine ⟨fun hdup => ?_, fun hnodup hrevised => ?_, fun hnodup hfine => ?_⟩
  · rw [if_pos (length_byId_iff.not.mpr hdup)]
  · rw [if_neg (not_not_intro (length_byId_iff.mpr hnodup))]
    have hrows : articles.mapM (reuse reference (plainVectors f reference))
        = .error (.valueError "cached article text revision mismatch") := by
      refine Lib.mapM_eq_error (fun a _ => ?_) ?_
      · rcases reuse_cases hnodup a with ⟨hok, -⟩ | ⟨herror, -⟩
        · exact Or.inl ⟨_, hok⟩
        · exact Or.inr herror
      · obtain ⟨a, ha, b, hb, hgroup, htext⟩ := hrevised
        refine ⟨a, ha, ?_⟩
        rcases reuse_cases hnodup a with ⟨-, hsame⟩ | ⟨herror, -⟩
        · exact absurd (hsame b hb hgroup) htext
        · exact herror
    rw [hrows]
    rfl
  · rw [if_neg (not_not_intro (length_byId_iff.mpr hnodup))]
    set known : Article → Option (Fin width → F) := fun a =>
      if a.articleGroup ∈ reference.map Article.articleGroup then some (f a.text) else none
      with hknown
    have hrows : articles.mapM (reuse reference (plainVectors f reference))
        = .ok (articles.map known) := by
      refine Lib.mapM_eq_ok_iff.mpr ?_
      rw [List.map_map]
      refine List.map_congr_left fun a ha => ?_
      rcases reuse_cases hnodup a with ⟨hok, -⟩ | ⟨-, b, hb, hgroup, htext⟩
      · exact hok
      · exact absurd ⟨a, ha, b, hb, hgroup, htext⟩ hfine
    have hmissing : (fun a : Article => ((byId reference).get a.articleGroup).isNone)
        = fun a => (known a).isNone := by
      funext a
      rw [← Option.not_isSome, isSome_get_byId, hknown]
      by_cases hmem : a.articleGroup ∈ reference.map Article.articleGroup <;> simp [hmem]
    rw [hrows, hmissing]
    have hfill : fill (articles.map known) ((articles.filter fun a => (known a).isNone).map
        fun a => f a.text) = articles.map fun a => f a.text := by
      refine Lib.fill_map fun a _ row hrow => ?_
      rw [hknown] at hrow
      simp only [Option.mem_def, Option.ite_none_right_eq_some, Option.some.injEq] at hrow
      exact hrow.2.symm
    have hfilled : fillRows np (articles.filter fun a => (known a).isNone) (articles.map known)
        (encodeWith f) = .ok (articles.map fun a => f a.text) := by
      unfold fillRows
      split
      · next hnone =>
        rw [hnone] at hfill
        rw [← hfill]
        rfl
      · show (if h : _ then _ else _) = _
        rw [dif_pos]
        · show Except.ok (fill (articles.map known) (List.map f (List.map Article.text _))) = _
          rw [List.map_map]
          exact congrArg Except.ok hfill
        · refine ⟨rfl, by simp, ?_⟩
          rw [List.all_eq_true]
          intro row hrow
          obtain ⟨text, -, rfl⟩ := List.mem_map.mp hrow
          exact hunit text
    set missing := articles.filter fun a => (known a).isNone with hmissingList
    refine ⟨⟨articles.length - missing.length, missing.length⟩, ?_, ?_⟩
    · show (fillRows np missing (articles.map known) (encodeWith f) >>= _) = _
      rw [hfilled]
      rfl
    · show (articles.filter fun a => (known a).isNone).length = _
      rw [List.countP_eq_length_filter]
      congr 1
      refine List.filter_congr fun a _ => ?_
      rw [hknown]
      by_cases hmem : a.articleGroup ∈ reference.map Article.articleGroup <;> simp [hmem]

/-! ### The files -/

variable {g : (version : String) → String → Fin width → F} {version : String}
  {inputs : Set (List String × String)}

/-- The file that encoding the articles leaves. -/
def cacheOf (np : Numpy F) (g : (version : String) → String → Fin width → F) (version : String)
    (articles : List Article) : EmbeddingCache F :=
  ⟨np.fingerprint (articles.map Article.text) version width, plainVectors (g version) articles⟩

/-- The file is that of some of the texts. -/
def EmbeddingCache.Sound (np : Numpy F) (g : (version : String) → String → Fin width → F)
    (inputs : Set (List String × String)) (cache : EmbeddingCache F) : Prop :=
  ∃ version articles, (articles.map Article.text, version) ∈ inputs
    ∧ cache = cacheOf np g version articles

theorem plainVectors_congr {articles' : List Article}
    (h : articles.map Article.text = articles'.map Article.text) :
    plainVectors f articles = plainVectors f articles' := by
  have hrows (l : List Article) : (l.map fun a => f a.text) = (l.map Article.text).map f := by
    rw [List.map_map]
    rfl
  rw [plainVectors, plainVectors, hrows, hrows, h]

/-- A file that is read is the one of the texts, or it is refused. -/
theorem cachedEmbeddings_some (hunit : ∀ version text, np.unit (g version text) = true)
    (hfingerprint : inputs.InjOn fun t => np.fingerprint t.1 t.2 width)
    {cache : EmbeddingCache F} (hsound : cache.Sound np g inputs)
    (hin : (articles.map Article.text, version) ∈ inputs)
    (encode : List String → Except Raised (Vectors F)) :
    cachedEmbeddings np articles (some cache) encode version width
      = if cache.fingerprint = np.fingerprint (articles.map Article.text) version width then
          .ok (plainVectors (g version) articles, cacheOf np g version articles)
        else .error (.valueError "embedding cache does not match text and encoder") := by
  obtain ⟨version', articles', hin', rfl⟩ := hsound
  unfold cachedEmbeddings cacheOf
  by_cases hsame : np.fingerprint (articles'.map Article.text) version' width
      = np.fingerprint (articles.map Article.text) version width
  · obtain ⟨htexts, hversion⟩ := Prod.mk.inj (hfingerprint hin' hin hsame)
    subst hversion
    have hplain : plainVectors (g version') articles' = plainVectors (g version') articles :=
      plainVectors_congr htexts
    have hvalid := valid_plainVectors (hunit version') articles
    rw [if_pos hsame]
    simp only [hsame, ne_eq, not_true_eq_false, if_false, hplain]
    show (if (plainVectors (g version') articles).valid np (articles.map Article.text).length width
      = true then _ else _) = _
    rw [List.length_map, if_pos hvalid]
    rfl
  · rw [if_neg hsame]
    simp only [hsame, ne_eq, not_false_eq_true, if_true]
    rfl

/-- Without a file the encoder is called, and what it gives is kept. -/
theorem cachedEmbeddings_none (hunit : ∀ text, np.unit (f text) = true)
    {encode : List String → Except Raised (Vectors F)}
    (hencode : encode (articles.map Article.text) = .ok (plainVectors f articles)) :
    cachedEmbeddings np articles none encode version width
      = .ok (plainVectors f articles,
        ⟨np.fingerprint (articles.map Article.text) version width, plainVectors f articles⟩) := by
  unfold cachedEmbeddings
  dsimp only
  rw [hencode]
  show (if (plainVectors f articles).valid np (articles.map Article.text).length width = true then _
    else _) = _
  rw [List.length_map, if_pos (valid_plainVectors hunit articles)]
  rfl

/-- What is returned has the right shape, and it is in the file afterwards. -/
theorem cachedEmbeddings_spec {target : Option (EmbeddingCache F)}
    {encode : List String → Except Raised (Vectors F)} {dimension : Nat}
    {stored : Vectors F × EmbeddingCache F}
    (h : cachedEmbeddings np articles target encode version dimension = .ok stored) :
    stored.1.valid np articles.length dimension = true
      ∧ stored.2 = ⟨np.fingerprint (articles.map Article.text) version dimension, stored.1⟩ := by
  unfold cachedEmbeddings at h
  dsimp only at h
  rw [List.length_map] at h
  split at h
  · next cache =>
    split at h
    · cases h
    next hfingerprint =>
    obtain ⟨vectors, hvectors, h⟩ := except_bind_eq_ok.mp h
    cases hvectors
    split at h
    · next hvalid =>
      cases h
      refine ⟨hvalid, ?_⟩
      show cache = _
      rw [← not_not.mp hfingerprint]
    · cases h
  · obtain ⟨vectors, -, h⟩ := except_bind_eq_ok.mp h
    split at h
    · next hvalid =>
      cases h
      exact ⟨hvalid, rfl⟩
    · cases h

/-- The file that a call leaves is read again, without the encoder. -/
theorem cachedEmbeddings_again {target : Option (EmbeddingCache F)}
    {encode : List String → Except Raised (Vectors F)} {dimension : Nat}
    {stored : Vectors F × EmbeddingCache F}
    (h : cachedEmbeddings np articles target encode version dimension = .ok stored)
    (encode' : List String → Except Raised (Vectors F)) :
    cachedEmbeddings np articles (some stored.2) encode' version dimension = .ok stored := by
  obtain ⟨hvalid, hfile⟩ := cachedEmbeddings_spec h
  obtain ⟨vectors, cache⟩ := stored
  dsimp only at hvalid hfile
  subst hfile
  unfold cachedEmbeddings
  dsimp only [Option.getD]
  rw [if_neg (not_not_intro rfl), List.length_map]
  show (if vectors.valid np articles.length dimension = true then _ else _) = _
  rw [if_pos hvalid]

/-! ### Runs of stages -/

namespace EmbeddingFiles

/-- Every file and every result is what encoding the texts gives. -/
structure Sound (np : Numpy F) (g : (version : String) → String → Fin width → F)
    (inputs : Set (List String × String)) (s : EmbeddingFiles F) : Prop where
  caches : ∀ directory, ∀ cache ∈ s.caches directory, cache.Sound np g inputs
  returned : ∀ entry ∈ s.returned, entry.2.2 = plainVectors (g entry.1) entry.2.1

variable {s : EmbeddingFiles F} {directory reference : String} {referenceArticles : List Article}
  (hunit : ∀ version text, np.unit (g version text) = true)
  (hfingerprint : inputs.InjOn fun t => np.fingerprint t.1 t.2 width)

theorem Sound.store (hs : s.Sound np g inputs) {cache : EmbeddingCache F}
    (hcache : cache.Sound np g inputs) :
    (s.store directory version articles (plainVectors (g version) articles) cache).Sound np g
      inputs where
  caches := by
    intro other cache' hcache'
    by_cases hother : other = directory
    · have hself : cache = cache' := by simpa [EmbeddingFiles.store, hother] using hcache'
      exact hself ▸ hcache
    · exact hs.caches other cache' (by simpa [EmbeddingFiles.store, hother] using hcache')
  returned := by
    intro entry hentry
    rcases List.mem_cons.mp hentry with rfl | hentry
    · rfl
    · exact hs.returned entry hentry

include hunit hfingerprint

/-- Whatever a call of `cachedEmbeddings` returns is right, when its encoder is. -/
theorem sound_cached (hs : s.Sound np g inputs) (hin : (articles.map Article.text, version) ∈ inputs)
    {encode : List String → Except Raised (Vectors F)}
    (hencode : ∀ vectors, encode (articles.map Article.text) = .ok vectors →
      vectors = plainVectors (g version) articles) {vectors : Vectors F} {cache : EmbeddingCache F}
    (h : cachedEmbeddings np articles (s.caches directory) encode version width
      = .ok (vectors, cache)) :
    vectors = plainVectors (g version) articles ∧ cache.Sound np g inputs := by
  cases hfile : s.caches directory with
  | some old =>
    have hold := hs.caches directory old hfile
    rw [hfile, cachedEmbeddings_some hunit hfingerprint hold hin] at h
    split at h
    · cases h
      exact ⟨rfl, version, articles, hin, rfl⟩
    · cases h
  | none =>
    rw [hfile] at h
    cases hcall : encode (articles.map Article.text) with
    | error e =>
      unfold cachedEmbeddings at h
      dsimp only at h
      rw [hcall] at h
      cases h
    | ok computed =>
      obtain rfl := hencode computed hcall
      rw [cachedEmbeddings_none (hunit version) hcall] at h
      cases h
      exact ⟨rfl, version, articles, hin, rfl⟩

/-- **One stage** keeps the files sound. -/
theorem sound_step (hs : s.Sound np g inputs) {stage : EmbeddingStage}
    (hstage : ∀ t ∈ stage.inputs, t ∈ inputs) :
    (step np (fun version => encodeWith (g version)) width s stage).Sound np g inputs := by
  cases stage with
  | encode directory version articles =>
    unfold step
    dsimp only
    split
    · next vectors cache h =>
      obtain ⟨rfl, hcache⟩ := sound_cached hunit hfingerprint hs
          (hstage _ List.mem_cons_self) (fun vectors hcall => by
        rw [encodeWith, Except.ok.injEq] at hcall
        rw [← hcall, plainVectors, List.map_map]
        rfl) h
      exact hs.store hcache
    · exact hs
  | read directory version articles =>
    unfold step
    dsimp only
    split
    · next vectors cache h =>
      obtain ⟨rfl, hcache⟩ := sound_cached hunit hfingerprint hs (hstage _ List.mem_cons_self)
        (fun _ hcall => by cases hcall) h
      exact hs.store hcache
    · exact hs
  | merge directory version articles reference referenceArticles =>
    unfold step
    dsimp only
    split
    · next vectors audit cache h =>
      unfold encodeStage at h
      rw [except_bind_eq_ok] at h
      obtain ⟨⟨old, oldCache⟩, hold, h⟩ := h
      rw [except_bind_eq_ok] at h
      obtain ⟨⟨merged, audit'⟩, hmerge, h⟩ := h
      rw [except_bind_eq_ok] at h
      obtain ⟨⟨final, cache'⟩, hfinal, h⟩ := h
      cases h
      -- the reference is sound, so the merged vectors are the plain ones
      obtain ⟨rfl, -⟩ := sound_cached hunit hfingerprint hs
        (hstage _ (List.mem_cons_of_mem _ List.mem_cons_self)) (fun _ hcall => by cases hcall) hold
      obtain ⟨hdup, hrevised, hfine⟩ :=
        @mergeEmbeddings_eq F np width (g version) articles referenceArticles (hunit version)
      have hmerged : merged = plainVectors (g version) articles := by
        by_cases hnodup : (referenceArticles.map Article.articleGroup).Nodup
        · by_cases hrev : Revised articles referenceArticles
          · rw [hrevised hnodup hrev] at hmerge
            cases hmerge
          · obtain ⟨audit, hok, -⟩ := hfine hnodup hrev
            rw [hok] at hmerge
            cases hmerge
            rfl
        · rw [hdup hnodup] at hmerge
          cases hmerge
      obtain ⟨rfl, hcache⟩ := sound_cached hunit hfingerprint hs (hstage _ List.mem_cons_self)
          (fun vectors hcall => by
        rw [Except.ok.injEq] at hcall
        rw [← hcall, hmerged]) hfinal
      exact hs.store hcache
    · exact hs
  | remove directory =>
    refine ⟨fun other cache hcache => hs.caches other cache ?_, hs.returned⟩
    by_cases hother : other = directory
    · simp [step, hother] at hcache
    · simpa [step, hother] using hcache

theorem sound_run (hs : s.Sound np g inputs) {stages : List EmbeddingStage}
    (hstages : ∀ stage ∈ stages, ∀ t ∈ stage.inputs, t ∈ inputs) :
    (stages.foldl (step np (fun version => encodeWith (g version)) width) s).Sound np g inputs := by
  induction stages generalizing s with
  | nil => exact hs
  | cons stage stages ih =>
    exact ih (sound_step hunit hfingerprint hs (hstages stage List.mem_cons_self))
      fun later hlater => hstages later (List.mem_cons_of_mem stage hlater)

/-- Reading returns exactly with a file of the same texts under the same version. -/
theorem returned_read_iff (hs : s.Sound np g inputs)
    (hin : (articles.map Article.text, version) ∈ inputs) :
    (step np (fun version => encodeWith (g version)) width s (.read directory version articles)).returned
        = (version, articles, plainVectors (g version) articles) :: s.returned
      ↔ s.caches directory = some (cacheOf np g version articles) := by
  unfold step
  dsimp only
  have hkeep : s.returned ≠ (version, articles, plainVectors (g version) articles) :: s.returned :=
    (List.cons_ne_self _ _).symm
  cases hfile : s.caches directory with
  | none => exact iff_of_false hkeep fun h => nomatch h
  | some cache =>
    have hsound := hs.caches directory cache hfile
    rw [cachedEmbeddings_some hunit hfingerprint hsound hin, Option.some.injEq]
    obtain ⟨version', articles', hin', rfl⟩ := hsound
    split
    · next hok =>
      split at hok
      · next hsame =>
        cases hok
        refine iff_of_true rfl ?_
        obtain ⟨htexts, rfl⟩ := Prod.mk.inj (hfingerprint hin' hin hsame)
        unfold cacheOf
        rw [htexts, plainVectors_congr htexts]
      · cases hok
    · next herror =>
      split at herror
      · cases herror
      · next hother =>
        exact iff_of_false hkeep fun heq => hother (congrArg EmbeddingCache.fingerprint heq)

/-- Merging into a new file returns exactly when no article is repeated or revised. -/
theorem returned_merge_iff (hs : s.Sound np g inputs) (hnew : s.caches directory = none)
    (hreference : s.caches reference = some (cacheOf np g version referenceArticles))
    (hin : (referenceArticles.map Article.text, version) ∈ inputs) :
    (step np (fun version => encodeWith (g version)) width s
        (.merge directory version articles reference referenceArticles)).returned
        = (version, articles, plainVectors (g version) articles) :: s.returned
      ↔ (referenceArticles.map Article.articleGroup).Nodup ∧ ¬ Revised articles referenceArticles := by
  have hkeep : s.returned ≠ (version, articles, plainVectors (g version) articles) :: s.returned :=
    (List.cons_ne_self _ _).symm
  have hread : cachedEmbeddings np referenceArticles (s.caches reference) encodeNothing version width
      = .ok (plainVectors (g version) referenceArticles, cacheOf np g version referenceArticles) := by
    rw [hreference, cachedEmbeddings_some hunit hfingerprint (hs.caches _ _ hreference) hin]
    exact if_pos rfl
  obtain ⟨hdup, hrevised, hfine⟩ :=
    @mergeEmbeddings_eq F np width (g version) articles referenceArticles (hunit version)
  have hstage : encodeStage np articles referenceArticles (s.caches reference) (s.caches directory)
      (encodeWith (g version)) version width
      = (mergeEmbeddings np articles referenceArticles (plainVectors (g version) referenceArticles)
          (encodeWith (g version)) >>= fun r =>
        cachedEmbeddings np articles none (fun _ => .ok r.1) version width >>= fun c =>
          .ok (c.1, r.2, c.2)) := by
    unfold encodeStage
    rw [hread, hnew]
    rfl
  unfold step
  dsimp only
  rw [hstage]
  by_cases hnodup : (referenceArticles.map Article.articleGroup).Nodup
  · by_cases hrev : Revised articles referenceArticles
    · rw [hrevised hnodup hrev]
      exact iff_of_false hkeep fun h => h.2 hrev
    · obtain ⟨audit, hok, -⟩ := hfine hnodup hrev
      have hstore : cachedEmbeddings np articles none
          (fun _ => .ok (plainVectors (g version) articles)) version width
          = .ok (plainVectors (g version) articles, cacheOf np g version articles) :=
        cachedEmbeddings_none (hunit version) rfl
      rw [hok]
      show (match (cachedEmbeddings np articles none
        (fun _ => .ok (plainVectors (g version) articles)) version width >>= fun c =>
          .ok (c.1, audit, c.2)) with
        | .ok (vectors, _, cache) => _
        | .error _ => _ : EmbeddingFiles F).returned = _ ↔ _
      rw [hstore]
      exact iff_of_true rfl ⟨hnodup, hrev⟩
  · rw [hdup hnodup]
    exact iff_of_false hkeep fun h => hnodup h.1

/-- **The vectors in use.**  Whatever stages were run before, in whatever directories and under
    whatever versions of the encoder, and whatever files were lost: every result is what encoding all
    its texts with its version gives.  A later stage returns exactly with the file of its texts and
    its version, and a merge into a new directory exactly when no article of the reference is repeated
    and none is revised. -/
theorem encodeStages_plain {stages : List EmbeddingStage}
    (hstages : ∀ stage ∈ stages, ∀ t ∈ stage.inputs, t ∈ inputs) :
    let after := step np (fun version => encodeWith (g version)) width
    let s := stages.foldl after new
    (∀ entry ∈ s.returned, entry.2.2 = plainVectors (g entry.1) entry.2.1)
      ∧ (∀ directory version articles, (articles.map Article.text, version) ∈ inputs →
        ((after s (.read directory version articles)).returned
            = (version, articles, plainVectors (g version) articles) :: s.returned
          ↔ s.caches directory = some (cacheOf np g version articles)))
      ∧ ∀ directory version articles reference referenceArticles,
        s.caches directory = none →
        s.caches reference = some (cacheOf np g version referenceArticles) →
        (referenceArticles.map Article.text, version) ∈ inputs →
        ((after s (.merge directory version articles reference referenceArticles)).returned
            = (version, articles, plainVectors (g version) articles) :: s.returned
          ↔ (referenceArticles.map Article.articleGroup).Nodup
            ∧ ¬ Revised articles referenceArticles) := by
  have hnew : (new : EmbeddingFiles F).Sound np g inputs :=
    ⟨fun _ _ hcache => (nomatch hcache), fun _ hentry => (nomatch hentry)⟩
  have hs := sound_run hunit hfingerprint hnew hstages
  exact ⟨hs.returned, fun _ _ _ hin => returned_read_iff hunit hfingerprint hs hin,
    fun _ _ _ _ _ hdirectory hreference hin =>
      returned_merge_iff hunit hfingerprint hs hdirectory hreference hin⟩

end EmbeddingFiles

end Plain

/-- Vectors of one column, which are unit vectors when they hold 1 or -1. -/
def oneColumn : Numpy ℤ where
  unit v := (List.ofFn v).map (fun x => x * x) == [1]
  fingerprint texts encoder _ := String.join texts ++ "|" ++ encoder

/-- The stage `encode` of a dataset of one article, and of a benchmark that has another one too. -/
def twoDirectories : List EmbeddingStage :=
  [.encode "train" "e5" [⟨"g1", "ants", "news", "nature"⟩],
    .merge "benchmark" "e5" [⟨"g2", "bees", "news", "nature"⟩, ⟨"g1", "ants", "news", "nature"⟩]
      "train" [⟨"g1", "ants", "news", "nature"⟩]]

/-- An encoder that tells ants from everything else. -/
def tellsAnts (text : String) (_ : Fin 1) : ℤ := if text = "ants" then 1 else -1

theorem unit_tellsAnts (text : String) : oneColumn.unit (tellsAnts text) = true := by
  by_cases h : text = "ants"
  · subst h
    rfl
  · have hvector : tellsAnts text = fun _ => -1 := funext fun _ => if_neg h
    rw [hvector]
    rfl

/-- Both stages return what encoding everything gives: one vector is read from the file of the dataset,
    and the other one is new. -/
theorem encodeStages_plain_twoDirectories :
    let s := twoDirectories.foldl (EmbeddingFiles.step oneColumn
      (fun _ => encodeWith tellsAnts) 1) EmbeddingFiles.new
    s.returned.map (fun entry => entry.2.2.rows.map fun row => List.ofFn row)
        = [[[-1], [1]], [[1]]]
      ∧ ∀ entry ∈ s.returned, entry.2.2 = plainVectors tellsAnts entry.2.1 := by
  refine ⟨by decide +kernel, ?_⟩
  have h := @EmbeddingFiles.encodeStages_plain ℤ oneColumn 1 (fun _ => tellsAnts)
    {(["ants"], "e5"), (["bees", "ants"], "e5")} (fun _ => unit_tellsAnts) (by
      rintro _ (rfl | rfl) _ (rfl | rfl) heq
      · rfl
      · exact absurd heq (by decide)
      · exact absurd heq (by decide)
      · rfl) twoDirectories (by
      intro stage hstage t ht
      simp only [twoDirectories, List.mem_cons, List.not_mem_nil, or_false] at hstage
      rcases hstage with rfl | rfl
      · simp only [EmbeddingStage.inputs, List.map_cons, List.map_nil, List.mem_singleton] at ht
        exact Or.inl ht
      · simp only [EmbeddingStage.inputs, List.map_cons, List.map_nil, List.mem_cons,
          List.not_mem_nil, or_false] at ht
        exact ht.symm)
  exact h.1

end Oecophylla.Mind
