import Oecophylla.Content.Process
import Oecophylla.Lib.Normalization
import Oecophylla.Lib.OrderedDict

namespace Oecophylla.Content

open Lib (OrderedDict Tables words unwords squeeze words_unwords isWord_of_mem_words
  except_bind_eq_ok)
open Oecophylla.Python (Timestamp)

/-!
# One hash for the worker and for serving — `content_features.py`, `serving_context.py`

The worker hashes the normalized content, serving the content of the post.

* `Unicode.Normalizes` — NFC is computed from tables in which blanks compose with nothing;
* `normalizeContent_eq` — normalized content is the words of the normal form, with single spaces;
* `normalizeContent_normalized` — normalizing twice is normalizing once;
* `candidateFeature` — the feature that `load_nrms_records` finds for a candidate;
* `normalizeContent_laws` — idempotence, and that serving finds what the worker stored.
-/

/-! ### Serving -/

section Serving

variable {F : Type} (u : Unicode)

/-- One row of the loop; the first row of a post and a hash counts. -/
def addFeature (version : String) (observedAt : Timestamp)
    (features : OrderedDict (Nat × String) (PostFeature F)) (row : PostFeature F) :
    OrderedDict (Nat × String) (PostFeature F) :=
  if row.encoderVersion = version
      ∧ row.sourceUpdatedAt ≤ row.computedAt ∧ row.computedAt ≤ observedAt then
    match features.get (row.postId, row.contentHash) with
    | some _ => features
    | none => features.set (row.postId, row.contentHash) row
  else features

/-- The features by post and hash. -/
def currentFeatures (version : String) (observedAt : Timestamp) (rows : List (PostFeature F)) :
    OrderedDict (Nat × String) (PostFeature F) := rows.foldl (addFeature version observedAt) []

/-- `features.get((candidate.id, content_hash(candidate.content)))`. -/
def candidateFeature (features : OrderedDict (Nat × String) (PostFeature F)) (postId : Nat)
    (content : String) : Except ValueError (PostFeature F) := do
  let hash ← contentHash u content
  match features.get (postId, hash) with
  | none => .error ⟨"missing current candidate feature"⟩
  | some feature => .ok feature

end Serving

/-! ### Normalized content -/

/-- NFC is computed from tables; it is idempotent, and blanks are inert. -/
structure Unicode.Normalizes (u : Unicode) (t : Tables Char) : Prop where
  nfc_eq : ∀ s, u.nfc s = String.ofList (t.nfc s.toList)
  nfc_nfc : ∀ s, u.nfc (u.nfc s) = u.nfc s
  inert : t.Inert isSpace

theorem isSpace_blank : isSpace ' ' = true := by decide

theorem collapse_eq_squeeze (inside : Bool) (cs : List Char) :
    collapse inside cs = squeeze isSpace ' ' inside cs := by
  induction cs generalizing inside with
  | nil => cases inside <;> rfl
  | cons c cs ih => rw [collapse, squeeze, ih, ih]

/-- Line ends are blanks, and a line end of two characters is one run of them. -/
theorem collapse_unixLines (inside : Bool) (cs : List Char) :
    collapse inside (unixLines cs) = collapse inside cs := by
  have hcr : isSpace '\r' = true := by decide
  have hlf : isSpace '\n' = true := by decide
  induction cs using unixLines.induct generalizing inside with
  | case1 => rfl
  | case2 cs ih =>
    rw [unixLines, collapse, collapse, collapse, ih true, if_pos hlf, if_pos hcr, if_pos hlf,
      if_pos rfl]
  | case3 cs hcs ih =>
    rw [unixLines, collapse, collapse, ih true, if_pos hlf, if_pos hcr]
    exact hcs
  | case4 c cs hc hcr' ih =>
    rw [unixLines, collapse, collapse, ih true, ih false]
    · exact hc
    · exact hcr'

/-- The words of a text, with single spaces. -/
theorem strip_collapse (cs : List Char) :
    Oecophylla.Python.strip (collapse false cs) = unwords ' ' (words isSpace cs) := by
  rw [collapse_eq_squeeze]
  exact Lib.trim_squeeze isSpace_blank cs

theorem normalizeContent_eq (u : Unicode) (value : String) :
    normalizeContent u value
      = if unwords ' ' (words isSpace (u.nfc value).toList) = [] then
          .error ⟨"normalized content is empty"⟩
        else .ok (String.ofList (unwords ' ' (words isSpace (u.nfc value).toList))) := by
  rw [normalizeContent, collapse_unixLines, strip_collapse]

section Normalized

variable {u : Unicode} {t : Tables Char} (hnfc : u.Normalizes t)
include hnfc

/-- The words of a normal form are in normal form. -/
theorem words_nfc_unwords (value : String) :
    words isSpace
        (u.nfc (String.ofList (unwords ' ' (words isSpace (u.nfc value).toList)))).toList
      = words isSpace (u.nfc value).toList := by
  have hwords : ∀ s, words isSpace (u.nfc s).toList = (words isSpace s.toList).map t.nfc := by
    intro s
    rw [hnfc.nfc_eq, String.toList_ofList, Tables.words_nfc hnfc.inert]
  calc words isSpace
        (u.nfc (String.ofList (unwords ' ' (words isSpace (u.nfc value).toList)))).toList
      = (words isSpace (unwords ' ' (words isSpace (u.nfc value).toList))).map t.nfc := by
        rw [hwords, String.toList_ofList]
    _ = (words isSpace (u.nfc value).toList).map t.nfc := by
        rw [words_unwords isSpace_blank fun w hw => isWord_of_mem_words hw]
    _ = words isSpace (u.nfc (u.nfc value)).toList := (hwords _).symm
    _ = words isSpace (u.nfc value).toList := by rw [hnfc.nfc_nfc]

/-- **Normalizing twice is normalizing once.** -/
theorem normalizeContent_normalized {value normalized : String}
    (h : normalizeContent u value = .ok normalized) :
    normalizeContent u normalized = .ok normalized := by
  rw [normalizeContent_eq] at h
  split at h
  · cases h
  · rename_i hne
    obtain rfl := Except.ok.inj h
    -- the words of the result are those of the content, so neither is empty
    rw [normalizeContent_eq, words_nfc_unwords hnfc, if_neg hne]

theorem contentHash_normalized {value normalized : String}
    (h : normalizeContent u value = .ok normalized) :
    contentHash u normalized = contentHash u value := by
  rw [contentHash, contentHash, h, normalizeContent_normalized hnfc h]

/-- The hash of the worker is that of serving. -/
theorem digest_eq (content : String) : digest u content = contentHash u content := by
  rw [digest]
  cases h : normalizeContent u content with
  | error e =>
    -- content without words has no hash on either side
    rw [contentHash, h]
    rfl
  | ok normalized => exact contentHash_normalized hnfc h

end Normalized

/-! ### What the worker stores -/

section Stored

variable {F : Type} {u : Unicode} {nfkc : String → String}
  {validateEmbedding : List F → Except ValueError (List F)}

/-- The feature of a post has the hash of its content, and normalized topics. -/
theorem feature_of_process {record : PostRecord} {replies : Replies F} {outcome : Outcome F}
    {feature : PostFeature F}
    (h : process u nfkc validateEmbedding record replies = .ok outcome)
    (hfeature : outcome.feature = some feature) :
    digest u record.content = .ok feature.contentHash ∧ feature.postId = record.postId
      ∧ feature.encoderVersion = encoderVersion
      ∧ feature.sourceUpdatedAt ≤ feature.computedAt
      ∧ ∃ values, normalizeTopics u values = .ok feature.normalizedTopics := by
  rw [process, except_bind_eq_ok] at h
  obtain ⟨topics, htopics, h⟩ := h
  obtain rfl := Except.ok.inj h
  rw [embed] at hfeature
  -- without a normalized text or a digest there is no feature
  split at hfeature
  case h_2 => cases hfeature
  case h_1 normalized digest hnormalized hdigest =>
    split at hfeature
    · cases hfeature
    · split at hfeature
      · cases hfeature
      · -- a record that was updated after the clock is left for later
        rename_i hclock
        have hle : record.updatedAt ≤ replies.clock := Int.not_lt.mp hclock
        split at hfeature
        · cases hfeature
        · cases hfeature
        · split at hfeature
          · cases hfeature
          · dsimp only at hfeature
            split at hfeature <;> cases hfeature <;> exact ⟨hdigest, rfl, rfl, hle, _, htopics⟩

/-- A key that is there stays there. -/
theorem isSome_get_addFeature {version : String} {observedAt : Timestamp}
    {features : OrderedDict (Nat × String) (PostFeature F)} {key : Nat × String}
    (h : (features.get key).isSome) (row : PostFeature F) :
    ((addFeature version observedAt features row).get key).isSome := by
  rw [addFeature]
  split
  · split
    · exact h
    · rw [OrderedDict.get_set]
      split
      · rfl
      · exact h
  · exact h

/-- A row that is current has its key. -/
theorem isSome_get_foldl_addFeature {version : String} {observedAt : Timestamp}
    {row : PostFeature F} (hversion : row.encoderVersion = version)
    (hsource : row.sourceUpdatedAt ≤ row.computedAt) (hcomputed : row.computedAt ≤ observedAt)
    {rows : List (PostFeature F)} {features : OrderedDict (Nat × String) (PostFeature F)}
    (h : row ∈ rows ∨ (features.get (row.postId, row.contentHash)).isSome) :
    ((rows.foldl (addFeature version observedAt) features).get
      (row.postId, row.contentHash)).isSome := by
  induction rows generalizing features with
  | nil =>
    rcases h with h | h
    · cases h
    · exact h
  | cons first rows ih =>
    rw [List.foldl_cons]
    apply ih
    rcases h with h | h
    · rcases List.mem_cons.mp h with rfl | h
      · right
        -- the row itself: it is set, or was there
        rw [addFeature, if_pos ⟨hversion, hsource, hcomputed⟩]
        cases hget : features.get (row.postId, row.contentHash) with
        | some found => simp [hget]
        | none =>
          rw [OrderedDict.get_set, if_pos rfl]
          rfl
      · exact .inl h
    · exact .inr (isSome_get_addFeature h first)

/-- The features are found under their posts and hashes. -/
theorem key_of_mem_foldl_addFeature {version : String} {observedAt : Timestamp}
    {rows : List (PostFeature F)} {features : OrderedDict (Nat × String) (PostFeature F)}
    (hkeys : ∀ e ∈ features, e.1 = (e.2.postId, e.2.contentHash)) :
    ∀ e ∈ rows.foldl (addFeature version observedAt) features,
      e.1 = (e.2.postId, e.2.contentHash) := by
  induction rows generalizing features with
  | nil => exact hkeys
  | cons row rows ih =>
    rw [List.foldl_cons]
    apply ih
    intro e he
    rw [addFeature] at he
    split at he
    · split at he
      · exact hkeys e he
      · rcases OrderedDict.mem_set he with he | rfl
        · exact hkeys e he
        · rfl
    · exact hkeys e he

end Stored

/-! ### The laws -/

/-- Normalized content is normalized to itself, and has the hash of the content.  A feature that
    the worker stores for a post has the hash that serving computes from the content of the post;
    so serving finds a feature with this hash among rows with it. -/
theorem normalizeContent_laws {u : Unicode} {t : Tables Char} (hnfc : u.Normalizes t) :
    (∀ value normalized, normalizeContent u value = .ok normalized →
      normalizeContent u normalized = .ok normalized
        ∧ contentHash u normalized = contentHash u value)
      ∧ ∀ {F : Type} (nfkc : String → String)
          (validateEmbedding : List F → Except ValueError (List F)) (record : PostRecord)
          (replies : Replies F) (outcome : Outcome F) (feature : PostFeature F),
        process u nfkc validateEmbedding record replies = .ok outcome →
        outcome.feature = some feature →
          contentHash u record.content = .ok feature.contentHash
            ∧ ∀ (rows : List (PostFeature F)) (observedAt : Timestamp), feature ∈ rows →
              feature.computedAt ≤ observedAt →
                ∃ found, candidateFeature u (currentFeatures encoderVersion observedAt rows)
                    record.postId record.content = .ok found
                  ∧ found.postId = record.postId ∧ found.contentHash = feature.contentHash := by
  refine ⟨fun value normalized h => ⟨normalizeContent_normalized hnfc h,
    contentHash_normalized hnfc h⟩, ?_⟩
  intro F nfkc validateEmbedding record replies outcome feature h hfeature
  obtain ⟨hdigest, hpost, hversion, hsource, -⟩ := feature_of_process h hfeature
  have hhash : contentHash u record.content = .ok feature.contentHash := by
    rw [← digest_eq hnfc, hdigest]
  refine ⟨hhash, ?_⟩
  intro rows observedAt hmem hcomputed
  have hsome := @isSome_get_foldl_addFeature F encoderVersion observedAt feature hversion hsource
    hcomputed rows [] (.inl hmem)
  -- the row is current, so its key is among the features
  rw [hpost] at hsome
  obtain ⟨found, hfound⟩ := Option.isSome_iff_exists.mp hsome
  have hkey := @key_of_mem_foldl_addFeature F encoderVersion observedAt rows [] (by simp) _
    (OrderedDict.mem_of_get hfound)
  refine ⟨found, ?_, (congrArg Prod.fst hkey).symm, (congrArg Prod.snd hkey).symm⟩
  rw [candidateFeature, except_bind_eq_ok]
  exact ⟨_, hhash, by rw [currentFeatures, hfound]⟩

/-! ### A syllable -/

/-- The tables of one composite: the consonant and the vowel of a Korean syllable. -/
def syllableTables : Tables Char where
  decompose c := if c = '하' then ['ᄒ', 'ᅡ'] else [c]
  combiningClass _ := 0
  compose c d := if c = 'ᄒ' ∧ d = 'ᅡ' then some '하' else none

/-- A consonant and its vowel are put together. -/
def syllables : List Char → List Char
  | c :: d :: cs => if c = 'ᄒ' ∧ d = 'ᅡ' then '하' :: syllables cs else c :: syllables (d :: cs)
  | cs => cs

theorem nfc_syllableTables (text : List Char) :
    syllableTables.nfc text = syllables (text.flatMap syllableTables.decompose) := by
  -- nothing has a combining class, so nothing moves
  have hreorder : ∀ cs, syllableTables.reorder cs = cs := by
    intro cs
    induction cs with
    | nil => rfl
    | cons c cs ih =>
      show syllableTables.place c (syllableTables.reorder cs) = _
      rw [ih]
      cases cs <;> rfl
  have hfrom : ∀ (cs : List Char) (c : Char),
      syllableTables.composeFrom c [] cs = syllables (c :: cs) := by
    intro cs
    induction cs with
    | nil => exact fun _ => rfl
    | cons d cs ih =>
      intro c
      unfold Tables.composeFrom syllables
      by_cases h : c = 'ᄒ' ∧ d = 'ᅡ'
      · obtain ⟨rfl, rfl⟩ := h
        show syllableTables.composeFrom '하' [] cs = '하' :: syllables cs
        rw [ih]
        cases cs <;> rfl
      · have hcompose : syllableTables.compose c d = none := if_neg h
        rw [if_neg (show ¬ syllableTables.blocked [] d = true from Bool.false_ne_true), hcompose, if_neg h]
        show c :: syllableTables.composeFrom d [] cs = _
        rw [ih]
  rw [Tables.nfc, hreorder]
  cases text.flatMap syllableTables.decompose with
  | nil => rfl
  | cons c cs => exact hfrom cs c

/-- Decomposing takes syllables apart again. -/
theorem flatMap_syllables {cs : List Char} (h : '하' ∉ cs) :
    (syllables cs).flatMap syllableTables.decompose = cs := by
  have hother : ∀ {c : Char}, c ≠ '하' → syllableTables.decompose c = [c] := fun hc => if_neg hc
  fun_induction syllables cs with
  | case1 c d cs hsyllable ih =>
    obtain ⟨rfl, rfl⟩ := hsyllable
    simp only [List.mem_cons, not_or] at h
    rw [List.flatMap_cons, ih h.2.2]
    rfl
  | case2 c d cs hsyllable ih =>
    rw [List.mem_cons, not_or] at h
    rw [List.flatMap_cons, ih h.2, hother (Ne.symm h.1)]
    rfl
  | case3 cs hshort =>
    rcases cs with _ | ⟨c, _ | ⟨d, cs⟩⟩
    · rfl
    · rw [List.flatMap_singleton, hother (Ne.symm (List.mem_singleton.not.mp h))]
    · exact absurd rfl (hshort c d cs)

/-- NFC of texts with this syllable; texts are their own hashes. -/
def syllableUnicode : Unicode :=
  { asciiUnicode with nfc := fun s => String.ofList (syllableTables.nfc s.toList) }

theorem normalizes_syllableUnicode : syllableUnicode.Normalizes syllableTables where
  nfc_eq _ := rfl
  nfc_nfc s := by
    have hapart : '하' ∉ s.toList.flatMap syllableTables.decompose := by
      rw [List.mem_flatMap]
      rintro ⟨c, -, hc⟩
      by_cases h : c = '하'
      · subst h
        exact absurd hc (by decide)
      · rw [show syllableTables.decompose c = [c] from if_neg h] at hc
        exact h (List.mem_singleton.mp hc).symm
    show String.ofList (syllableTables.nfc (String.ofList (syllableTables.nfc s.toList)).toList) = _
    rw [String.toList_ofList, nfc_syllableTables, nfc_syllableTables, flatMap_syllables hapart,
      ← nfc_syllableTables]
    rfl
  inert := by
    have hspaces : isSpace 'ᄒ' = false ∧ isSpace 'ᅡ' = false ∧ isSpace '하' = false := by decide
    obtain ⟨hconsonant, hvowel, hsyllable⟩ := hspaces
    refine ⟨fun _ _ => rfl, fun c => ?_, fun c d hd => ?_, fun c d e h => ?_⟩
    · simp only [syllableTables]
      split <;> simp
    · simp only [syllableTables] at hd
      split at hd
      · next hc =>
        simp only [List.mem_cons, List.not_mem_nil, or_false] at hd
        rcases hd with rfl | rfl
        · rw [hconsonant, hc, hsyllable]
        · rw [hvowel, hc, hsyllable]
      · rw [List.mem_singleton.mp hd]
    · simp only [syllableTables] at h
      split at h
      · next hparts =>
        obtain ⟨rfl, rfl⟩ := hparts
        obtain rfl := Option.some.inj h
        exact ⟨hconsonant, hvowel, hsyllable⟩
      · cases h

/-- A text with a syllable in two parts, a line end of two characters and blanks. -/
theorem normalizeContent_laws_syllable :
    normalizeContent syllableUnicode "\u1112\u1161\r\n  world " = .ok "\ud558 world"
      ∧ contentHash syllableUnicode "\ud558 world"
        = contentHash syllableUnicode "\u1112\u1161\r\n  world " :=
  ⟨by decide, ((normalizeContent_laws normalizes_syllableUnicode).1 _ _ (by decide)).2⟩

end Oecophylla.Content
