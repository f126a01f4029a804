import Mathlib.Data.List.Dedup
import Oecophylla.Lib.StableSort
import Oecophylla.Python.Value

namespace Oecophylla.Content

open Lib (stableSort)

/-!
# Texts and topics of posts — `nlp_worker/app/content_features.py`

* `Unicode` — what the worker calls in the standard library: NFC, lower case, SHA-256;
* `normalizeContent`, `contentHash`, `normalizeTopics` — the three functions;
* `Normalizable`, `normalizeTopics_isOk_iff` — the topics that are not refused.
-/

/-- `unicodedata.normalize("NFC", s)`, `s.lower()`, `hashlib.sha256(s.encode()).hexdigest()`. -/
structure Unicode where
  nfc : String → String
  lower : String → String
  sha256 : String → String

/-- `ValueError`, with its text. -/
structure ValueError where
  text : String
  deriving DecidableEq, Repr

/-- `str.isspace`, and `\s` of a Unicode pattern. -/
def isSpace (c : Char) : Bool := Oecophylla.Python.spaces.contains c.toNat

/-- `re.compile(r"\s+").sub(" ", s)`; `inside` says that the previous character was a space. -/
def collapse : (inside : Bool) → List Char → List Char
  | _, [] => []
  | inside, c :: cs =>
    if isSpace c then (if inside then collapse true cs else ' ' :: collapse true cs)
    else c :: collapse false cs

/-- `s.replace("\r\n", "\n").replace("\r", "\n")`. -/
def unixLines : List Char → List Char
  | [] => []
  | '\r' :: '\n' :: cs => '\n' :: unixLines cs
  | '\r' :: cs => '\n' :: unixLines cs
  | c :: cs => c :: unixLines cs

variable (u : Unicode)

/-- `normalize_content(value)`. -/
def normalizeContent (value : String) : Except ValueError String :=
  let normalized :=
    Oecophylla.Python.strip (collapse false (unixLines (u.nfc value).toList))
  if normalized = [] then .error ⟨"normalized content is empty"⟩
  else .ok (String.ofList normalized)

/-- `CONTENT_HASH_VERSION`. -/
def contentHashVersion : String := "post-content-normalization-v1"

/-- `content_hash(value)`. -/
def contentHash (value : String) : Except ValueError String := do
  let normalized ← normalizeContent u value
  pure (u.sha256 (contentHashVersion ++ "\n" ++ normalized))

/-- The label that `normalize_topics` makes of a value. -/
def topicLabel (value : String) : String :=
  u.lower (String.ofList (Oecophylla.Python.strip (collapse false (u.nfc value).toList)))

/-- The loop of `normalize_topics`: the set of the labels so far. -/
def addTopics (labels : List String) : List String → Except ValueError (List String)
  | [] => .ok labels
  | value :: values =>
    let label := topicLabel u value
    if label = "" then addTopics labels values
    else if 64 < label.length then .error ⟨"topic label exceeds 64 Unicode characters"⟩
    else addTopics (labels.insert label) values

/-- `normalize_topics(values)`. -/
def normalizeTopics (values : List String) : Except ValueError (List String) := do
  let labels ← addTopics u [] values
  if 32 < labels.length then .error ⟨"at most 32 normalized topic labels are allowed"⟩
  else pure (stableSort compare labels)

variable {u} {values labels : List String}

/-! ### Which topics are refused -/

/-- The labels of the values, without the empty ones and without repetitions. -/
def topicLabels (u : Unicode) (values : List String) : List String :=
  (values.map (topicLabel u)).filter (· ≠ "")

/-- The loop refuses a long label and otherwise collects the labels. -/
theorem addTopics_eq (labels values : List String) :
    addTopics u labels values
      = if ∃ label ∈ topicLabels u values, 64 < label.length then
          .error ⟨"topic label exceeds 64 Unicode characters"⟩
        else .ok ((topicLabels u values).foldl (fun labels label => labels.insert label) labels) := by
  induction values generalizing labels with
  | nil => rfl
  | cons value values ih =>
    unfold addTopics
    by_cases hempty : topicLabel u value = ""
    · have hskip : topicLabels u (value :: values) = topicLabels u values := by
        unfold topicLabels
        rw [List.map_cons, List.filter_cons_of_neg (by simpa using hempty)]
      rw [hskip, ← ih]
      simp only [hempty, if_true]
    · have hcons : topicLabels u (value :: values) = topicLabel u value :: topicLabels u values := by
        unfold topicLabels
        rw [List.map_cons, List.filter_cons_of_pos (by simpa using hempty)]
      rw [hcons]
      simp only [hempty, if_false, List.exists_mem_cons_iff, List.foldl_cons]
      by_cases hlong : 64 < (topicLabel u value).length
      · simp only [hlong, if_true, true_or]
      · simp only [hlong, if_false, false_or]
        exact ih _

/-- The labels are short, and not too many. -/
def Normalizable (u : Unicode) (values : List String) : Prop :=
  (∀ label ∈ topicLabels u values, label.length ≤ 64) ∧ (topicLabels u values).dedup.length ≤ 32

instance (u : Unicode) (values : List String) : Decidable (Normalizable u values) :=
  inferInstanceAs (Decidable (_ ∧ _))

theorem mem_foldl_insert {label : String} :
    label ∈ values.foldl (fun labels label => labels.insert label) labels
      ↔ label ∈ labels ∨ label ∈ values := by
  induction values generalizing labels with
  | nil => simp
  | cons value values ih =>
    rw [List.foldl_cons, ih, List.mem_insert_iff, List.mem_cons]
    tauto

theorem nodup_foldl_insert (h : labels.Nodup) :
    (values.foldl (fun labels label => labels.insert label) labels).Nodup := by
  induction values generalizing labels with
  | nil => exact h
  | cons value values ih => exact ih h.insert

/-- A set of labels has as many elements as there are distinct labels. -/
theorem length_foldl_insert (values : List String) :
    (values.foldl (fun labels label => labels.insert label) []).length = values.dedup.length := by
  apply List.Perm.length_eq
  refine (List.perm_ext_iff_of_nodup (nodup_foldl_insert List.nodup_nil)
    (List.nodup_dedup values)).mpr fun label => ?_
  rw [mem_foldl_insert, List.mem_dedup]
  simp

/-- **Normalisation** refuses exactly the topics that are not normalizable. -/
theorem normalizeTopics_isOk_iff :
    (∃ topics, normalizeTopics u values = .ok topics) ↔ Normalizable u values := by
  unfold normalizeTopics Normalizable
  rw [addTopics_eq]
  by_cases hlong : ∃ label ∈ topicLabels u values, 64 < label.length
  · rw [if_pos hlong]
    refine iff_of_false (by rintro ⟨topics, h⟩; cases h) fun h => ?_
    obtain ⟨label, hmem, hlt⟩ := hlong
    have hle := h.1 label hmem
    omega
  · have hshort : ∀ label ∈ topicLabels u values, label.length ≤ 64 := fun label hmem =>
      not_lt.mp fun hlt => hlong ⟨label, hmem, hlt⟩
    rw [if_neg hlong]
    show (∃ topics, (if 32 < (List.foldl _ [] (topicLabels u values)).length then _ else _) = _) ↔ _
    rw [length_foldl_insert]
    split
    · next hmany =>
      refine iff_of_false (by rintro ⟨topics, h⟩; cases h) fun h => ?_
      omega
    · next hfew => exact iff_of_true ⟨_, rfl⟩ ⟨hshort, not_lt.mp hfew⟩

/-- The normalized topics are the labels. -/
theorem mem_normalizeTopics {topics : List String} {label : String}
    (h : normalizeTopics u values = .ok topics) : label ∈ topics ↔ label ∈ topicLabels u values := by
  unfold normalizeTopics at h
  rw [addTopics_eq] at h
  split at h
  · cases h
  · change (if 32 < (List.foldl _ [] (topicLabels u values)).length then _ else _) = _ at h
    split at h
    · cases h
    · rw [← Except.ok.inj h, Lib.mem_stableSort, mem_foldl_insert]
      simp

end Oecophylla.Content
