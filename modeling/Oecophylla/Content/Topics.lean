import Mathlib.Data.List.Infix
import Oecophylla.Content.Text

namespace Oecophylla.Content

open Lib (stableSort)

/-!
# Topics of a text — `nlp_worker/app/infer.py`, `keywords.py`

* `topicKeywordsEn`, `topicKeywordsVi` — the keywords of the topics;
* `inferTopics` — the topics whose keywords occur in a text, `general` without any;
* `Unicode.Plain` — NFC and lower case leave words of small Latin letters alone;
* `normalizable_inferTopics` — inferred topics are never refused.
-/

/-- `TOPIC_KEYWORDS_EN`. -/
def topicKeywordsEn : List (String × List String) :=
  [("ai", ["ai", "artificial intelligence", "machine learning", "llm", "gpt", "neural",
      "deep learning"]),
    ("tech", ["tech", "technology", "software", "developer", "coding", "programming", "startup"]),
    ("music", ["music", "song", "album", "concert", "playlist", "artist", "singer"]),
    ("sport", ["sport", "football", "soccer", "basketball", "tennis", "match", "athlete", "game"]),
    ("health", ["health", "medicine", "doctor", "hospital", "vaccine", "nutrition",
      "mental health"]),
    ("science", ["science", "research", "study", "discovery", "experiment", "physics", "biology",
      "chemistry"]),
    ("politics", ["politics", "government", "election", "policy", "president", "democracy", "law"]),
    ("business", ["business", "company", "market", "economy", "finance", "investment", "startup",
      "revenue"]),
    ("culture", ["culture", "art", "film", "book", "literature", "history", "museum", "theater"]),
    ("education", ["education", "school", "university", "student", "learning", "teacher", "course"]),
    ("environment", ["environment", "climate", "sustainability", "green", "nature", "pollution",
      "energy"])]

/-- `TOPIC_KEYWORDS_VI`. -/
def topicKeywordsVi : List (String × List String) :=
  [("ai", ["trí tuệ nhân tạo", "học máy", "mô hình ngôn ngữ", "trí thông minh nhân tạo"]),
    ("tech", ["công nghệ", "lập trình", "phần mềm", "kỹ sư", "phát triển", "kỹ thuật số"]),
    ("music", ["âm nhạc", "ca khúc", "album", "bài hát", "ca sĩ", "nhạc sĩ", "hòa nhạc"]),
    ("sport", ["bóng đá", "bóng rổ", "thể thao", "trận đấu", "vận động viên", "giải đấu"]),
    ("health", ["sức khỏe", "y tế", "bác sĩ", "bệnh viện", "vacxin", "dinh dưỡng", "sức khoẻ"]),
    ("science", ["khoa học", "nghiên cứu", "thí nghiệm", "khám phá", "vật lý", "sinh học"]),
    ("politics", ["chính trị", "chính phủ", "bầu cử", "chính sách", "luật", "quốc hội"]),
    ("business", ["kinh tế", "doanh nghiệp", "thị trường", "đầu tư", "tài chính", "chứng khoán",
      "ngân hàng"]),
    ("culture", ["văn hóa", "nghệ thuật", "phim", "sách", "lịch sử", "bảo tàng", "văn học"]),
    ("education", ["giáo dục", "học sinh", "trường học", "đại học", "sinh viên", "kỹ năng",
      "edtech"]),
    ("environment", ["môi trường", "khí hậu", "bền vững", "thiên nhiên", "ô nhiễm", "năng lượng"])]

/-- `kw in normalized`. -/
def occursIn (keyword normalized : String) : Bool :=
  decide (keyword.toList <:+: normalized.toList)

/-- The topics of a table with a keyword in the text. -/
def matchedTopics (table : List (String × List String)) (normalized : String) : List String :=
  (table.filter fun row => row.2.any fun keyword => occursIn keyword normalized).map Prod.fst

/-- `infer_topics(content)`; `nfkc` is `unicodedata.normalize("NFKC", s)`. -/
def inferTopics (nfkc lower : String → String) (content : String) : List String :=
  let normalized := lower (nfkc content)
  let matched := (matchedTopics topicKeywordsEn normalized
    ++ matchedTopics topicKeywordsVi normalized).dedup
  if matched ≠ [] then stableSort compare matched else ["general"]

/-- The topics that can be inferred. -/
def topicNames : List String := topicKeywordsEn.map Prod.fst ++ ["general"]

variable {nfkc lower : String → String} {u : Unicode}

theorem matchedTopics_subset {table : List (String × List String)} {normalized topic : String}
    (h : topic ∈ matchedTopics table normalized) : topic ∈ table.map Prod.fst := by
  obtain ⟨row, hrow, rfl⟩ := List.mem_map.mp h
  exact List.mem_map_of_mem (List.mem_of_mem_filter hrow)

theorem mem_topicNames {content topic : String} (h : topic ∈ inferTopics nfkc lower content) :
    topic ∈ topicNames := by
  unfold inferTopics at h
  dsimp only at h
  split at h
  · rw [Lib.mem_stableSort, List.mem_dedup] at h
    refine List.mem_append_left _ ?_
    rcases List.mem_append.mp h with hen | hvi
    · exact matchedTopics_subset hen
    · -- both tables have the same topics
      have hsame : topicKeywordsVi.map Prod.fst = topicKeywordsEn.map Prod.fst := by decide
      exact hsame ▸ matchedTopics_subset hvi
  · rw [List.mem_singleton.mp h]
    decide

theorem nodup_inferTopics (content : String) : (inferTopics nfkc lower content).Nodup := by
  unfold inferTopics
  dsimp only
  split
  · exact (Lib.stableSort_perm _ _).nodup_iff.mpr (List.nodup_dedup _)
  · exact List.nodup_singleton _

theorem length_inferTopics_le (content : String) : (inferTopics nfkc lower content).length ≤ 12 :=
  (List.subperm_of_subset (nodup_inferTopics content) fun _ => mem_topicNames).length_le

/-! ### Normalisation -/

/-- NFC leaves ASCII texts alone, `lower` words of small Latin letters. -/
structure Unicode.Plain (u : Unicode) : Prop where
  nfc_eq (s : String) : (∀ c ∈ s.toList, c.toNat < 128) → u.nfc s = s
  lower_eq (s : String) : (∀ c ∈ s.toList, 97 ≤ c.toNat ∧ c.toNat ≤ 122) → u.lower s = s

/-- NFC and lower case of ASCII texts; texts are their own hashes. -/
def asciiUnicode : Unicode where
  nfc s := s
  lower s := String.ofList (s.toList.map fun c =>
    if 65 ≤ c.toNat ∧ c.toNat ≤ 90 then Char.ofNat (c.toNat + 32) else c)
  sha256 s := s

theorem plain_asciiUnicode : asciiUnicode.Plain where
  nfc_eq _ _ := rfl
  lower_eq s hword := by
    have hmap : (s.toList.map fun c =>
        if 65 ≤ c.toNat ∧ c.toNat ≤ 90 then Char.ofNat (c.toNat + 32) else c) = s.toList := by
      rw [List.map_congr_left (g := id) ?_, List.map_id]
      intro c hc
      rw [if_neg (by have := (hword c hc).1; omega)]
      rfl
    show String.ofList (s.toList.map _) = s
    rw [hmap, String.ofList_toList]

theorem collapse_of_no_space {cs : List Char} (h : ∀ c ∈ cs, isSpace c = false) :
    collapse false cs = cs := by
  induction cs with
  | nil => rfl
  | cons c cs ih =>
    unfold collapse
    rw [h c List.mem_cons_self, ih fun d hd => h d (List.mem_cons_of_mem c hd)]
    rfl

theorem strip_of_no_space {cs : List Char} (h : ∀ c ∈ cs, isSpace c = false) :
    Oecophylla.Python.strip cs = cs := by
  have hdrop : ∀ ds : List Char, (∀ c ∈ ds, isSpace c = false) → ds.dropWhile isSpace = ds := by
    intro ds hds
    cases ds with
    | nil => rfl
    | cons d ds => rw [List.dropWhile_cons, hds d List.mem_cons_self, if_neg (by decide)]
  show ((cs.dropWhile isSpace).reverse.dropWhile isSpace).reverse = cs
  rw [hdrop cs h, hdrop cs.reverse fun c hc => h c (List.mem_reverse.mp hc), List.reverse_reverse]

/-- A word of small Latin letters is its own label. -/
theorem topicLabel_word (hplain : u.Plain) {word : String}
    (hword : ∀ c ∈ word.toList, 97 ≤ c.toNat ∧ c.toNat ≤ 122) : topicLabel u word = word := by
  have hspaces : ∀ n < 123, 97 ≤ n → Oecophylla.Python.spaces.contains n = false := by decide
  have hspace : ∀ c ∈ word.toList, isSpace c = false := fun c hc =>
    hspaces c.toNat (by have := (hword c hc).2; omega) (hword c hc).1
  unfold topicLabel
  rw [hplain.nfc_eq word fun c hc => by have := (hword c hc).2; omega,
    collapse_of_no_space hspace, strip_of_no_space hspace, String.ofList_toList,
    hplain.lower_eq word hword]

/-- An inferred topic is its own label. -/
theorem topicLabel_inferTopics (hplain : u.Plain) {content topic : String}
    (h : topic ∈ inferTopics nfkc lower content) : topicLabel u topic = topic := by
  have hwords : ∀ name ∈ topicNames, ∀ c ∈ name.toList, 97 ≤ c.toNat ∧ c.toNat ≤ 122 := by
    have hall : (topicNames.all fun name => name.toList.all fun c =>
        decide (97 ≤ c.toNat ∧ c.toNat ≤ 122)) = true := by rfl
    intro name hname c hc
    exact of_decide_eq_true (List.all_eq_true.mp (List.all_eq_true.mp hall name hname) c hc)
  exact topicLabel_word hplain (hwords topic (mem_topicNames h))

/-- **Inferred topics** are never refused. -/
theorem normalizable_inferTopics (hplain : u.Plain) (content : String) :
    Normalizable u (inferTopics nfkc lower content) := by
  have hlabel : ∀ topic ∈ inferTopics nfkc lower content, topicLabel u topic = topic :=
    fun topic h => topicLabel_inferTopics hplain h
  have hsub : topicLabels u (inferTopics nfkc lower content) ⊆ inferTopics nfkc lower content := by
    intro label h
    obtain ⟨topic, htopic, rfl⟩ := List.mem_map.mp (List.mem_of_mem_filter h)
    rw [hlabel topic htopic]
    exact htopic
  refine ⟨fun label h => ?_, ?_⟩
  · have hshort : ∀ name ∈ topicNames, name.length ≤ 64 := by decide
    exact hshort label (mem_topicNames (hsub h))
  · have hle := (List.subperm_of_subset (List.nodup_dedup _)
      fun _ h => hsub (List.dedup_subset _ h)).length_le
    have hfew := @length_inferTopics_le nfkc lower content
    omega

/-- There always is an inferred topic. -/
theorem exists_mem_inferTopics (content : String) : ∃ topic, topic ∈ inferTopics nfkc lower content := by
  unfold inferTopics
  dsimp only
  split
  · next hmatched =>
    obtain ⟨topic, htopic⟩ := List.exists_mem_of_ne_nil _ hmatched
    exact ⟨topic, Lib.mem_stableSort.mpr htopic⟩
  · exact ⟨"general", List.mem_singleton_self _⟩

/-- Inferred topics are not normalized away. -/
theorem normalizeTopics_inferTopics_ne_nil (hplain : u.Plain) {content : String} {topics : List String}
    (h : normalizeTopics u (inferTopics nfkc lower content) = .ok topics) : topics ≠ [] := by
  obtain ⟨topic, htopic⟩ := @exists_mem_inferTopics nfkc lower content
  have hnonempty : topic ≠ "" := by
    have hnames : ∀ name ∈ topicNames, name ≠ "" := by decide
    exact hnames topic (mem_topicNames htopic)
  have hlabel : topic ∈ topicLabels u (inferTopics nfkc lower content) := by
    refine List.mem_filter.mpr ⟨List.mem_map.mpr ⟨topic, htopic, ?_⟩, by simpa using hnonempty⟩
    exact topicLabel_inferTopics hplain htopic
  exact List.ne_nil_of_mem ((mem_normalizeTopics h).mpr hlabel)

end Oecophylla.Content
