import Oecophylla.Content.Hash
import Oecophylla.Lib.Utf8

namespace Oecophylla.Content

open Lib (words unwords squeeze trim IsWord Replaced utf8 utf8_lt_iff trim_eq_of_ends ends_unwords
  squeeze_unwords exists_unwords_of_replaced isWord_of_mem_words)

/-!
# Normalized topics and the database — `20260831000019_post_content_features.sql`

* `Postgres` — the lower case and the class `[[:space:]]` of the database;
* `postContentTopicsAreNormalized` — the function of the `CHECK`, with its loop;
* `Normal` — what it asks of one label; `checkLabels_of_sorted` — what it asks of all of them;
* `normal_topicLabel` — a label of `normalize_topics` is normal;
* `normalizeTopics_check` — the result of `normalize_topics` satisfies the `CHECK`.
-/

/-! ### The function of the check -/

/-- `lower(label)`, and whether a character is in `[[:space:]]`. -/
structure Postgres where
  lower : String → String
  isSpace : Char → Bool

/-- `btrim(label)`: only spaces. -/
def btrim (label : String) : String := String.ofList (trim (· == ' ') label.toList)

/-- `label COLLATE "C"`. -/
def bytesOf (label : String) : List UInt8 := utf8 label.toList

section Check

variable (pg : Postgres)

/-- `regexp_replace(label, '[[:space:]]+', ' ', 'g')`. -/
def Postgres.replaceSpaces (label : String) : String :=
  String.ofList (squeeze pg.isSpace ' ' false label.toList)

/-- The condition under which a label that is not `NULL` is refused. -/
def refuses (seen : List String) (previous : Option String) (label : String) : Prop :=
  label = "" ∨ label ≠ btrim label ∨ label ≠ pg.lower label ∨ 64 < label.length
    ∨ pg.replaceSpaces label ≠ label ∨ label ∈ seen
    ∨ ∃ p ∈ previous, bytesOf label ≤ bytesOf p

instance (seen : List String) (previous : Option String) (label : String) :
    Decidable (refuses pg seen previous label) := inferInstanceAs (Decidable (_ ∨ _))

/-- The loop over the labels. -/
def checkLabels : (seen : List String) → (previous : Option String) → List (Option String) → Bool
  | _, _, [] => true
  | _, _, none :: _ => false
  | seen, previous, some label :: labels =>
    if refuses pg seen previous label then false
    else checkLabels (seen ++ [label]) (some label) labels

/-- `post_content_topics_are_normalized(topic_values)`. -/
def postContentTopicsAreNormalized (topicValues : List (Option String)) : Bool :=
  if 32 < topicValues.length then false else checkLabels pg [] none topicValues

/-! ### What the check asks -/

/-- What the check asks of one label. -/
structure Normal (label : String) : Prop where
  ne_empty : label ≠ ""
  btrim_eq : btrim label = label
  lower_eq : pg.lower label = label
  length_le : label.length ≤ 64
  replaceSpaces_eq : pg.replaceSpaces label = label

variable {pg}

/-- The loop accepts normal labels in the strict order of their bytes. -/
theorem checkLabels_of_sorted {labels seen : List String} {previous : Option String}
    (hnormal : ∀ label ∈ labels, Normal pg label)
    (hsorted : labels.Pairwise fun a b => bytesOf a < bytesOf b)
    (hseen : ∀ s ∈ seen, ∀ label ∈ labels, bytesOf s < bytesOf label)
    (hprevious : ∀ p ∈ previous, p ∈ seen) :
    checkLabels pg seen previous (labels.map some) = true := by
  induction labels generalizing seen previous with
  | nil => rfl
  | cons label labels ih =>
    obtain ⟨hfirst, hrest⟩ := List.pairwise_cons.mp hsorted
    have hlabel := hnormal label List.mem_cons_self
    -- one case for each reason to refuse, in the order of the loop
    have haccepted : ¬ refuses pg seen previous label := by
      rintro (h | h | h | h | h | h | ⟨p, hp, hle⟩)
      · exact hlabel.ne_empty h
      · exact h hlabel.btrim_eq.symm
      · exact h hlabel.lower_eq.symm
      · exact absurd hlabel.length_le (not_le.mpr h)
      · exact h hlabel.replaceSpaces_eq
      · exact List.lt_irrefl _ (hseen label h label List.mem_cons_self)
      · exact List.not_lt.mpr hle (hseen p (hprevious p hp) label List.mem_cons_self)
    rw [List.map_cons, checkLabels, if_neg haccepted]
    apply ih (fun l hl => hnormal l (List.mem_cons_of_mem label hl)) hrest
    · intro s hs l hl
      rcases List.mem_append.mp hs with hs | hs
      · exact hseen s hs l (List.mem_cons_of_mem label hl)
      · rw [List.mem_singleton.mp hs]
        exact hfirst l hl
    · intro p hp
      rw [Option.mem_some_iff.mp hp]
      simp

end Check

/-! ### The labels of `normalize_topics` -/

/-- `lower` is idempotent and replaces each character, blanks by themselves; the database has the
    same lower case, and no blanks of its own. -/
structure Postgres.Agrees (pg : Postgres) (u : Unicode) : Prop where
  lower_eq : ∀ s, pg.lower s = u.lower s
  lower_lower : ∀ s, u.lower (u.lower s) = u.lower s
  replaced : ∀ s, Replaced Content.isSpace s.toList (u.lower s).toList
  isSpace : ∀ c, pg.isSpace c = true → Content.isSpace c = true

section Labels

variable {pg : Postgres} {u : Unicode} (hagrees : pg.Agrees u)
include hagrees

/-- A label is made of words with single spaces between them. -/
theorem exists_words_topicLabel (value : String) :
    ∃ ws, (∀ w ∈ ws, IsWord isSpace w) ∧ (topicLabel u value).toList = unwords ' ' ws := by
  rw [topicLabel, strip_collapse]
  have hreplaced := hagrees.replaced
    (String.ofList (unwords ' ' (words isSpace (u.nfc value).toList)))
  rw [String.toList_ofList] at hreplaced
  obtain ⟨ws, -, hws, hlabel⟩ := exists_unwords_of_replaced isSpace_blank
    (fun w hw => isWord_of_mem_words hw) hreplaced
  exact ⟨ws, hws, hlabel⟩

/-- A label that is not empty and not long is normal. -/
theorem normal_topicLabel {value : String} (hne : topicLabel u value ≠ "")
    (hlength : (topicLabel u value).length ≤ 64) : Normal pg (topicLabel u value) := by
  obtain ⟨ws, hws, htext⟩ := exists_words_topicLabel hagrees value
  -- only the blanks of Python are blank for the database
  have hmono : ∀ p : Char → Bool, (∀ c, p c = true → isSpace c = true) →
      ∀ w ∈ ws, IsWord p w := by
    intro p hp w hw
    refine ⟨(hws w hw).ne_nil, fun c hc => ?_⟩
    by_contra hblank
    have hspace := hp c (by simpa using hblank)
    rw [(hws w hw).not_blank c hc] at hspace
    cases hspace
  have hspaces := hmono (· == ' ') (fun c hc => by rw [eq_of_beq hc]; exact isSpace_blank)
  refine ⟨hne, ?_, ?_, hlength, ?_⟩
  · -- `btrim` finds words at both ends
    obtain ⟨hfirst, hlast⟩ := @ends_unwords _ (· == ' ') ' ' ws hspaces
    have htrim := @trim_eq_of_ends _ (· == ' ') [] (unwords ' ' ws) [] (by simp) (by simp)
      hfirst hlast
    rw [List.nil_append, List.append_nil] at htrim
    rw [btrim, htext, htrim, ← htext, String.ofList_toList]
  · rw [hagrees.lower_eq, topicLabel, hagrees.lower_lower]
  · rw [Postgres.replaceSpaces, htext, squeeze_unwords ' ' (hmono _ hagrees.isSpace), ← htext,
      String.ofList_toList]

end Labels

/-! ### The result of `normalize_topics` -/

section Result

variable {pg : Postgres} {u : Unicode} {values topics : List String}

/-- The result: at most 32 short labels that are not empty, in the strict order of their bytes. -/
theorem normalizeTopics_spec (h : normalizeTopics u values = .ok topics) :
    topics.length ≤ 32 ∧ topics.Pairwise (fun a b => bytesOf a < bytesOf b)
      ∧ ∀ label ∈ topics,
        (∃ value, label = topicLabel u value) ∧ label ≠ "" ∧ label.length ≤ 64 := by
  have hmem := fun label => @mem_normalizeTopics u values topics label h
  rw [normalizeTopics, addTopics_eq] at h
  by_cases hlong : ∃ label ∈ topicLabels u values, 64 < label.length
  · rw [if_pos hlong] at h
    cases h
  rw [if_neg hlong] at h
  change (if 32 < (List.foldl _ [] (topicLabels u values)).length then _ else _) = _ at h
  split at h
  · cases h
  rename_i hfew
  obtain rfl := Except.ok.inj h
  refine ⟨?_, ?_, ?_⟩
  · rw [Lib.length_stableSort]
    omega
  · -- the labels are distinct, so that sorting puts them in a strict order
    have hnodup := @nodup_foldl_insert (topicLabels u values) [] List.nodup_nil
    have hne := hnodup.imp fun {a b : String} (hab : a ≠ b) (heq : compare a b = .eq) =>
      hab (Std.LawfulEqCmp.eq_of_compare heq)
    refine (Lib.pairwise_lt_stableSort hne).imp fun hlt => ?_
    exact utf8_lt_iff.mpr (String.lt_iff_toList_lt.mp (compare_lt_iff_lt.mp hlt))
  · intro label hlabel
    obtain ⟨hmapped, hne⟩ := List.mem_filter.mp ((hmem label).mp hlabel)
    obtain ⟨value, -, rfl⟩ := List.mem_map.mp hmapped
    refine ⟨⟨value, rfl⟩, by simpa using hne, ?_⟩
    -- a longer label would have raised
    by_contra hlt
    exact hlong ⟨_, (hmem _).mp hlabel, not_le.mp hlt⟩

/-- The check of the table on what `normalize_topics` returns. -/
theorem check_of_normalizeTopics (hagrees : pg.Agrees u)
    (h : normalizeTopics u values = .ok topics) :
    postContentTopicsAreNormalized pg (topics.map some) = true := by
  obtain ⟨hlength, hsorted, hlabels⟩ := normalizeTopics_spec h
  rw [postContentTopicsAreNormalized, List.length_map, if_neg (not_lt.mpr hlength)]
  apply checkLabels_of_sorted _ hsorted (by simp) (by simp)
  intro label hlabel
  obtain ⟨⟨value, rfl⟩, hne, hshort⟩ := hlabels label hlabel
  exact normal_topicLabel hagrees hne hshort

/-- **Normalized topics satisfy the check** of the table; so do those of every feature that the
    worker inserts. -/
theorem normalizeTopics_check (hagrees : pg.Agrees u) :
    (∀ values topics, normalizeTopics u values = .ok topics →
        postContentTopicsAreNormalized pg (topics.map some) = true)
      ∧ ∀ {F : Type} (nfkc : String → String)
          (validateEmbedding : List F → Except ValueError (List F)) (record : PostRecord)
          (replies : Replies F) (outcome : Outcome F) (feature : PostFeature F),
        process u nfkc validateEmbedding record replies = .ok outcome →
        outcome.feature = some feature →
          postContentTopicsAreNormalized pg (feature.normalizedTopics.map some) = true := by
  refine ⟨fun values topics h => check_of_normalizeTopics hagrees h, ?_⟩
  intro F nfkc validateEmbedding record replies outcome feature h hfeature
  obtain ⟨-, -, -, -, values, htopics⟩ := feature_of_process h hfeature
  exact check_of_normalizeTopics hagrees htopics

end Result

/-! ### ASCII -/

/-- A database whose lower case is that of ASCII, with the blanks of ASCII. -/
def asciiPostgres : Postgres where
  lower := asciiUnicode.lower
  isSpace c := c == ' ' || (9 ≤ c.toNat && c.toNat ≤ 13)

/-- The lower case of one character. -/
def asciiLower (c : Char) : Char :=
  if 65 ≤ c.toNat ∧ c.toNat ≤ 90 then Char.ofNat (c.toNat + 32) else c

theorem toNat_asciiLower {c : Char} (h : 65 ≤ c.toNat ∧ c.toNat ≤ 90) :
    (asciiLower c).toNat = c.toNat + 32 := by
  have hall : ∀ n < 91, 65 ≤ n → (Char.ofNat (n + 32)).toNat = n + 32 := by decide
  rw [asciiLower, if_pos h]
  exact hall _ (by omega) h.1

theorem asciiLower_asciiLower (c : Char) : asciiLower (asciiLower c) = asciiLower c := by
  by_cases h : 65 ≤ c.toNat ∧ c.toNat ≤ 90
  · have hnat := toNat_asciiLower h
    conv_lhs => rw [asciiLower]
    rw [if_neg (by omega)]
  · have hsame : asciiLower c = c := if_neg h
    rw [hsame, hsame]

theorem isSpace_asciiLower {c : Char} (h : isSpace c = false) : isSpace (asciiLower c) = false := by
  by_cases hupper : 65 ≤ c.toNat ∧ c.toNat ≤ 90
  · -- a small letter is no blank
    have hletters : ∀ n < 123, 97 ≤ n → Oecophylla.Python.spaces.contains n = false := by decide
    rw [isSpace, toNat_asciiLower hupper]
    exact hletters _ (by omega) (by omega)
  · have hsame : asciiLower c = c := if_neg hupper
    rw [hsame, h]

theorem toList_asciiUnicode_lower (s : String) :
    (asciiUnicode.lower s).toList = s.toList.map asciiLower := String.toList_ofList

theorem agrees_asciiPostgres : asciiPostgres.Agrees asciiUnicode where
  lower_eq _ := rfl
  lower_lower s := by
    rw [← String.toList_inj, toList_asciiUnicode_lower, toList_asciiUnicode_lower, List.map_map]
    apply List.map_congr_left
    intro c _
    exact asciiLower_asciiLower c
  replaced s := by
    refine ⟨s.toList.map fun c => (c, [asciiLower c]), ?_, ?_, ?_⟩
    · rw [List.map_map]
      exact List.map_id _
    · rw [List.flatMap_map, toList_asciiUnicode_lower]
      exact List.flatMap_pure_eq_map asciiLower s.toList
    · intro r hr
      obtain ⟨c, -, rfl⟩ := List.mem_map.mp hr
      refine ⟨fun hblank => ?_, fun hplain => ⟨by simp, ?_⟩⟩
      · -- a blank is no capital letter
        have hletters : ∀ n < 91, 65 ≤ n → Oecophylla.Python.spaces.contains n = false := by decide
        have hsame : asciiLower c = c := by
          refine if_neg fun hupper => ?_
          have hno := hletters c.toNat (by omega) hupper.1
          rw [isSpace, hno] at hblank
          cases hblank
        rw [hsame]
      · intro d hd
        rw [List.mem_singleton.mp hd]
        exact isSpace_asciiLower hplain
  isSpace c hc := by
    have hblanks : ∀ n < 14, 9 ≤ n → Oecophylla.Python.spaces.contains n = true := by decide
    simp only [asciiPostgres, Bool.or_eq_true, beq_iff_eq, Bool.and_eq_true,
      decide_eq_true_eq] at hc
    rcases hc with rfl | ⟨hlow, hhigh⟩
    · exact isSpace_blank
    · exact hblanks c.toNat (by omega) hlow

/-- Two topics, one of them twice. -/
theorem normalizeTopics_check_two :
    postContentTopicsAreNormalized asciiPostgres (["ai", "web dev"].map some) = true :=
  (normalizeTopics_check agrees_asciiPostgres).1 ["Web\t Dev", " AI", "ai"] _ (by decide)

end Oecophylla.Content
