import Oecophylla.Mind.Sampling
import Oecophylla.Mind.Embeddings
import Oecophylla.Mind.Splits

namespace Oecophylla.Mind

open Lib (OrderedDict stableSort except_bind_eq_ok)
open Content (normalizeContent)

/-!
# The holdout of the benchmark — `ai_pipeline/benchmark_data.py`

The official dev file of MIND is sampled for requests that no earlier holdout has.  The lines are known
by a keyed hash of their user and impression only (`holdoutGroup`), and it is by these that the
requests of earlier holdouts are left out.

* `prepareHoldout` — the sample, with the articles it needs;
* `holdoutRows`, `Exports` — the selected lines as requests under pseudonyms;
* `collected_foldlM`, `Written` — the articles behind the places in a request;
* `prepareHoldout_retains` — a prepared holdout is the selected lines under pseudonyms.

What the benchmark asks of a prepared holdout before it scores it is `Mind.Admission`.
-/

/-- What `prepare_holdout` raises: its own errors, and those of `parse_datetime`. -/
inductive HoldoutRaised where
  | mind (raised : Raised)
  | schemas (raised : Dataset.Raised)

/-- The arguments of `prepare_holdout`. -/
structure HoldoutArguments where
  excluded : List String
  limit : Int
  seed : Int
  salt : String
  historyLimit : Int
  trainingEnd : String

/-- What `prepare_holdout` returns; of the metadata what is not constant. -/
structure Holdout where
  articles : List Article
  requests : List Request
  seed : Int
  historyLimit : Int
  trainingWindowEnd : String
  sourceFiles : Audit × List (String × String)
  excludedRequests : Nat

section Model

variable (rt : Runtime)

/-- `raise ValueError(text)`. -/
def refuse {α : Type} (text : String) : Except HoldoutRaised α := .error (.mind (.valueError text))

/-- What another function raises. -/
def raised {α : Type} (x : Except Raised α) : Except HoldoutRaised α := x.mapError .mind

/-- The group of a request of the official dev file. -/
def holdoutGroup (salt user impression : String) : String :=
  privateId rt salt "mind-request" ("MINDlarge_dev:" ++ user ++ ":" ++ impression)

/-- `exclude(fields)`. -/
def excludeHoldout (args : HoldoutArguments) (fields : List Bytes) : Except Raised Bool := do
  let user ← decode (fields.getD 1 [])
  let impression ← decode (fields.getD 0 [])
  pure (decide (holdoutGroup rt args.salt user impression ∈ args.excluded))

/-- One labelled candidate. -/
def holdoutCandidate (token : String) : Except HoldoutRaised (String × Int) :=
  let (id, label) := rsplitHyphen token
  if '-' ∉ token.toList ∨ (label ≠ "0" ∧ label ≠ "1") then
    refuse "evaluation requires binary click labels"
  else .ok (id, if label = "1" then 1 else 0)

/-- One selected line; `seen` has the groups so far. -/
def holdoutRow (args : HoldoutArguments) (seen : List String) :
    List String → Except HoldoutRaised Parsed
  | [impression, user, time, history, candidates] => do
    let group := holdoutGroup rt args.salt user impression
    if group ∈ seen then refuse "duplicate canonical request"
    else
      let served ← raised (parseTimestamp time)
      let trainingEnd ← (Dataset.parseDatetime (.str args.trainingEnd)).mapError .schemas
      if served.micros ≤ trainingEnd.micros then
        refuse "holdout must follow the frozen model's training/validation window"
      else
        let pairs ← (words candidates).mapM holdoutCandidate
        if pairs.length < 2 ∨ ¬ (pairs.map Prod.fst).Nodup then
          refuse "requests need at least two unique candidates"
        else pure {
          requestGroup := group
          userGroup := privateId rt args.salt "mind-user" user
          servedAt := served.isoformat
          history := lastWords history args.historyLimit.toNat
          candidates := pairs.map Prod.fst
          labels := pairs.map Prod.snd }
  | _ => refuse "unpacking a behavior"

/-- The selected lines, with the groups so far. -/
def holdoutRows (args : HoldoutArguments) :
    List String → List (List String) → Except HoldoutRaised (List Parsed)
  | _, [] => .ok []
  | seen, row :: rows => do
    let first ← holdoutRow rt args seen row
    let rest ← holdoutRows args (first.requestGroup :: seen) rows
    pure (first :: rest)

/-- One line of `news.tsv`. -/
def holdoutArticle (salt : String) (needed : List String) (articles : OrderedDict String Article)
    (line : String) : Except HoldoutRaised (OrderedDict String Article) :=
  let fields := fieldsOfText line
  if fields.length ≠ 8 then refuse "news.tsv must have eight fields"
  else
    let id := fields.getD 0 ""
    if id ∉ needed then .ok articles
    else
      match normalizeContent rt.unicode (fields.getD 3 "" ++ " " ++ fields.getD 4 "") with
      | .error e => refuse e.text
      | .ok text =>
        let article : Article :=
          ⟨privateId rt salt "mind-article" id, text, fields.getD 1 "", fields.getD 2 ""⟩
        if ∃ old ∈ articles.get id, old ≠ article then
          refuse "conflicting article revision across source splits"
        else .ok (articles.set id article)

/-- `key=lambda row: (row["served_at"], row["request_group"])`. -/
def compareRequest (a b : Request) : Ordering :=
  (compare a.servedAt b.servedAt).then (compare a.requestGroup b.requestGroup)

/-- The request with the places of its articles. -/
def holdoutRequest (ordered : List String) (row : Parsed) : Request :=
  indexed ordered { row with split := .test }

/-- `prepare_holdout(data_dir, …)`. -/
def prepareHoldout (trainFiles devFiles : SourceFiles) (args : HoldoutArguments) :
    Except HoldoutRaised Holdout := do
  if args.salt = "" ∨ args.historyLimit < 1 then
    refuse "salt and positive history limit are required"
  else
    let (selected, audit) ← raised (sampleBehaviors rt devFiles.behaviors args.limit args.seed
      (some (excludeHoldout rt args)))
    if audit.excludedRequests ≠ args.excluded.eraseDups.length then
      refuse "holdout exclusion mismatch: wrong salt or source data"
    else
      let rows ← holdoutRows rt args [] selected
      let needed := rows.flatMap fun row => row.candidates ++ row.history
      let articles ← (trainFiles.news ++ devFiles.news).foldlM (holdoutArticle rt args.salt needed) []
      if ∃ id ∈ needed, (articles.get id).isNone then refuse "unknown candidate/history articles"
      else
        let ordered := stableSort (fun a b => compare a.2.articleGroup b.2.articleGroup) articles
        pure {
          articles := ordered.map Prod.snd
          requests := stableSort compareRequest
            (rows.map (holdoutRequest (ordered.map Prod.fst)))
          seed := args.seed
          historyLimit := args.historyLimit
          trainingWindowEnd := args.trainingEnd
          sourceFiles := (audit, [("MINDlarge_train/news.tsv", trainFiles.newsSha256),
            ("MINDlarge_dev/news.tsv", devFiles.newsSha256)])
          excludedRequests := args.excluded.eraseDups.length }

end Model

/-! ### The selected lines -/

theorem eq_encode_of_decode {line : Bytes} {text : String} (h : decode line = .ok text) :
    line = encode text := by
  have hvalid : (⟨line.toArray⟩ : ByteArray).IsValidUTF8 := by
    by_contra hinvalid
    rw [decode, String.fromUTF8?, dif_neg hinvalid] at h
    cases h
  obtain ⟨cs, hcs⟩ := hvalid
  have hline : line = Lib.utf8 cs := by
    have hlist := congrArg (fun bytes : ByteArray => bytes.data.toList) hcs
    exact hlist.trans (List.toList_data_toByteArray (l := Lib.utf8 cs))
  rw [hline, decode_utf8, Except.ok.injEq] at h
  rw [hline, encode_eq, ← h, String.toList_ofList]

/-- The bytes of line ends and tabs are those of these characters only. -/
theorem fieldsOfBytes_encode (text : String) :
    fieldsOfBytes (encode text) = (fieldsOfText text).map encode := by
  have hend : rstrip (fun b => b == 13 || b == 10) (Lib.utf8 text.toList)
      = Lib.utf8 (rstrip (fun c => c == '\r' || c == '\n') text.toList) := by
    apply Lib.utf8_dropEnd
    · intro c b hb
      have hr := Lib.beq_byte (show '\r'.toNat < 128 by decide) hb
      have hn := Lib.beq_byte (show '\n'.toNat < 128 by decide) hb
      exact congrArg₂ (· || ·) hr hn
    · intro c hc
      simp only [Bool.or_eq_true, beq_iff_eq] at hc
      rcases hc with rfl | rfl <;> rfl
  have htabs (cs : List Char) : (Lib.utf8 cs).splitOn 9 = (cs.splitOn '\t').map Lib.utf8 := by
    apply Lib.utf8_splitOnP
    · intro c b hb
      exact Lib.beq_byte (show '\t'.toNat < 128 by decide) hb
    · intro c hc
      rw [beq_iff_eq] at hc
      rw [hc]
      rfl
  rw [fieldsOfBytes, encode_eq, hend, htabs, fieldsOfText, List.map_map]
  refine List.map_congr_left fun cs _ => ?_
  show Lib.utf8 cs = encode (String.ofList cs)
  rw [encode_eq, String.toList_ofList]

section Sampling

variable {rt : Runtime} {limit seed : Int} {exclude : List Bytes → Except Raised Bool}
  {lines : List Bytes} {s t : Sample} {line : Bytes}

/-- What the loop over the lines keeps. -/
structure Kept (exclude : List Bytes → Except Raised Bool) (limit : Int) (lines : List Bytes)
    (s : Sample) : Prop where
  excluded : s.excluded ≤ s.count
  length : (s.heap.length : Int) = min limit (s.count - s.excluded)
  taken : ∀ item ∈ s.heap, item.2 ∈ lines ∧ (fieldsOfBytes item.2).length = 5
    ∧ exclude (fieldsOfBytes item.2) = .ok false

theorem mem_heappush {heap : List Item} {item x : Item} (h : x ∈ heappush heap item) :
    x = item ∨ x ∈ heap := List.mem_orderedInsert _ |>.mp h

theorem length_heappush (heap : List Item) (item : Item) :
    (heappush heap item).length = heap.length + 1 := List.orderedInsert_length _ heap item

/-- **One line.** -/
theorem kept_observe (hs : Kept exclude limit lines s) (hline : line ∈ lines)
    (h : observe rt limit seed (some exclude) s line = .ok t) : Kept exclude limit lines t := by
  have hcount := hs.excluded
  have hlength := hs.length
  unfold observe at h
  dsimp only at h
  split at h
  · cases h
  next hfields =>
  rw [except_bind_eq_ok] at h
  obtain ⟨skip, hskip, h⟩ := h
  split at h
  · -- an excluded line is counted only
    cases h
    exact ⟨by dsimp only; omega, by dsimp only; push_cast; omega, hs.taken⟩
  next hkeep =>
  have hnew : line ∈ lines ∧ (fieldsOfBytes line).length = 5
      ∧ exclude (fieldsOfBytes line) = .ok false :=
    ⟨hline, not_not.mp hfields, by rw [hskip]; simpa using hkeep⟩
  split at h
  · next hroom =>
    cases h
    refine ⟨by dsimp only; omega, ?_, fun x hx => ?_⟩
    · dsimp only
      rw [length_heappush]
      push_cast
      omega
    · rcases mem_heappush hx with rfl | hx
      · exact hnew
      · exact hs.taken x hx
  next hfull =>
  split at h
  · next hgreater =>
    cases h
    obtain ⟨least, hleast, -⟩ := hgreater
    refine ⟨by dsimp only; omega, ?_, fun x hx => ?_⟩
    · -- one entry goes and one comes
      obtain ⟨rest, hrest⟩ : ∃ rest, s.heap = least :: rest := by
        cases hheap : s.heap with
        | nil => rw [hheap] at hleast; cases hleast
        | cons a rest => rw [hheap] at hleast; cases hleast; exact ⟨rest, rfl⟩
      unfold heapreplace
      dsimp only
      rw [length_heappush, hrest, List.tail_cons]
      rw [hrest, List.length_cons] at hlength hfull
      push_cast at hlength hfull ⊢
      omega
    · rcases mem_heappush hx with rfl | hx
      · exact hnew
      · exact hs.taken x (List.mem_of_mem_tail hx)
  · cases h
    exact ⟨by dsimp only; omega, by dsimp only; push_cast; omega, hs.taken⟩

theorem kept_foldlM {rest : List Bytes} (hrest : ∀ line ∈ rest, line ∈ lines)
    (hs : Kept exclude limit lines s)
    (h : rest.foldlM (observe rt limit seed (some exclude)) s = .ok t) :
    Kept exclude limit lines t := by
  induction rest generalizing s with
  | nil =>
    rw [List.foldlM_nil, Lib.except_pure_eq_ok] at h
    exact h ▸ hs
  | cons line rest ih =>
    rw [List.foldlM_cons, except_bind_eq_ok] at h
    obtain ⟨u, hu, h⟩ := h
    exact ih (fun x hx => hrest x (List.mem_cons_of_mem line hx))
      (kept_observe hs (hrest line List.mem_cons_self) hu) h

/-- **The sample** has as many rows as asked for, each the fields of a line that is not excluded. -/
theorem sampleBehaviors_rows {rows : List (List String)} {audit : Audit}
    (h : sampleBehaviors rt lines limit seed (some exclude) = .ok (rows, audit)) :
    1 ≤ limit ∧ (rows.length : Int) = limit ∧ ∀ row ∈ rows, ∃ text, encode text ∈ lines
      ∧ row = fieldsOfText text ∧ row.length = 5 ∧ exclude (row.map encode) = .ok false := by
  unfold sampleBehaviors at h
  split at h
  · cases h
  next hlimit =>
  rw [except_bind_eq_ok] at h
  obtain ⟨s, hs, h⟩ := h
  dsimp only at h
  split at h
  · cases h
  next havailable =>
  rw [except_bind_eq_ok] at h
  obtain ⟨rows', hrows, h⟩ := h
  cases h
  have hkept : Kept exclude limit lines s :=
    kept_foldlM (fun _ hline => hline)
      ⟨le_rfl, by simp; omega, fun _ hitem => absurd hitem List.not_mem_nil⟩ hs
  have hmap := Lib.mapM_eq_ok_iff.mp hrows
  refine ⟨by omega, ?_, fun row hrow => ?_⟩
  · have hlength := congrArg List.length hmap
    rw [List.length_map, List.length_map, List.length_reverse] at hlength
    have := hkept.length
    omega
  · obtain ⟨item, hitem, hok⟩ := Lib.exists_of_mem_mapM hrows hrow
    rw [except_bind_eq_ok] at hok
    obtain ⟨text, htext, hok⟩ := hok
    cases hok
    obtain ⟨hline, hfields, hskip⟩ := hkept.taken item (List.mem_reverse.mp hitem)
    rw [eq_encode_of_decode htext] at hline hfields hskip
    rw [fieldsOfBytes_encode] at hfields hskip
    exact ⟨text, hline, rfl, by rwa [List.length_map] at hfields, hskip⟩

end Sampling

/-! ### One request -/

section Rows

variable {rt : Runtime} {args : HoldoutArguments}

/-- A list is cut at the first hyphen. -/
theorem eq_of_hyphen {back : List Char} (h : '-' ∈ back) :
    back = back.takeWhile (· ≠ '-') ++ '-' :: (back.dropWhile (· ≠ '-')).drop 1 := by
  induction back with
  | nil => cases h
  | cons c back ih =>
    by_cases hc : c = '-'
    · simp [hc]
    · have hrest := ih ((List.mem_cons.mp h).resolve_left (Ne.symm hc))
      rw [List.takeWhile_cons_of_pos (by simpa using hc), List.dropWhile_cons_of_pos (by simpa using hc),
        List.cons_append, ← hrest]

/-- The label of a candidate, behind its last hyphen. -/
theorem eq_of_rsplitHyphen {token : String} (h : '-' ∈ token.toList) :
    token = (rsplitHyphen token).1 ++ "-" ++ (rsplitHyphen token).2 := by
  have hback := congrArg List.reverse (eq_of_hyphen (List.mem_reverse.mpr h))
  rw [List.reverse_reverse, List.reverse_append, List.reverse_cons] at hback
  apply String.toList_inj.mp
  unfold rsplitHyphen
  dsimp only
  rw [String.toList_append, String.toList_append, String.toList_ofList, String.toList_ofList,
    String.toList_ofList]
  exact hback

/-- The token of a labelled candidate. -/
def candidateToken (candidate : String × Int) : String := candidate.1 ++ "-" ++ toString candidate.2

theorem holdoutCandidate_spec {token : String} {candidate : String × Int}
    (h : holdoutCandidate token = .ok candidate) :
    token = candidateToken candidate ∧ (candidate.2 = 0 ∨ candidate.2 = 1) := by
  unfold holdoutCandidate at h
  dsimp only at h
  split at h
  · cases h
  next hlabel =>
  cases h
  obtain ⟨hhyphen, hbinary⟩ := not_or.mp hlabel
  have htoken := eq_of_rsplitHyphen (not_not.mp hhyphen)
  by_cases hone : (rsplitHyphen token).2 = "1"
  · rw [hone] at htoken
    rw [if_pos hone]
    exact ⟨htoken, Or.inr rfl⟩
  · have hzero : (rsplitHyphen token).2 = "0" := by
      by_contra hzero
      exact hbinary ⟨hzero, hone⟩
    rw [hzero] at htoken
    rw [if_neg hone]
    exact ⟨htoken, Or.inl rfl⟩

/-- The request of a line, under pseudonyms: the whole slate, and the end of the history. -/
structure Exports (rt : Runtime) (args : HoldoutArguments)
    (impression user time history candidates : String) (row : Parsed) : Prop where
  requestGroup : row.requestGroup = holdoutGroup rt args.salt user impression
  userGroup : row.userGroup = privateId rt args.salt "mind-user" user
  servedAt : ∃ served trainingEnd, parseTimestamp time = .ok served ∧ row.servedAt = served.isoformat
    ∧ Dataset.parseDatetime (.str args.trainingEnd) = .ok trainingEnd
    ∧ trainingEnd.micros < served.micros
  history : row.history = lastWords history args.historyLimit.toNat
  candidates : words candidates = (row.candidates.zip row.labels).map candidateToken
  labels : row.candidates.length = row.labels.length ∧ ∀ label ∈ row.labels, label = 0 ∨ label = 1
  slate : 2 ≤ row.candidates.length ∧ row.candidates.Nodup

theorem holdoutRow_spec {seen fields : List String} {row : Parsed}
    (h : holdoutRow rt args seen fields = .ok row) :
    row.requestGroup ∉ seen ∧ ∃ impression user time history candidates,
      fields = [impression, user, time, history, candidates]
        ∧ Exports rt args impression user time history candidates row := by
  unfold holdoutRow at h
  split at h
  · next impression user time history candidates =>
    dsimp only at h
    split at h
    · cases h
    next hseen =>
    rw [except_bind_eq_ok] at h
    obtain ⟨served, hserved, h⟩ := h
    rw [except_bind_eq_ok] at h
    obtain ⟨trainingEnd, hend, h⟩ := h
    split at h
    · cases h
    next hlater =>
    rw [except_bind_eq_ok] at h
    obtain ⟨pairs, hpairs, h⟩ := h
    split at h
    · cases h
    next hslate =>
    cases h
    have htime : parseTimestamp time = .ok served := by
      cases hparse : parseTimestamp time with
      | error e => rw [hparse] at hserved; cases hserved
      | ok t => rw [hparse] at hserved; cases hserved; rfl
    have htraining : Dataset.parseDatetime (.str args.trainingEnd) = .ok trainingEnd := by
      cases hparse : Dataset.parseDatetime (.str args.trainingEnd) with
      | error e => rw [hparse] at hend; cases hend
      | ok t => rw [hparse] at hend; cases hend; rfl
    have htokens : words candidates = pairs.map candidateToken := by
      have hmap := Lib.mapM_eq_ok_iff.mp hpairs
      refine List.ext_getElem? fun i => ?_
      have hi := congrArg (fun l => l[i]?) hmap
      simp only [List.getElem?_map] at hi ⊢
      cases htoken : (words candidates)[i]? with
      | none =>
        rw [htoken] at hi
        cases hpair : pairs[i]? with
        | none => rfl
        | some pair => rw [hpair] at hi; cases hi
      | some token =>
        rw [htoken] at hi
        cases hpair : pairs[i]? with
        | none => rw [hpair] at hi; cases hi
        | some pair =>
          rw [hpair] at hi
          exact congrArg some (holdoutCandidate_spec (Option.some.inj hi)).1
    refine ⟨hseen, impression, user, time, history, candidates, rfl, ?_⟩
    constructor
    · rfl
    · rfl
    · exact ⟨served, trainingEnd, htime, rfl, htraining, not_le.mp hlater⟩
    · rfl
    · rw [htokens, ← List.zip_of_prod rfl rfl]
    · refine ⟨by rw [List.length_map, List.length_map], fun label hlabel => ?_⟩
      obtain ⟨pair, hpair, rfl⟩ := List.mem_map.mp hlabel
      obtain ⟨token, -, htoken⟩ := Lib.exists_of_mem_mapM hpairs hpair
      exact (holdoutCandidate_spec htoken).2
    · obtain ⟨hlength, hnodup⟩ := not_or.mp hslate
      exact ⟨by rw [List.length_map]; omega, not_not.mp hnodup⟩
  · cases h

/-- **The rows** are exported one by one, and no two have one group. -/
theorem holdoutRows_spec {seen : List String} {rows : List (List String)} {parsed : List Parsed}
    (h : holdoutRows rt args seen rows = .ok parsed) :
    parsed.length = rows.length
      ∧ (∀ row ∈ parsed, ∃ impression user time history candidates,
        [impression, user, time, history, candidates] ∈ rows
          ∧ Exports rt args impression user time history candidates row)
      ∧ (parsed.map Parsed.requestGroup).Nodup ∧ ∀ row ∈ parsed, row.requestGroup ∉ seen := by
  induction rows generalizing seen parsed with
  | nil =>
    cases h
    exact ⟨rfl, fun _ hrow => absurd hrow List.not_mem_nil, List.nodup_nil,
      fun _ hrow => absurd hrow List.not_mem_nil⟩
  | cons fields rows ih =>
    unfold holdoutRows at h
    rw [except_bind_eq_ok] at h
    obtain ⟨first, hfirst, h⟩ := h
    rw [except_bind_eq_ok] at h
    obtain ⟨rest, hrest, h⟩ := h
    cases h
    obtain ⟨hnew, impression, user, time, history, candidates, rfl, hexports⟩ :=
      holdoutRow_spec hfirst
    obtain ⟨hlength, hrows, hnodup, hout⟩ := ih hrest
    refine ⟨by rw [List.length_cons, List.length_cons, hlength], fun row hrow => ?_, ?_,
      fun row hrow => ?_⟩
    · rcases List.mem_cons.mp hrow with rfl | hrow
      · exact ⟨_, _, _, _, _, List.mem_cons_self, hexports⟩
      · obtain ⟨i, u, t, hi, c, hmem, hrest⟩ := hrows row hrow
        exact ⟨i, u, t, hi, c, List.mem_cons_of_mem _ hmem, hrest⟩
    · rw [List.map_cons, List.nodup_cons]
      refine ⟨fun hmem => ?_, hnodup⟩
      obtain ⟨row, hrow, hgroup⟩ := List.mem_map.mp hmem
      exact hout row hrow (hgroup ▸ List.mem_cons_self)
    · rcases List.mem_cons.mp hrow with rfl | hrow
      · exact hnew
      · exact fun hseen => hout row hrow (List.mem_cons_of_mem _ hseen)

/-! ### The articles -/

/-- The article that a line of the news files gives for an id. -/
def IsArticle (rt : Runtime) (salt : String) (news : List String) (id : String) (article : Article) :
    Prop :=
  ∃ line ∈ news, (fieldsOfText line).getD 0 "" = id
    ∧ article.articleGroup = privateId rt salt "mind-article" id
    ∧ normalizeContent rt.unicode ((fieldsOfText line).getD 3 "" ++ " " ++ (fieldsOfText line).getD 4 "")
      = .ok article.text
    ∧ article.category = (fieldsOfText line).getD 1 "" ∧ article.subcategory = (fieldsOfText line).getD 2 ""

/-- What the articles are at any point of the news files. -/
structure Collected (rt : Runtime) (salt : String) (news : List String)
    (articles : OrderedDict String Article) : Prop where
  nodup : (articles.map Prod.fst).Nodup
  article : ∀ e ∈ articles, IsArticle rt salt news e.1 e.2

theorem collected_holdoutArticle {salt line : String} {needed news : List String}
    {articles articles' : OrderedDict String Article} (hc : Collected rt salt news articles)
    (hline : line ∈ news) (h : holdoutArticle rt salt needed articles line = .ok articles') :
    Collected rt salt news articles' := by
  unfold holdoutArticle at h
  dsimp only at h
  split at h
  · cases h
  split at h
  · cases h
    exact hc
  split at h
  · cases h
  next text htext =>
  split at h
  · cases h
  cases h
  refine ⟨OrderedDict.nodup_set hc.nodup _ _, fun e he => ?_⟩
  rcases OrderedDict.mem_set he with he | rfl
  · exact hc.article e he
  · exact ⟨line, hline, rfl, rfl, htext, rfl, rfl⟩

theorem collected_foldlM {salt : String} {needed news rest : List String}
    {articles articles' : OrderedDict String Article} (hc : Collected rt salt news articles)
    (hrest : ∀ line ∈ rest, line ∈ news)
    (h : rest.foldlM (holdoutArticle rt salt needed) articles = .ok articles') :
    Collected rt salt news articles' := by
  induction rest generalizing articles with
  | nil =>
    rw [List.foldlM_nil, Lib.except_pure_eq_ok] at h
    exact h ▸ hc
  | cons line rest ih =>
    rw [List.foldlM_cons, except_bind_eq_ok] at h
    obtain ⟨next, hnext, h⟩ := h
    exact ih (collected_holdoutArticle hc (hrest line List.mem_cons_self) hnext)
      (fun x hx => hrest x (List.mem_cons_of_mem line hx)) h

/-- The place of an id leads to its article. -/
theorem getElem?_idxOf_ordered {ordered : List (String × Article)}
    (hnodup : (ordered.map Prod.fst).Nodup) {id : String} {article : Article}
    (hmem : (id, article) ∈ ordered) :
    (ordered.map Prod.snd)[(ordered.map Prod.fst).idxOf id]? = some article := by
  obtain ⟨i, hi⟩ := List.mem_iff_getElem?.mp hmem
  obtain ⟨hlt, hget⟩ := List.getElem?_eq_some_iff.mp hi
  have hidx : (ordered.map Prod.fst).idxOf id = i := by
    have hlt' : i < (ordered.map Prod.fst).length := by rwa [List.length_map]
    have hid : id = (ordered.map Prod.fst)[i] := by rw [List.getElem_map, hget]
    rw [hid, hnodup.idxOf_getElem]
  rw [hidx, List.getElem?_map, hi]
  rfl

/-! ### The holdout -/

variable {trainFiles devFiles : SourceFiles} {holdout : Holdout}

/-- How a request of the holdout is written: the places of the articles, and the rest as it was. -/
structure Written (rt : Runtime) (salt : String) (news : List String) (articles : List Article)
    (row : Parsed) (request : Request) : Prop where
  requestGroup : request.requestGroup = row.requestGroup
  userGroup : request.userGroup = row.userGroup
  servedAt : request.servedAt = row.servedAt
  labels : request.labels = row.labels
  split : request.split = .test
  candidates : List.Forall₂ (fun id index => ∃ article, articles[index]? = some article
    ∧ IsArticle rt salt news id article) row.candidates request.candidates
  history : List.Forall₂ (fun id index => ∃ article, articles[index]? = some article
    ∧ IsArticle rt salt news id article) row.history request.history
  distinct : row.candidates.Nodup → request.candidates.Nodup

/-- What a prepared holdout is made of: the rows in the order of the file of selected lines, each
    written as one request. -/
structure Prepared (rt : Runtime) (trainFiles devFiles : SourceFiles) (args : HoldoutArguments)
    (holdout : Holdout) (rows : List Parsed) : Prop where
  limit : 1 ≤ args.limit ∧ (rows.length : Int) = args.limit
  exported : ∀ row ∈ rows, ∃ text impression user time history candidates,
    encode text ∈ devFiles.behaviors
      ∧ fieldsOfText text = [impression, user, time, history, candidates]
      ∧ holdoutGroup rt args.salt user impression ∉ args.excluded
      ∧ Exports rt args impression user time history candidates row
  groups : (rows.map Parsed.requestGroup).Nodup
  requests : ∃ write : Parsed → Request, holdout.requests.Perm (rows.map write)
    ∧ ∀ row ∈ rows, Written rt args.salt (trainFiles.news ++ devFiles.news) holdout.articles row
      (write row)
  sorted : holdout.requests.Pairwise fun a b => (compareRequest a b).isLE = true

/-- An excluded line would have been skipped. -/
theorem not_mem_excluded {impression user time history candidates : String}
    (h : excludeHoldout rt args ([impression, user, time, history, candidates].map encode)
      = .ok false) : holdoutGroup rt args.salt user impression ∉ args.excluded := by
  unfold excludeHoldout at h
  have huser : decode (([impression, user, time, history, candidates].map encode).getD 1 [])
      = .ok user := decode_encode user
  have himpression : decode (([impression, user, time, history, candidates].map encode).getD 0 [])
      = .ok impression := decode_encode impression
  rw [huser, himpression] at h
  exact of_decide_eq_false (Except.ok.inj h)

/-- **Preparing** a holdout. -/
theorem prepareHoldout_spec (h : prepareHoldout rt trainFiles devFiles args = .ok holdout) :
    ∃ rows, Prepared rt trainFiles devFiles args holdout rows := by
  unfold prepareHoldout at h
  split at h
  · cases h
  rw [except_bind_eq_ok] at h
  obtain ⟨⟨selected, audit⟩, hselected, h⟩ := h
  dsimp only at h
  split at h
  · cases h
  rw [except_bind_eq_ok] at h
  obtain ⟨rows, hrows, h⟩ := h
  rw [except_bind_eq_ok] at h
  obtain ⟨articles, harticles, h⟩ := h
  split at h
  · cases h
  next hknown =>
  cases h
  have hsample : sampleBehaviors rt devFiles.behaviors args.limit args.seed
      (some (excludeHoldout rt args)) = .ok (selected, audit) := by
    cases hcall : sampleBehaviors rt devFiles.behaviors args.limit args.seed
        (some (excludeHoldout rt args)) with
    | error e => rw [hcall] at hselected; cases hselected
    | ok r => rw [hcall] at hselected; cases hselected; rfl
  obtain ⟨hpos, hlimit, hlines⟩ := sampleBehaviors_rows hsample
  obtain ⟨hlength, hexports, hgroups, -⟩ := holdoutRows_spec hrows
  have hnone : Collected rt args.salt (trainFiles.news ++ devFiles.news) [] :=
    ⟨List.nodup_nil, fun _ he => absurd he List.not_mem_nil⟩
  have hcollected := collected_foldlM hnone (fun _ hline => hline) harticles
  set ordered := stableSort (fun a b => compare a.2.articleGroup b.2.articleGroup) articles
    with hordered
  have hperm : ordered.Perm articles := Lib.stableSort_perm _ _
  have hnodup : (ordered.map Prod.fst).Nodup :=
    (hperm.map Prod.fst).nodup_iff.mpr hcollected.nodup
  -- every id that is needed has its article at its place
  have hplace (id : String) (hneeded : ∃ row ∈ rows, id ∈ row.candidates ++ row.history) :
      ∃ article, (ordered.map Prod.snd)[(ordered.map Prod.fst).idxOf id]? = some article
        ∧ IsArticle rt args.salt (trainFiles.news ++ devFiles.news) id article := by
    obtain ⟨row, hrow, hid⟩ := hneeded
    have hsome : (articles.get id).isSome := by
      by_contra hnone
      exact hknown ⟨id, List.mem_flatMap.mpr ⟨row, hrow, hid⟩, by simpa using hnone⟩
    obtain ⟨article, hget⟩ := Option.isSome_iff_exists.mp hsome
    have hmem := OrderedDict.mem_of_get hget
    exact ⟨article, getElem?_idxOf_ordered hnodup (hperm.mem_iff.mpr hmem), hcollected.article _ hmem⟩
  refine ⟨rows, ⟨hpos, by rw [hlength, hlimit]⟩, fun row hrow => ?_, hgroups,
    ⟨holdoutRequest (ordered.map Prod.fst), Lib.stableSort_perm _ _, fun row hrow => ?_⟩, ?_⟩
  · obtain ⟨impression, user, time, history, candidates, hmem, hrest⟩ := hexports row hrow
    obtain ⟨text, hline, htext, -, hskip⟩ := hlines _ hmem
    exact ⟨text, impression, user, time, history, candidates, hline, htext.symm,
      not_mem_excluded hskip, hrest⟩
  · have hforall (ids : List String) (hids : ∀ id ∈ ids, id ∈ row.candidates ++ row.history) :
        List.Forall₂ (fun id index => ∃ article, (ordered.map Prod.snd)[index]? = some article
          ∧ IsArticle rt args.salt (trainFiles.news ++ devFiles.news) id article) ids
          (ids.map fun id => (ordered.map Prod.fst).idxOf id) := by
      rw [List.forall₂_map_right_iff, List.forall₂_same]
      exact fun id hid => hplace id ⟨row, hrow, hids id hid⟩
    constructor
    · rfl
    · rfl
    · rfl
    · rfl
    · rfl
    · exact hforall row.candidates fun id hid => List.mem_append_left _ hid
    · exact hforall row.history fun id hid => List.mem_append_right _ hid
    · intro hdistinct
      refine hdistinct.map_on fun a ha b hb heq => ?_
      -- the place of a known id is within the list of ids
      obtain ⟨article, hget, -⟩ := hplace a ⟨row, hrow, List.mem_append_left _ ha⟩
      have hlt := (List.getElem?_eq_some_iff.mp hget).1
      rw [List.length_map, ← List.length_map (f := Prod.fst)] at hlt
      exact (List.idxOf_inj (List.idxOf_lt_length_iff.mp hlt)).mp heq
  · have htrans : Std.TransCmp compareRequest :=
      inferInstanceAs (Std.TransCmp (compareLex (Lib.compareBy compare Request.servedAt)
        (Lib.compareBy compare Request.requestGroup)))
    exact Lib.pairwise_stableSort compareRequest _

/-- The groups of a prepared holdout are those of its rows. -/
theorem groups_perm {rows : List Parsed} (h : Prepared rt trainFiles devFiles args holdout rows) :
    (holdout.requests.map Request.requestGroup).Perm (rows.map Parsed.requestGroup) := by
  obtain ⟨write, hperm, hwritten⟩ := h.requests
  refine (hperm.map Request.requestGroup).trans (List.Perm.of_eq ?_)
  rw [List.map_map]
  exact List.map_congr_left fun row hrow => (hwritten row hrow).requestGroup

theorem not_mem_excluded_of_mem {rows : List Parsed}
    (h : Prepared rt trainFiles devFiles args holdout rows) {group : String}
    (hgroup : group ∈ holdout.requests.map Request.requestGroup) : group ∉ args.excluded := by
  obtain ⟨row, hrow, rfl⟩ := List.mem_map.mp ((groups_perm h).mem_iff.mp hgroup)
  obtain ⟨_, impression, user, _, _, _, -, -, hout, hexports⟩ := h.exported row hrow
  rwa [hexports.requestGroup]

/-- A hash that shows what it is given. -/
def markedRuntime : Runtime where
  unicode := ⟨fun s => s, fun s => s, fun s => s⟩
  sha256 data := data
  sha256Hex _ := ""
  hmacSha256 salt text := "#" ++ salt ++ text

/-- A dev file of three requests on four articles. -/
def threeBehaviors : SourceFiles where
  behaviors := [encode "1\tU1\t11/15/2019 8:55:22 AM\tN1\tN2-0 N3-1\n",
    encode "2\tU2\t11/15/2019 9:05:00 AM\tN1 N3\tN2-1 N4-0\n",
    encode "3\tU1\t11/15/2019 9:00:00 AM\t\tN4-1 N1-0\n"]
  news := ["N1\tnews\tants\tAnts\tA\t\t\t\n", "N2\tnews\tbees\tBees\tB\t\t\t\n",
    "N3\tnews\tcats\tCats\tC\t\t\t\n", "N4\tnews\tdogs\tDogs\tD\t\t\t\n"]
  newsSha256 := ""

/-- A holdout of two requests after the training window; the first one was evaluated before. -/
def twoRequests : HoldoutArguments :=
  ⟨["#smind-request:MINDlarge_dev:U1:1"], 2, 7, "s", 20, "2019-11-14T00:00:00+00:00"⟩

/-- **What a holdout retains.**  As many requests as asked for, by the order of their times, no two of
    one group and none of an excluded one.  Each is a line of the dev file served after the training
    window, under pseudonyms: all its candidates with their labels, the end of its history, and behind
    the places of both the articles of the news files. -/
theorem prepareHoldout_retains (h : prepareHoldout rt trainFiles devFiles args = .ok holdout) :
    (holdout.requests.length : Int) = args.limit
      ∧ holdout.requests.Pairwise (fun a b => (compareRequest a b).isLE = true)
      ∧ (holdout.requests.map Request.requestGroup).Nodup
      ∧ ∀ request ∈ holdout.requests, request.requestGroup ∉ args.excluded
        ∧ ∃ text impression user time history candidates row, encode text ∈ devFiles.behaviors
          ∧ fieldsOfText text = [impression, user, time, history, candidates]
          ∧ Exports rt args impression user time history candidates row
          ∧ Written rt args.salt (trainFiles.news ++ devFiles.news) holdout.articles row request := by
  obtain ⟨rows, hprepared⟩ := prepareHoldout_spec h
  obtain ⟨write, hperm, hwritten⟩ := hprepared.requests
  refine ⟨?_, hprepared.sorted, (groups_perm hprepared).nodup_iff.mpr hprepared.groups,
    fun request hrequest => ⟨?_, ?_⟩⟩
  · rw [hperm.length_eq, List.length_map]
    exact hprepared.limit.2
  · exact not_mem_excluded_of_mem hprepared (List.mem_map_of_mem hrequest)
  · obtain ⟨row, hrow, rfl⟩ := List.mem_map.mp (hperm.mem_iff.mp hrequest)
    obtain ⟨text, impression, user, time, history, candidates, hline, htext, -, hexports⟩ :=
      hprepared.exported row hrow
    exact ⟨text, impression, user, time, history, candidates, row, hline, htext, hexports,
      hwritten row hrow⟩

/-- The two other requests are retained, in the order of their times. -/
theorem prepareHoldout_retains_twoRequests : ∃ holdout,
    prepareHoldout markedRuntime ⟨[], [], ""⟩ threeBehaviors twoRequests = .ok holdout
      ∧ holdout.requests.map Request.requestGroup
        = ["#smind-request:MINDlarge_dev:U1:3", "#smind-request:MINDlarge_dev:U2:2"]
      ∧ (holdout.requests.length : Int) = 2
      ∧ ∀ request ∈ holdout.requests,
        request.requestGroup ∉ ["#smind-request:MINDlarge_dev:U1:1"] := by
  have hrun : (match prepareHoldout markedRuntime ⟨[], [], ""⟩ threeBehaviors twoRequests with
      | .ok holdout => decide (holdout.requests.map Request.requestGroup
        = ["#smind-request:MINDlarge_dev:U1:3", "#smind-request:MINDlarge_dev:U2:2"])
      | .error _ => false) = true := by decide +kernel
  split at hrun
  · next holdout hok =>
    obtain ⟨hlength, -, -, hall⟩ := prepareHoldout_retains hok
    exact ⟨holdout, hok, of_decide_eq_true hrun, hlength, fun request hrequest =>
      (hall request hrequest).1⟩
  · cases hrun

end Rows

end Oecophylla.Mind
