import Oecophylla.Content.Text
import Oecophylla.Dataset.Split

namespace Oecophylla.Mind

open Lib (stableSort)
open Content (Unicode normalizeContent)
open Dataset (SplitName)
open Oecophylla.Python (Datetime roundDouble)

/-!
# The compact MIND dataset — `ai_pipeline/mind_large.py`

* `sampleBehaviors` — the requests with the lowest hashes, in bounded memory;
* `strptime`, `parseTimestamp` — the times of the behaviors file;
* `prepareDataset` — the requests with their splits, the articles and the metadata.

The files are given as the lines that Python reads from them: bytes of `behaviors.tsv`, text of
`news.tsv`.
-/

/-- `bytes`. -/
abbrev Bytes := List UInt8

/-- What the module raises. -/
inductive Raised where
  | valueError (text : String)
  | unicodeDecodeError
  | indexError
  deriving DecidableEq, Repr

/-- What the module calls in the standard library. -/
structure Runtime where
  unicode : Unicode
  /-- `hashlib.sha256(data).digest()`. -/
  sha256 : Bytes → Bytes
  /-- `hashlib.sha256(data).hexdigest()`. -/
  sha256Hex : Bytes → String
  /-- `hmac.new(salt.encode(), text.encode(), hashlib.sha256).hexdigest()`. -/
  hmacSha256 : (salt text : String) → String

/-! ### Bytes and texts -/

/-- `data.decode()`. -/
def decode (data : Bytes) : Except Raised String :=
  match String.fromUTF8? ⟨data.toArray⟩ with
  | some text => .ok text
  | none => .error .unicodeDecodeError

/-- `text.encode()`. -/
def encode (text : String) : Bytes := text.toUTF8.toList

/-- `line.rstrip("\r\n")`, on the code units of a line. -/
def rstrip {α : Type} (isEnd : α → Bool) (line : List α) : List α :=
  (line.reverse.dropWhile isEnd).reverse

/-- `line.rstrip(b"\r\n").split(b"\t")`. -/
def fieldsOfBytes (line : Bytes) : List Bytes :=
  (rstrip (fun b => b == 13 || b == 10) line).splitOn 9

/-- `line.rstrip("\r\n").split("\t")`. -/
def fieldsOfText (line : String) : List String :=
  ((rstrip (fun c => c == '\r' || c == '\n') line.toList).splitOn '\t').map String.ofList

/-- `text.split()`. -/
def words (text : String) : List String :=
  ((text.toList.splitOnP Content.isSpace).filter (· ≠ [])).map String.ofList

/-- `token.rsplit("-", 1)`, of a token with a hyphen. -/
def rsplitHyphen (token : String) : String × String :=
  let back := token.toList.reverse
  (String.ofList ((back.dropWhile (· ≠ '-')).drop 1).reverse,
    String.ofList (back.takeWhile (· ≠ '-')).reverse)

/-- `_private_id(salt, namespace, value)`. -/
def privateId (rt : Runtime) (salt namespace_ value : String) : String :=
  rt.hmacSha256 salt (namespace_ ++ ":" ++ value)

/-! ### Sampling -/

/-- An entry of the heap. -/
abbrev Item := Int × Bytes

/-- The order of tuples. -/
def compareItem (a b : Item) : Ordering := (compare a.1 b.1).then (compare a.2 b.2)

/-- `heapq.heappush(heap, item)`; the heap is kept as the sorted list of its entries. -/
def heappush (heap : List Item) (item : Item) : List Item :=
  heap.orderedInsert (fun a b => (compareItem a b).isLE = true) item

/-- `heapq.heapreplace(heap, item)`: the smallest entry goes. -/
def heapreplace (heap : List Item) (item : Item) : List Item := heappush heap.tail item

/-- `int.from_bytes(data)`. -/
def intFromBytes (data : Bytes) : Int := data.foldl (fun n b => n * 256 + b.toNat) 0

/-- The state of the loop of `sample_behaviors`. -/
structure Sample where
  heap : List Item
  count : Nat
  excluded : Nat
  deriving DecidableEq, Repr

/-- What a call to `sample_behaviors` reports. -/
structure Audit where
  requests : Nat
  selected : Nat
  sha256 : String
  excludedRequests : Nat
  deriving DecidableEq, Repr

variable (rt : Runtime)

/-- The priority of a line: the hash of its request under the seed. -/
def priority (seed : Int) (fields : List Bytes) : Int :=
  intFromBytes (rt.sha256 (encode (toString seed) ++ [58] ++ fields.getD 1 [] ++ [58]
    ++ fields.getD 0 []))

/-- One line of the loop of `sample_behaviors`. -/
def observe (limit seed : Int) (exclude : Option (List Bytes → Except Raised Bool)) (s : Sample)
    (line : Bytes) : Except Raised Sample := do
  let count := s.count + 1
  let fields := fieldsOfBytes line
  if fields.length ≠ 5 then .error (.valueError s!"malformed behavior at line {count}")
  else
    let skip ← match exclude with
      | none => .ok false
      | some exclude => exclude fields
    if skip then .ok { s with count := count, excluded := s.excluded + 1 }
    else
      let item : Item := (-priority rt seed fields, line)
      if (s.heap.length : Int) < limit then
        .ok { s with count := count, heap := heappush s.heap item }
      else if ∃ least ∈ s.heap.head?, compareItem item least = .gt then
        .ok { s with count := count, heap := heapreplace s.heap item }
      else .ok { s with count := count }

/-- `sample_behaviors(path, limit=limit, seed=seed, exclude=exclude)`. -/
def sampleBehaviors (lines : List Bytes) (limit seed : Int)
    (exclude : Option (List Bytes → Except Raised Bool)) :
    Except Raised (List (List String) × Audit) := do
  if limit < 1 then .error (.valueError "request limit must be positive")
  else
    let s ← lines.foldlM (observe rt limit seed exclude) ⟨[], 0, 0⟩
    let available := (s.count : Int) - s.excluded
    if available < limit then
      .error (.valueError s!"requested {limit} requests, but only {available} are available")
    else
      let rows ← s.heap.reverse.mapM fun item => do
        let text ← decode item.2
        pure (fieldsOfText text)
      pure (rows, ⟨s.count, rows.length, rt.sha256Hex lines.flatten, s.excluded⟩)

/-! ### Times -/

/-- `\d`, as its value. -/
def digit (c : Char) : Option Nat := Oecophylla.Python.digitValue 10 c

/-- `%m` and `%I`: `1[0-2]|0[1-9]|[1-9]`. -/
def oneToTwelve : List Char → Option Nat
  | ['1', c] => if '0' ≤ c ∧ c ≤ '2' then some (10 + (c.toNat - 48)) else none
  | ['0', c] => if '1' ≤ c ∧ c ≤ '9' then some (c.toNat - 48) else none
  | [c] => if '1' ≤ c ∧ c ≤ '9' then some (c.toNat - 48) else none
  | _ => none

/-- `%d`: `3[0-1]|[1-2]\d|0[1-9]|[1-9]| [1-9]`. -/
def dayOfMonth : List Char → Option Nat
  | ['3', c] => if '0' ≤ c ∧ c ≤ '1' then some (30 + (c.toNat - 48)) else none
  | ['1', c] => (digit c).map (10 + ·)
  | ['2', c] => (digit c).map (20 + ·)
  | ['0', c] => if '1' ≤ c ∧ c ≤ '9' then some (c.toNat - 48) else none
  | [' ', c] => if '1' ≤ c ∧ c ≤ '9' then some (c.toNat - 48) else none
  | [c] => if '1' ≤ c ∧ c ≤ '9' then some (c.toNat - 48) else none
  | _ => none

/-- `%M`: `[0-5]\d|\d`. -/
def minuteOfHour : List Char → Option Nat
  | [a, b] => if '0' ≤ a ∧ a ≤ '5' then (digit b).map ((a.toNat - 48) * 10 + ·) else none
  | [c] => digit c
  | _ => none

/-- `%S`: `6[0-1]|[0-5]\d|\d`. -/
def secondOfMinute : List Char → Option Nat
  | ['6', c] => if '0' ≤ c ∧ c ≤ '1' then some (60 + (c.toNat - 48)) else none
  | cs => minuteOfHour cs

/-- The hour of `%I` and `%p`. -/
def hourOfDay (hour : Nat) (marker : List Char) : Option Nat :=
  let marker := marker.map Char.toLower
  if marker = ['a', 'm'] then some (if hour = 12 then 0 else hour)
  else if marker = ['p', 'm'] then some (if hour = 12 then 12 else hour + 12)
  else none

/-- `\s+` behind a part: what follows the spaces, when there are some. -/
def afterSpaces : List Char → Option (List Char)
  | [] => none
  | c :: cs => if Content.isSpace c then some (cs.dropWhile Content.isSpace) else none

/-- `datetime.strptime(text, "%m/%d/%Y %I:%M:%S %p")`; `none` when it raises `ValueError`. -/
def strptime (text : List Char) : Option Datetime := do
  match text.splitOn '/' with
  | [month, day, rest] =>
    match rest.splitOn ':' with
    | [yearHour, minute, secondMarker] =>
      let year ← ((yearHour.take 4).mapM digit).map (·.foldl (fun n d => n * 10 + d) 0)
      let hour ← oneToTwelve (← afterSpaces (yearHour.drop 4))
      let marker ← afterSpaces (secondMarker.dropWhile fun c => !Content.isSpace c)
      let t : Datetime := {
        year := year
        month := ← oneToTwelve month
        day := ← dayOfMonth day
        hour := ← hourOfDay hour marker
        minute := ← minuteOfHour minute
        second := ← secondOfMinute (secondMarker.takeWhile fun c => !Content.isSpace c)
        microsecond := 0
        utcoffset := none }
      if (yearHour.take 4).length = 4 ∧ t.valid = true then some t else none
    | _ => none
  | _ => none

/-- `_parse_timestamp(value)`. -/
def parseTimestamp (value : String) : Except Raised Datetime :=
  match strptime (Oecophylla.Python.strip value.toList) with
  | some t => .ok { t with utcoffset := some 0 }
  | none => .error (.valueError ("invalid MIND behavior timestamp: " ++ value))

/-! ### Requests -/

/-- A request of a behaviors file. -/
structure Parsed where
  requestGroup : String
  userGroup : String
  servedAt : String
  history : List String
  candidates : List String
  labels : List Int
  deriving DecidableEq, Repr

/-- The labelled candidates of a request. -/
def parseCandidates (candidates : String) : Except Raised (List (String × Int)) := do
  let pairs ← (words candidates).mapM fun token =>
    let (candidate, label) := rsplitHyphen token
    if '-' ∉ token.toList ∨ (label ≠ "0" ∧ label ≠ "1") then
      .error (.valueError
        "training/evaluation requires binary click labels; official test is unlabeled")
    else .ok (candidate, if label = "1" then (1 : Int) else 0)
  if pairs.length < 2 then .error (.valueError "each request needs at least two candidates")
  else if ¬ (pairs.map Prod.fst).Nodup then
    .error (.valueError "duplicate candidate in request")
  else pure pairs

/-- `history.split()[-history_limit:]`. -/
def lastWords (history : String) (historyLimit : Nat) : List String :=
  let ids := words history
  ids.drop (ids.length - historyLimit)

/-- One selected line; `seen` has the requests so far. -/
def parseRow (source salt : String) (historyLimit : Nat) (seen : List String) :
    List String → Except Raised (String × Parsed)
  | [impression, user, time, history, candidates] => do
    let identity := source ++ ":" ++ user ++ ":" ++ impression
    if identity ∈ seen then .error (.valueError "duplicate canonical request")
    else
      let pairs ← parseCandidates candidates
      let servedAt ← parseTimestamp time
      pure (identity, {
        requestGroup := privateId rt salt "mind-request" identity
        userGroup := privateId rt salt "mind-user" user
        servedAt := servedAt.isoformat
        history := lastWords history historyLimit
        candidates := pairs.map Prod.fst
        labels := pairs.map Prod.snd })
  | _ => .error (.valueError "unpacking a behavior")

/-- The selected lines of a source, with the requests seen so far. -/
def parseRows (source salt : String) (historyLimit : Nat) :
    List String → List (List String) → Except Raised (List String × List Parsed)
  | seen, [] => .ok (seen, [])
  | seen, row :: rows => do
    let (identity, parsed) ← parseRow rt source salt historyLimit seen row
    let (seen, rest) ← parseRows source salt historyLimit (identity :: seen) rows
    pure (seen, parsed :: rest)

/-- `key=lambda row: (row["served_at"], row["request_group"])`. -/
def compareParsed (a b : Parsed) : Ordering :=
  (compare a.servedAt b.servedAt).then (compare a.requestGroup b.requestGroup)

/-- The files of a source. -/
structure SourceFiles where
  behaviors : List Bytes
  news : List String
  /-- `sha256_file(path)` of `news.tsv`. -/
  newsSha256 : String

/-- The arguments of `prepare_dataset`. -/
structure Arguments where
  trainRequests : Int
  testRequests : Int
  seed : Int
  salt : String
  historyLimit : Int
  excludeTestRequests : List String

/-- The requests of `MINDlarge_train` or `MINDlarge_dev` in the order of their times. -/
def loadSource (source : String) (files : SourceFiles) (args : Arguments) (limit : Int)
    (exclude : Option (List Bytes → Except Raised Bool)) (seen : List String) :
    Except Raised (List String × List Parsed × Audit) := do
  let (selected, audit) ← sampleBehaviors rt files.behaviors limit args.seed exclude
  if source = "MINDlarge_dev" ∧ audit.excludedRequests ≠ args.excludeTestRequests.eraseDups.length then
    .error (.valueError "holdout exclusion mismatch: verify source data and identity salt")
  else
    let (seen, parsed) ← parseRows rt source args.salt args.historyLimit.toNat seen selected
    pure (seen, stableSort compareParsed parsed, audit)

/-- The exclusion predicate of a source. -/
def excludeOf (source : String) (args : Arguments) (fields : List Bytes) : Except Raised Bool := do
  let user ← decode (fields.getD 1 [])
  let impression ← decode (fields.getD 0 [])
  let identity := source ++ ":" ++ user ++ ":" ++ impression
  pure (privateId rt args.salt "mind-request" identity ∈ args.excludeTestRequests)

/-! ### Splits -/

/-- A request with its split. -/
structure Split extends Parsed where
  split : SplitName
  deriving DecidableEq, Repr

/-- `times[min(len(times) - 1, max(1, int(len(times) * 0.85)))]`. -/
def cutoffIndex (count : Nat) : Nat :=
  min (count - 1) (max 1 (roundDouble ((count : ℚ) * roundDouble (85 / 100))).floor.toNat)

/-- The splits of the two sources, with the cutoff; the test requests come last. -/
def assignSplits (train test : List Parsed) : Except Raised (List Split × String) :=
  let times := stableSort compare (train.map Parsed.servedAt).eraseDups
  let refuse : Except Raised (List Split × String) := .error (.valueError
    "selected official splits must be strictly chronological with at least two training timestamps")
  if times.length < 2 then refuse
  else
    match train.getLast?, test.head?, times[cutoffIndex times.length]? with
    | some lastTrain, some firstTest, some cutoff =>
      if firstTest.servedAt ≤ lastTrain.servedAt then refuse
      else .ok (train.map (fun row =>
          { row with split := if row.servedAt < cutoff then .train else .validation })
        ++ test.map (fun row => { row with split := .test }), cutoff)
    | _, _, _ => .error .indexError

/-! ### Articles -/

/-- An article. -/
structure Article where
  articleGroup : String
  text : String
  category : String
  subcategory : String
  deriving DecidableEq, Repr

/-- One line of `news.tsv`; `news` has the articles so far. -/
def readNews (salt : String) (needed : List String) (news : List (String × Article))
    (line : String) : Except Raised (List (String × Article)) := do
  let fields := fieldsOfText line
  if fields.length ≠ 8 then .error (.valueError "news.tsv must have eight fields")
  else
    let id := fields.getD 0 ""
    if id ∉ needed then .ok news
    else
      match normalizeContent rt.unicode (fields.getD 3 "" ++ " " ++ fields.getD 4 "") with
      | .error e => .error (.valueError e.text)
      | .ok text =>
        let value : Article :=
          ⟨privateId rt salt "mind-article" id, text, fields.getD 1 "", fields.getD 2 ""⟩
        match news.lookup id with
        | none => .ok (news ++ [(id, value)])
        | some old =>
          if old ≠ value then
            .error (.valueError "conflicting article revisions across official splits")
          else .ok news

/-- A request whose articles are indices. -/
structure Request where
  requestGroup : String
  userGroup : String
  servedAt : String
  history : List Nat
  candidates : List Nat
  labels : List Int
  split : SplitName
  deriving DecidableEq, Repr

/-- The metadata of the result that are not constants. -/
structure Metadata where
  seed : Int
  sourceFiles : List (String × Audit) × List (String × String)
  historyLimit : Int
  validationCutoff : String
  excludedTestRequests : Nat
  excludedTestGroupsSha256 : String
  splitCounts : List (SplitName × Nat)

/-- What `prepare_dataset` returns. -/
structure CompactDataset where
  articles : List Article
  requests : List Request
  metadata : Metadata

/-- The request with the places of its articles. -/
def indexed (orderedIds : List String) (row : Split) : Request where
  requestGroup := row.requestGroup
  userGroup := row.userGroup
  servedAt := row.servedAt
  history := row.history.map fun id => orderedIds.idxOf id
  candidates := row.candidates.map fun id => orderedIds.idxOf id
  labels := row.labels
  split := row.split

/-- `prepare_dataset(data_dir, …)`. -/
def prepareDataset (trainFiles devFiles : SourceFiles) (args : Arguments) :
    Except Raised CompactDataset := do
  if args.salt = "" ∨ args.historyLimit < 1 then
    .error (.valueError "salt and a positive history limit are required")
  else
    let (seen, train, trainAudit) ←
      loadSource rt "MINDlarge_train" trainFiles args args.trainRequests none []
    let exclude := if args.excludeTestRequests = [] then none
      else some (excludeOf rt "MINDlarge_dev" args)
    let (_, test, devAudit) ←
      loadSource rt "MINDlarge_dev" devFiles args args.testRequests exclude seen
    let (requests, cutoff) ← assignSplits train test
    let needed := (train ++ test).flatMap fun row => row.candidates ++ row.history
    let news ← (trainFiles.news ++ devFiles.news).foldlM (readNews rt args.salt needed) []
    let missing := needed.eraseDups.filter fun id => (news.lookup id).isNone
    if missing ≠ [] then .error (.valueError s!"unknown articles: {missing.length}")
    else
      let ordered := stableSort (fun a b => compare a.2.articleGroup b.2.articleGroup) news
      let excluded := args.excludeTestRequests.eraseDups
      pure {
        articles := ordered.map Prod.snd
        requests := requests.map (indexed (ordered.map Prod.fst))
        metadata := {
          seed := args.seed
          sourceFiles := ([("MINDlarge_train/behaviors.tsv", trainAudit),
              ("MINDlarge_dev/behaviors.tsv", devAudit)],
            [("MINDlarge_train/news.tsv", trainFiles.newsSha256),
              ("MINDlarge_dev/news.tsv", devFiles.newsSha256)])
          historyLimit := args.historyLimit
          validationCutoff := cutoff
          excludedTestRequests := excluded.length
          excludedTestGroupsSha256 :=
            rt.sha256Hex (encode ("\n".intercalate (stableSort compare excluded)))
          splitCounts := [SplitName.train, .validation, .test].map fun s =>
            (s, requests.countP fun row => row.split = s) } }

end Oecophylla.Mind
