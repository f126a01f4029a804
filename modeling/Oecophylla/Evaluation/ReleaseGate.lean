import Mathlib.Data.List.Dedup
import Oecophylla.Evaluation.Holdout

namespace Oecophylla.Evaluation

open Oecophylla.Dataset (parseDatetime)
open Oecophylla.Lib (stableSort)
open Oecophylla.Python (Timestamp)

/-!
# The production approval — `ai_pipeline/release_gate.py`

* `Document` — the report and the evidence, as `json.loads` gives them;
* `checkWindow`, `traceValid` — the operational evidence;
* `releaseChecks` — what `evaluate_release` looks at, in its order;
* `evaluateRelease` — the decision;
* `evaluateRelease_approved` — an approval leaves every check without a finding.

The gate does not look at `report["promotion"]`.
-/

/-! ### Documents -/

/-- A document whose doubles are an `F`. -/
inductive Document (F : Type) where
  | none
  | bool (b : Bool)
  | int (z : Int)
  | float (x : F)
  | str (s : String)
  | list (items : List (Document F))
  | dict (fields : List (String × Document F))

/-- What the gate raises. -/
inductive GateError where
  /-- `.get` of what is not a `dict`. -/
  | attributeError
  | keyError (name : String)
  /-- `math.isfinite` of an integer that no double comes near. -/
  | overflowError
  deriving DecidableEq, Repr

namespace Document

variable {F E : Type} (n : Numerics F E)

/-- `d.get(name, default)`. -/
def getOr (d : Document F) (name : String) (default : Document F) :
    Except GateError (Document F) :=
  match d with
  | .dict fields => .ok ((fields.lookup name).getD default)
  | _ => .error .attributeError

/-- `d.get(name)`. -/
def get (d : Document F) (name : String) : Except GateError (Document F) := d.getOr name .none

/-- `d.get(name, {})`. -/
def getDict (d : Document F) (name : String) : Except GateError (Document F) :=
  d.getOr name (.dict [])

/-- `d[name]`, when it returns. -/
def item (d : Document F) (name : String) : Option (Document F) :=
  match d with
  | .dict fields => fields.lookup name
  | _ => Option.none

mutual
/-- `v == w`. -/
def eq : Document F → Document F → Bool
  | .none, .none => true
  | .bool a, .bool b => a == b
  | .bool a, .int z => (if a then 1 else 0) == z
  | .int z, .bool a => z == (if a then 1 else 0)
  | .bool a, .float x => n.eqInt (if a then 1 else 0) x
  | .float x, .bool a => n.eqInt (if a then 1 else 0) x
  | .int y, .int z => y == z
  | .int z, .float x => n.eqInt z x
  | .float x, .int z => n.eqInt z x
  | .float x, .float y => n.eq x y
  | .str s, .str t => s == t
  | .list a, .list b => eqItems a b
  | .dict a, .dict b => a.length == b.length && eqFields a b
  | _, _ => false

/-- `==` on lists. -/
def eqItems : List (Document F) → List (Document F) → Bool
  | [], [] => true
  | v :: vs, w :: ws => eq v w && eqItems vs ws
  | _, _ => false

/-- Every field of a dictionary has its value in another. -/
def eqFields : List (String × Document F) → List (String × Document F) → Bool
  | [], _ => true
  | (k, v) :: fs, d =>
    (match d.lookup k with
      | some w => eq v w
      | Option.none => false) && eqFields fs d
end

/-- `bool(v)`. -/
def truthy : Document F → Bool
  | .none => false
  | .bool b => b
  | .int z => z != 0
  | .float x => !n.eqInt 0 x
  | .str s => s != ""
  | .list items => !items.isEmpty
  | .dict fields => !fields.isEmpty

/-- `v or {}`. -/
def orEmpty (v : Document F) : Document F := if v.truthy n then v else .dict []

/-- `v is True`. -/
def isTrue : Document F → Bool
  | .bool b => b
  | _ => false

/-- `type(v) is int and v >= minimum`. -/
def intAtLeast (minimum : Int) : Document F → Bool
  | .int z => decide (minimum ≤ z)
  | _ => false

/-- A text or `None`. -/
def ofText : Option String → Document F
  | Option.none => .none
  | some s => .str s

/-- `parse_datetime(v)`, when it returns. -/
def timestamp : Document F → Option Timestamp
  | .str s => (parseDatetime (.str s)).toOption
  | _ => Option.none

/-! ### Numbers -/

/-- `_number`. -/
def isNumber : Document F → Except GateError Bool
  | .int z =>
    match Double.ofInt z with
    | .infinite _ => .error .overflowError
    | _ => .ok true
  | .float x => .ok (n.isfinite x)
  | _ => .ok false

/-- The double of a number.  Rounding does not cross a limit that is a double, so that numbers are
    compared with limits by their doubles. -/
def double : Document F → F
  | .int z => n.ofRat z
  | .float x => x
  | _ => n.ofRat 0

/-- `v < limit` on numbers. -/
def lessThan (v : Document F) (limit : F) : Bool := n.lt (v.double n) limit

/-- `limit < v` on numbers. -/
def moreThan (limit : F) (v : Document F) : Bool := n.lt limit (v.double n)

/-- `v <= limit` on numbers. -/
def atMost (v : Document F) (limit : F) : Bool := v.lessThan n limit || n.eq (v.double n) limit

/-- `limit <= v` on numbers. -/
def atLeast (limit : F) (v : Document F) : Bool := v.moreThan n limit || n.eq limit (v.double n)

/-- `_number(v) and _number(w)`. -/
def areNumbers (v w : Document F) : Except GateError Bool := do
  if ← v.isNumber n then w.isNumber n else return false

/-- `v - w > limit` on numbers. -/
def exceeds (v w : Document F) (limit : F) : Bool :=
  match v, w with
  | .int y, .int z => n.lt limit (n.ofRat (y - z : Int))
  | _, _ => n.lt limit (n.sub (v.double n) (w.double n))

end Document

/-! ### Findings -/

/-- What a check adds to `missing` and to `failures`. -/
structure Findings where
  missing : List String
  failures : List String
  deriving DecidableEq, Repr

/-- No finding. -/
def Findings.none : Findings := ⟨[], []⟩

/-- `if bad: missing.append(name)`. -/
def missingIf (bad : Bool) (name : String) : Findings := if bad then ⟨[name], []⟩ else .none

section Gate

variable {F E : Type} (n : Numerics F E)

/-- What `datetime.now(timezone.utc)` returns to the checks of the shadow window, of the canary
    window and of the trace. -/
structure Clock where
  shadow : Timestamp
  canary : Timestamp
  trace : Timestamp

/-! ### Operational evidence -/

/-- `observation_window` of `check_window`. -/
def windowTooShort (window : Document F) (minimumHours : Int) (now : Timestamp) : Bool :=
  match (window.item "started_at").bind (·.timestamp), (window.item "ended_at").bind (·.timestamp) with
  | some start, some finish =>
    decide (finish.micros - start.micros < minimumHours * 3600 * 1000000) || decide (now < finish)
  | _, _ => true

/-- `not _number(value) or not 0 <= value <= maximum`. -/
def outOfBounds (value : Document F) (maximum : ℚ) : Except GateError Bool := do
  return !(← value.isNumber n)
    || !(value.atLeast n (n.ofRat 0) && value.atMost n (n.ofRat maximum))

/-- `check_window`. -/
def checkWindow (window : Document F) (minimumHours minimumRequests : Int) (shadow : Bool)
    (now : Timestamp) : Except GateError (List String) := do
  let observation :=
    if windowTooShort window minimumHours now then ["observation_window"] else []
  let count ← window.get "requests"
  let requests := if count.intAtLeast minimumRequests then [] else ["request_count"]
  let limits ← [("p95_ms", (500 : ℚ)), ("fallback_rate", 1 / 100), ("error_rate", 1 / 1000)].mapM
    fun (name, maximum) => do
      return if ← outOfBounds n (← window.get name) maximum then [name] else []
  let orderChanges ← window.get "order_changes"
  let order :=
    if shadow && !(match orderChanges with
      | .int z => z == 0
      | _ => false) then ["shadow_order_changes"] else []
  return observation ++ requests ++ limits.flatten ++ order

/-- `re.fullmatch("[a-f0-9]{64}", v)`. -/
def isSha256 : Document F → Bool
  | .str s => s.length == 64 && s.toList.all fun c => c.isDigit || ('a' ≤ c && c ≤ 'f')
  | _ => false

/-- `trace[name] == text`. -/
def hasText (trace : Document F) (name text : String) : Bool :=
  match trace.item name with
  | some (.str s) => s == text
  | _ => false

/-- `_trace_valid`. -/
def traceValid (trace : Document F) (now : Timestamp) : Bool :=
  let time (name : String) : Option Timestamp := (trace.item name).bind (·.timestamp)
  (["request_group", "candidate_group", "dataset_sample_id"].all fun key =>
      (trace.item key).any isSha256)
    && (match time "served_at", time "visible_at", time "click_at", time "dwell_at",
          time "history_reference_at", time "shadow_scored_at" with
        | some served, some visible, some click, some dwell, some history, some shadow =>
          decide (served ≤ visible) && decide (visible ≤ click) && decide (click ≤ dwell)
            && decide (dwell < history) && decide (history ≤ shadow) && decide (shadow ≤ now)
        | _, _, _, _, _, _ => false)
    && hasText trace "feature_schema_version" "rank-features-v2"
    && hasText trace "history_schema_version" "user-history-snapshot-v1"
    && hasText trace "dataset_schema_version" "recommendation-dataset-v2"
    && (trace.item "dwell_ms").any (·.intAtLeast 10000)
    && (trace.item "model_version").any (·.truthy n)

/-! ### Checks -/

/-- `REQUIRED_SEGMENTS`. -/
def requiredSegments : List (Segment × String) :=
  [(.userTenure, "new"), (.articleTenure, "new"), (.language, "vi")]

/-- `evidence_schema_version`. -/
def checkEvidenceVersion (evidence : Document F) : Except GateError Findings := do
  let version ← evidence.get "evidence_schema_version"
  return missingIf (!version.eq n (.str "recommendation-release-evidence-v1"))
    "versioned_release_evidence"

/-- The evidence is about production. -/
def checkProductionDomain (evidence : Document F) : Except GateError Findings := do
  let environment ← evidence.get "environment"
  if environment.eq n (.str "production") then
    let format ← (← evidence.getDict "dataset").get "source_format"
    return missingIf (!format.eq n (.str "oecophylla-telemetry-v2")) "production_domain_holdout"
  else return missingIf true "production_domain_holdout"

/-- The comparison is about production. -/
def checkProvenance (report : Document F) : Except GateError Findings := do
  let provenance ← report.getDict "data_provenance"
  let formats ← provenance.get "source_formats"
  return missingIf (!formats.eq n (.list [.str "oecophylla-telemetry-v2"]))
    "comparison_production_provenance"

/-- The comparison is bound to the dataset of the evidence. -/
def checkDatasetBinding (report evidence : Document F) : Except GateError Findings := do
  let dataset ← (← report.getDict "data_provenance").get "dataset_sha256"
  if dataset.truthy n then
    let sha256 ← (← evidence.getDict "dataset").get "sha256"
    return missingIf (!dataset.eq n sha256) "dataset_evidence_binding"
  else return missingIf true "dataset_evidence_binding"

/-- The comparison is bound to the model. -/
def checkModelBinding (report : Document F) (modelSha256 : Option String) :
    Except GateError Findings := do
  let model ← (← report.getDict "data_provenance").get "model_sha256"
  return missingIf (!model.eq n (.ofText modelSha256) || !(Document.ofText modelSha256).truthy n)
    "comparison_model_binding"

/-- A review of the dataset that must have passed. -/
def checkReview (evidence : Document F) (field : String) : Except GateError Findings := do
  let passed ← (← evidence.getDict "dataset").get field
  return missingIf (!passed.isTrue) field

/-- The number of test requests. -/
def checkSample (report : Document F) : Except GateError Findings := do
  let requests ← (← report.getDict "sample").get "requests"
  return missingIf (!requests.intAtLeast 1000) "minimum_1000_test_requests"

/-- The interval of a metric lies above the tolerated regression. -/
def checkInterval (interval : Document F) (label : String) : Except GateError Findings := do
  match interval with
  | .list [lower, upper] =>
    if ← lower.areNumbers n upper then
      let tolerated := n.neg (n.ofRat (1 / 100))
      if upper.lessThan n tolerated then return ⟨[], [label ++ ":regression"]⟩
      else return missingIf (lower.lessThan n tolerated) (label ++ ":uncertain_no_regression")
    else return missingIf true (label ++ ":confidence_interval")
  | _ => return missingIf true (label ++ ":confidence_interval")

/-- A metric of `report["comparisons"]`. -/
def checkComparison (report : Document F) (name : String) (metric : Metric) :
    Except GateError Findings := do
  let comparison ← (← report.getDict "comparisons").getDict name
  let interval ← (← comparison.getDict metric.name).get "ci95"
  checkInterval n interval (name ++ ":" ++ metric.name)

/-- `report["segments"][name][bucket]`. -/
def segmentOf (report : Document F) (name : Segment) (bucket : String) :
    Except GateError (Document F) := do
  (← (← report.getDict "segments").getDict name.name).getDict bucket

/-- The number of requests of a required segment. -/
def checkSegmentSize (report : Document F) (name : Segment) (bucket : String) :
    Except GateError Findings := do
  let segment ← segmentOf report name bucket
  let requests ← segment.get "requests"
  let eligible ← segment.get "impression_auc_eligible_requests"
  return missingIf (!(requests.intAtLeast 100 && eligible.intAtLeast 100))
    (name.name ++ ":" ++ bucket ++ ":minimum_100_requests")

/-- A metric of a required segment. -/
def checkSegmentComparison (report : Document F) (name : Segment) (bucket baseline : String)
    (metric : Metric) : Except GateError Findings := do
  let segment ← segmentOf report name bucket
  let comparison ← (← segment.getDict "comparisons").getDict baseline
  let interval ← (← comparison.getDict metric.name).get "ci95"
  checkInterval n interval (name.name ++ ":" ++ bucket ++ ":" ++ baseline ++ ":" ++ metric.name)

/-- A guardrail of a model. -/
def checkGuardrail (report : Document F) (model metric : String) (higher : Bool) :
    Except GateError Findings := do
  let models ← report.getDict "models"
  let value ← (← models.getDict model).get metric
  let baseline ← (← models.getDict "logged_position_baseline").get metric
  if ← value.areNumbers n baseline then
    let regression :=
      if higher then baseline.exceeds n value (n.ofRat (2 / 100))
      else value.exceeds n baseline (n.ofRat (2 / 100))
    return if regression then ⟨[], [model ++ ":" ++ metric ++ ":guardrail_regression"]⟩ else .none
  else return missingIf true (model ++ ":" ++ metric)

/-- The window of an observation. -/
def checkObservation (evidence : Document F) (name : String) (hours count : Int) (now : Timestamp)
    (modelSha256 : Option String) : Except GateError Findings := do
  let window ← evidence.getDict name
  let model ← window.get "model_sha256"
  let reasons ← checkWindow n window hours count (name == "shadow") now
  return ⟨(missingIf (!model.eq n (.ofText modelSha256) || !(Document.ofText modelSha256).truthy n)
      (name ++ ":model_evidence_binding")).missing ++ reasons.map (name ++ ":" ++ ·), []⟩

/-- The canary follows the shadow. -/
def checkChronology (evidence : Document F) : Except GateError Findings :=
  match ((evidence.item "canary").bind (·.item "started_at")).bind (·.timestamp),
    ((evidence.item "shadow").bind (·.item "ended_at")).bind (·.timestamp) with
  | some started, some ended =>
    .ok (missingIf (decide (started < ended)) "canary_must_follow_shadow")
  | _, _ => .ok (missingIf true "shadow_canary_chronology")

/-- The traffic of the canary. -/
def checkTraffic (evidence : Document F) : Except GateError Findings := do
  let traffic ← (← evidence.getDict "canary").get "traffic_percent"
  return missingIf
    (!(← traffic.isNumber n) || !(traffic.moreThan n (n.ofRat 0) && traffic.atMost n (n.ofRat 5)))
    "bounded_canary_traffic"

/-- The trace. -/
def checkTrace (evidence : Document F) (now : Timestamp) : Except GateError Findings := do
  return missingIf (!traceValid n (← evidence.getDict "trace") now)
    "served_behavior_dataset_history_shadow_trace"

/-- The rehearsal of the rollback. -/
def checkRollback (evidence : Document F) (modelSha256 : Option String) :
    Except GateError Findings := do
  let rollback ← evidence.getDict "rollback"
  let passed ← rollback.get "heuristic_passed"
  let model ← rollback.get "model_sha256"
  return missingIf (!passed.isTrue || !model.eq n (.ofText modelSha256)) "rollback_rehearsal"

/-- The evidence is bound to a file by its hash. -/
def checkBinding (evidence : Document F) (name : String) (expected : Option String) :
    Except GateError Findings := do
  let bound ← evidence.get name
  return missingIf (!(Document.ofText expected).truthy n || !bound.eq n (.ofText expected))
    (name ++ ":evidence_binding")

/-- What `evaluate_release` checks, in its order. -/
def releaseChecks (clock : Clock) (report evidence : Document F)
    (comparisonSha256 modelSha256 : Option String) : List (Except GateError Findings) :=
  [checkEvidenceVersion n evidence, checkProductionDomain n evidence,
    checkProvenance n report, checkDatasetBinding n report evidence,
    checkModelBinding n report modelSha256]
  ++ ["privacy_review_passed", "temporal_audit_passed", "serving_policy_parity_passed"].map
    (checkReview evidence)
  ++ [checkSample report]
  ++ (["pure_vs_logged_position", "pure_vs_logistic"].flatMap fun name =>
    metrics.map (checkComparison n report name))
  ++ (requiredSegments.flatMap fun (name, bucket) =>
    checkSegmentSize report name bucket
      :: ["logged_position", "logistic"].flatMap fun baseline =>
        metrics.map (checkSegmentComparison n report name bucket baseline))
  ++ (["pure_model", "post_policy"].flatMap fun model =>
    [("coverage_at_k", true), ("embedding_diversity_at_k", true),
      ("strong_negative_rate_at_k", false)].map fun (metric, higher) =>
        checkGuardrail n report model metric higher)
  ++ [checkObservation n evidence "shadow" 48 10000 clock.shadow modelSha256,
    checkObservation n evidence "canary" 24 5000 clock.canary modelSha256,
    checkChronology evidence, checkTraffic n evidence, checkTrace n evidence clock.trace,
    checkRollback n evidence modelSha256,
    checkBinding n evidence "comparison_sha256" comparisonSha256,
    checkBinding n evidence "model_sha256" modelSha256]

/-- What `evaluate_release` decides. -/
inductive Decision where
  | fail
  | inconclusive
  | noRegression
  | win
  deriving DecidableEq, Repr

/-- What `evaluate_release` returns. -/
structure Release where
  decision : Decision
  approved : Bool
  missingEvidence : List String
  failures : List String
  deriving DecidableEq, Repr

/-- `decision`. -/
def decisionOf (report : Document F) (missing failures : List String) : Except GateError Decision :=
  if !failures.isEmpty then .ok .fail
  else if !missing.isEmpty then .ok .inconclusive
  else do
    let comparison ← (← report.getDict "comparisons").getDict "pure_vs_logged_position"
    match ← (← comparison.getDict Metric.ndcgAt10.name).get "ci95" with
    | .list (lower :: _) => return if lower.moreThan n (n.ofRat 0) then .win else .noRegression
    | _ => throw (.keyError "ci95")

/-- `sorted(set(texts))`. -/
def sortedSet (texts : List String) : List String := stableSort compare texts.dedup

/-- `evaluate_release`. -/
def evaluateRelease (clock : Clock) (report evidence : Document F)
    (comparisonSha256 modelSha256 : Option String) : Except GateError Release := do
  let findings ←
    (releaseChecks n clock report (evidence.orEmpty n) comparisonSha256 modelSha256).mapM id
  let missing := findings.flatMap (·.missing)
  let failures := findings.flatMap (·.failures)
  let decision ← decisionOf n report missing failures
  return {
    decision
    approved := decision = .win || decision = .noRegression
    missingEvidence := sortedSet missing
    failures := sortedSet failures }

/-! ### Approvals -/

variable {n}

/-- **An approval** leaves every check without a finding. -/
theorem evaluateRelease_approved {clock : Clock} {report evidence : Document F}
    {comparisonSha256 modelSha256 : Option String} {release : Release}
    (h : evaluateRelease n clock report evidence comparisonSha256 modelSha256 = .ok release)
    (happroved : release.approved = true) :
    ∀ check ∈ releaseChecks n clock report (evidence.orEmpty n) comparisonSha256 modelSha256,
      check = .ok .none := by
  unfold evaluateRelease at h
  simp only [Lib.except_bind_eq_ok, Lib.except_pure_eq_ok] at h
  obtain ⟨findings, hfindings, decision, hdecision, rfl⟩ := h
  rw [Lib.mapM_eq_ok_iff, List.map_id] at hfindings
  -- a decision to approve is made when nothing is found
  have hnil : findings.flatMap (·.missing) = [] ∧ findings.flatMap (·.failures) = [] := by
    unfold decisionOf at hdecision
    split at hdecision
    · obtain rfl := Except.ok.inj hdecision
      cases happroved
    · next hfailures =>
      split at hdecision
      · obtain rfl := Except.ok.inj hdecision
        cases happroved
      · next hmissing =>
        exact ⟨by simpa using hmissing, by simpa using hfailures⟩
  intro check hcheck
  rw [hfindings] at hcheck
  obtain ⟨finding, hfinding, rfl⟩ := List.mem_map.mp hcheck
  have hmissing : finding.missing = [] := List.flatMap_eq_nil_iff.mp hnil.1 finding hfinding
  have hfailures : finding.failures = [] := List.flatMap_eq_nil_iff.mp hnil.2 finding hfinding
  obtain ⟨missing, failures⟩ := finding
  obtain rfl := hmissing
  obtain rfl := hfailures
  rfl

theorem missingIf_eq_none {bad : Bool} {name : String} (h : missingIf bad name = .none) :
    bad = false := by
  cases bad with
  | false => rfl
  | true => cases h

end Gate

end Oecophylla.Evaluation
