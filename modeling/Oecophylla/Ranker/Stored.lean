import Oecophylla.Lib.NdArray
import Oecophylla.Ranker.Nrms

namespace Oecophylla.Ranker

open Lib (NdArray)

/-!
# Rankers as they are stored — `ai_pipeline/model.py`

A checkpoint and an artifact have arrays of any shape and an architecture of any numbers.

* `StoredArchitecture`, `postInit` — `NRMSArchitecture` and the checks of `__post_init__`;
* `StoredRanker` — `NRMSLikeRanker` with its arrays; `Admitted` — arrays of the right shapes;
* `NRMSLikeRanker.stored`, `StoredRanker.typed?` — between a ranker and the stored one;
* `typed?_stored` — a ranker comes back.
-/

/-- `NRMSArchitecture`. -/
structure StoredArchitecture (F : Type) where
  embeddingDimension : Int
  attentionHeads : Int
  historyLength : Int
  seed : Int
  positionScale : F
  semanticResidual : F

/-- `NRMSLikeRanker`. -/
structure StoredRanker (F : Type) where
  architecture : StoredArchitecture F
  queryProjection : NdArray F
  keyProjection : NdArray F
  valueProjection : NdArray F
  calibrationScale : F
  calibrationBias : F
  popularEmbedding : Option (NdArray F)

section Stored

variable {F : Type} [Field F] [LinearOrder F]

/-- `__post_init__`; the numbers are finite. -/
def StoredArchitecture.postInit (a : StoredArchitecture F) :
    Except String (StoredArchitecture F) :=
  if a.embeddingDimension ≤ 0 then .error "embedding_dimension must be positive"
  else if a.attentionHeads ≤ 0 then .error "attention_heads must be positive"
  else if a.embeddingDimension % a.attentionHeads ≠ 0 then
    .error "embedding_dimension must be divisible by attention_heads"
  else if a.historyLength < 0 then .error "history_length must not be negative"
  else if a.positionScale < 0 then .error "position_scale must be finite and non-negative"
  else if ¬ (0 ≤ a.semanticResidual ∧ a.semanticResidual ≤ 1) then
    .error "semantic_residual must be finite and between zero and one"
  else .ok a

/-- The checks pass, or raise. -/
theorem StoredArchitecture.postInit_eq_ok_iff {a b : StoredArchitecture F} :
    a.postInit = .ok b ↔ a = b ∧ 0 < a.embeddingDimension ∧ 0 < a.attentionHeads
      ∧ a.embeddingDimension % a.attentionHeads = 0 ∧ 0 ≤ a.historyLength
      ∧ 0 ≤ a.positionScale ∧ 0 ≤ a.semanticResidual ∧ a.semanticResidual ≤ 1 := by
  unfold StoredArchitecture.postInit
  split_ifs with h₁ h₂ h₃ h₄ h₅ h₆
  · rw [false_iff]
    omega
  · rw [false_iff]
    omega
  · rw [false_iff]
    exact fun h => h₃ h.2.2.2.1
  · rw [false_iff]
    omega
  · rw [false_iff]
    exact fun h => absurd h₅ (not_lt.mpr h.2.2.2.2.2.1)
  · rw [Except.ok.injEq]
    exact ⟨fun h => ⟨h, by omega, by omega, not_not.mp h₃, by omega, not_lt.mp h₅, h₆⟩,
      fun h => h.1⟩
  · rw [false_iff]
    exact fun h => h₆ h.2.2.2.2.2.2

/-- `head_dimension`. -/
def StoredArchitecture.headDimension (a : StoredArchitecture F) : Int :=
  a.embeddingDimension / a.attentionHeads

/-- The shape of a projection. -/
def StoredArchitecture.headShape (a : StoredArchitecture F) : List Int :=
  [a.attentionHeads, a.embeddingDimension, a.headDimension]

/-- `array.shape`. -/
def shapeOf (x : NdArray F) : List Int := x.shape.map fun n => (n : Int)

/-- A ranker whose architecture passes its checks and whose arrays have its shapes. -/
structure StoredRanker.Admitted (r : StoredRanker F) : Prop where
  postInit : r.architecture.postInit = .ok r.architecture
  query : shapeOf r.queryProjection = r.architecture.headShape
  key : shapeOf r.keyProjection = r.architecture.headShape
  value : shapeOf r.valueProjection = r.architecture.headShape
  popular : ∀ x ∈ r.popularEmbedding, shapeOf x = [r.architecture.embeddingDimension]

section Typed

variable {heads width : Nat}

/-- The architecture of a ranker, with its seed. -/
def NRMSArchitecture.stored (seed : Int) (a : NRMSArchitecture F heads width) :
    StoredArchitecture F where
  embeddingDimension := (heads * width : Nat)
  attentionHeads := heads
  historyLength := a.historyLength
  seed := seed
  positionScale := a.positionScale
  semanticResidual := a.semanticResidual

/-- A ranker and its arrays. -/
def NRMSLikeRanker.stored (seed : Int) (r : NRMSLikeRanker F heads width) : StoredRanker F where
  architecture := r.architecture.stored seed
  queryProjection := .ofTensor r.queryProjection
  keyProjection := .ofTensor r.keyProjection
  valueProjection := .ofTensor r.valueProjection
  calibrationScale := r.calibrationScale
  calibrationBias := r.calibrationBias
  popularEmbedding := r.popularEmbedding.map .ofVector

variable (heads width) in
/-- A stored architecture with this number of heads and this width of a head. -/
def StoredArchitecture.typed? (a : StoredArchitecture F) :
    Option (NRMSArchitecture F heads width) :=
  if h : a.embeddingDimension = (heads * width : Nat) ∧ a.attentionHeads = heads ∧ 0 < heads
      ∧ 0 < width ∧ 0 ≤ a.historyLength ∧ 0 ≤ a.positionScale
      ∧ 0 ≤ a.semanticResidual ∧ a.semanticResidual ≤ 1 then
    some {
      historyLength := a.historyLength.toNat
      positionScale := a.positionScale
      semanticResidual := a.semanticResidual
      heads_pos := h.2.2.1
      width_pos := h.2.2.2.1
      positionScale_nonneg := h.2.2.2.2.2.1
      semanticResidual_mem := h.2.2.2.2.2.2 }
  else none

variable (heads width) in
/-- The fallback embedding, if its array has the right shape. -/
def popular? : Option (NdArray F) → Option (Option (Embedding F heads width))
  | none => some none
  | some x => (x.vector? (heads * width)).map some

variable (heads width) in
/-- A stored ranker with this number of heads and this width of a head. -/
def StoredRanker.typed? (r : StoredRanker F) : Option (NRMSLikeRanker F heads width) := do
  let architecture ← r.architecture.typed? heads width
  let queryProjection ← r.queryProjection.tensor? heads (heads * width) width
  let keyProjection ← r.keyProjection.tensor? heads (heads * width) width
  let valueProjection ← r.valueProjection.tensor? heads (heads * width) width
  let popularEmbedding ← popular? heads width r.popularEmbedding
  pure {
    architecture, queryProjection, keyProjection, valueProjection
    calibrationScale := r.calibrationScale
    calibrationBias := r.calibrationBias
    popularEmbedding }

theorem typed?_stored_architecture (seed : Int) (a : NRMSArchitecture F heads width) :
    (a.stored seed).typed? heads width = some a := by
  -- what `typed?` asks are the invariants of the architecture
  have hchecks : (a.stored seed).embeddingDimension = (heads * width : Nat)
      ∧ (a.stored seed).attentionHeads = heads ∧ 0 < heads ∧ 0 < width
      ∧ 0 ≤ (a.stored seed).historyLength ∧ 0 ≤ (a.stored seed).positionScale
      ∧ 0 ≤ (a.stored seed).semanticResidual ∧ (a.stored seed).semanticResidual ≤ 1 :=
    ⟨rfl, rfl, a.heads_pos, a.width_pos, Int.natCast_nonneg _, a.positionScale_nonneg,
      a.semanticResidual_mem.1, a.semanticResidual_mem.2⟩
  unfold StoredArchitecture.typed?
  rw [dif_pos hchecks]
  rfl

/-- **A ranker comes back** from its arrays. -/
theorem typed?_stored (seed : Int) (r : NRMSLikeRanker F heads width) :
    (r.stored seed).typed? heads width = some r := by
  have hpopular : popular? heads width (r.stored seed).popularEmbedding
      = some r.popularEmbedding := by
    show popular? heads width (r.popularEmbedding.map NdArray.ofVector) = _
    cases r.popularEmbedding with
    | none => rfl
    | some p => simp [popular?]
  unfold StoredRanker.typed?
  rw [hpopular]
  show ((r.architecture.stored seed).typed? heads width >>= fun architecture =>
    (NdArray.ofTensor r.queryProjection).tensor? heads (heads * width) width >>= fun query =>
    (NdArray.ofTensor r.keyProjection).tensor? heads (heads * width) width >>= fun key =>
    (NdArray.ofTensor r.valueProjection).tensor? heads (heads * width) width >>= fun value => _) = _
  rw [typed?_stored_architecture, NdArray.tensor?_ofTensor, NdArray.tensor?_ofTensor,
    NdArray.tensor?_ofTensor]
  rfl

theorem architecture_of_typed? {s : StoredRanker F} {r : NRMSLikeRanker F heads width}
    (h : s.typed? heads width = some r) : s.architecture.typed? heads width = some r.architecture := by
  obtain ⟨a, ha, h⟩ := Option.bind_eq_some_iff.mp h
  obtain ⟨query, -, h⟩ := Option.bind_eq_some_iff.mp h
  obtain ⟨key, -, h⟩ := Option.bind_eq_some_iff.mp h
  obtain ⟨value, -, h⟩ := Option.bind_eq_some_iff.mp h
  obtain ⟨popular, -, h⟩ := Option.bind_eq_some_iff.mp h
  obtain rfl := Option.some.inj h
  exact ha

/-- A ranker is stored with the shapes of its architecture. -/
theorem admitted_stored (seed : Int) (r : NRMSLikeRanker F heads width) :
    (r.stored seed).Admitted := by
  have hheads := r.architecture.heads_pos
  have hwidth := r.architecture.width_pos
  have hshape : (r.stored seed).architecture.headShape
      = [(heads : Int), ((heads * width : Nat) : Int), (width : Int)] := by
    -- the width of a head is that of the projections
    have hdiv : ((heads * width : Nat) : Int) / (heads : Int) = (width : Int) := by
      rw [Nat.cast_mul, Int.mul_ediv_cancel_left _ (by omega)]
    show [(heads : Int), ((heads * width : Nat) : Int), ((heads * width : Nat) : Int) / heads] = _
    rw [hdiv]
  refine ⟨?_, ?_, ?_, ?_, ?_⟩
  · have hpos : 0 < heads * width := Nat.mul_pos hheads hwidth
    have hmod : ((heads * width : Nat) : Int) % (heads : Int) = 0 := by
      rw [Nat.cast_mul, Int.mul_emod_right]
    refine StoredArchitecture.postInit_eq_ok_iff.mpr ⟨rfl, ?_, ?_, hmod, Int.natCast_nonneg _,
      r.architecture.positionScale_nonneg, r.architecture.semanticResidual_mem⟩
    · exact Int.natCast_pos.mpr hpos
    · exact Int.natCast_pos.mpr hheads
  · rw [hshape]
    rfl
  · rw [hshape]
    rfl
  · rw [hshape]
    rfl
  · intro x hx
    obtain ⟨p, -, rfl⟩ := Option.mem_map.mp hx
    rfl

end Typed

end Stored

end Oecophylla.Ranker
