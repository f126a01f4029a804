import Oecophylla.Lib.LastTransition
import Mathlib.Logic.Function.Basic

namespace Oecophylla.Label

/-!
# The engagement label contract — what the three resolvers share

The resolvers are written in Python, Rust and TypeScript.  They read an event differently,
but once an event is read they do the same: an `if`/`elif` chain over the event type
(`Tally.transition`), a set of candidates, and the candidate of highest precedence.

* `Semantic`, `precedence`, `trainingTarget` — the labels and their targets;
* `Action`, `activated`, `reversals` — the four actions that can be undone;
* `Tally` — the state of the loop, `Tally.transition` one round of it;
* `Evidence` — what a v2 resolver takes from an event: its type, and whether it is a
  qualified read; `Tally.observe` and `semanticOf` are the loop and the choice over it;
* `mem_candidates_iff` — which outcomes the evidence carries;
* `semanticOf_eq` — the choice, spelled out by precedence;
* `semanticOf_eq_semanticOf_iff` — when two readings of the same event types give one label.
-/

/-- The labels. -/
inductive Semantic where
  | exposure
  | click
  | qualifiedRead
  | positive
  | strongPositive
  | negative
  | strongNegative
  deriving DecidableEq, Repr

/-- The labels from the highest precedence to the lowest. -/
def precedence : List Semantic :=
  [.strongNegative, .strongPositive, .positive, .qualifiedRead, .click, .negative, .exposure]

/-- The training target: none for an exposure, which is not final. -/
def trainingTarget : Semantic → Option Int
  | .exposure => none
  | .click | .qualifiedRead | .positive | .strongPositive => some 1
  | .negative | .strongNegative => some 0

/-- The actions that can be undone. -/
inductive Action where
  | like
  | save
  | share
  | hide
  deriving DecidableEq, Repr

/-- `event_type in active`. -/
def activated : String → Option Action
  | "like" => some .like
  | "save" => some .save
  | "share" => some .share
  | "hide" => some .hide
  | _ => none

/-- `REVERSALS`. -/
def reversals : String → Option Action
  | "unlike" => some .like
  | "unsave" => some .save
  | "unshare" => some .share
  | "unhide" => some .hide
  | _ => none

/-- The raw event types of the contract. -/
def eventTypes : List String :=
  ["visible", "click", "view", "dwell", "like", "unlike", "save", "unsave", "share", "unshare",
   "comment", "hide", "unhide", "report"]

/-- The event types whose duration counts. -/
def timed (eventType : String) : Bool := eventType == "view" || eventType == "dwell"

/-- What every resolver returns. -/
structure Verdict where
  semantic : Semantic
  trainingTarget : Option Int
  acceptedEvents : Nat
  deduplicatedEvents : Nat
  processingOrder : List String
  deriving DecidableEq, Repr

/-- What the Python and the TypeScript resolver return. -/
structure LabelResult extends Verdict where
  reversedEventTypes : List Action
  deriving DecidableEq, Repr

/-! ### The loop over the accepted events -/

/-- The state of the loop. -/
structure Tally where
  /-- Which actions are active. -/
  active : Action → Bool
  /-- The candidates that cannot be undone. -/
  irreversible : List Semantic
  /-- Whether the candidate was visible. -/
  visible : Bool
  /-- The actions that were undone, each once. -/
  reversed : List Action

namespace Tally

/-- Before the loop. -/
def empty : Tally := ⟨fun _ => false, [], false, []⟩

/-- Add a candidate. -/
def add (t : Tally) (s : Semantic) : Tally := { t with irreversible := s :: t.irreversible }

/-- The chain over the event type. -/
def transition (t : Tally) (eventType : String) : Tally :=
  match activated eventType with
  | some a => { t with active := Function.update t.active a true }
  | none =>
    match reversals eventType with
    | some a =>
      { t with
        active := Function.update t.active a false
        reversed := if a ∈ t.reversed then t.reversed else t.reversed ++ [a] }
    | none =>
      if eventType = "visible" then { t with visible := true }
      else if eventType = "click" then t.add .click
      else if eventType = "comment" then t.add .positive
      else if eventType = "report" then t.add .strongNegative
      else t

/-- The candidates after the loop, before the plain label is added. -/
def candidates (t : Tally) : List Semantic :=
  (if t.active .like then [.positive] else [])
    ++ (if t.active .save || t.active .share then [.strongPositive] else [])
    ++ (if t.active .hide then [.strongNegative] else [])
    ++ t.irreversible

end Tally

/-- The label without any outcome. -/
def plain (labelWindowClosed : Bool) : Semantic := if labelWindowClosed then .negative else .exposure

/-- Add the plain label: when the candidate was visible, and when there is nothing else. -/
def withPlain (visible labelWindowClosed : Bool) (candidates : List Semantic) : List Semantic :=
  if visible || candidates.isEmpty then plain labelWindowClosed :: candidates else candidates

/-- The candidate of highest precedence. -/
def highest (candidates : List Semantic) : Semantic :=
  (precedence.find? fun s => s ∈ candidates).getD .exposure

/-! ### What a v2 resolver takes from an event -/

/-- The type of an event, and whether it is a qualified read. -/
structure Evidence where
  eventType : String
  qualified : Bool
  deriving DecidableEq, Repr

/-- One round of the v2 loop. -/
def Tally.observe (t : Tally) (e : Evidence) : Tally :=
  if e.qualified then (t.transition e.eventType).add .qualifiedRead else t.transition e.eventType

/-- The v2 loop. -/
def tally (l : List Evidence) : Tally := l.foldl Tally.observe .empty

/-- The label of the accepted events, in order. -/
def semanticOf (labelWindowClosed : Bool) (l : List Evidence) : Semantic :=
  highest (withPlain (tally l).visible labelWindowClosed (tally l).candidates)

/-- The result of a v2 resolver: the evidence and the ids of the accepted events in order. -/
def resolve (labelWindowClosed : Bool) (duplicates : Nat) (accepted : List (Evidence × String)) :
    LabelResult where
  semantic := semanticOf labelWindowClosed (accepted.map Prod.fst)
  trainingTarget := Label.trainingTarget (semanticOf labelWindowClosed (accepted.map Prod.fst))
  acceptedEvents := accepted.length
  deduplicatedEvents := duplicates
  reversedEventTypes := (tally (accepted.map Prod.fst)).reversed
  processingOrder := accepted.map Prod.snd

/-! ### The loop, component by component -/

/-- What an event type does to an action: turn it on, turn it off, or nothing. -/
def effectOn (a : Action) (eventType : String) : Option Bool :=
  if activated eventType = some a then some true
  else if reversals eventType = some a then some false
  else none

/-- The candidate an event type adds for good. -/
def irreversibleOf : String → Option Semantic
  | "click" => some .click
  | "comment" => some .positive
  | "report" => some .strongNegative
  | _ => none

/-- An event type is not both an activation and a reversal. -/
theorem reversals_of_activated {eventType : String} {a : Action}
    (h : activated eventType = some a) : reversals eventType = none := by
  unfold activated at h
  split at h <;> first | contradiction | rfl

/-- An activation adds nothing for good. -/
theorem irreversibleOf_of_activated {eventType : String} {a : Action}
    (h : activated eventType = some a) :
    irreversibleOf eventType = none ∧ eventType ≠ "visible" := by
  unfold activated at h
  split at h <;> first | contradiction | simp [irreversibleOf]

/-- A reversal adds nothing for good. -/
theorem irreversibleOf_of_reversals {eventType : String} {a : Action}
    (h : reversals eventType = some a) :
    irreversibleOf eventType = none ∧ eventType ≠ "visible" := by
  unfold reversals at h
  split at h <;> first | contradiction | simp [irreversibleOf]

namespace Tally

theorem active_transition (t : Tally) (eventType : String) (a : Action) :
    (t.transition eventType).active a = (effectOn a eventType).getD (t.active a) := by
  unfold transition effectOn
  cases hon : activated eventType with
  | some b =>
    by_cases hab : a = b
    · simp [hab]
    · have hba : ¬ b = a := fun h => hab h.symm
      simp [hab, hba, reversals_of_activated hon]
  | none =>
    cases hoff : reversals eventType with
    | some b =>
      by_cases hab : a = b
      · simp [hab]
      · have hba : ¬ b = a := fun h => hab h.symm
        simp [hab, hba]
    | none =>
      simp only [reduceCtorEq, if_false, Option.getD_none, add]
      split_ifs <;> rfl

theorem irreversible_transition (t : Tally) (eventType : String) :
    (t.transition eventType).irreversible
      = (irreversibleOf eventType).toList ++ t.irreversible := by
  unfold transition
  cases hon : activated eventType with
  | some b => simp [(irreversibleOf_of_activated hon).1]
  | none =>
    cases hoff : reversals eventType with
    | some b => simp [(irreversibleOf_of_reversals hoff).1]
    | none =>
      simp only [add]
      split_ifs with h₁ h₂ h₃ h₄
      · simp [h₁, irreversibleOf]
      · simp [h₂, irreversibleOf]
      · simp [h₃, irreversibleOf]
      · simp [h₄, irreversibleOf]
      · have hnone : irreversibleOf eventType = none := by
          unfold irreversibleOf
          split <;> simp_all
        simp [hnone]

@[simp] theorem active_observe (t : Tally) (e : Evidence) (a : Action) :
    (t.observe e).active a = (effectOn a e.eventType).getD (t.active a) := by
  unfold observe
  rw [← active_transition]
  split <;> rfl

theorem mem_irreversible_observe (t : Tally) (e : Evidence) (s : Semantic) :
    s ∈ (t.observe e).irreversible ↔
      s ∈ t.irreversible ∨ irreversibleOf e.eventType = some s
        ∨ (e.qualified = true ∧ s = .qualifiedRead) := by
  unfold observe
  cases e.qualified with
  | true =>
    simp only [if_true, add, List.mem_cons, irreversible_transition, List.mem_append,
      Option.mem_toList, true_and]
    tauto
  | false =>
    simp only [irreversible_transition, List.mem_append, Option.mem_toList, Bool.false_eq_true,
      if_false, false_and, or_false]
    tauto

end Tally

theorem tally_append_singleton (l : List Evidence) (e : Evidence) :
    tally (l ++ [e]) = (tally l).observe e := by
  simp [tally]

/-- An action is active after the loop exactly when its switch is on. -/
theorem active_tally (l : List Evidence) (a : Action) :
    (tally l).active a = Lib.settle (fun e : Evidence => effectOn a e.eventType) l := by
  induction l using List.reverseRecOn with
  | nil => rfl
  | append_singleton l e ih =>
    rw [tally_append_singleton, Tally.active_observe, Lib.settle_append_singleton, ih]

theorem mem_irreversible_tally (l : List Evidence) (s : Semantic) :
    s ∈ (tally l).irreversible ↔
      ∃ e ∈ l, irreversibleOf e.eventType = some s ∨ (e.qualified = true ∧ s = .qualifiedRead) := by
  induction l using List.reverseRecOn with
  | nil => simp [tally, Tally.empty]
  | append_singleton l e ih =>
    rw [tally_append_singleton, Tally.mem_irreversible_observe, ih]
    simp [or_and_right, exists_or]

/-! ### The choice of the label -/

/-- The evidence carries an outcome. -/
def Outcome (l : List Evidence) : Semantic → Prop
  | .strongNegative => (tally l).active .hide = true ∨ ∃ e ∈ l, e.eventType = "report"
  | .strongPositive => (tally l).active .save = true ∨ (tally l).active .share = true
  | .positive => (tally l).active .like = true ∨ ∃ e ∈ l, e.eventType = "comment"
  | .qualifiedRead => ∃ e ∈ l, e.qualified = true
  | .click => ∃ e ∈ l, e.eventType = "click"
  | .negative | .exposure => False

instance (l : List Evidence) (s : Semantic) : Decidable (Outcome l s) := by
  cases s <;> (unfold Outcome; infer_instance)

theorem irreversibleOf_eq_some {eventType : String} {s : Semantic} :
    irreversibleOf eventType = some s ↔
      (eventType = "click" ∧ s = .click) ∨ (eventType = "comment" ∧ s = .positive)
        ∨ (eventType = "report" ∧ s = .strongNegative) := by
  unfold irreversibleOf
  split <;> simp_all [eq_comm]

/-- **The candidates** are the outcomes that the evidence carries. -/
theorem mem_candidates_iff (l : List Evidence) (s : Semantic) :
    s ∈ (tally l).candidates ↔ Outcome l s := by
  unfold Tally.candidates
  simp only [List.mem_append, mem_irreversible_tally, irreversibleOf_eq_some]
  cases s <;> simp [Outcome]

theorem candidates_eq_nil_iff (l : List Evidence) :
    (tally l).candidates.isEmpty = true ↔ ∀ s, ¬ Outcome l s := by
  simp only [List.isEmpty_iff, List.eq_nil_iff_forall_not_mem, mem_candidates_iff]

theorem mem_withPlain {closed : Bool} {s : Semantic} {l : List Evidence} :
    s ∈ withPlain (tally l).visible closed (tally l).candidates ↔
      Outcome l s ∨ (s = plain closed ∧ ((tally l).visible = true ∨ ∀ s', ¬ Outcome l s')) := by
  unfold withPlain
  rw [← candidates_eq_nil_iff]
  by_cases h : ((tally l).visible || (tally l).candidates.isEmpty) = true
  · have h' : (tally l).visible = true ∨ (tally l).candidates.isEmpty = true := by simpa using h
    simp only [h, if_true, List.mem_cons, mem_candidates_iff, h', and_true]
    exact or_comm
  · have h' : ¬ ((tally l).visible = true ∨ (tally l).candidates.isEmpty = true) := by simpa using h
    simp only [h, if_false, mem_candidates_iff, h', and_false, or_false, Bool.false_eq_true]

/-- **The label, spelled out.**  The outcome of highest precedence, else the plain label. -/
theorem semanticOf_eq (closed : Bool) (l : List Evidence) :
    semanticOf closed l =
      if Outcome l .strongNegative then .strongNegative
      else if Outcome l .strongPositive then .strongPositive
      else if Outcome l .positive then .positive
      else if Outcome l .qualifiedRead then .qualifiedRead
      else if Outcome l .click then .click
      else plain closed := by
  unfold semanticOf highest precedence
  -- the plain label is none of the five outcomes
  have hplain : plain closed = .negative ∨ plain closed = .exposure := by cases closed <;> simp [plain]
  by_cases h₁ : Outcome l .strongNegative
  · simp [mem_withPlain, h₁]
  by_cases h₂ : Outcome l .strongPositive
  · rcases hplain with hp | hp <;> simp [mem_withPlain, h₁, h₂, hp]
  by_cases h₃ : Outcome l .positive
  · rcases hplain with hp | hp <;> simp [mem_withPlain, h₁, h₂, h₃, hp]
  by_cases h₄ : Outcome l .qualifiedRead
  · rcases hplain with hp | hp <;> simp [mem_withPlain, h₁, h₂, h₃, h₄, hp]
  by_cases h₅ : Outcome l .click
  · rcases hplain with hp | hp <;> simp [mem_withPlain, h₁, h₂, h₃, h₄, h₅, hp]
  -- nothing is left, so the plain label is the only candidate
  have hnone : ∀ s, ¬ Outcome l s := fun s => by cases s <;> first | assumption | exact id
  rcases hplain with hp | hp <;> simp [mem_withPlain, h₁, h₂, h₃, h₄, h₅, hp, hnone]

/-- The active label of highest precedence. -/
def IsHighest (active : Semantic → Prop) (s : Semantic) : Prop :=
  active s ∧ ∀ s', active s' → precedence.idxOf s ≤ precedence.idxOf s'

/-- The chosen label is the highest active one exactly when some label is active: where no
    outcome is, the plain label is chosen whether or not the candidate was visible. -/
theorem isHighest_semanticOf_iff {closed : Bool} {l : List Evidence} {active : Semantic → Prop}
    {visible : Prop} (houtcome : ∀ s, s ≠ .negative → s ≠ .exposure → (active s ↔ Outcome l s))
    (hnegative : active .negative ↔ closed = true ∧ visible)
    (hexposure : active .exposure ↔ closed = false ∧ visible) :
    IsHighest active (semanticOf closed l) ↔ visible ∨ ∃ s, Outcome l s := by
  have h₁ := houtcome .strongNegative (by decide) (by decide)
  have h₂ := houtcome .strongPositive (by decide) (by decide)
  have h₃ := houtcome .positive (by decide) (by decide)
  have h₄ := houtcome .qualifiedRead (by decide) (by decide)
  have h₅ := houtcome .click (by decide) (by decide)
  rw [semanticOf_eq]
  by_cases hany : ∃ s, Outcome l s
  · -- the chain picks the first of the five outcomes that is carried
    refine iff_of_true ?_ (.inr hany)
    unfold IsHighest
    split_ifs with c₁ c₂ c₃ c₄ c₅
    · exact ⟨h₁.mpr c₁, fun s' _ => by cases s' <;> decide⟩
    · refine ⟨h₂.mpr c₂, fun s' h' => ?_⟩
      cases s' <;> first
        | decide
        | exact absurd (h₁.mp h') c₁
    · refine ⟨h₃.mpr c₃, fun s' h' => ?_⟩
      cases s' <;> first
        | decide
        | exact absurd (h₁.mp h') c₁
        | exact absurd (h₂.mp h') c₂
    · refine ⟨h₄.mpr c₄, fun s' h' => ?_⟩
      cases s' <;> first
        | decide
        | exact absurd (h₁.mp h') c₁
        | exact absurd (h₂.mp h') c₂
        | exact absurd (h₃.mp h') c₃
    · refine ⟨h₅.mpr c₅, fun s' h' => ?_⟩
      cases s' <;> first
        | decide
        | exact absurd (h₁.mp h') c₁
        | exact absurd (h₂.mp h') c₂
        | exact absurd (h₃.mp h') c₃
        | exact absurd (h₄.mp h') c₄
    · obtain ⟨s, hs⟩ := hany
      cases s <;> contradiction
  · have hnone : ∀ s, ¬ Outcome l s := fun s hs => hany ⟨s, hs⟩
    simp only [hnone, if_false, exists_false, or_false]
    have hplain : active (plain closed) ↔ visible := by
      cases closed <;> simp [plain, hnegative, hexposure]
    constructor
    · rintro ⟨h, -⟩
      exact hplain.mp h
    · intro hv
      refine ⟨hplain.mpr hv, fun s' h' => ?_⟩
      -- only the other plain label could be active, and the window excludes it
      cases s' with
      | negative => rw [(hnegative.mp h').1]; decide
      | exposure => rw [(hexposure.mp h').1]; decide
      | strongNegative => exact absurd (h₁.mp h') (hnone _)
      | strongPositive => exact absurd (h₂.mp h') (hnone _)
      | positive => exact absurd (h₃.mp h') (hnone _)
      | qualifiedRead => exact absurd (h₄.mp h') (hnone _)
      | click => exact absurd (h₅.mp h') (hnone _)

/-- An outcome above a qualified read. -/
def Outranked (l : List Evidence) : Prop :=
  Outcome l .strongNegative ∨ Outcome l .strongPositive ∨ Outcome l .positive

instance (l : List Evidence) : Decidable (Outranked l) :=
  inferInstanceAs (Decidable (_ ∨ _ ∨ _))

section SameTypes

variable {l l' : List Evidence}

/-- What the loop does to the actions depends on the event types only. -/
theorem active_tally_congr (htypes : l.map (·.eventType) = l'.map (·.eventType)) (a : Action) :
    (tally l).active a = (tally l').active a := by
  have hfold : ∀ l : List Evidence, (tally l).active a
      = Lib.settle (effectOn a) (l.map (·.eventType)) := by
    intro l
    rw [active_tally]
    simp only [Lib.settle, List.foldl_map]
    rfl
  rw [hfold, hfold, htypes]

theorem exists_eventType_congr (htypes : l.map (·.eventType) = l'.map (·.eventType)) (ty : String) :
    (∃ e ∈ l, e.eventType = ty) ↔ ∃ e ∈ l', e.eventType = ty := by
  simp only [← List.mem_map, htypes]

/-- The outcomes other than a qualified read depend on the event types only. -/
theorem outcome_congr (htypes : l.map (·.eventType) = l'.map (·.eventType)) {s : Semantic}
    (hs : s ≠ .qualifiedRead) : Outcome l s ↔ Outcome l' s := by
  cases s <;>
    simp only [Outcome, active_tally_congr htypes, exists_eventType_congr htypes, ne_eq,
      not_true_eq_false] at hs ⊢

/-- **Two readings of the same event types.**  They give one label exactly when they agree on
    whether there is a qualified read, or an outcome above it decides. -/
theorem semanticOf_eq_semanticOf_iff (closed : Bool)
    (htypes : l.map (·.eventType) = l'.map (·.eventType)) :
    semanticOf closed l = semanticOf closed l' ↔
      ((∃ e ∈ l, e.qualified = true) ↔ ∃ e ∈ l', e.qualified = true) ∨ Outranked l := by
  rw [semanticOf_eq, semanticOf_eq]
  simp only [← outcome_congr (s := .strongNegative) htypes (by simp),
    ← outcome_congr (s := .strongPositive) htypes (by simp),
    ← outcome_congr (s := .positive) htypes (by simp),
    ← outcome_congr (s := .click) htypes (by simp)]
  show _ ↔ (Outcome l .qualifiedRead ↔ Outcome l' .qualifiedRead) ∨ _
  unfold Outranked
  have hplain : plain closed ≠ .qualifiedRead := by cases closed <;> simp [plain]
  by_cases h₁ : Outcome l .strongNegative
  · simp [h₁]
  by_cases h₂ : Outcome l .strongPositive
  · simp [h₁, h₂]
  by_cases h₃ : Outcome l .positive
  · simp [h₁, h₂, h₃]
  simp only [h₁, h₂, h₃, if_false, or_false]
  by_cases h₅ : Outcome l .click <;> by_cases h₄ : Outcome l .qualifiedRead <;>
    by_cases h₄' : Outcome l' .qualifiedRead <;> simp [h₄, h₄', h₅, hplain, hplain.symm]

end SameTypes

end Oecophylla.Label
