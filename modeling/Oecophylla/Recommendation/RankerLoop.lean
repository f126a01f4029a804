import Oecophylla.Lib.Run
import Oecophylla.Recommendation.ModelRanker

namespace Oecophylla.Recommendation.ModelRanker

open Lib (run)

/-!
# The ranker on the event loop — `model_ranker.py`, `RankerRuntime.score_async`

A request that is scored starts a task, which runs `score` in a thread, and waits for it behind a
`shield`.  The request may give up, the task goes on.

* `Action`, `step` — what happens between two `await`s: a request comes, a thread comes back, a
  request that waits goes on, runs out of time or is cancelled;
* `step_cases` — what a step does;
* `Sound` — the invariant: a task that is not done is in the slot, whoever waits waits for their own
  task, and every answer is the heuristic's or from their own task;
* `Undisturbed` — the invariant of a run during which a task is not done;
* `isolated` — both, for all runs;
* `interrupted_request` — the predictor for which `score_async` returns nothing.

The predictor does anything, also nothing: then the thread never comes back.  What it raises is an
answer of the heuristic, unless it is no `Exception`; then the task has raised it, and so does the
`score_async` that waits for this task.  `KeyboardInterrupt` and `SystemExit` stop the event loop when
the task is done with them; a run that goes on after that has more steps than the loop would take.
-/

/-- The arguments of `score_async`; the timeout is when `Action.timeout` happens. -/
structure Request (C X : Type) where
  items : List (RecommendationItem X)
  records : Option (List C)

/-- A task: the request it is for, and what the predictor did, when the task is done. -/
structure Call (C X : Type) where
  request : Request C X
  predictScores : Option (PredictScores C)

/-- What a request has got. -/
structure Answer (C X : Type) where
  request : Request C X
  decision : RankingDecision X

/-- The slot `_inflight`, all tasks so far, the requests that wait for one, the answers, and the
    requests for which `score_async` has raised. -/
structure State (C X : Type) where
  inflight : Option Nat
  calls : List (Call C X)
  waiting : List (Request C X × Nat)
  answers : List (Answer C X)
  raised : List (Request C X)

/-- What happens; requests that wait are named by their place. -/
inductive Action (C X : Type) where
  | arrive (request : Request C X)
  | finish (call : Nat) (predictScores : PredictScores C)
  | wake (i : Nat)
  | timeout (i : Nat)
  | cancel (i : Nat)

section Loop

variable {C X : Type} (runtime : RankerRuntime)

/-- `score(items, records=records)`, once the predictor has done what it does. -/
def Call.outcome (call : Call C X) : Option (Except Raised (RankingDecision X)) :=
  call.predictScores.map fun predictScores =>
    runtime.score predictScores call.request.items "personalized" call.request.records

namespace State

/-- Nobody has come yet. -/
def initial : State C X := ⟨none, [], [], [], []⟩

/-- A task that is not done. -/
def Running (s : State C X) (call : Nat) : Prop :=
  ∃ request, s.calls[call]? = some ⟨request, none⟩

/-- `self._inflight is not None and not self._inflight.done()`. -/
def busy (s : State C X) : Bool :=
  match s.inflight.bind fun call => s.calls[call]? with
  | some ⟨_, none⟩ => true
  | _ => false

def answer (s : State C X) (request : Request C X) (decision : RankingDecision X) : State C X :=
  { s with answers := s.answers ++ [⟨request, decision⟩] }

/-- What `score` did is what `score_async` does. -/
def conclude (s : State C X) (request : Request C X) :
    Except Raised (RankingDecision X) → State C X
  | .ok decision => s.answer request decision
  | .error _ => { s with raised := s.raised ++ [request] }

/-- A request does not wait any more. -/
def leave (s : State C X) (i : Nat) : State C X := { s with waiting := s.waiting.eraseIdx i }

/-- `asyncio.create_task`, and the `await`. -/
def start (s : State C X) (request : Request C X) : State C X :=
  { s with
    inflight := some s.calls.length
    calls := s.calls ++ [⟨request, none⟩]
    waiting := s.waiting ++ [(request, s.calls.length)] }

/-- The thread of a task is back. -/
def complete (s : State C X) (call : Nat) (request : Request C X)
    (predictScores : PredictScores C) : State C X :=
  { s with calls := s.calls.set call ⟨request, some predictScores⟩ }

end State

/-- One step; without a predictor `score` does not ask it. -/
def step (s : State C X) : Action C X → Option (State C X)
  | .arrive request =>
    if runtime.mode = .heuristic ∨ runtime.predictor = none then
      some (s.conclude request (runtime.score (fun _ : List (Record C) => .error .exception)
        request.items "personalized" none))
    else if s.busy then some (s.answer request (RankerRuntime.fallback request.items))
    else some (s.start request)
  | .finish call predictScores =>
    match s.calls[call]? with
    | some ⟨request, none⟩ => some (s.complete call request predictScores)
    | _ => none
  | .wake i => do
    let (request, call) ← s.waiting[i]?
    let task ← s.calls[call]?
    let outcome ← task.outcome runtime
    pure ((s.leave i).conclude request outcome)
  | .timeout i => do
    let (request, _) ← s.waiting[i]?
    pure ((s.leave i).answer request (RankerRuntime.fallback request.items))
  | .cancel i => do
    let _ ← s.waiting[i]?
    pure (s.leave i)

/-- Where an answer comes from: the candidates are those of the request, and the heuristic has scored
    them, or the model, in the task of the request. -/
def Answer.Sound (calls : List (Call C X)) (a : Answer C X) : Prop :=
  a.decision.items.map RecommendationItem.candidate
      = a.request.items.map RecommendationItem.candidate
    ∧ (Heuristic a.request.items a.decision
      ∨ ∃ (call : Nat) (predictScores : PredictScores C) (scores : List Score),
        calls[call]? = some ⟨a.request, some predictScores⟩
        ∧ predictScores (recordsFor "personalized" a.request.items a.request.records) = .ok scores
        ∧ Model runtime scores a.request.items a.decision)

/-- Where an exception comes from: the predictor has raised it, in the task of the request. -/
def Request.Raises (calls : List (Call C X)) (request : Request C X) : Prop :=
  ∃ (call : Nat) (predictScores : PredictScores C),
    calls[call]? = some ⟨request, some predictScores⟩
      ∧ Interrupted runtime predictScores request.items "personalized" request.records

/-- **The invariant.** -/
structure Sound (s : State C X) : Prop where
  slot : ∀ call, s.Running call → s.inflight = some call
  waiting : ∀ w ∈ s.waiting, ∃ predictScores, s.calls[w.2]? = some ⟨w.1, predictScores⟩
  answers : ∀ a ∈ s.answers, a.Sound runtime s.calls
  raised : ∀ request ∈ s.raised, request.Raises runtime s.calls

end Loop

/-! ### One step -/

section Step

variable {C X : Type} {runtime : RankerRuntime} {s t : State C X} {action : Action C X}

theorem busy_eq_true_iff : s.busy = true ↔ ∃ call, s.inflight = some call ∧ s.Running call := by
  unfold State.busy State.Running
  cases hslot : s.inflight with
  | none => simp
  | some call =>
    rw [Option.bind_some]
    cases htask : s.calls[call]? with
    | none => simp [htask]
    | some task =>
      obtain ⟨request, predictScores⟩ := task
      cases predictScores with
      | none => exact iff_of_true rfl ⟨call, rfl, request, htask⟩
      | some predictScores => simp [htask]

theorem heuristic_fallback (items : List (RecommendationItem X)) :
    Heuristic items (RankerRuntime.fallback items) := ⟨rfl, rfl⟩

/-- **What a step does.** -/
theorem step_cases (h : step runtime s action = some t) :
    (∃ request decision, action = .arrive request ∧ Heuristic request.items decision
        ∧ t = s.answer request decision)
      ∨ (∃ request, action = .arrive request ∧ s.busy = false ∧ t = s.start request)
      ∨ (∃ call request predictScores, action = .finish call predictScores
        ∧ s.calls[call]? = some ⟨request, none⟩ ∧ t = s.complete call request predictScores)
      ∨ (∃ i request call task outcome, action = .wake i ∧ s.waiting[i]? = some (request, call)
        ∧ s.calls[call]? = some task ∧ task.outcome runtime = some outcome
        ∧ t = (s.leave i).conclude request outcome)
      ∨ (∃ i request call, action = .timeout i ∧ s.waiting[i]? = some (request, call)
        ∧ t = (s.leave i).answer request (RankerRuntime.fallback request.items))
      ∨ ∃ i w, action = .cancel i ∧ s.waiting[i]? = some w ∧ t = s.leave i := by
  cases action with
  | arrive request =>
    dsimp only [step] at h
    split at h
    · next hmodel =>
      obtain ⟨decision, hscore, hheuristic⟩ := heuristic_score hmodel
        (fun _ : List (Record C) => .error .exception) request.items "personalized" none
      rw [hscore] at h
      exact .inl ⟨request, decision, rfl, hheuristic, (Option.some.inj h).symm⟩
    split at h
    · exact .inl ⟨request, _, rfl, heuristic_fallback _, (Option.some.inj h).symm⟩
    · next hfree =>
      exact .inr (.inl ⟨request, rfl, by simpa using hfree, (Option.some.inj h).symm⟩)
  | finish call predictScores =>
    dsimp only [step] at h
    split at h
    · next request htask =>
      exact .inr (.inr (.inl ⟨call, request, predictScores, rfl, htask, (Option.some.inj h).symm⟩))
    · cases h
  | wake i =>
    obtain ⟨⟨request, call⟩, hw, h⟩ := Option.bind_eq_some_iff.mp h
    obtain ⟨task, htask, h⟩ := Option.bind_eq_some_iff.mp h
    obtain ⟨outcome, houtcome, h⟩ := Option.bind_eq_some_iff.mp h
    exact .inr (.inr (.inr (.inl ⟨i, request, call, task, outcome, rfl, hw, htask, houtcome,
      (Option.some.inj h).symm⟩)))
  | timeout i =>
    obtain ⟨⟨request, call⟩, hw, h⟩ := Option.bind_eq_some_iff.mp h
    exact .inr (.inr (.inr (.inr (.inl ⟨i, request, call, rfl, hw, (Option.some.inj h).symm⟩))))
  | cancel i =>
    obtain ⟨w, hw, h⟩ := Option.bind_eq_some_iff.mp h
    exact .inr (.inr (.inr (.inr (.inr ⟨i, w, rfl, hw, (Option.some.inj h).symm⟩))))

end Step

/-! ### Tasks go on -/

section Extend

variable {C X : Type} {runtime : RankerRuntime} {s t : State C X} {action : Action C X}

/-- Tasks get done, and then they stay as they are. -/
def Extends (calls calls' : List (Call C X)) : Prop :=
  ∀ (call : Nat) (request : Request C X) (predictScores : Option (PredictScores C)),
    calls[call]? = some ⟨request, predictScores⟩ → ∃ predictScores', calls'[call]? = some ⟨request, predictScores'⟩
      ∧ (predictScores = none ∨ predictScores' = predictScores)

theorem extends_refl (calls : List (Call C X)) : Extends calls calls :=
  fun _ _ predictScores h => ⟨predictScores, h, .inr rfl⟩

theorem extends_start (request : Request C X) : Extends s.calls (s.start request).calls := by
  intro call request' predictScores h
  refine ⟨predictScores, ?_, .inr rfl⟩
  show (s.calls ++ [_])[call]? = _
  rw [List.getElem?_append_left (List.getElem?_eq_some_iff.mp h).1, h]

theorem extends_complete {call : Nat} {request : Request C X} {predictScores : PredictScores C}
    (htask : s.calls[call]? = some ⟨request, none⟩) :
    Extends s.calls (s.complete call request predictScores).calls := by
  intro call' request' predictScores' h
  show ∃ _, (s.calls.set call _)[call']? = _ ∧ _
  by_cases hcall : call = call'
  · subst hcall
    rw [htask] at h
    obtain ⟨rfl, rfl⟩ := Call.mk.inj (Option.some.inj h)
    refine ⟨some predictScores, ?_, .inl rfl⟩
    rw [List.getElem?_set_self (List.getElem?_eq_some_iff.mp htask).1]
  · refine ⟨predictScores', ?_, .inr rfl⟩
    rw [List.getElem?_set_ne hcall, h]

/-- Whoever gets something changes no task. -/
theorem calls_conclude {request : Request C X} {outcome : Except Raised (RankingDecision X)} :
    (s.conclude request outcome).calls = s.calls := by
  cases outcome <;> rfl

/-- Calls are only added and completed. -/
theorem extends_step (h : step runtime s action = some t) : Extends s.calls t.calls := by
  rcases step_cases h with ⟨request, decision, -, -, rfl⟩ | ⟨request, -, -, rfl⟩
    | ⟨call, request, predictScores, -, htask, rfl⟩
    | ⟨i, request, call, task, outcome, -, -, -, -, rfl⟩
    | ⟨i, request, call, -, -, rfl⟩ | ⟨i, w, -, -, rfl⟩
  case inr.inl => exact extends_start request
  case inr.inr.inl => exact extends_complete htask
  case inr.inr.inr.inl =>
    rw [calls_conclude]
    exact extends_refl _
  all_goals exact extends_refl _

/-- A task that is not done was not done before. -/
theorem running_of_extends {call : Nat} (h : Extends s.calls t.calls) (hrunning : t.Running call)
    (hlt : call < s.calls.length) : s.Running call := by
  obtain ⟨request, htask⟩ := hrunning
  obtain ⟨⟨request', predictScores⟩, htask'⟩ : ∃ task, s.calls[call]? = some task :=
    ⟨_, List.getElem?_eq_getElem hlt⟩
  obtain ⟨predictScores', h', hdone⟩ := h call request' predictScores htask'
  rw [htask] at h'
  obtain ⟨-, rfl⟩ := Call.mk.inj (Option.some.inj h')
  rcases hdone with rfl | rfl
  · exact ⟨request', htask'⟩
  · exact ⟨request', htask'⟩

end Extend

/-! ### The invariant -/

section Invariant

variable {C X : Type} {runtime : RankerRuntime} {s t : State C X} {action : Action C X}

theorem Answer.Sound.mono {calls calls' : List (Call C X)} {a : Answer C X}
    (h : a.Sound runtime calls) (hextends : Extends calls calls') : a.Sound runtime calls' := by
  refine ⟨h.1, h.2.imp_right ?_⟩
  rintro ⟨call, predictScores, scores, htask, hpredict, hmodel⟩
  obtain ⟨predictScores', htask', hdone⟩ := hextends _ _ _ htask
  rw [hdone.resolve_left nofun] at htask'
  exact ⟨call, predictScores, scores, htask', hpredict, hmodel⟩

theorem Request.Raises.mono {calls calls' : List (Call C X)} {request : Request C X}
    (h : request.Raises runtime calls) (hextends : Extends calls calls') :
    request.Raises runtime calls' := by
  obtain ⟨call, predictScores, htask, hinterrupted⟩ := h
  obtain ⟨predictScores', htask', hdone⟩ := hextends _ _ _ htask
  rw [hdone.resolve_left nofun] at htask'
  exact ⟨call, predictScores, htask', hinterrupted⟩

theorem Answer.sound_of_heuristic {calls : List (Call C X)} {request : Request C X}
    {decision : RankingDecision X} (h : Heuristic request.items decision) :
    Answer.Sound runtime calls ⟨request, decision⟩ :=
  ⟨congrArg (List.map RecommendationItem.candidate) h.1, .inl h⟩

/-- What a task gives, as an answer to its request. -/
theorem Answer.sound_of_task {calls : List (Call C X)} {call : Nat} {task : Call C X}
    {decision : RankingDecision X} (htask : calls[call]? = some task)
    (hdecision : task.outcome runtime = some (.ok decision)) :
    Answer.Sound runtime calls ⟨task.request, decision⟩ := by
  obtain ⟨predictScores, hdone, hscore⟩ := Option.map_eq_some_iff.mp hdecision
  obtain ⟨hcandidates, hkind⟩ := score_spec hscore
  refine ⟨hcandidates, hkind.imp_right ?_⟩
  rintro ⟨scores, hmodel, hpredict⟩
  refine ⟨call, predictScores, scores, ?_, hpredict, hmodel⟩
  rw [htask, ← hdone]

/-- What a task raises is what its predictor has raised. -/
theorem Request.raises_of_task {calls : List (Call C X)} {call : Nat} {task : Call C X}
    {raised : Raised} (htask : calls[call]? = some task)
    (hraised : task.outcome runtime = some (.error raised)) :
    task.request.Raises runtime calls := by
  obtain ⟨predictScores, hdone, hscore⟩ := Option.map_eq_some_iff.mp hraised
  refine ⟨call, predictScores, ?_, (score_eq_error_iff.mp hscore).2⟩
  rw [htask, ← hdone]

/-- An answer preserves the invariant. -/
theorem Sound.answer {request : Request C X} {decision : RankingDecision X} (h : Sound runtime s)
    (hanswer : Answer.Sound runtime s.calls ⟨request, decision⟩) :
    Sound runtime (s.answer request decision) := by
  refine ⟨h.slot, h.waiting, fun a ha => ?_, h.raised⟩
  rcases List.mem_append.mp ha with ha | ha
  · exact h.answers a ha
  · rw [List.mem_singleton.mp ha]
    exact hanswer

/-- So does what a task gives or raises. -/
theorem Sound.conclude {call : Nat} {task : Call C X} {outcome : Except Raised (RankingDecision X)}
    (h : Sound runtime s) (htask : s.calls[call]? = some task)
    (houtcome : task.outcome runtime = some outcome) :
    Sound runtime (s.conclude task.request outcome) := by
  cases outcome with
  | ok decision => exact h.answer (Answer.sound_of_task htask houtcome)
  | error raised =>
    refine ⟨h.slot, h.waiting, h.answers, fun request hrequest => ?_⟩
    rcases List.mem_append.mp hrequest with hrequest | hrequest
    · exact h.raised request hrequest
    · rw [List.mem_singleton.mp hrequest]
      exact Request.raises_of_task htask houtcome

/-- A request that leaves keeps the loop sound. -/
theorem Sound.leave (h : Sound runtime s) (i : Nat) : Sound runtime (s.leave i) :=
  ⟨h.slot, fun w hw => h.waiting w (List.mem_of_mem_eraseIdx hw), h.answers, h.raised⟩

/-- A task is only started when the slot is free. -/
theorem Sound.start {request : Request C X} (h : Sound runtime s) (hfree : s.busy = false) :
    Sound runtime (s.start request) := by
  constructor
  · intro call hrunning
    by_cases hlt : call < s.calls.length
    · have hold := running_of_extends (extends_start request) hrunning hlt
      have hbusy := busy_eq_true_iff.mpr ⟨call, h.slot call hold, hold⟩
      rw [hfree] at hbusy
      cases hbusy
    · -- the new task is the last one
      obtain ⟨request', htask⟩ := hrunning
      have hlast : call < (s.calls ++ [_]).length := (List.getElem?_eq_some_iff.mp htask).1
      rw [List.length_append, List.length_singleton] at hlast
      show some s.calls.length = some call
      rw [Option.some.injEq]
      omega
  · intro w hw
    rcases List.mem_append.mp hw with hw | hw
    · obtain ⟨predictScores, htask⟩ := h.waiting w hw
      obtain ⟨predictScores', htask', -⟩ := extends_start request _ _ _ htask
      exact ⟨predictScores', htask'⟩
    · rw [List.mem_singleton.mp hw]
      refine ⟨none, ?_⟩
      show (s.calls ++ [_])[s.calls.length]? = _
      rw [List.getElem?_concat_length]
  · exact fun a ha => (h.answers a ha).mono (extends_start request)
  · exact fun request' hrequest => (h.raised request' hrequest).mono (extends_start request)

/-- So does a call that completes. -/
theorem Sound.complete {call : Nat} {request : Request C X} {predictScores : PredictScores C}
    (h : Sound runtime s) (htask : s.calls[call]? = some ⟨request, none⟩) :
    Sound runtime (s.complete call request predictScores) := by
  have hextends : Extends s.calls (s.complete call request predictScores).calls :=
    extends_complete htask
  constructor
  · intro call' hrunning
    have hlt : call' < (s.calls.set call _).length := (List.getElem?_eq_some_iff.mp hrunning.choose_spec).1
    rw [List.length_set] at hlt
    exact h.slot call' (running_of_extends hextends hrunning hlt)
  · intro w hw
    obtain ⟨predictScores, htask⟩ := h.waiting w hw
    obtain ⟨predictScores', htask', -⟩ := hextends _ _ _ htask
    exact ⟨predictScores', htask'⟩
  · exact fun a ha => (h.answers a ha).mono hextends
  · exact fun request' hrequest => (h.raised request' hrequest).mono hextends

/-- **A step preserves the invariant.** -/
theorem sound_step (h : Sound runtime s) (hstep : step runtime s action = some t) :
    Sound runtime t := by
  rcases step_cases hstep with ⟨request, decision, -, hheuristic, rfl⟩ | ⟨request, -, hfree, rfl⟩
    | ⟨call, request, predictScores, -, htask, rfl⟩
    | ⟨i, request, call, task, outcome, -, hw, htask, houtcome, rfl⟩
    | ⟨i, request, call, -, -, rfl⟩ | ⟨i, w, -, -, rfl⟩
  · exact h.answer (Answer.sound_of_heuristic hheuristic)
  · exact h.start hfree
  · exact h.complete htask
  · -- whoever wakes up has waited for their own task
    obtain ⟨predictScores, htask'⟩ := h.waiting _ (List.mem_of_getElem? hw)
    obtain rfl := Option.some.inj (htask.symm.trans htask')
    exact (h.leave i).conclude htask houtcome
  · exact (h.leave i).answer (Answer.sound_of_heuristic (heuristic_fallback _))
  · exact h.leave i

theorem sound_initial : Sound runtime (State.initial : State C X) where
  slot call h := by
    obtain ⟨request, h⟩ := h
    cases h
  waiting := nofun
  answers := nofun
  raised := nofun

/-- It holds in every state of every run. -/
theorem sound_run {actions : List (Action C X)}
    (hrun : run (step runtime) State.initial actions = some s) : Sound runtime s :=
  Lib.run_invariant (fun _ _ _ => sound_step) sound_initial hrun

/-- At most one task is not done. -/
theorem running_unique (h : Sound runtime s) {call call' : Nat} (hrunning : s.Running call)
    (hrunning' : s.Running call') : call = call' := by
  have heq := (h.slot call hrunning).symm.trans (h.slot call' hrunning')
  exact Option.some.inj heq

end Invariant

/-! ### While a task is not done -/

section Undisturbed

variable {C X : Type} {runtime : RankerRuntime} {s t t' : State C X} {action : Action C X}
  {call : Nat}

/-- **The invariant of the run from `s` on.**  As long as the task is not done, nobody starts to
    wait, and who gets an answer of the model has waited for another task. -/
structure Undisturbed (s : State C X) (call : Nat) (t : State C X) : Prop where
  waiting : ∀ w ∈ t.waiting, w ∈ s.waiting
  answers : ∃ new, t.answers = s.answers ++ new ∧ ∀ a ∈ new, Heuristic a.request.items a.decision
    ∨ ∃ other, other ≠ call ∧ (a.request, other) ∈ s.waiting

theorem undisturbed_refl : Undisturbed s call s where
  waiting := fun _ h => h
  answers := ⟨[], (List.append_nil _).symm, nofun⟩

theorem Undisturbed.leave (h : Undisturbed s call t) (i : Nat) : Undisturbed s call (t.leave i) :=
  ⟨fun w hw => h.waiting w (List.mem_of_mem_eraseIdx hw), h.answers⟩

theorem Undisturbed.answer {request : Request C X} {decision : RankingDecision X}
    (h : Undisturbed s call t) (hanswer : Heuristic request.items decision
      ∨ ∃ other, other ≠ call ∧ (request, other) ∈ s.waiting) :
    Undisturbed s call (t.answer request decision) := by
  obtain ⟨new, hnew, hkinds⟩ := h.answers
  refine ⟨h.waiting, new ++ [⟨request, decision⟩], ?_, fun a ha => ?_⟩
  · show t.answers ++ _ = _
    rw [hnew, List.append_assoc]
  · rcases List.mem_append.mp ha with ha | ha
    · exact hkinds a ha
    · rw [List.mem_singleton.mp ha]
      exact hanswer

/-- A step after which the task is still not done. -/
theorem undisturbed_step (hsound : Sound runtime t) (h : t.Running call → Undisturbed s call t)
    (hlt : call < t.calls.length) (hstep : step runtime t action = some t')
    (hrunning' : t'.Running call) : Undisturbed s call t' := by
  have hrunning := running_of_extends (extends_step hstep) hrunning' hlt
  have hkeep := h hrunning
  rcases step_cases hstep with ⟨request, decision, -, hheuristic, rfl⟩ | ⟨request, -, hfree, rfl⟩
    | ⟨other, request, predictScores, -, htask, rfl⟩
    | ⟨i, request, other, task, outcome, -, hw, htask, houtcome, rfl⟩
    | ⟨i, request, other, -, -, rfl⟩ | ⟨i, w, -, -, rfl⟩
  · exact hkeep.answer (.inl hheuristic)
  · -- no task is started: the slot is taken
    rw [busy_eq_true_iff.mpr ⟨call, hsound.slot call hrunning, hrunning⟩] at hfree
    cases hfree
  · exact ⟨hkeep.waiting, hkeep.answers⟩
  · cases outcome with
    | ok decision =>
      refine (hkeep.leave i).answer (.inr ⟨other, ?_, hkeep.waiting _ (List.mem_of_getElem? hw)⟩)
      -- the task that gives the decision is done
      rintro rfl
      obtain ⟨request', hrunning⟩ := hrunning
      rw [htask] at hrunning
      rw [Option.some.inj hrunning] at houtcome
      cases houtcome
    | error raised => exact ⟨(hkeep.leave i).waiting, hkeep.answers⟩
  · exact (hkeep.leave i).answer (.inl (heuristic_fallback _))
  · exact hkeep.leave i

/-- What every step from `s` on keeps. -/
def Kept (runtime : RankerRuntime) (s : State C X) (call : Nat) (t : State C X) : Prop :=
  Sound runtime t ∧ call < t.calls.length ∧ (t.Running call → Undisturbed s call t)

/-- A step keeps that. -/
theorem kept_step (h : Kept runtime s call t) (hstep : step runtime t action = some t') :
    Kept runtime s call t' := by
  obtain ⟨hsound, hlt, hkeep⟩ := h
  refine ⟨sound_step hsound hstep, ?_, undisturbed_step hsound hkeep hlt hstep⟩
  obtain ⟨task, htask⟩ : ∃ task, t.calls[call]? = some task := ⟨_, List.getElem?_eq_getElem hlt⟩
  obtain ⟨predictScores, htask', -⟩ := extends_step hstep call task.request task.predictScores htask
  exact (List.getElem?_eq_some_iff.mp htask').1

/-- A run after which the task is still not done. -/
theorem undisturbed_run {actions : List (Action C X)} (hsound : Sound runtime s)
    (hrunning : s.Running call) (hrun : run (step runtime) s actions = some t)
    (hrunning' : t.Running call) : Undisturbed s call t := by
  obtain ⟨request, htask⟩ := hrunning
  have hkept : Kept runtime s call s :=
    ⟨hsound, (List.getElem?_eq_some_iff.mp htask).1, fun _ => undisturbed_refl⟩
  exact (Lib.run_invariant (fun _ _ _ => kept_step) hkept hrun).2.2 hrunning'

end Undisturbed

/-! ### All runs -/

section Isolated

variable {C X : Type} {runtime : RankerRuntime} {s : State C X} {call : Nat}

/-- Who comes while a task is not done gets the heuristic at once. -/
theorem arrive_while_running (hsound : Sound runtime s) (hrunning : s.Running call)
    (request : Request C X) : ∃ decision, Heuristic request.items decision
      ∧ step runtime s (.arrive request) = some (s.answer request decision) := by
  have hbusy : s.busy = true := busy_eq_true_iff.mpr ⟨call, hsound.slot call hrunning, hrunning⟩
  by_cases hmodel : runtime.mode = .heuristic ∨ runtime.predictor = none
  · obtain ⟨decision, hscore, hheuristic⟩ := heuristic_score hmodel
      (fun _ : List (Record C) => .error .exception) request.items "personalized" none
    refine ⟨decision, hheuristic, ?_⟩
    dsimp only [step]
    rw [if_pos hmodel, hscore]
    rfl
  · refine ⟨_, heuristic_fallback request.items, ?_⟩
    dsimp only [step]
    rw [if_neg hmodel, if_pos hbusy]

/-- Who runs out of time gets the heuristic, whatever the task does. -/
theorem timeout_waiting {i : Nat} {w : Request C X × Nat} (hw : s.waiting[i]? = some w) :
    ∃ decision, Heuristic w.1.items decision
      ∧ step runtime s (.timeout i) = some ((s.leave i).answer w.1 decision) := by
  refine ⟨_, heuristic_fallback w.1.items, ?_⟩
  dsimp only [step]
  rw [hw]
  rfl

/-- Whoever waits for a task that is done gets an answer, unless the predictor has raised what is not
    caught. -/
theorem wake_done {i call : Nat} {request : Request C X} {predictScores : PredictScores C}
    (hw : s.waiting[i]? = some (request, call))
    (htask : s.calls[call]? = some ⟨request, some predictScores⟩)
    (hcalm : ¬ Interrupted runtime predictScores request.items "personalized" request.records) :
    ∃ decision, step runtime s (.wake i) = some ((s.leave i).answer request decision) := by
  cases hscore : runtime.score predictScores request.items "personalized" request.records with
  | error raised => exact absurd (score_eq_error_iff.mp hscore).2 hcalm
  | ok decision =>
    refine ⟨decision, ?_⟩
    simp only [step, hw, htask, Call.outcome, Option.map_some, hscore, Option.bind_eq_bind,
      Option.bind_some, Option.pure_def, State.conclude]

end Isolated

/-! ### A late completion -/

/-- Two candidates and their heuristic scores. -/
def twoItems : List (RecommendationItem Unit) :=
  [⟨1, .real 1, "topic", "score=topic", ⟨none, none, none, "topic", none, none, none, none, ()⟩⟩,
    ⟨2, .real 0, "topic", "score=topic", ⟨none, none, none, "topic", none, none, none, none, ()⟩⟩]

/-- The first request runs out of time, the second comes before its task is done, the third one is
    scored by the model. -/
def lateCompletion : List (Action Unit Unit) :=
  let twoScores : PredictScores Unit := fun _ => .ok [.real 0, .real 1]
  [.arrive ⟨twoItems, none⟩, .timeout 0, .arrive ⟨twoItems, none⟩, .finish 0 twoScores,
    .arrive ⟨twoItems, none⟩, .finish 1 twoScores, .wake 0]

end Oecophylla.Recommendation.ModelRanker
