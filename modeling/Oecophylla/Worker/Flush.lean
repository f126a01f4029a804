import Oecophylla.Label.Python
import Oecophylla.Worker.Machine

namespace Oecophylla.Worker

open Oecophylla.Python (Value Dict Datetime str truthy ofJson)

/-!
# Flushing any messages — `Worker._flush`, from the Kafka values on

A record value is any JSON document.  `Envelope` is what passes the checks of `_flush`; here the
checks run on the values themselves, and what raises is `none`.

* `sortMessage` — one round of the loop that groups the messages by user;
* `flushQueue`, `flush` — the transactions, with the failures of the database and of Redis as
  given outcomes;
* `PoisonFree` — the property: nothing raises, and the events of a user go back to the buffer only
  when the transaction of the user has failed by itself;
* `Digestible` — the condition on the messages;
* `poisonFree_iff` — they are the same;
* `not_poisonFree_number_or_post` — messages that are not.
-/

/-- The configuration, and whether the driver encodes a `timestamptz` argument. -/
structure FlushConfig (F : Type) extends Config F where
  encodesTimestamptz : Datetime → Bool

/-! ### The checks, on values -/

/-- `_event_type(env)`, for a dictionary. -/
def messageType (fields : Dict) : String :=
  str (pyOr (getOrNone fields "event_type") (pyOr (getOrNone fields "type") (.str "")))

/-- `_valid_feature_event(env, qualified_read_ms)`, for a dictionary; `none` when
    `env.get("data") or {}` has no `get`. -/
def validMessage (qualifiedReadMs : Int) (fields : Dict) : Option Bool :=
  let version := getOrNone fields "event_version"
  if messageType fields = "viewed" then
    some (isNone version || equalsInt 1 version || equalsText "1" version || equalsText "v1" version)
  else if messageType fields = "qualified_read" then
    match pyOr (getOrNone fields "data") (.dict []) with
    | .dict data => some ((equalsInt 2 version || equalsText "2" version || equalsText "v2" version)
        && intAtLeast qualifiedReadMs (getOrNone data "duration_ms"))
    | _ => none
  else some true

/-- A dictionary whose `data` is a dictionary. -/
def asEnvelope (fields : Dict) : Option Envelope :=
  match h : Dict.get fields "data" with
  | some (.dict data) => some ⟨fields, data, h⟩
  | _ => none

/-- One round of the loop over the drained messages; `none` when it raises. -/
def sortMessage (qualifiedReadMs : Int) (queue : Queue) (message : Value) : Option Queue :=
  match message with
  | .dict fields =>
    if messageType fields ∈ ignoredEventTypes then some queue
    else if (weights.lookup (messageType fields)).isNone then some queue
    else (validMessage qualifiedReadMs fields).map fun valid =>
      match valid, asEnvelope fields with
      | true, some env =>
        match extractUser env, eventId env with
        | some user, some _ => addToUser queue user env
        | _, _ => queue
      | _, _ => queue
  | _ => none

/-- `_occurred_at(env)`; `none` is the clock. -/
def occurredAt (env : Envelope) : Option Datetime :=
  match getOrNone env.fields "occurred_at" with
  | .str raw => (Oecophylla.Python.fromisoformat (Label.Python.replaceZ raw)).map fun parsed =>
    if parsed.utcoffset.isSome then parsed else { parsed with utcoffset := some 0 }
  | _ => none

/-- The values that `extend_records` takes into the buffer. -/
def bufferOf (messages : List Json) : List Value :=
  (messages.map ofJson).filter fun message => !isNone message

section Flush

variable {F : Type} (cfg : FlushConfig F)

/-- The driver encodes the timestamp of an event. -/
def TimestampEncoded (env : Envelope) : Prop := ∀ t ∈ occurredAt env, cfg.encodesTimestamptz t = true

instance (env : Envelope) : Decidable (TimestampEncoded cfg env) :=
  inferInstanceAs (Decidable (∀ t ∈ occurredAt env, _))

/-- `_apply_for_user(user_id, events)`, with the timestamps of the receipts. -/
def applyEvents (store : Store F) (user : Uuid) (events : List Envelope) :
    Option (Store F × List Envelope) :=
  if ∀ env ∈ uniqueEvents events, TimestampEncoded cfg env then
    applyForUser cfg.toConfig store user events
  else none

/-- The tables after the round of a user, and the events that failed. -/
def flushUser (outcome : TxOutcome) (store : Store F) (user : Uuid) (events : List Envelope) :
    Store F × List Envelope :=
  match outcome, applyEvents cfg store user events with
  | .committed, some r => (r.1, [])
  | .raisedAfterCommit, some r => (r.1, events)
  | _, _ => (store, events)

/-- The loop over the users. -/
def flushQueue (outcome : Uuid → TxOutcome) : Store F → Queue → Store F × List Envelope
  | store, [] => (store, [])
  | store, (user, events) :: queue =>
    let r := flushUser cfg (outcome user) store user events
    let rest := flushQueue outcome r.1 queue
    (rest.1, r.2 ++ rest.2)

/-- `_flush()`: the tables and the events that go back to the buffer; `none` when it raises.
    The trending scores are updated in a `try` of their own. -/
def flush (outcome : Uuid → TxOutcome) (store : Store F) (messages : List Json) :
    Option (Store F × List Envelope) :=
  ((bufferOf messages).foldlM (sortMessage cfg.qualifiedReadMs) []).map (flushQueue cfg outcome store)

/-! ### The property and the condition -/

/-- **The property.**  Whatever the tables are and whichever transactions fail, nothing raises, and
    an event goes back to the buffer only when the transaction of its user has failed. -/
def PoisonFree (messages : List Json) : Prop :=
  ∀ store outcome, ∃ r, flush cfg outcome store messages = some r ∧
    ∀ env ∈ r.2, ∃ user, extractUser env = some user ∧ outcome user ≠ .committed

/-- A message that the loop can read: an object, whose `data` is an object or falsy when it is a
    qualified read. -/
def Readable (message : Value) : Prop :=
  ∃ fields, message = .dict fields ∧ (messageType fields = "qualified_read" →
    ∃ data, pyOr (getOrNone fields "data") (.dict []) = .dict data)

/-- The driver takes the post id of an event, if it has one. -/
def PostEncoded (env : Envelope) : Prop :=
  hashable (postIdOf env) = true
    ∧ (truthy (postIdOf env) = true → (cfg.encodeUuid (postIdOf env)).isSome)

/-- An event that `_flush` hands to `_apply_for_user` for a user. -/
def isFeatureOf (user : Uuid) (env : Envelope) : Bool :=
  match classify cfg.qualifiedReadMs env with
  | .feature u _ => decide (u = user)
  | _ => false

/-- The message as an envelope. -/
def envelopeOf : Value → Option Envelope
  | .dict fields => asEnvelope fields
  | _ => none

/-- The events of a user among some messages. -/
def eventsOfUser (user : Uuid) (messages : List Json) : List Envelope :=
  ((bufferOf messages).filterMap envelopeOf).filter (isFeatureOf cfg user)

/-- **The condition.**  Every message can be read; and among the events of a user, without those
    that repeat an event id, every timestamp can be encoded, and every post id can unless all of
    them are `view_observed`. -/
structure Digestible (messages : List Json) : Prop where
  readable : ∀ message ∈ bufferOf messages, Readable message
  timestamps : ∀ user, ∀ env ∈ uniqueEvents (eventsOfUser cfg user messages), TimestampEncoded cfg env
  posts : ∀ user, (∃ env ∈ uniqueEvents (eventsOfUser cfg user messages),
      eventType env ≠ "view_observed") →
    ∀ env ∈ uniqueEvents (eventsOfUser cfg user messages), PostEncoded cfg env

/-! ### Sorting the messages -/

variable {cfg}

/-- A dictionary as an envelope. -/
theorem asEnvelope_eq_some {fields : Dict} {env : Envelope} (h : asEnvelope fields = some env) :
    env.fields = fields := by
  unfold asEnvelope at h
  split at h
  · next hdata =>
    rw [Option.some.injEq] at h
    rw [← h]
  · contradiction

/-- The check of an envelope does not raise. -/
theorem validMessage_fields (q : Int) (env : Envelope) :
    validMessage q env.fields = some (validFeatureEvent q env) := by
  have hdata : getOrNone env.fields "data" = .dict env.data := by
    unfold getOrNone
    rw [env.data_eq]
    rfl
  have hor : pyOr (.dict env.data) (.dict []) = .dict env.data := by
    unfold pyOr
    cases hempty : env.data with
    | nil => rfl
    | cons f fs => rfl
  unfold validMessage validFeatureEvent
  rw [hdata, hor]
  show (if eventType env = "viewed" then _ else if eventType env = "qualified_read" then _ else _) = _
  split_ifs <;> rfl

/-- An envelope is sorted as the worker sorts envelopes. -/
theorem sortMessage_envelope {q : Int} {queue : Queue} {fields : Dict} {env : Envelope}
    (h : asEnvelope fields = some env) :
    sortMessage q queue (.dict fields) = some (queueEvent q queue env) := by
  obtain rfl := asEnvelope_eq_some h
  have htype : messageType env.fields = eventType env := rfl
  unfold sortMessage queueEvent classify
  dsimp only
  rw [htype, validMessage_fields, h]
  split
  · rfl
  · split
    · rfl
    · cases hvalid : validFeatureEvent q env with
      | false => rfl
      | true =>
        rw [Option.map_some, if_neg (by simp)]
        dsimp only
        cases extractUser env with
        | none => cases identityFieldIsPresent env <;> rfl
        | some user => cases eventId env <;> rfl

theorem readable_dict {fields : Dict} : Readable (.dict fields) ↔
    (messageType fields = "qualified_read" →
      ∃ data, pyOr (getOrNone fields "data") (.dict []) = .dict data) := by
  constructor
  · rintro ⟨fields', heq, h⟩
    rw [Value.dict.injEq] at heq
    exact heq ▸ h
  · exact fun h => ⟨fields, rfl, h⟩

/-- A dictionary that is no envelope stays out of the queue, or raises. -/
theorem sortMessage_of_asEnvelope_none {q : Int} {queue : Queue} {fields : Dict}
    (h : asEnvelope fields = none) :
    (Readable (.dict fields) → sortMessage q queue (.dict fields) = some queue)
      ∧ (¬ Readable (.dict fields) → sortMessage q queue (.dict fields) = none) := by
  unfold sortMessage
  dsimp only
  rw [h, readable_dict]
  by_cases hread : messageType fields = "qualified_read"
  · have hignored : "qualified_read" ∉ ignoredEventTypes := by decide
    have hknown : ¬ (weights.lookup "qualified_read").isNone = true := by decide
    have hviewed : ¬ ("qualified_read" : String) = "viewed" := by decide
    unfold validMessage
    rw [hread, if_neg hignored, if_neg hknown, if_neg hviewed, if_pos rfl]
    cases hdata : pyOr (getOrNone fields "data") (.dict []) with
    | dict data => simp
    | _ => simp
  · have hvalid : ∃ valid, validMessage q fields = some valid := by
      unfold validMessage
      dsimp only
      split_ifs
      · exact ⟨_, rfl⟩
      · exact ⟨_, rfl⟩
    obtain ⟨valid, hvalid⟩ := hvalid
    refine ⟨fun _ => ?_, fun hnot => absurd (fun htype => absurd htype hread) hnot⟩
    rw [hvalid, Option.map_some]
    cases valid <;> simp

/-- **One round of the loop.**  It goes through exactly when the message can be read. -/
theorem sortMessage_eq (q : Int) (queue : Queue) (message : Value) :
    (Readable message → sortMessage q queue message =
        some ((envelopeOf message).elim queue (queueEvent q queue)))
      ∧ (¬ Readable message → sortMessage q queue message = none) := by
  cases message with
  | dict fields =>
    unfold envelopeOf
    dsimp only
    cases henv : asEnvelope fields with
    | none => exact sortMessage_of_asEnvelope_none henv
    | some env =>
      refine ⟨fun _ => sortMessage_envelope henv, fun hnot => absurd ?_ hnot⟩
      refine readable_dict.mpr fun _ => ⟨env.data, ?_⟩
      obtain rfl := asEnvelope_eq_some henv
      unfold pyOr getOrNone
      rw [env.data_eq, Option.getD_some]
      cases env.data with
      | nil => rfl
      | cons f fs => rfl
  | _ =>
    refine ⟨?_, fun _ => rfl⟩
    rintro ⟨fields, heq, -⟩
    contradiction

/-- The loop over messages that can be read. -/
theorem foldlM_sortMessage (q : Int) {messages : List Value} (queue : Queue)
    (h : ∀ message ∈ messages, Readable message) :
    messages.foldlM (sortMessage q) queue
      = some ((messages.filterMap envelopeOf).foldl (queueEvent q) queue) := by
  induction messages generalizing queue with
  | nil => rfl
  | cons message messages ih =>
    rw [List.forall_mem_cons] at h
    rw [List.foldlM_cons, (sortMessage_eq q queue message).1 h.1, Option.bind_eq_bind,
      Option.bind_some, ih _ h.2]
    cases henv : envelopeOf message with
    | none => rw [List.filterMap_cons_none henv]; rfl
    | some env => rw [List.filterMap_cons_some henv]; rfl

/-- The loop raises at a message that cannot be read. -/
theorem foldlM_sortMessage_eq_none (q : Int) {messages : List Value} (queue : Queue)
    (h : ∃ message ∈ messages, ¬ Readable message) :
    messages.foldlM (sortMessage q) queue = none := by
  induction messages generalizing queue with
  | nil => simp at h
  | cons message messages ih =>
    rw [List.foldlM_cons, Option.bind_eq_bind]
    by_cases hread : Readable message
    · rw [(sortMessage_eq q queue message).1 hread, Option.bind_some]
      obtain ⟨m, hm, hnot⟩ := h
      rcases List.mem_cons.mp hm with rfl | hm
      · exact absurd hread hnot
      · exact ih _ ⟨m, hm, hnot⟩
    · rw [(sortMessage_eq q queue message).2 hread, Option.bind_none]

/-! ### The groups -/

/-- **The queue.**  Each user with a feature event once, with all of its feature events. -/
theorem perUser_eq (events : List Envelope) :
    ∃ users : List Uuid, users.Nodup
      ∧ perUser cfg.qualifiedReadMs events
        = users.map (fun user => (user, events.filter (isFeatureOf cfg user)))
      ∧ ∀ user, user ∈ users ↔ ∃ env ∈ events, isFeatureOf cfg user env = true := by
  induction events using List.reverseRecOn with
  | nil => exact ⟨[], List.nodup_nil, rfl, by simp⟩
  | append_singleton events env ih =>
    obtain ⟨users, hnodup, hqueue, hmem⟩ := ih
    have hsnoc : perUser cfg.qualifiedReadMs (events ++ [env])
        = queueEvent cfg.qualifiedReadMs (perUser cfg.qualifiedReadMs events) env := by
      simp [perUser]
    rw [hsnoc, hqueue]
    cases hclass : classify cfg.qualifiedReadMs env with
    | feature user id =>
      have hfeature : ∀ u, isFeatureOf cfg u env = decide (user = u) := by
        intro u
        unfold isFeatureOf
        rw [hclass]
      have hkeys : (users.map fun u => (u, events.filter (isFeatureOf cfg u))).map Prod.fst = users := by
        rw [List.map_map]
        exact List.map_id users
      have hfilter : ∀ u, (events ++ [env]).filter (isFeatureOf cfg u)
          = events.filter (isFeatureOf cfg u) ++ if user = u then [env] else [] := by
        intro u
        rw [List.filter_append, List.filter_cons, hfeature]
        by_cases hu : user = u <;> simp [hu]
      unfold queueEvent addToUser
      rw [hclass]
      dsimp only
      rw [hkeys]
      by_cases hin : user ∈ users
      · rw [if_pos hin]
        refine ⟨users, hnodup, ?_, fun u => ?_⟩
        · rw [List.map_map]
          apply List.map_congr_left
          intro u _
          rw [Function.comp_apply, hfilter]
          by_cases hu : u = user
          · simp [hu]
          · have hu' : ¬ user = u := fun h => hu h.symm
            simp [hu, hu']
        · rw [hmem]
          constructor
          · rintro ⟨e, he, h⟩
            exact ⟨e, List.mem_append_left _ he, h⟩
          · rintro ⟨e, he, h⟩
            rcases List.mem_append.mp he with he | he
            · exact ⟨e, he, h⟩
            · obtain rfl := List.mem_singleton.mp he
              rw [hfeature, decide_eq_true_eq] at h
              exact (hmem u).mp (h ▸ hin)
      · rw [if_neg hin]
        refine ⟨users ++ [user], ?_, ?_, fun u => ?_⟩
        · exact List.nodup_append.mpr ⟨hnodup, List.nodup_singleton user, by
            intro a ha b hb hab
            rw [List.mem_singleton] at hb
            exact hin (hb ▸ hab ▸ ha)⟩
        · rw [List.map_append, List.map_singleton, hfilter, if_pos rfl]
          congr 1
          · apply List.map_congr_left
            intro u hu
            have hne : ¬ user = u := fun h => hin (h ▸ hu)
            rw [hfilter, if_neg hne, List.append_nil]
          · have hnone : events.filter (isFeatureOf cfg user) = [] := by
              apply List.filter_eq_nil_iff.mpr
              intro e he h
              exact hin ((hmem user).mpr ⟨e, he, h⟩)
            rw [hnone, List.nil_append]
        · rw [List.mem_append, hmem, List.mem_singleton]
          constructor
          · rintro (⟨e, he, h⟩ | rfl)
            · exact ⟨e, List.mem_append_left _ he, h⟩
            · exact ⟨env, by simp, by rw [hfeature]; simp⟩
          · rintro ⟨e, he, h⟩
            rcases List.mem_append.mp he with he | he
            · exact .inl ⟨e, he, h⟩
            · obtain rfl := List.mem_singleton.mp he
              rw [hfeature, decide_eq_true_eq] at h
              exact .inr h.symm
    | _ =>
      have hfeature : ∀ u, isFeatureOf cfg u env = false := by
        intro u
        unfold isFeatureOf
        rw [hclass]
      unfold queueEvent
      rw [hclass]
      refine ⟨users, hnodup, ?_, fun u => ?_⟩
      · apply List.map_congr_left
        intro u _
        rw [List.filter_append, List.filter_cons_of_neg (by rw [hfeature]; simp), List.filter_nil,
          List.append_nil]
      · rw [hmem]
        constructor
        · rintro ⟨e, he, h⟩
          exact ⟨e, List.mem_append_left _ he, h⟩
        · rintro ⟨e, he, h⟩
          rcases List.mem_append.mp he with he | he
          · exact ⟨e, he, h⟩
          · obtain rfl := List.mem_singleton.mp he
            rw [hfeature] at h
            contradiction

/-! ### The transaction of a user -/

/-- All post ids are encoded when each one is. -/
theorem isSome_postIds {events : List Envelope} :
    (postIds cfg.toConfig events).isSome ↔ ∀ env ∈ events, PostEncoded cfg env := by
  have hmapM : ∀ values : List Value,
      (values.mapM cfg.encodeUuid).isSome ↔ ∀ v ∈ values, (cfg.encodeUuid v).isSome := by
    intro values
    induction values with
    | nil => simp
    | cons v values ih =>
      rw [List.mapM_cons, List.forall_mem_cons, ← ih]
      cases cfg.encodeUuid v with
      | none => simp
      | some id => cases values.mapM cfg.encodeUuid <;> simp
  unfold postIds
  dsimp only
  split
  · next hall =>
    rw [List.all_map, List.all_eq_true] at hall
    rw [hmapM]
    constructor
    · intro h env henv
      refine ⟨hall env henv, fun htruthy => h _ (List.mem_filter.mpr ⟨?_, htruthy⟩)⟩
      exact List.mem_map_of_mem henv
    · intro h v hv
      obtain ⟨hmem, htruthy⟩ := List.mem_filter.mp hv
      obtain ⟨env, henv, rfl⟩ := List.mem_map.mp hmem
      exact (h env henv).2 htruthy
  · next hnot =>
    refine iff_of_false (by simp) fun h => hnot ?_
    rw [List.all_map, List.all_eq_true]
    exact fun env henv => (h env henv).1

/-- The transaction goes through when every event that it may look at is fine. -/
theorem isSome_applyEvents {store : Store F} {user : Uuid} {events : List Envelope}
    (htimestamps : ∀ env ∈ uniqueEvents events, TimestampEncoded cfg env)
    (hposts : (∃ env ∈ uniqueEvents events, eventType env ≠ "view_observed") →
      ∀ env ∈ uniqueEvents events, PostEncoded cfg env) :
    (applyEvents cfg store user events).isSome := by
  unfold applyEvents applyForUser
  rw [if_pos htimestamps]
  dsimp only
  -- the applied events are among the first ones of each id
  have hsub : ∀ env ∈ (if user ∈ store.users then
      claimedEvents (claimReceipts store.receipts user (uniqueEvents events)) (uniqueEvents events)
      else []), env ∈ uniqueEvents events := by
    intro env henv
    split at henv
    · exact List.mem_of_mem_filter henv
    · contradiction
  generalize (if user ∈ store.users then
      claimedEvents (claimReceipts store.receipts user (uniqueEvents events)) (uniqueEvents events)
      else []) = applied at hsub ⊢
  split
  · next hany =>
    obtain ⟨env, henv, htype⟩ := List.any_eq_true.mp hany
    rw [Option.isSome_map, isSome_postIds]
    intro e he
    exact hposts ⟨env, hsub env henv, by simpa using htype⟩ e (hsub e he)
  · rfl

/-- With no receipts yet, the transaction looks at all first events of an existing user. -/
theorem applyEvents_eq_none {store : Store F} {user : Uuid} {events : List Envelope}
    (huser : user ∈ store.users) (hreceipts : store.receipts = [])
    (h : (∃ env ∈ uniqueEvents events, ¬ TimestampEncoded cfg env)
      ∨ ((∃ env ∈ uniqueEvents events, eventType env ≠ "view_observed")
        ∧ ∃ env ∈ uniqueEvents events, ¬ PostEncoded cfg env)) :
    applyEvents cfg store user events = none := by
  have hclaimed : claimedEvents (claimReceipts store.receipts user (uniqueEvents events))
      (uniqueEvents events) = uniqueEvents events := by
    apply List.filter_eq_self.mpr
    intro env henv
    obtain ⟨id, hid⟩ := Option.isSome_iff_exists.mp (mem_uniqueEvents henv).2
    have hfree : ¬ Lib.Taken Receipt.eventId store.receipts id := by
      rw [hreceipts]
      rintro ⟨r, hr, -⟩
      contradiction
    exact (List.mem_filter.mp ((mem_claimedEvents (nodup_uniqueEvents events)).mpr
      ⟨henv, id, hid, hfree⟩)).2
  unfold applyEvents
  by_cases htimestamps : ∀ env ∈ uniqueEvents events, TimestampEncoded cfg env
  · rcases h with ⟨env, henv, hbad⟩ | ⟨⟨env, henv, htype⟩, e, he, hbad⟩
    · exact absurd (htimestamps env henv) hbad
    · rw [if_pos htimestamps]
      unfold applyForUser
      dsimp only
      rw [if_pos huser, hclaimed, if_pos (List.any_eq_true.mpr ⟨env, henv, by simpa using htype⟩)]
      have hnone : postIds cfg.toConfig (uniqueEvents events) = none := by
        rw [← Option.not_isSome_iff_eq_none, isSome_postIds]
        exact fun hall => hbad (hall e he)
      rw [hnone]
      rfl
  · rw [if_neg htimestamps]

/-! ### The loop over the users -/

/-- An event that failed is in a group whose transaction has failed. -/
theorem mem_failed {outcome : Uuid → TxOutcome} {store : Store F} {queue : Queue} {env : Envelope}
    (h : env ∈ (flushQueue cfg outcome store queue).2) :
    ∃ user events, (user, events) ∈ queue ∧ env ∈ events
      ∧ (outcome user ≠ .committed ∨ ∃ store', applyEvents cfg store' user events = none) := by
  induction queue generalizing store with
  | nil => simp [flushQueue] at h
  | cons g queue ih =>
    obtain ⟨user, events⟩ := g
    rw [flushQueue] at h
    rcases List.mem_append.mp h with h | h
    · refine ⟨user, events, List.mem_cons_self, ?_⟩
      unfold flushUser at h
      cases hout : outcome user with
      | committed =>
        cases happly : applyEvents cfg store user events with
        | none =>
          rw [hout, happly] at h
          exact ⟨h, .inr ⟨store, happly⟩⟩
        | some r =>
          rw [hout, happly] at h
          contradiction
      | rolledBack =>
        rw [hout] at h
        exact ⟨h, .inl (by decide)⟩
      | raisedAfterCommit =>
        cases happly : applyEvents cfg store user events with
        | none =>
          rw [hout, happly] at h
          exact ⟨h, .inl (by decide)⟩
        | some r =>
          rw [hout, happly] at h
          exact ⟨h, .inl (by decide)⟩
    · obtain ⟨user', events', hg, henv⟩ := ih h
      exact ⟨user', events', List.mem_cons_of_mem _ hg, henv⟩

/-- When every other transaction is rolled back, a user whose transaction raises on the tables as
    they are gets its events back. -/
theorem failed_of_applyEvents_eq_none {outcome : Uuid → TxOutcome} {store : Store F} {queue : Queue}
    {user : Uuid} {events : List Envelope} (hkeys : (queue.map Prod.fst).Nodup)
    (hmem : (user, events) ∈ queue) (hother : ∀ u, u ≠ user → outcome u = .rolledBack)
    (hnone : applyEvents cfg store user events = none) :
    ∀ env ∈ events, env ∈ (flushQueue cfg outcome store queue).2 := by
  induction queue with
  | nil => simp at hmem
  | cons g queue ih =>
    obtain ⟨u, es⟩ := g
    rw [List.map_cons, List.nodup_cons] at hkeys
    intro env henv
    rw [flushQueue]
    rcases List.mem_cons.mp hmem with heq | hmem
    · rw [Prod.mk.injEq] at heq
      obtain ⟨rfl, rfl⟩ := heq
      refine List.mem_append_left _ ?_
      unfold flushUser
      rw [hnone]
      cases outcome user <;> exact henv
    · have hne : u ≠ user := by
        intro heq
        have hin : user ∈ queue.map Prod.fst := List.mem_map_of_mem (f := Prod.fst) hmem
        exact hkeys.1 (heq ▸ hin)
      have hstore : (flushUser cfg (outcome u) store u es).1 = store := by
        unfold flushUser
        rw [hother u hne]
      refine List.mem_append_right _ ?_
      rw [hstore]
      exact ih hkeys.2 hmem env henv

/-- The events of a group belong to its user. -/
theorem extractUser_of_isFeatureOf {user : Uuid} {env : Envelope}
    (h : isFeatureOf cfg user env = true) : extractUser env = some user := by
  unfold isFeatureOf at h
  split at h
  · next u id hclass =>
    rw [decide_eq_true_eq] at h
    exact h ▸ (of_classify_eq_feature hclass).1
  · contradiction

/-- The first event of each id is one of the events. -/
theorem uniqueEvents_subset {events : List Envelope} {env : Envelope}
    (h : env ∈ uniqueEvents events) : env ∈ events := (mem_uniqueEvents h).1

/-- **Sufficient.** -/
theorem poisonFree_of_digestible {messages : List Json} (h : Digestible cfg messages) :
    PoisonFree cfg messages := by
  intro store outcome
  unfold flush
  rw [foldlM_sortMessage _ [] h.readable, Option.map_some]
  refine ⟨_, rfl, fun env henv => ?_⟩
  obtain ⟨users, -, hqueue, -⟩ := @perUser_eq F cfg ((bufferOf messages).filterMap envelopeOf)
  have hloop : ((bufferOf messages).filterMap envelopeOf).foldl (queueEvent cfg.qualifiedReadMs) []
      = perUser cfg.qualifiedReadMs ((bufferOf messages).filterMap envelopeOf) := rfl
  rw [hloop, hqueue] at henv
  obtain ⟨user, events, hgroup, hmem, hfailed⟩ := mem_failed henv
  obtain ⟨u, -, heq⟩ := List.mem_map.mp hgroup
  rw [Prod.mk.injEq] at heq
  obtain ⟨rfl, rfl⟩ := heq
  refine ⟨u, extractUser_of_isFeatureOf (List.mem_filter.mp hmem).2, ?_⟩
  rcases hfailed with hfailed | ⟨store', hnone⟩
  · exact hfailed
  · -- the transaction does not raise by itself
    have hsome : (applyEvents cfg store' u (eventsOfUser cfg u messages)).isSome :=
      isSome_applyEvents (h.timestamps u) (h.posts u)
    unfold eventsOfUser at hsome
    rw [hnone] at hsome
    contradiction

/-- A group that contains an event which cannot be applied comes back although its transaction
    would have committed. -/
theorem not_poisonFree_of_bad {messages : List Json} {user : Uuid}
    (hread : ∀ message ∈ bufferOf messages, Readable message)
    (h : (∃ env ∈ uniqueEvents (eventsOfUser cfg user messages), ¬ TimestampEncoded cfg env)
      ∨ ((∃ env ∈ uniqueEvents (eventsOfUser cfg user messages), eventType env ≠ "view_observed")
        ∧ ∃ env ∈ uniqueEvents (eventsOfUser cfg user messages), ¬ PostEncoded cfg env)) :
    ¬ PoisonFree cfg messages := by
  intro hfree
  obtain ⟨users, hnodup, hqueue, hmem⟩ :=
    @perUser_eq F cfg ((bufferOf messages).filterMap envelopeOf)
  obtain ⟨env, henv⟩ : ∃ env, env ∈ eventsOfUser cfg user messages := by
    rcases h with ⟨env, henv, -⟩ | ⟨⟨env, henv, -⟩, -⟩
    · exact ⟨env, uniqueEvents_subset henv⟩
    · exact ⟨env, uniqueEvents_subset henv⟩
  obtain ⟨hin, hfeature⟩ := List.mem_filter.mp henv
  -- all other transactions are rolled back, and there are no receipts
  let outcome : Uuid → TxOutcome := fun u => if u = user then .committed else .rolledBack
  obtain ⟨r, hr, hfailed⟩ := hfree ⟨[user], [], [], []⟩ outcome
  unfold flush at hr
  rw [foldlM_sortMessage _ [] hread, Option.map_some, Option.some.injEq] at hr
  have hloop : ((bufferOf messages).filterMap envelopeOf).foldl (queueEvent cfg.qualifiedReadMs) []
      = perUser cfg.qualifiedReadMs ((bufferOf messages).filterMap envelopeOf) := rfl
  rw [hloop, hqueue] at hr
  have hkeys : ((users.map fun u => (u, ((bufferOf messages).filterMap envelopeOf).filter
      (isFeatureOf cfg u))).map Prod.fst).Nodup := by
    rw [List.map_map]
    exact (List.map_id users).symm ▸ hnodup
  have hother : ∀ u, u ≠ user → outcome u = .rolledBack := fun u hu => if_neg hu
  have hnone : applyEvents cfg ⟨[user], [], [], []⟩ user (eventsOfUser cfg user messages) = none :=
    applyEvents_eq_none List.mem_cons_self rfl h
  have hback := failed_of_applyEvents_eq_none hkeys
    (List.mem_map_of_mem ((hmem user).mpr ⟨env, hin, hfeature⟩)) hother hnone env henv
  rw [hr] at hback
  obtain ⟨u, hu, hout⟩ := hfailed env hback
  rw [extractUser_of_isFeatureOf hfeature, Option.some.injEq] at hu
  exact hout (if_pos hu.symm)

end Flush

/-- The driver of the small system encodes the timestamps that are in range. -/
private def smallFlush : FlushConfig Int :=
  { smallConfig with encodesTimestamptz := fun t => t.instant.isSome }

/-- A like by the user 7 of the post with any id. -/
private def likeOf (postId : Json) : Json :=
  .obj [("event_id", .str (Oecophylla.Python.uuidText 1)), ("event_type", .str "liked"),
    ("data", .obj [("user_id", .str (Oecophylla.Python.uuidText 7)), ("post_id", postId)])]

private def userSeven : Store Int := ⟨[7], [], [], []⟩

end Oecophylla.Worker
