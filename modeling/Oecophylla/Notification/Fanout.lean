import Oecophylla.Lib.Broadcast
import Oecophylla.Lib.Run

namespace Oecophylla.Notification.Fanout

open Lib (Broadcast Backlog Received Tracks run Along)

/-!
# The live fan-out — `notification-service/src/fanout.rs`, `interaction-service/src/comment_fanout.rs`

A registry has a list of senders for each user (or each post).  A connection subscribes and reads its
own channel; a publication sends to the senders of its key and prunes those that nobody reads.

* `State`, `Action`, `step` — the registry, the connections, and what happens in any order;
* `retain` — the loop of `publish`;
* `Registered` — the invariant: the senders of a key are those of its connections, and every live
  connection has its sender there;
* `tracks_of_run` — a live connection has been sent what was published for its key since it came;
* `lost_eq_iff_along` — it has lost nothing exactly when it was never behind by a full channel;
* `fanout_delivers` — both, for every order of steps.

The two files differ in the type of the messages.  A lock makes `subscribe` and `publish` one step
each; connections read and leave between them.
-/

/-- `CHANNEL_CAPACITY`. -/
def channelCapacity : Nat := 64

/-- A connection: what its client was shown, and how many messages were skipped silently. -/
structure Connection (K M : Type) (B : Broadcast M channelCapacity) where
  key : K
  channel : B.Channel
  shown : List M
  skipped : Nat

/-- `Fanout`, with the connections in the order in which they came; a sender is the place of its
    connection. -/
structure State (K M : Type) (B : Broadcast M channelCapacity) where
  map : K → Option (List Nat)
  connections : List (Connection K M B)

/-- What happens. -/
inductive Action (K M : Type) where
  | subscribe (key : K)
  | publish (key : K) (dto : M)
  /-- The stream of a connection is polled. -/
  | poll (i : Nat)
  /-- A connection is dropped. -/
  | drop (i : Nat)

variable {K M : Type} {B : Broadcast M channelCapacity}

/-- Somebody reads. -/
def Connection.live (c : Connection K M B) : Bool := (B.backlog c.channel).connected

/-- `tx.send(dto.clone())`, for the sender at a place. -/
def sendTo (dto : M) (connections : List (Connection K M B)) (i : Nat) :
    Option (List (Connection K M B)) := do
  let c ← connections[i]?
  let channel ← B.send c.channel dto
  some (connections.set i { c with channel })

/-- `senders.retain(|tx| tx.send(dto.clone()).is_ok())`. -/
def retain (dto : M) : List Nat → List (Connection K M B) → List Nat × List (Connection K M B)
  | [], connections => ([], connections)
  | i :: senders, connections =>
    match sendTo dto connections i with
    | some connections => ((i :: (retain dto senders connections).1),
        (retain dto senders connections).2)
    | none => retain dto senders connections

/-- `Fanout::new`. -/
def new : State K M B := ⟨fun _ => none, []⟩

/-- `subscribe(user_id)`. -/
def subscribe [DecidableEq K] (s : State K M B) (key : K) : State K M B where
  map := Function.update s.map key (some ((s.map key).getD [] ++ [s.connections.length]))
  connections := s.connections ++ [⟨key, B.channel, [], 0⟩]

/-- `publish(user_id, dto)`. -/
def publish [DecidableEq K] (s : State K M B) (key : K) (dto : M) : State K M B :=
  match s.map key with
  | none => s
  | some senders =>
    { map := Function.update s.map key
        (if (retain dto senders s.connections).1 = [] then none
          else some (retain dto senders s.connections).1)
      connections := (retain dto senders s.connections).2 }

/-- An item of the stream: the handler drops the notice that messages are missing. -/
def Connection.receive (c : Connection K M B) (channel : B.Channel) :
    Received M → Connection K M B
  | .message dto => { c with channel, shown := c.shown ++ [dto] }
  | .lagged missed => { c with channel, skipped := c.skipped + missed }

/-- A live connection is polled. -/
def poll (s : State K M B) (i : Nat) : Option (State K M B) := do
  let c ← s.connections[i]?
  if c.live then
    let (received, channel) ← B.recv c.channel
    some { s with connections := s.connections.set i (c.receive channel received) }
  else none

/-- A live connection is dropped. -/
def drop (s : State K M B) (i : Nat) : Option (State K M B) := do
  let c ← s.connections[i]?
  if c.live then
    some { s with connections := s.connections.set i { c with channel := B.close c.channel } }
  else none

/-- One step. -/
def step [DecidableEq K] (s : State K M B) : Action K M → Option (State K M B)
  | .subscribe key => some (subscribe s key)
  | .publish key dto => some (publish s key dto)
  | .poll i => poll s i
  | .drop i => drop s i

/-! ### The loop of `publish` -/

section Retain

variable {dto : M} {connections : List (Connection K M B)} {i j : Nat} {c : Connection K M B}

/-- A send succeeds exactly for a live connection. -/
theorem isSome_send (c : Connection K M B) (dto : M) : (B.send c.channel dto).isSome = c.live := by
  have h := B.backlog_send c.channel dto
  rw [← Option.isSome_map, h, Backlog.isSome_send]
  rfl

/-- The connection after a message was sent to it. -/
def Connection.sent (dto : M) (c : Connection K M B) : Connection K M B :=
  { c with channel := (B.send c.channel dto).getD c.channel }

theorem sendTo_of_live (h : connections[i]? = some c) (hlive : c.live = true) :
    sendTo dto connections i = some (connections.set i (c.sent dto)) := by
  obtain ⟨channel, hsend⟩ := Option.isSome_iff_exists.mp ((isSome_send c dto).trans hlive)
  simp [sendTo, h, hsend, Connection.sent]

theorem sendTo_of_not_live (h : connections[i]? = some c) (hlive : c.live = false) :
    sendTo dto connections i = none := by
  have hsend := (isSome_send c dto).trans hlive
  rw [Option.isSome_eq_false_iff, Option.isNone_iff_eq_none] at hsend
  simp [sendTo, h, hsend]

/-- Whether a sender is kept. -/
def kept (connections : List (Connection K M B)) (i : Nat) : Bool :=
  (connections[i]?).any Connection.live

/-- **The loop.**  The senders of live connections are kept, and those connections get the message. -/
theorem retain_spec {senders : List Nat} (hnodup : senders.Nodup)
    (hplaces : ∀ i ∈ senders, i < connections.length) :
    (retain dto senders connections).1 = senders.filter (kept connections)
      ∧ ∀ j, (retain dto senders connections).2[j]?
        = if j ∈ senders ∧ kept connections j then connections[j]?.map (Connection.sent dto)
          else connections[j]? := by
  induction senders generalizing connections with
  | nil => simp [retain]
  | cons i senders ih =>
    obtain ⟨hi, hnodup⟩ := List.nodup_cons.mp hnodup
    have hrest : ∀ j ∈ senders, j < connections.length :=
      fun j hj => hplaces j (List.mem_cons_of_mem i hj)
    obtain ⟨c, hget⟩ : ∃ c, connections[i]? = some c :=
      ⟨_, List.getElem?_eq_getElem (hplaces i List.mem_cons_self)⟩
    have hkept : kept connections i = c.live := by simp [kept, hget]
    cases hlive : c.live with
    | false =>
      obtain ⟨hfst, hsnd⟩ := ih hnodup hrest
      rw [retain, sendTo_of_not_live hget hlive]
      refine ⟨by rw [hfst, List.filter_cons_of_neg (by simp [hkept, hlive])], fun j => ?_⟩
      show (retain dto senders connections).2[j]? = _
      rw [hsnd j]
      by_cases hj : j = i
      · subst hj
        simp [hkept, hlive]
      · simp [hj]
    | true =>
      rw [retain, sendTo_of_live hget hlive]
      -- the other places are as they were
      have hsame : ∀ j ∈ senders, kept (connections.set i (c.sent dto)) j = kept connections j := by
        intro j hj
        have hne : i ≠ j := fun h => hi (h ▸ hj)
        simp [kept, List.getElem?_set_ne hne]
      obtain ⟨hfst, hsnd⟩ := @ih (connections.set i (c.sent dto)) hnodup
        (by simpa using hrest)
      constructor
      · show i :: (retain dto senders _).1 = _
        rw [hfst, List.filter_cons_of_pos (by simp [hkept, hlive]), List.filter_congr hsame]
      · intro j
        show (retain dto senders _).2[j]? = _
        rw [hsnd j]
        by_cases hj : j = i
        · subst hj
          have hlt := hplaces j List.mem_cons_self
          rw [if_neg (fun h => hi h.1), if_pos ⟨List.mem_cons_self, hkept.trans hlive⟩, hget]
          simp [hlt]
        · have hne : i ≠ j := fun h => hj h.symm
          rw [List.getElem?_set_ne hne]
          by_cases hmem : j ∈ senders
          · simp [hmem, hsame j hmem]
          · simp [hmem, hj]

theorem length_retain (dto : M) (senders : List Nat) (connections : List (Connection K M B)) :
    (retain dto senders connections).2.length = connections.length := by
  induction senders generalizing connections with
  | nil => rfl
  | cons i senders ih =>
    rw [retain]
    cases hsend : sendTo dto connections i with
    | none => exact ih connections
    | some connections' =>
      obtain ⟨c, -, hsend⟩ := Option.bind_eq_some_iff.mp hsend
      obtain ⟨channel, -, hset⟩ := Option.bind_eq_some_iff.mp hsend
      show (retain dto senders connections').2.length = _
      rw [ih, ← Option.some.inj hset, List.length_set]

end Retain

/-! ### The registry -/

/-- The senders of a key are those of its connections, each once; a key without senders has no entry;
    and every live connection has its sender there. -/
structure Registered (s : State K M B) : Prop where
  senders : ∀ key senders, s.map key = some senders → senders ≠ [] ∧ senders.Nodup
    ∧ ∀ i ∈ senders, ∃ c, s.connections[i]? = some c ∧ c.key = key
  live : ∀ i c, s.connections[i]? = some c → c.live = true →
    ∃ senders, s.map c.key = some senders ∧ i ∈ senders

/-- What a step does to the connection at a place. -/
def After [DecidableEq K] (a : Action K M) (i : Nat) (c c' : Connection K M B) : Prop :=
  match a with
  | .subscribe _ => c' = c
  | .publish key dto => c' = if c.key = key ∧ c.live then c.sent dto else c
  | .poll j => if j = i then
      c.live ∧ ∃ received channel, B.recv c.channel = some (received, channel)
        ∧ c' = c.receive channel received
      else c' = c
  | .drop j => if j = i then c' = { c with channel := B.close c.channel } else c' = c

section Registry

variable {s t : State K M B} {i : Nat} {c c' : Connection K M B} {key : K} {dto : M}

theorem key_receive (c : Connection K M B) (channel : B.Channel) (received : Received M) :
    (c.receive channel received).key = c.key := by
  cases received <;> rfl

/-- The backlog behind a channel that was read. -/
theorem backlog_of_recv {received : Received M} {channel : B.Channel}
    (h : B.recv c.channel = some (received, channel)) :
    (B.backlog c.channel).recv = some (received, B.backlog channel) := by
  rw [← B.backlog_recv, h]
  rfl

/-- The backlog behind a channel to which a message was sent. -/
theorem backlog_sent (hlive : c.live = true) (dto : M) :
    (B.backlog c.channel).send channelCapacity dto = some (B.backlog (c.sent dto).channel) := by
  obtain ⟨channel, hsend⟩ := Option.isSome_iff_exists.mp ((isSome_send c dto).trans hlive)
  rw [← B.backlog_send, Connection.sent, hsend]
  rfl

theorem live_sent (hlive : c.live = true) (dto : M) : (c.sent dto).live = true := by
  obtain ⟨hconnected, hbacklog⟩ := Backlog.of_send (backlog_sent hlive dto)
  show (B.backlog (c.sent dto).channel).connected = true
  rw [hbacklog]
  exact hconnected

theorem poll_eq_some (h : poll s i = some t) :
    ∃ c received channel, s.connections[i]? = some c ∧ c.live = true
      ∧ B.recv c.channel = some (received, channel)
      ∧ t = { s with connections := s.connections.set i (c.receive channel received) } := by
  obtain ⟨c, hc, h⟩ := Option.bind_eq_some_iff.mp h
  split at h
  · next hlive =>
    obtain ⟨⟨received, channel⟩, hrecv, h⟩ := Option.bind_eq_some_iff.mp h
    exact ⟨c, received, channel, hc, hlive, hrecv, (Option.some.inj h).symm⟩
  · cases h

theorem drop_eq_some (h : drop s i = some t) :
    ∃ c, s.connections[i]? = some c ∧ c.live = true
      ∧ t = { s with connections := s.connections.set i { c with channel := B.close c.channel } } := by
  obtain ⟨c, hc, h⟩ := Option.bind_eq_some_iff.mp h
  split at h
  · next hlive => exact ⟨c, hc, hlive, (Option.some.inj h).symm⟩
  · cases h

theorem getElem?_set_self_of_some (hc : s.connections[i]? = some c) (c' : Connection K M B) :
    (s.connections.set i c')[i]? = some c' := by
  have hlt := (List.getElem?_eq_some_iff.mp hc).1
  simp [hlt]

/-- The senders of a key are places of connections. -/
theorem Registered.lt (hs : Registered s) {senders : List Nat} (h : s.map key = some senders) :
    ∀ j ∈ senders, j < s.connections.length := by
  intro j hj
  obtain ⟨c, hc, -⟩ := (hs.senders key senders h).2.2 j hj
  exact (List.getElem?_eq_some_iff.mp hc).1

/-- Only a connection of the same key that is no more alive may take a place. -/
theorem Registered.set (hs : Registered s) (hc : s.connections[i]? = some c) (hkey : c'.key = c.key)
    (hlive : c'.live = true → c.live = true) :
    Registered { s with connections := s.connections.set i c' } := by
  constructor
  · intro key senders hmap
    obtain ⟨hne, hnodup, hkeys⟩ := hs.senders key senders hmap
    refine ⟨hne, hnodup, fun j hj => ?_⟩
    obtain ⟨d, hd, hdkey⟩ := hkeys j hj
    by_cases hij : i = j
    · subst hij
      obtain rfl : c = d := Option.some.inj (hc.symm.trans hd)
      exact ⟨c', getElem?_set_self_of_some hc c', hkey.trans hdkey⟩
    · exact ⟨d, (List.getElem?_set_ne hij).trans hd, hdkey⟩
  · intro j d hd hdlive
    by_cases hij : i = j
    · subst hij
      obtain rfl : c' = d := Option.some.inj ((getElem?_set_self_of_some hc c').symm.trans hd)
      rw [hkey]
      exact hs.live i c hc (hlive hdlive)
    · exact hs.live j d ((List.getElem?_set_ne hij).symm.trans hd) hdlive

theorem registered_new : Registered (new : State K M B) :=
  ⟨fun _ _ h => (nomatch h), fun _ _ h => by simp [new] at h⟩

variable [DecidableEq K] {a : Action K M}

theorem key_after (h : After a i c c') : c'.key = c.key := by
  cases a with
  | subscribe => exact congrArg Connection.key h
  | publish key dto =>
    replace h : c' = if c.key = key ∧ c.live then c.sent dto else c := h
    rw [h]
    split <;> rfl
  | poll j =>
    unfold After at h
    dsimp only at h
    split at h
    · obtain ⟨-, received, channel, -, rfl⟩ := h
      exact key_receive c channel received
    · rw [h]
  | drop j =>
    unfold After at h
    dsimp only at h
    split at h <;> rw [h]

/-- Who is live after another was dropped is as before. -/
theorem eq_of_after_drop {j : Nat} (h : After (.drop j) i c c') (hlive : c'.live = true) : c' = c := by
  unfold After at h
  dsimp only at h
  split at h
  · subst h
    have hclosed : (B.backlog (B.close c.channel)).connected = true := hlive
    rw [B.backlog_close] at hclosed
    cases hclosed
  · exact h

/-- Who has left does not come back. -/
theorem live_of_after (h : After a i c c') (hlive : c'.live = true) : c.live = true := by
  cases a with
  | subscribe => exact (congrArg Connection.live h) ▸ hlive
  | publish key dto =>
    replace h : c' = if c.key = key ∧ c.live then c.sent dto else c := h
    split at h
    · next hsent => exact hsent.2
    · exact h ▸ hlive
  | poll j =>
    unfold After at h
    dsimp only at h
    split at h
    · exact h.1
    · exact h ▸ hlive
  | drop j => exact eq_of_after_drop h hlive ▸ hlive

/-- A publication reaches the live connections of its key, and no others. -/
theorem getElem?_publish (hs : Registered s) (hc : s.connections[i]? = some c) :
    (publish s key dto).connections[i]? = some (if c.key = key ∧ c.live then c.sent dto else c) := by
  unfold publish
  cases hmap : s.map key with
  | none =>
    -- nobody of that key is there
    have hnot : ¬ (c.key = key ∧ c.live) := by
      rintro ⟨rfl, hlive⟩
      obtain ⟨senders, hsome, -⟩ := hs.live i c hc hlive
      rw [hmap] at hsome
      cases hsome
    rw [if_neg hnot]
    exact hc
  | some senders =>
    obtain ⟨-, hnodup, hkeys⟩ := hs.senders key senders hmap
    show (retain dto senders s.connections).2[i]? = _
    rw [(retain_spec hnodup (hs.lt hmap)).2 i, hc]
    have hiff : i ∈ senders ∧ kept s.connections i ↔ c.key = key ∧ c.live := by
      have hkept : kept s.connections i = c.live := by simp [kept, hc]
      rw [hkept]
      constructor
      · rintro ⟨hmem, hlive⟩
        obtain ⟨d, hd, hkey⟩ := hkeys i hmem
        obtain rfl : c = d := Option.some.inj (hc.symm.trans hd)
        exact ⟨hkey, hlive⟩
      · rintro ⟨rfl, hlive⟩
        obtain ⟨senders', hsome, hmem⟩ := hs.live i c hc hlive
        obtain rfl : senders = senders' := Option.some.inj (hmap.symm.trans hsome)
        exact ⟨hmem, hlive⟩
    by_cases h : c.key = key ∧ c.live
    · rw [if_pos (hiff.mpr h), if_pos h]
      rfl
    · rw [if_neg (mt hiff.mp h), if_neg h]

/-- One step, at the place of a connection. -/
theorem step_connection (hs : Registered s) (h : step s a = some t) (hc : s.connections[i]? = some c) :
    ∃ c', t.connections[i]? = some c' ∧ After a i c c' := by
  cases a with
  | subscribe key =>
    obtain rfl := Option.some.inj h
    have hlt := (List.getElem?_eq_some_iff.mp hc).1
    refine ⟨c, ?_, rfl⟩
    show (s.connections ++ [_])[i]? = some c
    rw [List.getElem?_append_left hlt, hc]
  | publish key dto =>
    obtain rfl := Option.some.inj h
    exact ⟨_, getElem?_publish hs hc, rfl⟩
  | poll j =>
    obtain ⟨d, received, channel, hd, hlive, hrecv, rfl⟩ := poll_eq_some h
    unfold After
    by_cases hj : j = i
    · subst hj
      obtain rfl : c = d := Option.some.inj (hc.symm.trans hd)
      exact ⟨_, getElem?_set_self_of_some hd _, by simp [hlive, hrecv]⟩
    · exact ⟨c, (List.getElem?_set_ne hj).trans hc, by simp [hj]⟩
  | drop j =>
    obtain ⟨d, hd, -, rfl⟩ := drop_eq_some h
    unfold After
    by_cases hj : j = i
    · subst hj
      obtain rfl : c = d := Option.some.inj (hc.symm.trans hd)
      exact ⟨_, getElem?_set_self_of_some hd _, by simp⟩
    · exact ⟨c, (List.getElem?_set_ne hj).trans hc, by simp [hj]⟩

theorem registered_subscribe (hs : Registered s) (key : K) : Registered (subscribe s key) := by
  have hold : ∀ {j : Nat} {d : Connection K M B}, s.connections[j]? = some d →
      (subscribe s key).connections[j]? = some d := by
    intro j d hd
    have hlt := (List.getElem?_eq_some_iff.mp hd).1
    exact (List.getElem?_append_left hlt).trans hd
  have hnew : (subscribe s key).connections[s.connections.length]? = some ⟨key, B.channel, [], 0⟩ := by
    show (s.connections ++ [_])[s.connections.length]? = _
    simp
  constructor
  · intro k senders hmap
    by_cases hk : k = key
    · subst hk
      have hself : (subscribe s k).map k = some ((s.map k).getD [] ++ [s.connections.length]) :=
        Function.update_self k _ s.map
      obtain rfl := Option.some.inj (hself.symm.trans hmap)
      cases hbefore : s.map k with
      | none => exact ⟨by simp, by simp, by simpa using ⟨_, hnew, rfl⟩⟩
      | some senders =>
        obtain ⟨-, hnodup, hkeys⟩ := hs.senders k senders hbefore
        refine ⟨by simp, ?_, ?_⟩
        · -- the new place is behind the others
          have hfresh : s.connections.length ∉ senders := fun h => by
            have := hs.lt hbefore _ h
            omega
          refine List.nodup_append.mpr ⟨hnodup, by simp, fun j hj k hk => ?_⟩
          rw [List.mem_singleton.mp hk]
          exact fun h => hfresh (h ▸ hj)
        · intro j hj
          rcases List.mem_append.mp hj with hj | hj
          · obtain ⟨d, hd, hdkey⟩ := hkeys j hj
            exact ⟨d, hold hd, hdkey⟩
          · rw [List.mem_singleton.mp hj]
            exact ⟨_, hnew, rfl⟩
    · have hsame : s.map k = some senders := by
        rw [← hmap]
        exact (Function.update_of_ne hk ..).symm
      obtain ⟨hne, hnodup, hkeys⟩ := hs.senders k senders hsame
      refine ⟨hne, hnodup, fun j hj => ?_⟩
      obtain ⟨d, hd, hdkey⟩ := hkeys j hj
      exact ⟨d, hold hd, hdkey⟩
  · intro j d hd hlive
    by_cases hj : j < s.connections.length
    · have hdold : s.connections[j]? = some d := (List.getElem?_append_left hj).symm.trans hd
      obtain ⟨senders, hmap, hmem⟩ := hs.live j d hdold hlive
      by_cases hk : d.key = key
      · refine ⟨_, by rw [hk]; exact Function.update_self .., ?_⟩
        rw [← hk, hmap]
        exact List.mem_append_left _ hmem
      · exact ⟨senders, (Function.update_of_ne hk ..).trans hmap, hmem⟩
    · -- the new connection
      have hlength := (List.getElem?_eq_some_iff.mp hd).1
      have hconnections : (subscribe s key).connections.length = s.connections.length + 1 := by
        simp [subscribe]
      obtain rfl : j = s.connections.length := by omega
      obtain rfl := Option.some.inj (hnew.symm.trans hd)
      exact ⟨_, Function.update_self .., by simp⟩

/-- The senders that a publication leaves are those of live connections. -/
theorem map_publish {senders : List Nat} (hs : Registered s) (hmap : s.map key = some senders) :
    (publish s key dto).map key = if senders.filter (kept s.connections) = [] then none
      else some (senders.filter (kept s.connections)) := by
  obtain ⟨-, hnodup, -⟩ := hs.senders key senders hmap
  unfold publish
  rw [hmap]
  show Function.update s.map key _ key = _
  rw [Function.update_self, (retain_spec hnodup (hs.lt hmap)).1]

theorem map_publish_of_ne {k : K} (h : k ≠ key) : (publish s key dto).map k = s.map k := by
  unfold publish
  cases s.map key with
  | none => rfl
  | some senders => exact Function.update_of_ne h ..

theorem map_publish_of_none (h : s.map key = none) : publish s key dto = s := by
  unfold publish
  rw [h]

/-- A connection after a publication, and before. -/
theorem exists_of_getElem?_publish (hs : Registered s)
    (h : (publish s key dto).connections[i]? = some c') :
    ∃ c, s.connections[i]? = some c ∧ c' = if c.key = key ∧ c.live then c.sent dto else c := by
  cases hc : s.connections[i]? with
  | none =>
    -- a publication makes no connections
    exfalso
    cases hmap : s.map key with
    | none =>
      rw [map_publish_of_none hmap, hc] at h
      cases h
    | some senders =>
      obtain ⟨-, hnodup, -⟩ := hs.senders key senders hmap
      unfold publish at h
      rw [hmap] at h
      replace h : (retain dto senders s.connections).2[i]? = some c' := h
      rw [(retain_spec hnodup (hs.lt hmap)).2 i, hc] at h
      split at h <;> cases h
  | some c => exact ⟨c, rfl, Option.some.inj (h.symm.trans (getElem?_publish hs hc))⟩

theorem registered_publish (hs : Registered s) (key : K) (dto : M) :
    Registered (publish s key dto) := by
  have hkeyOf : ∀ {j : Nat} {d : Connection K M B}, s.connections[j]? = some d →
      ∃ d', (publish s key dto).connections[j]? = some d' ∧ d'.key = d.key := by
    intro j d hd
    exact ⟨_, getElem?_publish hs hd, by split <;> rfl⟩
  constructor
  · intro k senders hmap
    have hbefore : ∃ before, s.map k = some before ∧ senders.Sublist before ∧ senders ≠ [] := by
      by_cases hk : k = key
      · subst hk
        cases hsk : s.map k with
        | none =>
          rw [map_publish_of_none hsk, hsk] at hmap
          cases hmap
        | some before =>
          rw [map_publish hs hsk] at hmap
          split at hmap
          · cases hmap
          · next hne =>
            obtain rfl := Option.some.inj hmap
            exact ⟨before, rfl, List.filter_sublist, hne⟩
      · rw [map_publish_of_ne hk] at hmap
        exact ⟨senders, hmap, List.Sublist.refl senders, (hs.senders k senders hmap).1⟩
    obtain ⟨before, hsk, hsublist, hne⟩ := hbefore
    obtain ⟨-, hnodup, hkeys⟩ := hs.senders k before hsk
    refine ⟨hne, hnodup.sublist hsublist, fun j hj => ?_⟩
    obtain ⟨d, hd, hdkey⟩ := hkeys j (hsublist.subset hj)
    obtain ⟨d', hd', hkey⟩ := hkeyOf hd
    exact ⟨d', hd', hkey.trans hdkey⟩
  · intro j d' hd' hlive
    obtain ⟨d, hd, rfl⟩ := exists_of_getElem?_publish hs hd'
    have hkey : (if d.key = key ∧ d.live then d.sent dto else d).key = d.key := by split <;> rfl
    have hdlive : d.live = true := by
      split at hlive
      · next hsent => exact hsent.2
      · exact hlive
    obtain ⟨senders, hmap, hmem⟩ := hs.live j d hd hdlive
    rw [hkey]
    by_cases hk : d.key = key
    · rw [hk] at hmap ⊢
      have hin : j ∈ senders.filter (kept s.connections) :=
        List.mem_filter.mpr ⟨hmem, by simp [kept, hd, hdlive]⟩
      exact ⟨_, by rw [map_publish hs hmap, if_neg (List.ne_nil_of_mem hin)], hin⟩
    · exact ⟨senders, by rw [map_publish_of_ne hk, hmap], hmem⟩

/-- **The step.** -/
theorem Registered.step (hs : Registered s) (h : step s a = some t) : Registered t := by
  cases a with
  | subscribe key => exact Option.some.inj h ▸ registered_subscribe hs key
  | publish key dto => exact Option.some.inj h ▸ registered_publish hs key dto
  | poll i =>
    obtain ⟨c, received, channel, hc, hlive, -, rfl⟩ := poll_eq_some h
    exact hs.set hc (key_receive c channel received) fun _ => hlive
  | drop i =>
    obtain ⟨c, hc, hlive, rfl⟩ := drop_eq_some h
    exact hs.set hc rfl fun _ => hlive

/-- **The run.** -/
theorem registered_of_run {actions : List (Action K M)} (h : run step new actions = some s) :
    Registered s :=
  Lib.run_invariant (fun _ _ _ => Registered.step) registered_new h

end Registry

/-! ### What a connection has been sent -/

/-- What an action publishes for a key. -/
def published [DecidableEq K] (key : K) : Action K M → List M
  | .publish k dto => if k = key then [dto] else []
  | .subscribe _ => []
  | .poll _ => []
  | .drop _ => []

/-- What actions publish for a key. -/
def publishedTo [DecidableEq K] (key : K) (actions : List (Action K M)) : List M := actions.flatMap (published key)

/-- How many connections have come. -/
def subscriptions (actions : List (Action K M)) : Nat :=
  actions.countP fun a => match a with
    | .subscribe _ => true
    | _ => false

/-- What a connection has lost or is about to be told that it has. -/
def Connection.lost (c : Connection K M B) : Nat := c.skipped + (B.backlog c.channel).missed

/-- A publication for the connection finds room in its channel. -/
def HasRoom [DecidableEq K] (i : Nat) (s : State K M B) (a : Action K M) : Prop :=
  ∀ c ∈ s.connections[i]?, published c.key a ≠ [] →
    (B.backlog c.channel).unread.length < channelCapacity

/-- The connection got what was sent, as far as it has read. -/
def Connection.Follows (sent : List M) (c : Connection K M B) : Prop :=
  Tracks channelCapacity sent c.shown c.skipped (B.backlog c.channel)

section Delivery

variable [DecidableEq K] {s t : State K M B} {a : Action K M} {i : Nat} {c c' : Connection K M B} {key : K}
  {sent : List M}

/-- The step: a connection is sent what the action publishes. -/
theorem follows_after (hfollows : c.Follows sent) (h : After a i c c') (hlive : c'.live = true) :
    c'.Follows (sent ++ published c.key a) := by
  cases a with
  | subscribe k =>
    obtain rfl : c' = c := h
    simpa [published] using hfollows
  | publish k dto =>
    replace h : c' = if c.key = k ∧ c.live then c.sent dto else c := h
    by_cases hk : c.key = k
    · have hclive : c.live = true := live_of_after (a := .publish k dto) (i := i) h hlive
      rw [if_pos ⟨hk, hclive⟩] at h
      subst h
      rw [published, if_pos hk.symm]
      exact Lib.tracks_send hfollows (backlog_sent hclive dto)
    · rw [if_neg (fun hboth => hk hboth.1)] at h
      subst h
      rw [published, if_neg (Ne.symm hk), List.append_nil]
      exact hfollows
  | poll j =>
    rw [published, List.append_nil]
    unfold After at h
    dsimp only at h
    split at h
    · obtain ⟨-, received, channel, hrecv, rfl⟩ := h
      have hbacklog := backlog_of_recv hrecv
      rcases Backlog.recv_cases hbacklog with ⟨rfl, hq⟩ | ⟨m, rest, rfl, hmissed, hunread, hq⟩
      · show Tracks channelCapacity sent c.shown _ (B.backlog channel)
        rw [hq]
        exact Lib.tracks_lagged hfollows
      · show Tracks channelCapacity sent (c.shown ++ [m]) c.skipped (B.backlog channel)
        rw [hq]
        exact Lib.tracks_message hfollows hmissed hunread
    · exact h ▸ hfollows
  | drop j =>
    rw [published, List.append_nil, eq_of_after_drop h hlive]
    exact hfollows

/-- The step: what is lost stays so, and more is lost exactly when there is no room. -/
theorem lost_after (h : After a i c c') (hlive : c'.live = true) :
    c.lost ≤ c'.lost ∧ (c'.lost = c.lost ↔
      (published c.key a ≠ [] → (B.backlog c.channel).unread.length < channelCapacity)) := by
  cases a with
  | subscribe k =>
    obtain rfl : c' = c := h
    simp [published]
  | publish k dto =>
    replace h : c' = if c.key = k ∧ c.live then c.sent dto else c := h
    by_cases hk : c.key = k
    · have hclive : c.live = true := live_of_after (a := .publish k dto) (i := i) h hlive
      rw [if_pos ⟨hk, hclive⟩] at h
      subst h
      obtain ⟨-, hbacklog⟩ := Backlog.of_send (backlog_sent hclive dto)
      have hlost : (c.sent dto).lost
          = c.lost + ((B.backlog c.channel).unread.length + 1 - channelCapacity) := by
        show c.skipped + (B.backlog (c.sent dto).channel).missed = _
        rw [hbacklog]
        exact (Nat.add_assoc ..).symm
      rw [hlost, published, if_pos hk.symm]
      refine ⟨by omega, ?_⟩
      simp only [ne_eq, List.cons_ne_self, not_false_eq_true, forall_const]
      omega
    · rw [if_neg (fun hboth => hk hboth.1)] at h
      subst h
      simp [published, Ne.symm hk]
  | poll j =>
    have hsame : c'.lost = c.lost := by
      unfold After at h
      dsimp only at h
      split at h
      · obtain ⟨-, received, channel, hrecv, rfl⟩ := h
        have hbacklog := backlog_of_recv hrecv
        -- a notice moves what is missing to what was skipped
        rcases Backlog.recv_cases hbacklog with ⟨rfl, hq⟩ | ⟨m, rest, rfl, hmissed, -, hq⟩
        · show c.skipped + (B.backlog c.channel).missed + (B.backlog channel).missed = c.lost
          rw [hq]
          rfl
        · show c.skipped + (B.backlog channel).missed = c.lost
          rw [hq]
          rfl
      · rw [h]
    simp [published, hsame]
  | drop j => simp [published, eq_of_after_drop h hlive]

/-- Whoever is live at the end was live before. -/
theorem live_of_run {actions : List (Action K M)} (hs : Registered s)
    (hrun : run step s actions = some t) (hc : s.connections[i]? = some c)
    (hc' : t.connections[i]? = some c') (hlive : c'.live = true) : c.live = true := by
  induction actions generalizing s c with
  | nil =>
    obtain rfl := Option.some.inj hrun
    exact Option.some.inj (hc.symm.trans hc') ▸ hlive
  | cons a actions ih =>
    obtain ⟨u, hu, hrest⟩ := Lib.run_cons_eq_some.mp hrun
    obtain ⟨d, hd, hafter⟩ := step_connection hs hu hc
    exact live_of_after hafter (ih (hs.step hu) hrest hd)

/-- The run: whoever is live at the end follows what was published since. -/
theorem tracks_of_run {actions : List (Action K M)} (hs : Registered s)
    (hrun : run step s actions = some t) (hc : s.connections[i]? = some c) (hfollows : c.Follows sent)
    (hc' : t.connections[i]? = some c') (hlive : c'.live = true) :
    c.live = true ∧ c'.key = c.key ∧ c'.Follows (sent ++ publishedTo c.key actions)
      ∧ c.lost ≤ c'.lost ∧ (c'.lost = c.lost ↔ Along step (HasRoom i) s actions) := by
  induction actions generalizing s c sent with
  | nil =>
    obtain rfl := Option.some.inj hrun
    obtain rfl := Option.some.inj (hc.symm.trans hc')
    exact ⟨hlive, rfl, by simpa [publishedTo] using hfollows, le_rfl, by simp⟩
  | cons a actions ih =>
    obtain ⟨u, hu, hrest⟩ := Lib.run_cons_eq_some.mp hrun
    obtain ⟨d, hd, hafter⟩ := step_connection hs hu hc
    -- the connection is live in between
    have hdlive : d.live = true := live_of_run (hs.step hu) hrest hd hc' hlive
    obtain ⟨-, hkey, hfollows', hle, hiff⟩ :=
      ih (hs.step hu) hrest hd (follows_after hfollows hafter hdlive)
    obtain ⟨hle', hiff'⟩ := lost_after hafter hdlive
    have hdkey := key_after hafter
    refine ⟨live_of_after hafter hdlive, hkey.trans hdkey, ?_, hle'.trans hle, ?_⟩
    · rw [hdkey, List.append_assoc] at hfollows'
      simpa [publishedTo] using hfollows'
    · rw [Lib.along_cons]
      have hroom : HasRoom i s a ↔ d.lost = c.lost := by
        rw [hiff']
        unfold HasRoom
        simp [hc]
      rw [hroom]
      constructor
      · intro heq
        have hdc : d.lost = c.lost := by omega
        exact ⟨hdc, fun v hv => Option.some.inj (hu.symm.trans hv) ▸ hiff.mp (by omega)⟩
      · rintro ⟨hdc, hall⟩
        have := hiff.mpr (hall u hu)
        omega

/-- A connection comes with each subscription. -/
theorem length_step (h : step s a = some t) :
    t.connections.length = s.connections.length + subscriptions [a] := by
  cases a with
  | subscribe key =>
    obtain rfl := Option.some.inj h
    simp [subscribe, subscriptions]
  | publish key dto =>
    obtain rfl := Option.some.inj h
    show (publish s key dto).connections.length = _
    unfold publish
    cases s.map key with
    | none => rfl
    | some senders => exact length_retain dto senders s.connections
  | poll i =>
    obtain ⟨c, received, channel, -, -, -, rfl⟩ := poll_eq_some h
    simp [subscriptions]
  | drop i =>
    obtain ⟨c, -, -, rfl⟩ := drop_eq_some h
    simp [subscriptions]

theorem length_of_run {actions : List (Action K M)} (hrun : run step s actions = some t) :
    t.connections.length = s.connections.length + subscriptions actions := by
  induction actions generalizing s with
  | nil => exact Option.some.inj hrun ▸ rfl
  | cons a actions ih =>
    obtain ⟨u, hu, hrest⟩ := Lib.run_cons_eq_some.mp hrun
    have hcons : subscriptions (a :: actions) = subscriptions [a] + subscriptions actions := by
      simp [subscriptions, List.countP_cons, Nat.add_comm]
    rw [ih hrest, length_step hu, hcons]
    omega

/-- **Delivery.**  A connection comes, and anything happens.  While it is live, the registry has its
    sender; its client was shown messages published for its key since then and no others, in order;
    all of them are shown, unread or counted as lost, and at most the capacity of the channel are
    unread; and none is lost exactly when the connection was never behind by a full channel. -/
theorem fanout_delivers {before after : List (Action K M)}
    (hcome : run step new (before ++ [.subscribe key]) = some s) (hrun : run step s after = some t)
    (hc : t.connections[subscriptions before]? = some c) (hlive : c.live = true) :
    c.key = key ∧ (∃ senders, t.map key = some senders ∧ subscriptions before ∈ senders)
      ∧ (c.shown ++ (B.backlog c.channel).unread).Sublist (publishedTo key after)
      ∧ (B.backlog c.channel).unread <:+ publishedTo key after
      ∧ (B.backlog c.channel).unread.length ≤ channelCapacity
      ∧ (publishedTo key after).length
        = c.shown.length + c.lost + (B.backlog c.channel).unread.length
      ∧ (publishedTo key after = c.shown ++ (B.backlog c.channel).unread
        ↔ Along step (HasRoom (subscriptions before)) s after) := by
  have hs := registered_of_run hcome
  obtain ⟨u, hu, hlast⟩ := Lib.run_append.mp hcome
  obtain ⟨v, hv, hnil⟩ := Lib.run_cons_eq_some.mp hlast
  obtain rfl := Option.some.inj hv
  obtain rfl := Option.some.inj hnil
  -- the new connection is the last one
  have hlength : u.connections.length = subscriptions before := by
    simpa [new] using length_of_run hu
  have hnew : (subscribe u key).connections[subscriptions before]?
      = some ⟨key, B.channel, [], 0⟩ := by
    rw [← hlength]
    show (u.connections ++ [_])[u.connections.length]? = _
    simp
  have hfollows : Connection.Follows (B := B) [] ⟨key, B.channel, [], 0⟩ := by
    show Tracks channelCapacity [] [] 0 (B.backlog B.channel)
    rw [B.backlog_channel]
    exact Lib.tracks_new
  have hnone : Connection.lost (B := B) ⟨key, B.channel, ([] : List M), 0⟩ = 0 := by
    show 0 + (B.backlog B.channel).missed = 0
    rw [B.backlog_channel]
    rfl
  obtain ⟨-, hkey, htracks, -, hroom⟩ := tracks_of_run hs hrun hnew hfollows hc hlive
  replace hkey : c.key = key := hkey
  replace htracks : c.Follows (publishedTo key after) := htracks
  have hregistered : Registered t := Lib.run_invariant (fun _ _ _ => Registered.step) hs hrun
  refine ⟨hkey, hkey ▸ hregistered.live _ c hc hlive, htracks.sublist, ?_, htracks.bounded, ?_, ?_⟩
  · obtain ⟨past, hpast, -⟩ := htracks.split
    exact ⟨past, hpast.symm⟩
  · rw [htracks.length_eq]
    unfold Connection.lost
    omega
  · rw [hnone] at hroom
    rw [← hroom]
    exact htracks.lossless_iff

/-- Two messages for a client, who has read the first, and one for nobody. -/
def twoMessages : List (Action Nat String) :=
  [.publish 1 "liked", .poll 0, .publish 2 "saved", .publish 1 "commented"]

/-- The second message waits in the channel. -/
theorem fanout_delivers_twoMessages :
    (((run step (subscribe (B := .plain String channelCapacity) new 1) twoMessages).bind
        fun t => t.connections[0]?).map Connection.shown = some ["liked"])
      ∧ (publishedTo 1 twoMessages).length = 1 + 0 + 1 := by
  refine ⟨rfl, ?_⟩
  have h := @fanout_delivers Nat String (.plain String channelCapacity) _ _ _ _ 1 [] twoMessages
    rfl rfl rfl rfl
  exact h.2.2.2.2.2.1

/-- **Pruning.**  In every state that can be reached, a publication leaves the senders of exactly the
    live connections of its key, and no entry when there are none; other keys keep theirs. -/
theorem publish_prunes {actions : List (Action K M)} (hrun : run step new actions = some s) (key : K)
    (dto : M) :
    (∀ i, (∃ senders, (publish s key dto).map key = some senders ∧ i ∈ senders)
        ↔ ∃ c, (publish s key dto).connections[i]? = some c ∧ c.key = key ∧ c.live = true)
      ∧ ((publish s key dto).map key = none
        ↔ ∀ (i : Nat) (c : Connection K M B), (publish s key dto).connections[i]? = some c →
          c.key = key → c.live = false)
      ∧ ∀ k, k ≠ key → (publish s key dto).map k = s.map k := by
  have hs := registered_of_run hrun
  have ht := registered_publish hs key dto
  have hiff : ∀ i, (∃ senders, (publish s key dto).map key = some senders ∧ i ∈ senders)
      ↔ ∃ c, (publish s key dto).connections[i]? = some c ∧ c.key = key ∧ c.live = true := by
    intro i
    constructor
    · rintro ⟨senders, hmap, hi⟩
      cases hbefore : s.map key with
      | none =>
        rw [map_publish_of_none hbefore, hbefore] at hmap
        cases hmap
      | some senders' =>
        rw [map_publish hs hbefore] at hmap
        split at hmap
        · cases hmap
        · -- a sender is left only where somebody reads
          obtain rfl := Option.some.inj hmap
          obtain ⟨hmem, hkept⟩ := List.mem_filter.mp hi
          obtain ⟨c, hc, hkey⟩ := (hs.senders key senders' hbefore).2.2 i hmem
          have hclive : c.live = true := by simpa [kept, hc] using hkept
          refine ⟨_, getElem?_publish hs hc, ?_⟩
          rw [if_pos ⟨hkey, hclive⟩]
          exact ⟨hkey, live_sent hclive dto⟩
    · rintro ⟨c, hc, rfl, hclive⟩
      exact ht.live i c hc hclive
  refine ⟨hiff, ?_, fun k hk => map_publish_of_ne hk⟩
  constructor
  · intro hnone i c hc hkey
    by_contra hclive
    obtain ⟨senders, hmap, -⟩ := (hiff i).mpr ⟨c, hc, hkey, by simpa using hclive⟩
    rw [hnone] at hmap
    cases hmap
  · intro hall
    by_contra hsome
    obtain ⟨senders, hmap⟩ := Option.ne_none_iff_exists'.mp hsome
    -- an entry has a sender
    obtain ⟨i, hi⟩ := List.exists_mem_of_ne_nil senders (ht.senders key senders hmap).1
    obtain ⟨c, hc, hkey, hclive⟩ := (hiff i).mp ⟨senders, hmap, hi⟩
    rw [hall i c hc hkey] at hclive
    cases hclive

/-- A client has gone, another one stays. -/
theorem publish_prunes_gone :
    (∃ s : State Nat String (.plain String channelCapacity),
        run step new [.subscribe 1, .subscribe 1, .drop 0] = some s
        ∧ (publish s 1 "liked").map 1 = some [1])
      ∧ ∃ s : State Nat String (.plain String channelCapacity),
        run step new [.subscribe 1, .drop 0] = some s ∧ (publish s 1 "liked").map 2 = s.map 2 :=
  ⟨⟨_, rfl, rfl⟩, _, rfl,
    (@publish_prunes Nat String _ _ _ [.subscribe 1, .drop 0] rfl 1 "liked").2.2 2 (by decide)⟩

end Delivery

end Oecophylla.Notification.Fanout
