import Mathlib.Data.List.Basic
import Mathlib.Data.List.Infix

namespace Oecophylla.Lib

/-!
# Library — a bounded channel whose reader may fall behind

A channel keeps the last `capacity` messages that its reader has not read.  A reader that falls
behind is told how many messages it has missed, and goes on with the oldest one that is left.

* `Backlog` — what a channel owes its reader; `send`, `recv`, `close`;
* `Broadcast` — an implementation of such channels;
* `Tracks` — what was sent, what the reader got and what it skipped fit together;
* `tracks_send`, `tracks_message`, `tracks_lagged` — the steps keep it;
* `Tracks.lossless_iff` — nothing is lost exactly when nothing was skipped.
-/

variable {M : Type*}

/-- What a reader gets. -/
inductive Received (M : Type*) where
  | message (m : M)
  | lagged (missed : Nat)
  deriving DecidableEq, Repr

/-- The messages not read yet, the number of those that were overwritten unread, and whether there is
    a reader. -/
structure Backlog (M : Type*) where
  unread : List M
  missed : Nat
  connected : Bool
  deriving DecidableEq, Repr

namespace Backlog

/-- A new channel. -/
def new : Backlog M := ⟨[], 0, true⟩

/-- Send a message, if there is a reader. -/
def send (capacity : Nat) (q : Backlog M) (m : M) : Option (Backlog M) :=
  if q.connected then
    let excess := q.unread.length + 1 - capacity
    some { q with unread := (q.unread ++ [m]).drop excess, missed := q.missed + excess }
  else none

/-- Read: first how many messages are missing, then the oldest one. -/
def recv (q : Backlog M) : Option (Received M × Backlog M) :=
  if q.missed = 0 then
    match q.unread with
    | [] => none
    | m :: rest => some (.message m, { q with unread := rest })
  else some (.lagged q.missed, { q with missed := 0 })

/-- The reader leaves. -/
def close (q : Backlog M) : Backlog M := { q with connected := false }

variable {capacity : Nat} {q q' : Backlog M} {m : M}

theorem isSome_send : (q.send capacity m).isSome = q.connected := by
  unfold send
  split
  · next h => simp [h]
  · next h => simp [h]

theorem of_send (h : q.send capacity m = some q') :
    q.connected = true ∧ q' = { q with
      unread := (q.unread ++ [m]).drop (q.unread.length + 1 - capacity)
      missed := q.missed + (q.unread.length + 1 - capacity) } := by
  unfold send at h
  split at h
  · next hconnected => exact ⟨hconnected, (Option.some.inj h).symm⟩
  · cases h

/-- What reading does. -/
theorem recv_cases {received : Received M} (h : q.recv = some (received, q')) :
    received = .lagged q.missed ∧ q' = { q with missed := 0 }
    ∨ ∃ m rest, received = .message m ∧ q.missed = 0 ∧ q.unread = m :: rest
      ∧ q' = { q with unread := rest } := by
  unfold recv at h
  split at h
  · next hmissed =>
    cases hunread : q.unread with
    | nil => simp [hunread] at h
    | cons m rest =>
      rw [hunread] at h
      simp only [Option.some.injEq, Prod.mk.injEq] at h
      exact Or.inr ⟨m, rest, h.1.symm, hmissed, rfl, h.2.symm⟩
  · simp only [Option.some.injEq, Prod.mk.injEq] at h
    exact Or.inl ⟨h.1.symm, h.2.symm⟩

end Backlog

/-- Channels of one capacity: what the operations do is said of the backlog. -/
structure Broadcast (M : Type) (capacity : Nat) where
  Channel : Type
  channel : Channel
  send : Channel → M → Option Channel
  recv : Channel → Option (Received M × Channel)
  close : Channel → Channel
  backlog : Channel → Backlog M
  backlog_channel : backlog channel = .new
  backlog_send : ∀ c m, (send c m).map backlog = (backlog c).send capacity m
  backlog_recv : ∀ c, (recv c).map (Prod.map id backlog) = (backlog c).recv
  backlog_close : ∀ c, backlog (close c) = (backlog c).close

/-- The backlogs themselves. -/
def Broadcast.plain (M : Type) (capacity : Nat) : Broadcast M capacity where
  Channel := Backlog M
  channel := .new
  send := Backlog.send capacity
  recv := Backlog.recv
  close := Backlog.close
  backlog := id
  backlog_channel := rfl
  backlog_send := fun c m => by simp
  backlog_recv := fun c => by simp
  backlog_close := fun _ => rfl

/-- What was sent is what the reader is past, and what is unread; of the former it got some messages,
    in order, was told of others that they are missing, and will be told of the rest. -/
structure Tracks (capacity : Nat) (sent got : List M) (skipped : Nat) (q : Backlog M) : Prop where
  bounded : q.unread.length ≤ capacity
  split : ∃ past, sent = past ++ q.unread ∧ got.Sublist past
    ∧ past.length = got.length + skipped + q.missed

section Tracks

variable {capacity : Nat} {sent got : List M} {skipped : Nat} {q q' : Backlog M} {m : M}

theorem tracks_new : Tracks capacity ([] : List M) [] 0 .new :=
  ⟨Nat.zero_le capacity, [], rfl, List.Sublist.slnil, rfl⟩

theorem tracks_send (h : Tracks capacity sent got skipped q) (hsend : q.send capacity m = some q') :
    Tracks capacity (sent ++ [m]) got skipped q' := by
  obtain ⟨hbounded, past, rfl, hgot, hlength⟩ := h
  obtain ⟨-, rfl⟩ := Backlog.of_send hsend
  refine ⟨?_, past ++ (q.unread ++ [m]).take (q.unread.length + 1 - capacity), ?_, ?_, ?_⟩
  · simp only [List.length_drop, List.length_append, List.length_singleton]
    omega
  · show past ++ q.unread ++ [m] = past ++ List.take _ _ ++ List.drop _ _
    rw [List.append_assoc past (List.take _ _), List.take_append_drop, List.append_assoc]
  · exact hgot.trans (List.sublist_append_left past _)
  · simp only [List.length_append, List.length_take, List.length_singleton]
    omega

theorem tracks_message {rest : List M} (h : Tracks capacity sent got skipped q) (hmissed : q.missed = 0)
    (hunread : q.unread = m :: rest) :
    Tracks capacity sent (got ++ [m]) skipped { q with unread := rest } := by
  obtain ⟨hbounded, past, rfl, hgot, hlength⟩ := h
  rw [hunread] at hbounded ⊢
  refine ⟨?_, past ++ [m], by simp, hgot.append (List.Sublist.refl [m]), ?_⟩
  · show rest.length ≤ capacity
    rw [List.length_cons] at hbounded
    omega
  · show (past ++ [m]).length = (got ++ [m]).length + skipped + q.missed
    simp only [List.length_append, List.length_singleton]
    omega

theorem tracks_lagged (h : Tracks capacity sent got skipped q) :
    Tracks capacity sent got (skipped + q.missed) { q with missed := 0 } := by
  obtain ⟨hbounded, past, rfl, hgot, hlength⟩ := h
  refine ⟨hbounded, past, rfl, hgot, ?_⟩
  show past.length = got.length + (skipped + q.missed) + 0
  omega

/-- The messages are all accounted for. -/
theorem Tracks.length_eq (h : Tracks capacity sent got skipped q) :
    sent.length = got.length + skipped + q.missed + q.unread.length := by
  obtain ⟨-, past, rfl, -, hlength⟩ := h
  rw [List.length_append]
  omega

/-- The reader gets what was sent, in that order. -/
theorem Tracks.sublist (h : Tracks capacity sent got skipped q) : (got ++ q.unread).Sublist sent := by
  obtain ⟨-, past, rfl, hgot, -⟩ := h
  exact hgot.append (List.Sublist.refl q.unread)

/-- Nothing is lost exactly when nothing was skipped. -/
theorem Tracks.lossless_iff (h : Tracks capacity sent got skipped q) :
    sent = got ++ q.unread ↔ skipped + q.missed = 0 := by
  have hlength := h.length_eq
  constructor
  · intro heq
    have := congrArg List.length heq
    rw [List.length_append] at this
    omega
  · intro hzero
    refine (h.sublist.eq_of_length ?_).symm
    rw [List.length_append]
    omega

end Tracks

end Oecophylla.Lib
