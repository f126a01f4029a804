import Mathlib.Logic.Function.Basic

namespace Oecophylla.Lib

/-!
# Library — values that expire

A store in which a value is set together with the time until which it can be read.

* `Expiring.read` — what is found at a time;
* `Expiring.setex`, `Expiring.delete` — the updates.
-/

/-- A value and the first moment at which it is gone. -/
structure Expiring.Entry (ν : Type*) where
  value : ν
  expiresAt : Nat

/-- A store. -/
abbrev Expiring (κ ν : Type*) := κ → Option (Expiring.Entry ν)

namespace Expiring

variable {κ ν : Type*}

/-- The value of a key at the time `now`. -/
def read (store : Expiring κ ν) (now : Nat) (key : κ) : Option ν :=
  (store key).bind fun entry => if now < entry.expiresAt then some entry.value else none

/-! ### Updates -/

variable [DecidableEq κ]

/-- Set a key for `ttl` units of time. -/
def setex (store : Expiring κ ν) (now : Nat) (key : κ) (ttl : Nat) (value : ν) : Expiring κ ν :=
  Function.update store key (some ⟨value, now + ttl⟩)

/-- Delete keys. -/
def delete (store : Expiring κ ν) (keys : List κ) : Expiring κ ν :=
  fun key => if key ∈ keys then none else store key

theorem setex_self (store : Expiring κ ν) (now : Nat) (key : κ) (ttl : Nat) (value : ν) :
    store.setex now key ttl value key = some ⟨value, now + ttl⟩ :=
  Function.update_self key _ store

theorem setex_of_ne (store : Expiring κ ν) (now : Nat) {key k : κ} (h : k ≠ key) (ttl : Nat)
    (value : ν) : store.setex now key ttl value k = store k :=
  Function.update_of_ne h _ store

end Expiring

end Oecophylla.Lib
