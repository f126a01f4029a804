import Oecophylla.Interaction.Comments
import Oecophylla.Lib.FixedWindow

namespace Oecophylla.Middleware

open Oecophylla.Lib (admitted countWindow Spaced countWindow_admitted_le_iff spaced_of_length_le)
open Interaction.Comments (trim)

/-!
# The rate limit — `common/src/middleware/rate_limit.rs`

* `identOf`, `key` — whose requests are counted together, and the name of the counter;
* `Redis.incr`, `Redis.expire` — the two commands;
* `enforceRateLimit` — a request at its time; `serve` — requests one after the other;
* `Counts` — the invariant: the counter of a minute has the requests of the identity in it;
* `admittedTimes_eq` — an identity is served by the counter of fixed windows of `Lib.FixedWindow`;
* `bounded_iff_spaced` — the maximum is kept in every minute exactly if the requests are spaced.

A time is in nanoseconds.  Redis answers every command at the time of the request.
-/

/-- `RateLimitPolicy`. -/
structure RateLimitPolicy where
  keyPrefix : String
  maxPerMinute : UInt32
  deriving DecidableEq, Repr

/-- What the middleware reads of a request: the `AuthUser` in its extensions, and two headers that
    have a text. -/
structure Request where
  user : Option String
  cookie : Option String
  forwardedFor : Option String
  deriving DecidableEq, Repr

/-- What the middleware does with a request. -/
inductive Answer where
  | next
  | rateLimited (retryAfterS : ℕ)
  | other
  deriving DecidableEq, Repr

/-! ### The identity -/

/-- `text.split(c)`. -/
def split (text : String) (c : Char) : List String :=
  (text.toList.splitOn c).map String.ofList

/-- `client_ip`. -/
def clientIp (req : Request) : String :=
  let first := req.forwardedFor.bind fun v => (split v ',').head?.map trim
  (first.filter (· ≠ "")).getD "unknown"

/-- `text.strip_prefix(start)`. -/
def stripPrefix (start text : String) : Option String :=
  if start.toList <+: text.toList then
    some (String.ofList (text.toList.drop start.toList.length))
  else none

/-- `extract_access_cookie`. -/
def extractAccessCookie (req : Request) : Option String :=
  req.cookie.bind fun raw => (split raw ';').findSome? fun kv => stripPrefix "oec_access=" (trim kv)

/-- The identity; `verifyAccess` gives the `sub` of a token. -/
def identOf (verifyAccess : String → Option String) (req : Request) : String :=
  match req.user with
  | some id => "u:" ++ id
  | none =>
    match extractAccessCookie req with
    | some token =>
      match verifyAccess token with
      | some sub => "u:" ++ sub
      | none => "ip:" ++ clientIp req
    | none => "ip:" ++ clientIp req

/-- `rate:{prefix}:{ident}:{minute}`. -/
def key (keyPrefix ident : String) (minute : ℕ) : String :=
  "rate:" ++ keyPrefix ++ ":" ++ ident ++ ":" ++ toString minute

/-- A text is cut at its last separator in one way. -/
theorem append_cons_inj_right {α : Type*} {c : α} {l l' r r' : List α} (hr : c ∉ r) (hr' : c ∉ r')
    (h : l ++ c :: r = l' ++ c :: r') : l = l' ∧ r = r' := by
  rcases List.append_eq_append_iff.mp h with ⟨m, rfl, hm⟩ | ⟨m, rfl, hm⟩
  · cases m with
    | nil => simpa using hm
    | cons d m =>
      simp only [List.cons_append, List.cons.injEq] at hm
      exact absurd (by simp [hm.2] : c ∈ r) hr
  · cases m with
    | nil => simpa [eq_comm] using hm
    | cons d m =>
      simp only [List.cons_append, List.cons.injEq] at hm
      exact absurd (by simp [hm.2] : c ∈ r') hr'

/-- The last colon of a key stands before the minute, so that different counters have different
    keys, whatever an identity is made of. -/
theorem key_inj {keyPrefix ident ident' : String} {minute minute' : ℕ} :
    key keyPrefix ident minute = key keyPrefix ident' minute' ↔ ident = ident' ∧ minute = minute' := by
  constructor
  · intro h
    have hdigits : ∀ n : ℕ, ':' ∉ (Nat.repr n).toList := by
      intro n hmem
      have hdigit := Nat.isDigit_of_mem_toDigits (b := 10) (n := n) (by decide) (by decide)
        (by simpa using hmem)
      exact absurd hdigit (by decide)
    have htext : (key keyPrefix ident minute).toList = (key keyPrefix ident' minute').toList :=
      congrArg String.toList h
    have hkey : ∀ (i : String) (m : ℕ), (key keyPrefix i m).toList
        = ("rate:" ++ keyPrefix ++ ":" ++ i).toList ++ ':' :: (Nat.repr m).toList := by
      intro i m
      simp only [key, String.toList_append, List.append_assoc]
      rfl
    rw [hkey, hkey] at htext
    obtain ⟨hleft, hright⟩ := append_cons_inj_right (hdigits _) (hdigits _) htext
    constructor
    · exact String.toList_injective (by simpa using hleft)
    · have hvalue : ∀ m : ℕ, Nat.ofDigitChars 10 (Nat.repr m).toList 0 = m := by
        intro m
        rw [Nat.toList_repr, Nat.ofDigitChars_ten_toDigits]
      rw [← hvalue minute, ← hvalue minute', hright]
  · rintro ⟨rfl, rfl⟩
    rfl

/-! ### Redis -/

/-- A number in Redis, and when it goes if a command has said so. -/
structure Counter where
  count : ℕ
  expiresAt : Option ℕ
  deriving DecidableEq, Repr

abbrev Redis := String → Option Counter

/-- Nanoseconds in a second. -/
def second : ℕ := 10 ^ 9

/-- The greatest `i64`. -/
def maxI64 : ℕ := 2 ^ 63 - 1

/-- What is stored under a key at a time. -/
def Redis.get (redis : Redis) (now : ℕ) (key : String) : Option Counter :=
  (redis key).filter fun counter => counter.expiresAt.all (now < ·)

/-- `INCR`, that keeps the time to live; it fails when the number no longer is an `i64`. -/
def Redis.incr (redis : Redis) (now : ℕ) (key : String) : Option (ℕ × Redis) :=
  let old := redis.get now key
  let count := (old.map (·.count)).getD 0 + 1
  if count ≤ maxI64 then
    some (count, Function.update redis key (some ⟨count, old.bind (·.expiresAt)⟩))
  else none

/-- `EXPIRE`. -/
def Redis.expire (redis : Redis) (now : ℕ) (key : String) (seconds : ℕ) : Redis :=
  match redis.get now key with
  | some counter =>
    Function.update redis key (some { counter with expiresAt := some (now + seconds * second) })
  | none => redis

/-! ### The middleware -/

section Code

variable (verifyAccess : String → Option String) (policy : RateLimitPolicy)

/-- `enforce_rate_limit` of a request at the time `now`. -/
def enforceRateLimit (redis : Redis) (now : ℕ) (req : Request) : Redis × Answer :=
  let minute := now / second / 60
  let name := key policy.keyPrefix (identOf verifyAccess req) minute
  match redis.incr now name with
  | none => (redis, .other)
  | some (count, redis) =>
    let redis := if count = 1 then redis.expire now name 65 else redis
    if policy.maxPerMinute < UInt32.ofNat count then (redis, .rateLimited 60) else (redis, .next)

/-- The answers to requests one after the other. -/
def serve : Redis → List (ℕ × Request) → List (ℕ × Request × Answer)
  | _, [] => []
  | redis, (now, req) :: rest =>
    let (redis, answer) := enforceRateLimit verifyAccess policy redis now req
    (now, req, answer) :: serve redis rest

/-- The times of the requests of an identity. -/
def timesOf (ident : String) (requests : List (ℕ × Request)) : List ℕ :=
  requests.filterMap fun (now, req) => if identOf verifyAccess req = ident then some now else none

/-- The times of its requests that went on to the handler. -/
def admittedTimes (ident : String) (requests : List (ℕ × Request)) : List ℕ :=
  (serve verifyAccess policy (fun _ => none) requests).filterMap fun (now, req, answer) =>
    if identOf verifyAccess req = ident ∧ answer = .next then some now else none

end Code

/-! ### The counters -/

/-- What is read when nothing is stored is zero. -/
def Redis.count (redis : Redis) (now : ℕ) (key : String) : ℕ :=
  ((redis.get now key).map (·.count)).getD 0

theorem Redis.get_update_of_ne (redis : Redis) (now : ℕ) {name name' : String} (h : name' ≠ name)
    (counter : Option Counter) :
    Redis.get (Function.update redis name counter) now name' = redis.get now name' := by
  rw [Redis.get, Redis.get, Function.update_of_ne h]

theorem Redis.get_update_self (redis : Redis) (now : ℕ) (name : String) (counter : Counter) :
    Redis.get (Function.update redis name (some counter)) now name
      = if counter.expiresAt.all (now < ·) then some counter else none := by
  rw [Redis.get, Function.update_self, Option.filter_some]

theorem Redis.alive_of_get {redis : Redis} {now : ℕ} {name : String} {counter : Counter}
    (h : redis.get now name = some counter) : counter.expiresAt.all (now < ·) = true := by
  rw [Redis.get, Option.filter_eq_some_iff] at h
  exact h.2

theorem Redis.get_mono {redis : Redis} {now later : ℕ} (hle : now ≤ later) {name : String}
    {counter : Counter} (h : redis.get later name = some counter) :
    redis.get now name = some counter := by
  have halive := alive_of_get h
  rw [Redis.get, Option.filter_eq_some_iff] at h ⊢
  refine ⟨h.1, ?_⟩
  cases hexpires : counter.expiresAt with
  | none => rfl
  | some t =>
    rw [hexpires] at halive
    simp only [Option.all_some, decide_eq_true_eq] at halive ⊢
    omega

/-- The counter of a request, that a first request gives 65 seconds to live. -/
def Redis.next (redis : Redis) (now : ℕ) (name : String) : Counter where
  count := redis.count now name + 1
  expiresAt :=
    if redis.count now name = 0 then some (now + 65 * second)
    else (redis.get now name).bind (·.expiresAt)

theorem all_lt_of_lt {t time : ℕ} (h : t < time) : (some time).all (t < ·) = true := by
  simpa using h

/-- The counter that a request leaves is read in the next 65 seconds, if that of before is. -/
theorem Redis.next_alive {redis : Redis} {now t : ℕ} {name : String} (hle : now ≤ t)
    (ht : t < now + 65 * second) (hcount : redis.count t name = redis.count now name) :
    (redis.next now name).expiresAt.all (t < ·) = true := by
  by_cases hfirst : redis.count now name = 0
  · have hnext : (redis.next now name).expiresAt = some (now + 65 * second) := if_pos hfirst
    rw [hnext]
    exact all_lt_of_lt ht
  · have hnext : (redis.next now name).expiresAt = (redis.get now name).bind (·.expiresAt) :=
      if_neg hfirst
    cases hget : redis.get t name with
    | none =>
      rw [Redis.count, hget] at hcount
      exact absurd hcount.symm hfirst
    | some counter =>
      have halive := Redis.alive_of_get hget
      rw [hnext, Redis.get_mono hle hget]
      exact halive

section Step

variable (verifyAccess : String → Option String) (policy : RateLimitPolicy) (redis : Redis)
  (now : ℕ) (req : Request)

/-- What a request does: all that follows is derived from it. -/
theorem enforceRateLimit_eq {name : String}
    (hname : key policy.keyPrefix (identOf verifyAccess req) (now / second / 60) = name) :
    enforceRateLimit verifyAccess policy redis now req
      = if redis.count now name + 1 ≤ maxI64 then
          (Function.update redis name (some (redis.next now name)),
            if policy.maxPerMinute < UInt32.ofNat (redis.count now name + 1) then .rateLimited 60
            else .next)
        else (redis, .other) := by
  have hincr : redis.incr now name
      = if redis.count now name + 1 ≤ maxI64 then
          some (redis.count now name + 1, Function.update redis name
            (some ⟨redis.count now name + 1, (redis.get now name).bind (·.expiresAt)⟩))
        else none := rfl
  simp only [enforceRateLimit, hname, hincr]
  by_cases hfits : redis.count now name + 1 ≤ maxI64
  · have hstored : Redis.get (Function.update redis name (some
        ⟨redis.count now name + 1, (redis.get now name).bind (·.expiresAt)⟩)) now name
        = some ⟨redis.count now name + 1, (redis.get now name).bind (·.expiresAt)⟩ := by
      rw [Redis.get_update_self, if_pos]
      cases hget : redis.get now name with
      | none => rfl
      | some counter =>
        have halive := Redis.alive_of_get hget
        exact halive
    -- the command `EXPIRE` finds the counter that `INCR` has just written
    rw [if_pos hfits, if_pos hfits]
    by_cases hfirst : redis.count now name = 0
    · simp only [hfirst, Nat.zero_add, if_true, Redis.expire, Redis.next]
      rw [hfirst, Nat.zero_add] at hstored
      rw [hstored]
      simp only [Function.update_idem, apply_ite (Prod.mk _)]
    · simp only [Nat.add_eq_right, hfirst, if_false, Redis.next, apply_ite (Prod.mk _)]
  · rw [if_neg hfits, if_neg hfits]

/-- A request leaves the other keys alone. -/
theorem count_enforceRateLimit_of_ne {name : String}
    (h : name ≠ key policy.keyPrefix (identOf verifyAccess req) (now / second / 60)) (time : ℕ) :
    (enforceRateLimit verifyAccess policy redis now req).1.count time name
      = redis.count time name := by
  rw [enforceRateLimit_eq verifyAccess policy redis now req rfl]
  split
  · simp only [Redis.count, Redis.get_update_of_ne redis time h]
  · rfl

end Step

/-! ### One identity -/

/-- Nanoseconds in a minute. -/
def minute : ℕ := 60 * second

theorem div_minute (now : ℕ) : now / second / 60 = now / minute := by
  rw [Nat.div_div_eq_div_mul, Nat.mul_comm]
  rfl

/-- Whether the request with a number is admitted: it is compared as a `u32`. -/
def accepts (policy : RateLimitPolicy) (number : ℕ) : Bool :=
  number ≤ maxI64 && decide (UInt32.ofNat number ≤ policy.maxPerMinute)

/-- From `now` on, what is read under the key of a minute in this minute is the number of the
    requests in it, or the greatest number if they are more. -/
def Counts (policy : RateLimitPolicy) (ident : String) (redis : Redis) (now : ℕ) (seen : ℕ → ℕ) :
    Prop :=
  ∀ t, now ≤ t →
    redis.count t (key policy.keyPrefix ident (t / minute)) = min (seen (t / minute)) maxI64

section Invariant

variable {verifyAccess : String → Option String} {policy : RateLimitPolicy} {redis : Redis}
  {now : ℕ} {req : Request} {seen : ℕ → ℕ} {ident : String}

/-- A request of another identity is not counted. -/
theorem counts_of_ne (h : Counts policy ident redis now seen)
    (hident : identOf verifyAccess req ≠ ident) :
    Counts policy ident (enforceRateLimit verifyAccess policy redis now req).1 now seen := by
  intro t ht
  rw [count_enforceRateLimit_of_ne verifyAccess policy redis now req, h t ht]
  intro hkey
  exact hident (key_inj.mp hkey).1.symm

/-- A request of the identity is counted in its minute. -/
theorem counts_of_eq (h : Counts policy ident redis now seen)
    (hident : identOf verifyAccess req = ident) :
    Counts policy ident (enforceRateLimit verifyAccess policy redis now req).1 now
      (Function.update seen (now / minute) (seen (now / minute) + 1)) := by
  intro t ht
  by_cases hminute : t / minute = now / minute
  · -- the counter of this minute: it lives at `t`
    rw [hminute, Function.update_self]
    have hnow := h now le_rfl
    have hthen := h t ht
    rw [hminute] at hthen
    have hname : key policy.keyPrefix (identOf verifyAccess req) (now / second / 60)
        = key policy.keyPrefix ident (now / minute) := by rw [hident, div_minute]
    rw [enforceRateLimit_eq verifyAccess policy redis now req hname]
    have hsoon : t < now + 65 * second := by
      have hlow := Nat.div_mul_le_self now minute
      have hhigh := Nat.lt_div_mul_add (a := t) (b := minute) (by decide)
      have hlength : minute = 60 * second := rfl
      rw [hminute] at hhigh
      omega
    have halive := Redis.next_alive ht hsoon (hthen.trans hnow.symm)
    split
    · rw [Redis.count, Redis.get_update_self, if_pos halive, Option.map_some, Option.getD_some,
        Redis.next]
      simp only [hnow] at *
      omega
    · -- the number cannot grow any more
      simp only [hnow] at *
      omega
  · rw [Function.update_of_ne hminute,
      count_enforceRateLimit_of_ne verifyAccess policy redis now req, h t ht]
    intro hkey
    apply hminute
    rw [(key_inj.mp hkey).2, div_minute]

/-- A request is let through by its number in its minute. -/
theorem answer_eq_next_iff (h : Counts policy ident redis now seen)
    (hident : identOf verifyAccess req = ident) :
    (enforceRateLimit verifyAccess policy redis now req).2 = .next
      ↔ accepts policy (seen (now / minute) + 1) = true := by
  have hname : key policy.keyPrefix (identOf verifyAccess req) (now / second / 60)
      = key policy.keyPrefix ident (now / minute) := by rw [hident, div_minute]
  have hcount := h now le_rfl
  rw [enforceRateLimit_eq verifyAccess policy redis now req hname, accepts, Bool.and_eq_true,
    decide_eq_true_eq, decide_eq_true_eq]
  split
  · have hseen : redis.count now (key policy.keyPrefix ident (now / minute))
        = seen (now / minute) := by omega
    have hfits : seen (now / minute) + 1 ≤ maxI64 := by omega
    simp only [hseen, hfits, true_and]
    split
    · next hlt => simp only [reduceCtorEq, UInt32.not_le.mpr hlt]
    · next hle => simp only [UInt32.not_lt.mp hle]
  · have hlarge : ¬ seen (now / minute) + 1 ≤ maxI64 := by omega
    simp only [hlarge, false_and, reduceCtorEq]

theorem Counts.mono (h : Counts policy ident redis now seen) {later : ℕ} (hle : now ≤ later) :
    Counts policy ident redis later seen := fun t ht => h t (hle.trans ht)

/-- An identity is served as by a counter of fixed windows of one minute. -/
theorem serve_filterMap (requests : List (ℕ × Request)) (h : Counts policy ident redis now seen)
    (hnow : ∀ time ∈ requests.map (·.1), now ≤ time)
    (hclock : (requests.map (·.1)).Pairwise (· ≤ ·)) :
    ((serve verifyAccess policy redis requests).filterMap fun (now, req, answer) =>
        if identOf verifyAccess req = ident ∧ answer = .next then some now else none)
      = admitted minute (accepts policy) seen (timesOf verifyAccess ident requests) := by
  induction requests generalizing redis now seen with
  | nil => rfl
  | cons first rest ih =>
    obtain ⟨time, req⟩ := first
    rw [List.map_cons, List.pairwise_cons] at hclock
    have htime : now ≤ time := hnow time (by simp)
    have hcounts := h.mono htime
    by_cases hident : identOf verifyAccess req = ident
    · have hrest := ih (counts_of_eq hcounts hident) hclock.1 hclock.2
      have hnext := answer_eq_next_iff hcounts hident
      by_cases haccepts : accepts policy (seen (time / minute) + 1) = true
      · simp only [serve, List.filterMap_cons, hident, hnext.mpr haccepts, and_self, if_true,
          timesOf, admitted, haccepts]
        rw [← timesOf, ← hrest]
      · have hrejected : ¬ (enforceRateLimit verifyAccess policy redis time req).2 = .next :=
          fun h => haccepts (hnext.mp h)
        simp only [serve, List.filterMap_cons, hident, hrejected, and_false, if_false, if_true,
          timesOf, admitted, haccepts, Bool.false_eq_true]
        rw [← timesOf, ← hrest]
    · have hrest := ih (counts_of_ne hcounts hident) hclock.1 hclock.2
      simp only [serve, List.filterMap_cons, hident, false_and, if_false, timesOf]
      rw [← timesOf, ← hrest]

end Invariant

section Main

variable (verifyAccess : String → Option String) (policy : RateLimitPolicy) (ident : String)
  {requests : List (ℕ × Request)} (hclock : (requests.map (·.1)).Pairwise (· ≤ ·))
include hclock

theorem admittedTimes_eq :
    admittedTimes verifyAccess policy ident requests
      = admitted minute (accepts policy) (fun _ => 0) (timesOf verifyAccess ident requests) := by
  have hempty : Counts policy ident (fun _ => none) 0 fun _ => 0 := by
    intro t _
    rw [Nat.zero_min]
    rfl
  exact serve_filterMap requests hempty (fun _ _ => Nat.zero_le _) hclock

theorem timesOf_sorted : (timesOf verifyAccess ident requests).Pairwise (· ≤ ·) := by
  have hsub : (timesOf verifyAccess ident requests).Sublist (requests.map (·.1)) := by
    induction requests with
    | nil => exact List.Sublist.refl _
    | cons first rest ih =>
      have hrest := ih (List.pairwise_cons.mp hclock).2
      by_cases hident : identOf verifyAccess first.2 = ident
      · simpa [timesOf, hident] using hrest.cons_cons first.1
      · simpa [timesOf, hident] using hrest.cons first.1
  exact hclock.sublist hsub

end Main

theorem accepts_iff (policy : RateLimitPolicy) {number : ℕ} (h : number < 2 ^ 32) :
    accepts policy number = true ↔ number ≤ policy.maxPerMinute.toNat := by
  have hfits : number ≤ maxI64 := h.le.trans (by decide)
  rw [accepts, Bool.and_eq_true, decide_eq_true_eq, decide_eq_true_eq, UInt32.le_iff_toNat_le,
    UInt32.toNat_ofNat_of_lt' h]
  exact and_iff_right hfits

/-- After `2 ^ 32` requests of a minute the count starts from zero. -/
theorem accepts_wrap (policy : RateLimitPolicy) : accepts policy (2 ^ 32) = true := by
  rw [accepts, Bool.and_eq_true, decide_eq_true_eq, decide_eq_true_eq]
  exact ⟨by decide, by simp [UInt32.le_iff_toNat_le]⟩

/-- For requests with a clock that does not go back: at most the configured number of requests of
    an identity is admitted in every window of a minute, whenever it begins, exactly if its requests
    are spaced. -/
theorem bounded_iff_spaced (verifyAccess : String → Option String) (policy : RateLimitPolicy)
    (ident : String) {requests : List (ℕ × Request)}
    (hclock : (requests.map (·.1)).Pairwise (· ≤ ·)) :
    (∀ start, countWindow minute start (admittedTimes verifyAccess policy ident requests)
        ≤ policy.maxPerMinute.toNat)
      ↔ Spaced minute policy.maxPerMinute.toNat (2 ^ 32)
          (timesOf verifyAccess ident requests) := by
  rw [admittedTimes_eq verifyAccess policy ident hclock]
  exact countWindow_admitted_le_iff (by decide) (fun _ _ h => accepts_iff policy h)
    (timesOf_sorted verifyAccess ident hclock) (accepts_wrap policy) policy.maxPerMinute.toNat_lt

/-! ### The boundary of two minutes -/

/-- The policy of reports. -/
def reportPolicy : RateLimitPolicy := ⟨"report", 10⟩

def anonymous : Request := ⟨none, none, some "10.0.0.1"⟩

/-- Ten reports in the last second of a minute, and ten in the first of the next. -/
def burst : List (ℕ × Request) :=
  List.replicate 10 (59 * second, anonymous) ++ List.replicate 10 (60 * second, anonymous)

theorem not_bounded : ¬ ∀ (verifyAccess : String → Option String) (policy : RateLimitPolicy)
    (ident : String) (requests : List (ℕ × Request)), (requests.map (·.1)).Pairwise (· ≤ ·) →
    ∀ start, countWindow minute start (admittedTimes verifyAccess policy ident requests)
      ≤ policy.maxPerMinute.toNat := by
  intro h
  have hclock : (burst.map (·.1)).Pairwise (· ≤ ·) := by decide
  have htimes : timesOf (fun _ => none) (identOf (fun _ => none) anonymous) burst
      = List.replicate 10 (59 * second) ++ List.replicate 10 (60 * second) := by
    simp [timesOf, burst, List.replicate]
  have hmany := h (fun _ => none) reportPolicy (identOf (fun _ => none) anonymous) burst hclock
    (59 * second)
  rw [admittedTimes_eq _ reportPolicy _ hclock, htimes] at hmany
  exact absurd hmany (by decide)

/-- Two reports are not too many. -/
theorem bounded_reports : countWindow minute (59 * second)
    (admittedTimes (fun _ => none) reportPolicy (identOf (fun _ => none) anonymous)
      [(59 * second, anonymous), (60 * second, anonymous)]) ≤ 10 := by
  have hclock : ([(59 * second, anonymous), (60 * second, anonymous)].map (·.1)).Pairwise
      (· ≤ ·) := by decide
  have hfew : (timesOf (fun _ => none) (identOf (fun _ => none) anonymous)
      [(59 * second, anonymous), (60 * second, anonymous)]).length ≤ 10 := by simp [timesOf]
  exact (bounded_iff_spaced (fun _ => none) reportPolicy _ hclock).mpr
    (spaced_of_length_le hfew (by decide)) (59 * second)

end Oecophylla.Middleware
