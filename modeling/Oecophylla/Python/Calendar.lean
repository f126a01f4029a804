import Oecophylla.Python.Isoformat
import Oecophylla.Python.Timestamp

namespace Oecophylla.Python

/-!
# The order of texts of `isoformat`

Texts of whole seconds in one timezone are compared character by character, and the instants in
the same way.

* `pad_lt` — padded numbers of one width are in the order of the numbers;
* `daysBefore_lt` — the calendar counts days in the order of the dates;
* `micros_lt_of_isoformat_lt` — **an earlier text is an earlier instant**.
-/

/-! ### Lists of characters -/

section Lists

variable {α : Type*} [LinearOrder α]

/-- Texts that start with parts of one length are in the order of these parts, then of the rest. -/
theorem append_lt_append_iff {a a' b b' : List α} (hlength : a.length = a'.length) :
    a ++ b < a' ++ b' ↔ a < a' ∨ a = a' ∧ b < b' := by
  induction a generalizing a' with
  | nil =>
    obtain rfl : a' = [] := List.length_eq_zero_iff.mp hlength.symm
    simp
  | cons x a ih =>
    cases a' with
    | nil => cases hlength
    | cons y a' =>
      have ih' := ih (Nat.succ.inj hlength)
      rw [List.cons_append, List.cons_append, List.cons_lt_cons_iff, List.cons_lt_cons_iff, ih']
      constructor
      · rintro (h | ⟨rfl, h | ⟨rfl, h⟩⟩)
        · exact Or.inl (Or.inl h)
        · exact Or.inl (Or.inr ⟨rfl, h⟩)
        · exact Or.inr ⟨rfl, h⟩
      · rintro ((h | ⟨rfl, h⟩) | ⟨h, hb⟩)
        · exact Or.inl h
        · exact Or.inr ⟨rfl, Or.inl h⟩
        · obtain ⟨rfl, rfl⟩ := List.cons.inj h
          exact Or.inr ⟨rfl, Or.inr ⟨rfl, hb⟩⟩

end Lists

/-! ### Padded numbers -/

/-- The value of digits behind a number. -/
def digitsValue (init : Nat) (cs : List Char) : Nat :=
  cs.foldl (fun n c => n * 10 + (c.toNat - 48)) init

theorem digitsValue_bounds {cs : List Char} (hdigits : cs.all Char.isDigit = true) (init : Nat) :
    init * 10 ^ cs.length ≤ digitsValue init cs
      ∧ digitsValue init cs < (init + 1) * 10 ^ cs.length := by
  induction cs generalizing init with
  | nil => simp [digitsValue]
  | cons c cs ih =>
    rw [List.all_cons, Bool.and_eq_true] at hdigits
    obtain ⟨hlow, hhigh⟩ := ih hdigits.2 (init * 10 + (c.toNat - 48))
    have hc : c.toNat - 48 ≤ 9 := by
      have hdigit := hdigits.1
      simp only [Char.isDigit, Bool.and_eq_true, decide_eq_true_eq] at hdigit
      have hle : c.toNat ≤ 57 := hdigit.2
      omega
    have hcons : digitsValue init (c :: cs) = digitsValue (init * 10 + (c.toNat - 48)) cs := rfl
    rw [hcons, List.length_cons, pow_succ']
    constructor
    · calc init * (10 * 10 ^ cs.length) = init * 10 * 10 ^ cs.length := by ring
        _ ≤ (init * 10 + (c.toNat - 48)) * 10 ^ cs.length := Nat.mul_le_mul_right _ (by omega)
        _ ≤ _ := hlow
    · calc _ < (init * 10 + (c.toNat - 48) + 1) * 10 ^ cs.length := hhigh
        _ ≤ (init + 1) * 10 * 10 ^ cs.length := Nat.mul_le_mul_right _ (by omega)
        _ = (init + 1) * (10 * 10 ^ cs.length) := by ring

/-- Digits in the order of their characters are in the order of their values. -/
theorem digitsValue_lt {cs cs' : List Char} (hlength : cs.length = cs'.length)
    (hdigits : cs.all Char.isDigit = true) (hdigits' : cs'.all Char.isDigit = true) (hlt : cs < cs')
    (init : Nat) : digitsValue init cs < digitsValue init cs' := by
  induction cs generalizing cs' init with
  | nil =>
    obtain rfl : cs' = [] := List.length_eq_zero_iff.mp hlength.symm
    exact absurd hlt (lt_irrefl _)
  | cons c cs ih =>
    cases cs' with
    | nil => cases hlength
    | cons c' cs' =>
      have hlength' := Nat.succ.inj hlength
      rw [List.all_cons, Bool.and_eq_true] at hdigits hdigits'
      rcases List.cons_lt_cons_iff.mp hlt with h | ⟨rfl, h⟩
      · -- the first digit decides
        have hle : init * 10 + (c.toNat - 48) + 1 ≤ init * 10 + (c'.toNat - 48) := by
          have hdigit := hdigits.1
          simp only [Char.isDigit, Bool.and_eq_true, decide_eq_true_eq] at hdigit
          have h48 : 48 ≤ c.toNat := hdigit.1
          have hcc : c.toNat < c'.toNat := h
          omega
        calc digitsValue init (c :: cs)
            < (init * 10 + (c.toNat - 48) + 1) * 10 ^ cs.length := (digitsValue_bounds hdigits.2 _).2
          _ ≤ (init * 10 + (c'.toNat - 48)) * 10 ^ cs'.length := by
            rw [hlength']
            exact Nat.mul_le_mul_right _ hle
          _ ≤ digitsValue init (c' :: cs') := (digitsValue_bounds hdigits'.2 _).1
      · exact ih hlength' hdigits.2 hdigits'.2 h _

/-- **Padded numbers** of one width are in the order of the numbers. -/
theorem pad_lt {width n m : Nat} (hwidth : 0 < width) (hn : n < 10 ^ width) (hm : m < 10 ^ width)
    (hlt : (pad width n).toList < (pad width m).toList) : n < m := by
  obtain ⟨hlength, hdigits, hvalue⟩ := pad_spec width hwidth hn
  obtain ⟨hlength', hdigits', hvalue'⟩ := pad_spec width hwidth hm
  have h := digitsValue_lt (hlength.trans hlength'.symm) hdigits hdigits' hlt 0
  unfold digitsValue at h
  rwa [hvalue, hvalue'] at h

/-- A padded number is read back. -/
theorem pad_inj {width n m : Nat} (hwidth : 0 < width) (hn : n < 10 ^ width) (hm : m < 10 ^ width)
    (heq : (pad width n).toList = (pad width m).toList) : n = m := by
  rw [← (pad_spec width hwidth hn).2.2, ← (pad_spec width hwidth hm).2.2, heq]

/-! ### The calendar -/

theorem daysBefore_month (year : Nat) {month : Nat} (hmonth : 1 ≤ month) :
    daysBefore year (month + 1) = daysBefore year month + daysInMonth year month := by
  unfold daysBefore
  obtain ⟨m, rfl⟩ := Nat.exists_eq_add_of_le' hmonth
  rw [Nat.add_sub_cancel, Nat.add_sub_cancel, List.range_succ, List.map_append, List.sum_append]
  simp
  omega

theorem daysBefore_mono (year : Nat) {month month' : Nat} (hmonth : 1 ≤ month)
    (hle : month ≤ month') : daysBefore year month ≤ daysBefore year month' := by
  induction month', hle using Nat.le_induction with
  | base => exact le_rfl
  | succ month' hle ih =>
    rw [daysBefore_month year (hmonth.trans hle)]
    omega

/-- The days of the months other than February, added up. -/
private theorem sum_months (year : Nat) (days : Nat → Nat)
    (h : ∀ month, days (month + 2) = days (month + 1) + daysInMonth year (month + 1)) :
    days 13 = days 1 + 337 + daysInMonth year 2 := by
  have h31 : ∀ month ∈ [1, 3, 5, 7, 8, 10, 12], daysInMonth year month = 31 := by
    simp [daysInMonth]
  have h30 : ∀ month ∈ [4, 6, 9, 11], daysInMonth year month = 30 := by simp [daysInMonth]
  simp only [List.forall_mem_cons] at h31 h30
  rw [h 11, h 10, h 9, h 8, h 7, h 6, h 5, h 4, h 3, h 2, h 1, h 0]
  simp only [Nat.reduceAdd, h31, h30]
  omega

/-- A year has the days of its months. -/
theorem daysBefore_year {year : Nat} (hyear : 1 ≤ year) :
    daysBefore (year + 1) 1 = daysBefore year 13 := by
  have hfebruary : daysInMonth year 2
      = if year % 4 = 0 ∧ (year % 100 ≠ 0 ∨ year % 400 = 0) then 29 else 28 := rfl
  have hmonths : daysBefore year 13 = daysBefore year 1 + 337 + daysInMonth year 2 :=
    sum_months year (daysBefore year) fun month => daysBefore_month year (Nat.le_add_left 1 month)
  obtain ⟨k, rfl⟩ := Nat.exists_eq_add_of_le' hyear
  rw [hmonths, hfebruary]
  unfold daysBefore
  simp only [Nat.sub_self, List.range_zero, List.map_nil, List.sum_nil, Nat.add_sub_cancel,
    Nat.succ_div, Nat.dvd_iff_mod_eq_zero]
  have h400 : (k + 1) % 400 = 0 → (k + 1) % 100 = 0 := fun h => by omega
  have h100 : (k + 1) % 100 = 0 → (k + 1) % 4 = 0 := fun h => by omega
  have hle : k / 100 ≤ k / 4 := Nat.div_le_div_left (by decide) (by decide)
  generalize k / 4 = a at *
  generalize k / 100 = b at *
  generalize k / 400 = c
  set Leap := (k + 1) % 4 = 0 ∧ ((k + 1) % 100 ≠ 0 ∨ (k + 1) % 400 = 0) with hLeap
  by_cases hfour : (k + 1) % 4 = 0
  · by_cases hhundred : (k + 1) % 100 = 0
    · by_cases hfourHundred : (k + 1) % 400 = 0
      · have hleap : Leap := ⟨hfour, Or.inr hfourHundred⟩
        rw [if_pos hleap, if_pos hfour, if_pos hhundred, if_pos hfourHundred]
        omega
      · have hleap : ¬ Leap := fun h => h.2.elim (fun hne => hne hhundred) hfourHundred
        rw [if_neg hleap, if_pos hfour, if_pos hhundred, if_neg hfourHundred]
        omega
    · have hleap : Leap := ⟨hfour, Or.inl hhundred⟩
      have hfourHundred : ¬ (k + 1) % 400 = 0 := fun h => hhundred (h400 h)
      rw [if_pos hleap, if_pos hfour, if_neg hhundred, if_neg hfourHundred]
      omega
  · have hleap : ¬ Leap := fun h => hfour h.1
    have hhundred : ¬ (k + 1) % 100 = 0 := fun h => hfour (h100 h)
    have hfourHundred : ¬ (k + 1) % 400 = 0 := fun h => hhundred (h400 h)
    rw [if_neg hleap, if_neg hfour, if_neg hhundred, if_neg hfourHundred]
    omega

theorem daysBefore_years {year year' : Nat} (hyear : 1 ≤ year) (hle : year ≤ year') :
    daysBefore year 1 ≤ daysBefore year' 1 := by
  induction year', hle using Nat.le_induction with
  | base => exact le_rfl
  | succ year' hle ih =>
    rw [daysBefore_year (hyear.trans hle)]
    exact ih.trans (daysBefore_mono year' le_rfl (by decide))

/-- **Dates in their order** are counted in it. -/
theorem daysBefore_lt {y m d y' m' d' : Nat} (hy : 1 ≤ y) (hm : 1 ≤ m) (hm12 : m ≤ 12)
    (hd : d ≤ daysInMonth y m) (hd0 : 1 ≤ d) (hd' : 1 ≤ d') (hm' : 1 ≤ m')
    (hlt : y < y' ∨ y = y' ∧ (m < m' ∨ m = m' ∧ d < d')) :
    daysBefore y m + (d - 1) < daysBefore y' m' + (d' - 1) := by
  have hend : daysBefore y m + d ≤ daysBefore y (m + 1) := by
    rw [daysBefore_month y hm]
    omega
  rcases hlt with hlt | ⟨rfl, hlt | ⟨rfl, hlt⟩⟩
  · have hnext : daysBefore y (m + 1) ≤ daysBefore (y + 1) 1 := by
      rw [daysBefore_year hy]
      exact daysBefore_mono y (by omega) (by omega)
    have hyears := daysBefore_years (by omega : 1 ≤ y + 1) hlt
    have hfirst := daysBefore_mono y' le_rfl hm'
    omega
  · have hmonths := daysBefore_mono y (by omega : 1 ≤ m + 1) hlt
    omega
  · omega

/-! ### Texts of whole seconds -/

/-- A padded number in front of a separator decides first. -/
private theorem field_lt {width n m : Nat} (hwidth : 0 < width) (hn : n < 10 ^ width)
    (hm : m < 10 ^ width) {sep : Char} {rest rest' : List Char}
    (hlt : (pad width n).toList ++ sep :: rest < (pad width m).toList ++ sep :: rest') :
    n < m ∨ n = m ∧ rest < rest' := by
  have hlength : (pad width n).toList.length = (pad width m).toList.length := by
    rw [(pad_spec width hwidth hn).1, (pad_spec width hwidth hm).1]
  rcases (append_lt_append_iff hlength).mp hlt with h | ⟨heq, h⟩
  · exact Or.inl (pad_lt hwidth hn hm h)
  · rcases List.cons_lt_cons_iff.mp h with hself | ⟨-, hrest⟩
    · exact absurd hself (lt_irrefl _)
    · exact Or.inr ⟨pad_inj hwidth hn hm heq, hrest⟩

/-- What `valid` says of a date and a time. -/
theorem Datetime.valid_iff {t : Datetime} : t.valid = true ↔ (1 ≤ t.year ∧ t.year ≤ 9999
    ∧ 1 ≤ t.month ∧ t.month ≤ 12 ∧ 1 ≤ t.day ∧ t.day ≤ daysInMonth t.year t.month ∧ t.hour < 24
    ∧ t.minute < 60 ∧ t.second < 60) := by
  rw [Datetime.valid, decide_eq_true_iff]

theorem daysInMonth_le (year month : Nat) : daysInMonth year month ≤ 31 := by
  unfold daysInMonth
  split
  · split
    · omega
    · omega
  · split
    · omega
    · omega

/-- **An earlier text is an earlier clock**, for whole seconds with one offset. -/
theorem localMicros_lt_of_isoformat_lt {t t' : Datetime} (ht : t.valid = true)
    (ht' : t'.valid = true) (hwhole : t.microsecond = 0) (hwhole' : t'.microsecond = 0)
    (hoffset : t.utcoffset = t'.utcoffset) (hlt : t.isoformat.toList < t'.isoformat.toList) :
    t.localMicros < t'.localMicros := by
  obtain ⟨hy, hy', hm, hm', hd, hd', hh, hmi, hs⟩ := Datetime.valid_iff.mp ht
  obtain ⟨ky, ky', km, km', kd, kd', kh, kmi, ks⟩ := Datetime.valid_iff.mp ht'
  have h31 := daysInMonth_le t.year t.month
  have k31 := daysInMonth_le t'.year t'.month
  have hsep : "T".toList = ['T'] := rfl
  unfold Datetime.isoformat at hlt
  simp only [toList_format, hsep, hwhole, hwhole', hoffset, hoursMinutes, secondsText, if_true,
    List.append_assoc, List.cons_append, List.nil_append, List.append_nil] at hlt
  unfold Datetime.localMicros dayMicros
  simp only [hwhole, hwhole']
  -- the date decides, or the time of the day on the same date
  have hdate (h : t.year < t'.year ∨ t.year = t'.year ∧ (t.month < t'.month
      ∨ t.month = t'.month ∧ t.day < t'.day)) :
      daysBefore t.year t.month + (t.day - 1) < daysBefore t'.year t'.month + (t'.day - 1) :=
    daysBefore_lt hy hm hm' hd' hd kd km h
  rcases field_lt (by decide) (by omega) (by omega) hlt with h | ⟨hyear, hlt⟩
  · have := hdate (Or.inl h)
    omega
  rcases field_lt (by decide) (by omega) (by omega) hlt with h | ⟨hmonth, hlt⟩
  · have := hdate (Or.inr ⟨hyear, Or.inl h⟩)
    omega
  rcases field_lt (by decide) (by omega) (by omega) hlt with h | ⟨hday, hlt⟩
  · have := hdate (Or.inr ⟨hyear, Or.inr ⟨hmonth, h⟩⟩)
    omega
  rw [hyear, hmonth, hday]
  rcases field_lt (by decide) (by omega) (by omega) hlt with h | ⟨hhour, hlt⟩
  · omega
  rcases field_lt (by decide) (by omega) (by omega) hlt with h | ⟨hminute, hlt⟩
  · omega
  have hlength : (pad 2 t.second).toList.length = (pad 2 t'.second).toList.length := by
    rw [(pad_spec 2 (by decide) (by omega)).1, (pad_spec 2 (by decide) (by omega)).1]
  rcases (append_lt_append_iff hlength).mp hlt with h | ⟨-, h⟩
  · have := pad_lt (by decide) (by omega) (by omega) h
    omega
  · exact absurd h (lt_irrefl _)

end Oecophylla.Python
