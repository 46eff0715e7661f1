import Mathlib.Data.Int.DivMod

/-!
# Cron schedules

Schedules of five fields, each `*` or a number, with or without a step: their text, and
when they fire.  Time is counted in whole minutes, so that the minute and the hour are
remainders of it; what the calendar says of a day is a parameter.

* `parse_render`: a well-formed schedule is read back from its text;
* `Consecutive.sub_eq`: the gaps between the firings of a schedule that fires at one
  remainder are all its modulus.
-/

namespace SyntheticsOperator.Support.Cron

/-! ## Text -/

/-- `first` is `none` for `*`. -/
structure Field where
  first : Option Nat
  step : Option Nat
deriving DecidableEq

/-- `*` without a step. -/
def every : Field := ⟨none, none⟩

structure Schedule where
  minute : Field
  hour : Field
  dayOfMonth : Field
  month : Field
  dayOfWeek : Field
deriving DecidableEq

def parseNumber (s : List Char) : Option Nat :=
  if s ≠ [] ∧ s.all Char.isDigit = true then some (Nat.ofDigitChars 10 s 0) else none

/-- `*`, or a number in the range of the field. -/
def parseFirst (low high : Nat) (s : List Char) : Option (Option Nat) :=
  if s = ['*'] then some none
  else (parseNumber s).bind fun a => if low ≤ a ∧ a ≤ high then some (some a) else none

def parseField (low high : Nat) (s : List Char) : Option Field :=
  match s.splitOn '/' with
  | [first] => (parseFirst low high first).map fun first => ⟨first, none⟩
  | [first, step] =>
      (parseFirst low high first).bind fun first =>
        (parseNumber step).bind fun n => if n = 0 then none else some ⟨first, some n⟩
  | _ => none

def parse (s : List Char) : Option Schedule :=
  match s.splitOn ' ' with
  | [minute, hour, dayOfMonth, month, dayOfWeek] => do
      let minute ← parseField 0 59 minute
      let hour ← parseField 0 23 hour
      let dayOfMonth ← parseField 1 31 dayOfMonth
      let month ← parseField 1 12 month
      let dayOfWeek ← parseField 0 6 dayOfWeek
      some ⟨minute, hour, dayOfMonth, month, dayOfWeek⟩
  | _ => none

def digits (n : Nat) : List Char := Nat.toDigits 10 n

def renderFirst : Option Nat → List Char
  | none => ['*']
  | some a => digits a

def Field.render (f : Field) : List Char :=
  match f.step with
  | none => renderFirst f.first
  | some n => renderFirst f.first ++ '/' :: digits n

def Schedule.fields (s : Schedule) : List Field :=
  [s.minute, s.hour, s.dayOfMonth, s.month, s.dayOfWeek]

def Schedule.render (s : Schedule) : List Char :=
  [' '].intercalate (s.fields.map Field.render)

/-- The number is in the range of the field, and the step is not zero. -/
def Field.InRange (low high : Nat) (f : Field) : Prop :=
  (∀ a ∈ f.first, low ≤ a ∧ a ≤ high) ∧ ∀ n ∈ f.step, n ≠ 0

structure Schedule.InRange (s : Schedule) : Prop where
  minute : s.minute.InRange 0 59
  hour : s.hour.InRange 0 23
  dayOfMonth : s.dayOfMonth.InRange 1 31
  month : s.month.InRange 1 12
  dayOfWeek : s.dayOfWeek.InRange 0 6

theorem every_inRange (low high : Nat) : every.InRange low high := by
  simp [every, Field.InRange]

theorem inRange_number {low high a : Nat} (h : low ≤ a ∧ a ≤ high) :
    Field.InRange low high ⟨some a, none⟩ := by
  simp [Field.InRange, h]

theorem inRange_step (low high : Nat) {n : Nat} (h : n ≠ 0) :
    Field.InRange low high ⟨none, some n⟩ := by
  simp [Field.InRange, h]

theorem inRange_number_step {low high a n : Nat} (ha : low ≤ a ∧ a ≤ high) (hn : n ≠ 0) :
    Field.InRange low high ⟨some a, some n⟩ := by
  simp [Field.InRange, ha, hn]

theorem isDigit_of_mem_digits {n : Nat} {c : Char} (h : c ∈ digits n) : c.isDigit = true :=
  Nat.isDigit_of_mem_toDigits (by decide) (by decide) h

theorem parseNumber_digits (n : Nat) : parseNumber (digits n) = some n := by
  have hall : (digits n).all Char.isDigit = true := by
    rw [List.all_eq_true]
    intro c hc
    exact isDigit_of_mem_digits hc
  rw [parseNumber, if_pos ⟨Nat.toDigits_ne_nil, hall⟩, digits, Nat.ofDigitChars_ten_toDigits]

theorem parseFirst_render {low high : Nat} {first : Option Nat}
    (h : ∀ a ∈ first, low ≤ a ∧ a ≤ high) :
    parseFirst low high (renderFirst first) = some first := by
  cases first with
  | none => rfl
  | some a =>
      have hstar : digits a ≠ ['*'] := by
        intro heq
        have hdigit : ('*').isDigit = true :=
          isDigit_of_mem_digits (n := a) (by rw [heq]; exact .head _)
        exact absurd hdigit (by decide)
      rw [renderFirst, parseFirst, if_neg hstar, parseNumber_digits, Option.bind_some,
        if_pos (h a rfl)]

theorem not_mem_digits {c : Char} (hdigit : c.isDigit = false) (n : Nat) : c ∉ digits n := by
  intro hmem
  have htrue := isDigit_of_mem_digits hmem
  rw [hdigit] at htrue
  cases htrue

/-- A rendered number is made of digits, or is the star. -/
theorem not_mem_renderFirst {c : Char} (hdigit : c.isDigit = false) (hstar : c ≠ '*')
    (first : Option Nat) : c ∉ renderFirst first := by
  cases first with
  | none => exact fun hmem => hstar (List.mem_singleton.mp hmem)
  | some a => exact not_mem_digits hdigit a

theorem not_mem_render {c : Char} (hdigit : c.isDigit = false) (hstar : c ≠ '*') (hslash : c ≠ '/')
    (f : Field) : c ∉ f.render := by
  unfold Field.render
  cases f.step with
  | none => exact not_mem_renderFirst hdigit hstar f.first
  | some n =>
      intro hmem
      rcases List.mem_append.mp hmem with hfirst | hrest
      · exact not_mem_renderFirst hdigit hstar f.first hfirst
      · rcases List.mem_cons.mp hrest with heq | hstep
        · exact hslash heq
        · exact not_mem_digits hdigit n hstep

theorem parseField_render {low high : Nat} {f : Field} (h : f.InRange low high) :
    parseField low high f.render = some f := by
  obtain ⟨first, step⟩ := f
  have hslash : '/' ∉ renderFirst first := not_mem_renderFirst (by decide) (by decide) first
  cases step with
  | none =>
      have hsplit : (renderFirst first).splitOn '/' = [renderFirst first] :=
        List.splitOn_eq_singleton hslash
      simp only [Field.render, parseField, hsplit, parseFirst_render h.1, Option.map_some]
  | some n =>
      have hsplit : (renderFirst first ++ '/' :: digits n).splitOn '/' =
          [renderFirst first, digits n] := by
        rw [List.splitOn_append_cons_self_of_not_mem hslash,
          List.splitOn_eq_singleton (not_mem_digits (by decide) n)]
      simp only [Field.render, parseField, hsplit, parseFirst_render h.1, parseNumber_digits,
        Option.bind_some, if_neg (h.2 n rfl)]

theorem parse_render {s : Schedule} (h : s.InRange) : parse s.render = some s := by
  have hsplit : s.render.splitOn ' ' =
      [s.minute.render, s.hour.render, s.dayOfMonth.render, s.month.render,
        s.dayOfWeek.render] := by
    apply List.splitOn_intercalate
    · intro field hfield
      obtain ⟨f, -, hf⟩ := List.mem_map.mp hfield
      rw [← hf]
      exact not_mem_render (by decide) (by decide) (by decide) f
    · exact List.cons_ne_nil _ _
  simp only [parse, hsplit, parseField_render h.minute, parseField_render h.hour,
    parseField_render h.dayOfMonth, parseField_render h.month, parseField_render h.dayOfWeek,
    Option.bind_eq_bind, Option.bind_some]

/-! ## Firing -/

/-- A field with a step counts from its number, or from the lowest value. -/
def Field.matches (low : Int) (f : Field) (v : Int) : Bool :=
  match f.first, f.step with
  | none, none => true
  | some a, none => v = a
  | none, some n => (v - low) % n = 0
  | some a, some n => a ≤ v && (v - a) % n = 0

/-- What the calendar says of each day. -/
structure Calendar where
  dayOfMonth : Int → Int
  month : Int → Int
  dayOfWeek : Int → Int

/-- Both fields for the day have to match, but when neither is a star one is enough. -/
def Schedule.dayMatches (s : Schedule) (cal : Calendar) (day : Int) : Bool :=
  let dayOfMonth := s.dayOfMonth.matches 1 (cal.dayOfMonth day)
  let dayOfWeek := s.dayOfWeek.matches 0 (cal.dayOfWeek day)
  if s.dayOfMonth.first = none ∨ s.dayOfWeek.first = none then dayOfMonth && dayOfWeek
  else dayOfMonth || dayOfWeek

/-- The schedule fires in minute `t`. -/
def Schedule.fires (s : Schedule) (cal : Calendar) (t : Int) : Bool :=
  s.minute.matches 0 (t % 60) && s.hour.matches 0 (t / 60 % 24) &&
    s.month.matches 1 (cal.month (t / 1440)) && s.dayMatches cal (t / 1440)

/-- `t` and `t'` fire, and nothing between them does. -/
structure Consecutive (fires : Int → Bool) (t t' : Int) : Prop where
  left : fires t = true
  right : fires t' = true
  lt : t < t'
  between : ∀ u, t < u → u < t' → fires u = false

section Remainder

variable {fires : Int → Bool} {n c : Int}

theorem Consecutive.sub_eq (h : ∀ t, fires t = true ↔ t % n = c) (hn : 0 < n) {t t' : Int}
    (hgap : Consecutive fires t t') : t' - t = n := by
  have ht : t % n = c := (h t).mp hgap.left
  have hdvd : n ∣ t' - t := by
    apply Int.dvd_of_emod_eq_zero
    apply Int.emod_eq_emod_iff_emod_sub_eq_zero.mp
    rw [ht, (h t').mp hgap.right]
  have hge : n ≤ t' - t := Int.le_of_dvd (Int.sub_pos_of_lt hgap.lt) hdvd
  have hle : t' ≤ t + n := by
    apply Int.le_of_not_gt
    intro hlt
    have hfires : fires (t + n) = true := (h (t + n)).mpr (by rw [Int.add_emod_right, ht])
    rw [hgap.between (t + n) (by omega) hlt] at hfires
    cases hfires
  omega

theorem consecutive_add (h : ∀ t, fires t = true ↔ t % n = c) (hn : 0 < n) {t : Int}
    (ht : fires t = true) : Consecutive fires t (t + n) := by
  have hmod : t % n = c := (h t).mp ht
  constructor
  · exact ht
  · rw [h, Int.add_emod_right, hmod]
  · omega
  · intro u hlt hgt
    rw [← Bool.not_eq_true, h, ← hmod]
    intro heq
    have hdvd : n ∣ u - t :=
      Int.dvd_of_emod_eq_zero (Int.emod_eq_emod_iff_emod_sub_eq_zero.mp heq)
    have := Int.le_of_dvd (Int.sub_pos_of_lt hlt) hdvd
    omega

end Remainder

/-! ## Schedules for every day -/

/-- With a minute and an hour field alone. -/
def daily (minute hour : Field) : Schedule := ⟨minute, hour, every, every, every⟩

theorem render_daily (minute hour : Field) :
    (daily minute hour).render = minute.render ++ [' '] ++ hour.render ++ " * * *".toList := by
  simp [Schedule.render, Schedule.fields, daily, every, Field.render, renderFirst,
    List.intercalate]

theorem daily_inRange {minute hour : Field} (hminute : minute.InRange 0 59)
    (hhour : hour.InRange 0 23) : (daily minute hour).InRange :=
  ⟨hminute, hhour, every_inRange _ _, every_inRange _ _, every_inRange _ _⟩

@[simp] theorem fires_daily (minute hour : Field) (cal : Calendar) (t : Int) :
    (daily minute hour).fires cal t =
      (minute.matches 0 (t % 60) && hour.matches 0 (t / 60 % 24)) := by
  simp [Schedule.fires, daily, Schedule.dayMatches, Field.matches, every]

variable (cal : Calendar)

theorem fires_everyMinute (t : Int) : (daily every every).fires cal t = true ↔ t % 1 = 0 := by
  simp [Field.matches, every]

/-- A step that divides the hour. -/
theorem fires_minuteStep {a n : Nat} (hlt : a < n) (hdvd : n ∣ 60) (t : Int) :
    (daily ⟨some a, some n⟩ every).fires cal t = true ↔ t % n = a := by
  have hmod : t % 60 % n = t % n := Int.emod_emod_of_dvd t (by exact_mod_cast hdvd)
  have hn : (0 : Int) < n := by omega
  simp only [fires_daily, Field.matches, every, Bool.and_true, Bool.and_eq_true,
    decide_eq_true_eq]
  rw [← hmod]
  constructor
  · intro h
    have heq : t % 60 % n = (a : Int) % n := Int.emod_eq_emod_iff_emod_sub_eq_zero.mpr h.2
    rw [heq]
    exact Int.emod_eq_of_lt (by omega) (by omega)
  · intro h
    have hle : t % 60 % n ≤ t % 60 := by
      have hquotient : 0 ≤ n * (t % 60 / n) :=
        Int.mul_nonneg (Int.le_of_lt hn) (Int.ediv_nonneg (by omega) (Int.le_of_lt hn))
      have hsplit := Int.emod_add_mul_ediv (t % 60) n
      omega
    constructor
    · omega
    · apply Int.emod_eq_emod_iff_emod_sub_eq_zero.mp
      rw [h]
      exact (Int.emod_eq_of_lt (by omega) (by omega)).symm

theorem fires_daily_at {a b : Nat} (ha : a < 60) (hb : b < 24) (t : Int) :
    (daily ⟨some a, none⟩ ⟨some b, none⟩).fires cal t = true ↔ t % 1440 = 60 * b + a := by
  simp only [fires_daily, Field.matches, Bool.and_eq_true, decide_eq_true_eq]
  omega

/-- The remainder of `t` has the digits of `t` in the mixed base. -/
theorem emod_mul_eq (t : Int) {m n : Int} (hm : 0 < m) (hn : 0 < n) :
    t % (m * n) = t % m + m * (t / m % n) := by
  have hlow := Int.emod_nonneg t (Int.ne_of_gt hm)
  have hlow' := Int.emod_lt_of_pos t hm
  have hhigh := Int.emod_nonneg (t / m) (Int.ne_of_gt hn)
  have hhigh' := Int.emod_lt_of_pos (t / m) hn
  have hbound : m * (t / m % n) ≤ m * (n - 1) :=
    Int.mul_le_mul_of_nonneg_left (by omega) (Int.le_of_lt hm)
  have hsplit : t = t % m + m * (t / m % n) + m * n * (t / m / n) :=
    calc t = t % m + m * (t / m) := (Int.emod_add_mul_ediv t m).symm
      _ = t % m + m * (t / m % n + n * (t / m / n)) := by rw [Int.emod_add_mul_ediv (t / m) n]
      _ = t % m + m * (t / m % n) + m * n * (t / m / n) := by
        rw [Int.mul_add, Int.mul_assoc, Int.add_assoc]
  calc t % (m * n) = (t % m + m * (t / m % n) + m * n * (t / m / n)) % (m * n) := by rw [← hsplit]
    _ = (t % m + m * (t / m % n)) % (m * n) := Int.add_mul_emod_self_left _ _ _
    _ = t % m + m * (t / m % n) := by
      apply Int.emod_eq_of_lt
      · exact Int.add_nonneg hlow (Int.mul_nonneg (Int.le_of_lt hm) hhigh)
      · rw [Int.mul_sub, Int.mul_one] at hbound
        omega

/-- A step that divides the day. -/
theorem fires_hourStep {a h : Nat} (ha : a < 60) (hdvd : h ∣ 24) (t : Int) :
    (daily ⟨some a, none⟩ ⟨none, some h⟩).fires cal t = true ↔ t % (60 * h) = a := by
  have hmod : t / 60 % 24 % h = t / 60 % h := Int.emod_emod_of_dvd _ (by exact_mod_cast hdvd)
  simp only [fires_daily, Field.matches, Bool.and_eq_true, decide_eq_true_eq, Int.sub_zero, hmod]
  have hpos : (0 : Int) < h := by exact_mod_cast Nat.pos_of_dvd_of_pos hdvd (by decide)
  have hstep := Int.emod_nonneg (t / 60) (Int.ne_of_gt hpos)
  rw [emod_mul_eq t (by decide) hpos]
  omega

end SyntheticsOperator.Support.Cron
