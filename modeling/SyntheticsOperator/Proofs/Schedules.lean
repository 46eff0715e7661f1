import SyntheticsOperator.Controllers.Cron
import SyntheticsOperator.Support.Cron

/-!
# Intervals and schedules

The webhook and the controller truncate an interval to whole minutes and apply one rule
to them, `Admissible`, each in its own words.  The schedule made from an admissible number
of minutes fires at one remainder of it, so every gap is that number of minutes: what the
truncation discards is not waited for.
-/

namespace SyntheticsOperator.Proofs.Schedules

open SyntheticsOperator.Api (minutes validateCronInterval validateMinuteInterval)
open SyntheticsOperator.Controllers
open SyntheticsOperator.Probes (probeOffset probeOffsetHash_nonneg)
open SyntheticsOperator.Support
open SyntheticsOperator.Support.Cron (Schedule Field every daily Consecutive Calendar)

/-! ## Admissible minutes -/

/-- A divisor of the hour, or a divisor of the day in whole hours. -/
def Admissible (n : Nat) : Prop :=
  (n < 60 ∧ n ∣ 60) ∨ ∃ hours, n = 60 * hours ∧ hours ∣ 24

theorem Admissible.pos {n : Nat} (h : Admissible n) : 0 < n := by
  rcases h with ⟨-, hdvd⟩ | ⟨hours, heq, hdvd⟩
  · exact Nat.pos_of_dvd_of_pos hdvd (by decide)
  · have := Nat.pos_of_dvd_of_pos hdvd (by decide : 0 < 24)
    omega

/-- The rule on whole hours, as it is written in both places. -/
theorem hours_iff {n : Nat} (hn : 60 ≤ n) :
    ((n : Int) % 60 = 0 ∧ ¬ ((n : Int) / 60 > 24 ∨ (24 : Int) % (n / 60) ≠ 0)) ↔
      ∃ hours, n = 60 * hours ∧ hours ∣ 24 := by
  constructor
  · intro h
    refine ⟨n / 60, by omega, ?_⟩
    have hzero : (24 : Int) % (n / 60) = 0 := by
      by_contra hne
      exact h.2 (.inr hne)
    have hdvd : ((n / 60 : Nat) : Int) ∣ ((24 : Nat) : Int) := Int.dvd_of_emod_eq_zero hzero
    exact Int.natCast_dvd_natCast.mp hdvd
  · rintro ⟨hours, rfl, hdvd⟩
    have hle : hours ≤ 24 := Nat.le_of_dvd (by decide) hdvd
    have hdiv : ((60 * hours : Nat) : Int) / 60 = hours := by omega
    refine ⟨by omega, ?_⟩
    rw [hdiv]
    have hzero : (24 : Int) % hours = 0 := Int.emod_eq_zero_of_dvd (by exact_mod_cast hdvd)
    omega

theorem divides_iff {n : Nat} : (60 : Int) % n = 0 ↔ n ∣ 60 := by
  rw [← Int.natCast_dvd_natCast]
  exact ⟨Int.dvd_of_emod_eq_zero, Int.emod_eq_zero_of_dvd⟩

theorem admissible_iff_dvd {n : Nat} (hn : n < 60) : Admissible n ↔ n ∣ 60 := by
  constructor
  · rintro (⟨-, hdvd⟩ | ⟨hours, heq, hdvd⟩)
    · exact hdvd
    · have := Nat.pos_of_dvd_of_pos hdvd (by decide)
      omega
  · exact fun hdvd => .inl ⟨hn, hdvd⟩

theorem admissible_iff_hours {n : Nat} (hn : 60 ≤ n) :
    Admissible n ↔ ∃ hours, n = 60 * hours ∧ hours ∣ 24 :=
  ⟨fun h => h.resolve_left fun hsmall => by omega, .inr⟩

/-- The rule of the webhook. -/
theorem validateMinuteInterval_eq_none_iff {n : Nat} :
    validateMinuteInterval n = none ↔ Admissible n := by
  unfold validateMinuteInterval
  by_cases hhour : n < 60
  · rw [if_pos (by omega), admissible_iff_dvd hhour, ← divides_iff]
    split <;> simp_all
  · rw [if_neg (by omega), admissible_iff_hours (by omega), ← hours_iff (by omega)]
    split
    · simp_all
    · split <;> simp_all

theorem validateCronInterval_eq_none_iff {d : Duration} :
    validateCronInterval d = none ↔ ∃ n : Nat, minutes d = n ∧ Admissible n := by
  unfold validateCronInterval
  split
  · rename_i hsmall
    constructor
    · intro h
      cases h
    · rintro ⟨n, heq, hn⟩
      have := hn.pos
      omega
  · obtain ⟨n, hn⟩ : ∃ n : Nat, minutes d = n := ⟨(minutes d).toNat, by omega⟩
    rw [hn, validateMinuteInterval_eq_none_iff]
    constructor
    · exact fun hadmissible => ⟨n, rfl, hadmissible⟩
    · rintro ⟨n', heq, hadmissible⟩
      rwa [Int.ofNat_inj.mp heq]

/-! ## The schedule -/

theorem minutes_nonneg {d : Duration} (h : 0 ≤ d) : 0 ≤ minutes d :=
  Int.tdiv_nonneg h (by decide)

/-- The fields for a number of minutes and an offset. -/
def scheduleOf (offset n : Nat) : Schedule :=
  if n = 1 then daily every every
  else if n < 60 then daily ⟨some (offset % n), some n⟩ every
  else if n / 60 = 24 then daily ⟨some (offset % 60), none⟩ ⟨some (offset / 60 % 24), none⟩
  else daily ⟨some (offset % 60), none⟩ ⟨none, some (n / 60)⟩

theorem toList_toString (n : Nat) : (toString (n : Int)).toList = Cron.digits n := by
  show (toString n).toList = _
  rw [Nat.toString_eq_ofList_toDigits, String.toList_ofList]
  rfl

theorem exists_offset (ns name : String) (d : Duration) :
    ∃ offset : Nat, minutes (probeOffset ns name d) = offset :=
  ⟨_, (Int.toNat_of_nonneg (minutes_nonneg (probeOffsetHash_nonneg _ d))).symm⟩

section Minutes

variable {d : Duration} {n : Nat} (hn : minutes d = n) (ns name : String)

include hn

/-- The text of an admissible number of minutes. -/
theorem intervalToCron_ok (hadmissible : Admissible n) :
    ∃ offset text, intervalToCron ns name d = .ok text ∧
      text.toList = (scheduleOf offset n).render := by
  obtain ⟨offset, hoffset⟩ := exists_offset ns name d
  have hpos := hadmissible.pos
  refine ⟨offset, ?_⟩
  unfold intervalToCron scheduleOf
  simp only [hn, hoffset]
  rw [if_neg (by omega)]
  by_cases hone : n = 1
  · rw [if_pos (by omega), if_pos hone]
    exact ⟨_, rfl, by decide⟩
  rw [if_neg (by omega), if_neg hone]
  by_cases hhour : n < 60
  · have hdvd := divides_iff.mpr ((admissible_iff_dvd hhour).mp hadmissible)
    rw [if_pos (by omega), if_pos hhour, if_neg (not_not.mpr hdvd)]
    refine ⟨_, rfl, ?_⟩
    simp only [← Int.natCast_emod, String.toList_append, toList_toString, Cron.render_daily]
    simp [Field.render, Cron.renderFirst, every]
  · have hhours := (hours_iff (by omega)).mpr ((admissible_iff_hours (by omega)).mp hadmissible)
    rw [if_neg (by omega), if_neg hhour, if_neg (not_not.mpr hhours.1), if_neg hhours.2]
    by_cases hday : n / 60 = 24
    · rw [if_pos (by omega), if_pos hday]
      refine ⟨_, rfl, ?_⟩
      have hminute : (offset : Int) % 60 = (offset % 60 : Nat) := by omega
      have hhour : (offset : Int) / 60 % 24 = (offset / 60 % 24 : Nat) := by omega
      simp only [hminute, hhour, String.toList_append, toList_toString, Cron.render_daily]
      simp [Field.render, Cron.renderFirst]
    · rw [if_neg (by omega), if_neg hday]
      refine ⟨_, rfl, ?_⟩
      have hminute : (offset : Int) % 60 = (offset % 60 : Nat) := by omega
      have hstep : (n : Int) / 60 = (n / 60 : Nat) := by omega
      simp only [hminute, hstep, String.toList_append, toList_toString, Cron.render_daily]
      simp [Field.render, Cron.renderFirst]

end Minutes

theorem intervalToCron_error {d : Duration} (ns name : String)
    (hnot : ¬ ∃ n : Nat, minutes d = n ∧ Admissible n) :
    ∃ err, intervalToCron ns name d = .error err := by
  unfold intervalToCron
  dsimp only
  by_cases hsmall : minutes d < 1
  · exact ⟨_, if_pos hsmall⟩
  rw [if_neg hsmall]
  obtain ⟨n, hn⟩ : ∃ n : Nat, minutes d = n := ⟨(minutes d).toNat, by omega⟩
  have hadmissible : ¬ Admissible n := fun h => hnot ⟨n, hn, h⟩
  rw [hn]
  by_cases hhour : n < 60
  · rw [admissible_iff_dvd hhour, ← divides_iff] at hadmissible
    have hone : ¬ (n : Int) = 1 := by
      intro hone
      rw [hone] at hadmissible
      exact hadmissible (by decide)
    have hsub : (n : Int) < 60 := by omega
    rw [if_neg hone, if_pos hsub, if_pos hadmissible]
    exact ⟨_, rfl⟩
  · rw [admissible_iff_hours (by omega), ← hours_iff (by omega), not_and_not_right] at hadmissible
    rw [if_neg (by omega), if_neg (by omega)]
    split
    · exact ⟨_, rfl⟩
    · rename_i hwhole
      rw [if_pos (hadmissible (not_not.mp hwhole))]
      exact ⟨_, rfl⟩

/-- The minute of a schedule is below its step, which divides the hour, and the step of the
hour divides the day. -/
structure WellFormed (s : Schedule) : Prop where
  minute : ∀ a, s.minute.first = some a → a ≤ 59
  minuteStep : ∀ n, s.minute.step = some n → ∃ a, s.minute.first = some a ∧ a < n ∧ n ∣ 60
  hour : ∀ b, s.hour.first = some b → b ≤ 23
  hourStep : ∀ n, s.hour.step = some n → n ∣ 24

section Admissible

variable {n : Nat} (h : Admissible n) (offset : Nat)

include h

/-- The four shapes. -/
theorem scheduleOf_cases :
    (n = 1 ∧ scheduleOf offset n = daily every every) ∨
    (n ∣ 60 ∧ scheduleOf offset n = daily ⟨some (offset % n), some n⟩ every) ∨
    (n = 1440 ∧ scheduleOf offset n =
      daily ⟨some (offset % 60), none⟩ ⟨some (offset / 60 % 24), none⟩) ∨
    ∃ hours, n = 60 * hours ∧ hours ∣ 24 ∧
      scheduleOf offset n = daily ⟨some (offset % 60), none⟩ ⟨none, some hours⟩ := by
  unfold scheduleOf
  by_cases hone : n = 1
  · exact .inl ⟨hone, if_pos hone⟩
  rw [if_neg hone]
  by_cases hhour : n < 60
  · exact .inr (.inl ⟨(admissible_iff_dvd hhour).mp h, if_pos hhour⟩)
  rw [if_neg hhour]
  obtain ⟨hours, heq, hdvd⟩ := (admissible_iff_hours (by omega)).mp h
  have hhours : n / 60 = hours := by omega
  rw [hhours]
  by_cases hday : hours = 24
  · exact .inr (.inr (.inl ⟨by omega, if_pos hday⟩))
  · exact .inr (.inr (.inr ⟨hours, heq, hdvd, if_neg hday⟩))

theorem scheduleOf_inRange : (scheduleOf offset n).InRange := by
  have hpos := h.pos
  have hminute : offset % 60 ≤ 59 := by omega
  rcases scheduleOf_cases h offset with ⟨-, heq⟩ | ⟨hdvd, heq⟩ | ⟨-, heq⟩ | ⟨hours, -, hdvd, heq⟩
  · rw [heq]
    exact Cron.daily_inRange (Cron.every_inRange _ _) (Cron.every_inRange _ _)
  · have hlt := Nat.mod_lt offset hpos
    have hle := Nat.le_of_dvd (by decide) hdvd
    rw [heq]
    exact Cron.daily_inRange (Cron.inRange_number_step (by omega) (by omega))
      (Cron.every_inRange _ _)
  · rw [heq]
    exact Cron.daily_inRange (Cron.inRange_number (by omega)) (Cron.inRange_number (by omega))
  · have hhours := Nat.pos_of_dvd_of_pos hdvd (by decide)
    rw [heq]
    exact Cron.daily_inRange (Cron.inRange_number (by omega)) (Cron.inRange_step _ _ (by omega))

theorem scheduleOf_wellFormed : WellFormed (scheduleOf offset n) := by
  have hrange := scheduleOf_inRange h offset
  constructor
  · intro a ha
    exact (hrange.minute.1 a ha).2
  · intro step hstep
    rcases scheduleOf_cases h offset with ⟨-, heq⟩ | ⟨hdvd, heq⟩ | ⟨-, heq⟩ | ⟨hours, -, -, heq⟩
    · rw [heq] at hstep
      cases hstep
    · rw [heq] at hstep ⊢
      cases hstep
      exact ⟨_, rfl, Nat.mod_lt offset h.pos, hdvd⟩
    · rw [heq] at hstep
      cases hstep
    · rw [heq] at hstep
      cases hstep
  · intro b hb
    exact (hrange.hour.1 b hb).2
  · intro step hstep
    rcases scheduleOf_cases h offset with ⟨-, heq⟩ | ⟨-, heq⟩ | ⟨-, heq⟩ | ⟨hours, -, hdvd, heq⟩
    · rw [heq] at hstep
      cases hstep
    · rw [heq] at hstep
      cases hstep
    · rw [heq] at hstep
      cases hstep
    · rw [heq] at hstep
      cases hstep
      exact hdvd

/-- The schedule fires at one remainder of the number of minutes. -/
theorem scheduleOf_fires (cal : Calendar) :
    ∃ c : Int, 0 ≤ c ∧ c < n ∧
      ∀ t, (scheduleOf offset n).fires cal t = true ↔ t % n = c := by
  have hpos := h.pos
  rcases scheduleOf_cases h offset with ⟨hn, heq⟩ | ⟨hdvd, heq⟩ | ⟨hn, heq⟩ | ⟨hours, hn, hdvd, heq⟩
  · rw [heq, hn]
    exact ⟨0, by decide, by decide, Cron.fires_everyMinute cal⟩
  · have hlt := Nat.mod_lt offset hpos
    rw [heq]
    exact ⟨(offset % n : Nat), by omega, by omega, Cron.fires_minuteStep cal hlt hdvd⟩
  · rw [heq, hn]
    exact ⟨60 * (offset / 60 % 24 : Nat) + (offset % 60 : Nat), by omega, by omega,
      Cron.fires_daily_at cal (by omega) (by omega)⟩
  · rw [heq, hn, Int.natCast_mul]
    exact ⟨(offset % 60 : Nat), by omega, by omega, Cron.fires_hourStep cal (by omega) hdvd⟩

end Admissible

/-! ## Results -/

/-- Nothing was truncated. -/
theorem whole_iff {d n : Int} (h : minutes d = n) (hn : 0 < n) :
    n * 60000000000 = d ↔ d % 60000000000 = 0 := by
  have hd : 0 ≤ d := by
    by_contra hneg
    have hle : 0 ≤ Int.tdiv (-d) 60000000000 := Int.tdiv_nonneg (by omega) (by decide)
    rw [Int.neg_tdiv] at hle
    unfold minutes at h
    omega
  have hdiv : d / 60000000000 = n := by
    rw [← h, minutes, Int.tdiv_eq_ediv_of_nonneg hd]
  omega

/-- Every interval that passes the webhook has a schedule. -/
theorem exists_validSchedule {d : Duration} (h : validateCronInterval d = none)
    (ns name : String) : ∃ schedule, validSchedule ns name d = some schedule := by
  obtain ⟨n, hn, hadmissible⟩ := validateCronInterval_eq_none_iff.mp h
  obtain ⟨offset, text, htext, -⟩ := intervalToCron_ok hn ns name hadmissible
  refine ⟨text, ?_⟩
  rw [validSchedule, htext]
  rfl

/-- The webhook accepts the intervals that have a schedule, and the schedule is well
formed. -/
theorem validateCronInterval_iff (ns name : String) (d : Duration) :
    (validateCronInterval d = none ↔ ∃ text, intervalToCron ns name d = .ok text) ∧
    ∀ text, intervalToCron ns name d = .ok text →
      ∃ schedule, Cron.parse text.toList = some schedule ∧ WellFormed schedule := by
  rw [validateCronInterval_eq_none_iff]
  by_cases hadmissible : ∃ n : Nat, minutes d = n ∧ Admissible n
  · obtain ⟨n, hn, h⟩ := hadmissible
    obtain ⟨offset, text, htext, hrender⟩ := intervalToCron_ok hn ns name h
    constructor
    · exact iff_of_true ⟨n, hn, h⟩ ⟨text, htext⟩
    · intro text' htext'
      rw [htext, Except.ok.injEq] at htext'
      rw [← htext', hrender]
      exact ⟨_, Cron.parse_render (scheduleOf_inRange h offset), scheduleOf_wellFormed h offset⟩
  · obtain ⟨err, herr⟩ := intervalToCron_error ns name hadmissible
    rw [herr]
    constructor
    · simpa using hadmissible
    · intro text htext
      cases htext

/-- For an interval that passes the webhook, all gaps between firings are the interval
exactly when it is a whole number of minutes. -/
theorem gaps_iff (cal : Calendar) (ns name : String) {d : Duration}
    (h : validateCronInterval d = none) :
    ∃ text schedule, intervalToCron ns name d = .ok text ∧
      Cron.parse text.toList = some schedule ∧
      ((∀ t t', Consecutive (schedule.fires cal) t t' → (t' - t) * 60000000000 = d) ↔
        d % 60000000000 = 0) := by
  obtain ⟨n, hn, hadmissible⟩ := validateCronInterval_eq_none_iff.mp h
  obtain ⟨offset, text, htext, hrender⟩ := intervalToCron_ok hn ns name hadmissible
  obtain ⟨c, hc, hlt, hfires⟩ := scheduleOf_fires hadmissible offset cal
  have hpos : (0 : Int) < n := by omega
  refine ⟨text, scheduleOf offset n, htext, ?_, ?_⟩
  · rw [hrender]
    exact Cron.parse_render (scheduleOf_inRange hadmissible offset)
  · -- a gap is the number of whole minutes, which is `d` when nothing was truncated
    rw [← whole_iff hn hpos]
    constructor
    · intro hgaps
      have hfirst : (scheduleOf offset n).fires cal c = true :=
        (hfires c).mpr (Int.emod_eq_of_lt hc hlt)
      have hgap := hgaps c (c + n) (Cron.consecutive_add hfires hpos hfirst)
      rwa [Int.add_comm, Int.add_sub_cancel] at hgap
    · intro hd t t' hgap
      rw [hgap.sub_eq hfires hpos, hd]

/-- A calendar in which every day is the first. -/
def firstDay : Calendar := ⟨fun _ => 1, fun _ => 1, fun _ => 0⟩

theorem gaps_five_minutes :
    ∃ text schedule, intervalToCron "default" "smoke" 300000000000 = .ok text ∧
      Cron.parse text.toList = some schedule ∧
      ((∀ t t', Consecutive (schedule.fires firstDay) t t' →
        (t' - t) * 60000000000 = 300000000000) ↔ (300000000000 : Int) % 60000000000 = 0) :=
  gaps_iff firstDay "default" "smoke" (by decide)

/-- An interval of 90 seconds is admitted, and its schedule fires every minute. -/
theorem gaps_ninety_seconds :
    validateCronInterval 90000000000 = none ∧
    ∃ text schedule, intervalToCron "default" "smoke" 90000000000 = .ok text ∧
      Cron.parse text.toList = some schedule ∧
      Consecutive (schedule.fires firstDay) 0 1 ∧
      (1 - 0 : Int) * 60000000000 ≠ 90000000000 := by
  refine ⟨by decide, "* * * * *", daily every every, ?_, by decide, ⟨by decide, by decide, ?_, ?_⟩,
    by decide⟩
  · have hn : minutes 90000000000 = 1 := by decide
    simp [intervalToCron, hn]
  · decide
  · intro u hlt hgt
    omega

end SyntheticsOperator.Proofs.Schedules
