import Mathlib.Order.Bounds.Basic
import SyntheticsOperator.Support.Histories

/-!
# Latest-wins registers

A register keeps the latest event by the event's own time, and of several events
with that time the one offered last.  What it holds after a list of offers
depends on the offered events only, not on their order, as long as no two of
them share a time.
-/

namespace SyntheticsOperator.Support

open Histories

variable {τ ε : Type*}

/-- The time a register stands at, and the event that put it there; `none` if it
still stands at its initial time. -/
@[ext] structure Register (τ ε : Type*) where
  time : τ
  event : Option ε

namespace Register

variable [LinearOrder τ] (timeOf : ε → τ)

/-- An event that is not older than the register replaces what it holds. -/
def offer (r : Register τ ε) (e : ε) : Register τ ε :=
  if r.time ≤ timeOf e then ⟨timeOf e, some e⟩ else r

def offers (start : τ) (events : List ε) : Register τ ε :=
  events.foldl (offer timeOf) ⟨start, none⟩

def at? (t : τ) (e : ε) : Option ε :=
  if timeOf e = t then some e else none

theorem offers_snoc (start : τ) (events : List ε) (e : ε) :
    offers timeOf start (events ++ [e]) = offer timeOf (offers timeOf start events) e :=
  List.foldl_concat ..

theorem isGreatest_offers (start : τ) (events : List ε) :
    IsGreatest {t | t = start ∨ ∃ e ∈ events, t = timeOf e} (offers timeOf start events).time := by
  induction events using List.reverseRecOn with
  | nil => simp [offers]
  | append_singleton events e ih =>
      rw [offers_snoc, offer]
      split
      · rename_i hle
        refine ⟨.inr ⟨e, by simp, rfl⟩, ?_⟩
        rintro t (rfl | ⟨e', he', rfl⟩)
        · exact (ih.2 (.inl rfl)).trans hle
        · rcases List.mem_append.mp he' with he' | he'
          · exact (ih.2 (.inr ⟨e', he', rfl⟩)).trans hle
          · rw [List.mem_singleton.mp he']
      · rename_i hlt
        refine ⟨ih.1.imp_right fun ⟨e', he', ht⟩ => ⟨e', by simp [he'], ht⟩, ?_⟩
        rintro t (rfl | ⟨e', he', rfl⟩)
        · exact ih.2 (.inl rfl)
        · rcases List.mem_append.mp he' with he' | he'
          · exact ih.2 (.inr ⟨e', he', rfl⟩)
          · rw [List.mem_singleton.mp he']
            exact (not_le.mp hlt).le

/-- An event that is not older than the start and the events before it is the one held. -/
theorem offers_snoc_of_le {start : τ} {events : List ε} {e : ε} (hstart : start ≤ timeOf e)
    (hevents : ∀ e' ∈ events, timeOf e' ≤ timeOf e) :
    offers timeOf start (events ++ [e]) = ⟨timeOf e, some e⟩ := by
  have hle : (offers timeOf start events).time ≤ timeOf e := by
    rcases (isGreatest_offers timeOf start events).1 with h | ⟨e', he', h⟩
    · rw [h]
      exact hstart
    · rw [h]
      exact hevents e' he'
  rw [offers_snoc, offer, if_pos hle]

/-- The register holds the last offered event with the time it stands at. -/
theorem event_offers (start : τ) (events : List ε) :
    (offers timeOf start events).event =
      lastSome (at? timeOf (offers timeOf start events).time) events := by
  induction events using List.reverseRecOn with
  | nil => rfl
  | append_singleton events e ih =>
      rw [offers_snoc, lastSome_snoc, offer]
      split
      · simp [at?]
      · rename_i hlt
        have hne : timeOf e ≠ (offers timeOf start events).time := (not_le.mp hlt).ne
        rw [at?, if_neg hne, Option.none_or]
        exact ih

theorem at?_eq_some {t : τ} {e e' : ε} : at? timeOf t e = some e' ↔ e = e' ∧ timeOf e' = t := by
  simp only [at?, Option.ite_none_right_eq_some, Option.some.injEq]
  constructor
  · rintro ⟨ht, rfl⟩
    exact ⟨rfl, ht⟩
  · rintro ⟨rfl, ht⟩
    exact ⟨ht, rfl⟩

/-- The same events, in any order and any number of times, leave the same
register behind if no two of them share a time. -/
theorem offers_congr (start : τ) {events events' : List ε}
    (hmem : ∀ e, e ∈ events ↔ e ∈ events')
    (hdistinct : ∀ e ∈ events, ∀ e' ∈ events, timeOf e = timeOf e' → e = e') :
    offers timeOf start events = offers timeOf start events' := by
  have htime : (offers timeOf start events).time = (offers timeOf start events').time := by
    have hgreatest := isGreatest_offers timeOf start events
    simp only [hmem] at hgreatest
    exact hgreatest.unique (isGreatest_offers timeOf start events')
  have hevent : (offers timeOf start events).event = (offers timeOf start events').event := by
    rw [event_offers, event_offers, ← htime]
    set t := (offers timeOf start events).time
    -- both are the one event with time `t`, if there is one
    rcases hlast : lastSome (at? timeOf t) events with _ | e
    · refine (lastSome_eq_none.mpr fun e he => ?_).symm
      exact lastSome_eq_none.mp hlast e ((hmem e).mpr he)
    · obtain ⟨_, he, hat⟩ := exists_of_lastSome_eq_some hlast
      obtain ⟨rfl, het⟩ := (at?_eq_some timeOf).mp hat
      rcases hlast' : lastSome (at? timeOf t) events' with _ | e'
      · have := lastSome_eq_none.mp hlast' _ ((hmem _).mp he)
        rw [hat] at this
        cases this
      · obtain ⟨_, he', hat'⟩ := exists_of_lastSome_eq_some hlast'
        obtain ⟨rfl, het'⟩ := (at?_eq_some timeOf).mp hat'
        rw [hdistinct _ he _ ((hmem _).mpr he') (het.trans het'.symm)]
  exact Register.ext htime hevent

end Register

end SyntheticsOperator.Support
