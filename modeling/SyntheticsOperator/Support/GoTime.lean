import Mathlib.Algebra.Ring.Int.Defs
import Mathlib.Algebra.Ring.Nat
import Mathlib.Data.Int.DivMod

/-!
# Go instants and durations

Both are nanosecond counts.  `Unix` rounds towards the past and `Milliseconds`
towards zero, as the standard library documents.
-/

namespace SyntheticsOperator.Support

/-- `time.Time`, as nanoseconds since the Unix epoch. -/
structure Time where
  nanos : Int
deriving DecidableEq

/-- `Time.Unix`: whole seconds since the epoch. -/
def Time.unix (t : Time) : Int := t.nanos / 1000000000

theorem Time.unix_mono {t u : Time} (h : t.nanos ≤ u.nanos) : t.unix ≤ u.unix :=
  Int.ediv_le_ediv (by decide) h

def Time.ofUnix (unix : Int) : Time := ⟨unix * 1000000000⟩

theorem Time.unix_ofUnix (unix : Int) : (Time.ofUnix unix).unix = unix :=
  Int.mul_ediv_cancel unix (by decide)

/-- What a read returns of an instant that was written as a `metav1.Time`. -/
def Time.wholeSeconds (t : Time) : Time := .ofUnix t.unix

theorem Time.unix_wholeSeconds (t : Time) : t.wholeSeconds.unix = t.unix :=
  Time.unix_ofUnix t.unix

theorem Time.nanos_lt_of_wholeSeconds {t u : Time}
    (h : t.wholeSeconds.nanos < u.wholeSeconds.nanos) : t.nanos < u.nanos := by
  simp only [Time.wholeSeconds, Time.ofUnix, Time.unix] at h
  omega

/-- `time.Duration`, in nanoseconds. -/
abbrev Duration := Int

/-- The `int64` that a result is stored as: it wraps around. -/
def int64 (n : Int) : Int := n.bmod (2 ^ 64)

theorem int64_eq_self {n : Int} (hlow : -2 ^ 63 ≤ n) (hhigh : n < 2 ^ 63) : int64 n = n :=
  Int.bmod_eq_of_le (by omega) (by omega)

def Time.unixNano (t : Time) : Int := int64 t.nanos

/-- `Time.Sub`.  The result saturates in Go, which no comparison with a positive
duration can see. -/
def Time.sub (t u : Time) : Duration := t.nanos - u.nanos

def Time.add (t : Time) (d : Duration) : Time := ⟨t.nanos + d⟩

/-- The zero instant, midnight of the first day of year 1. -/
def Time.zero : Time := ⟨-62135596800000000000⟩

def Duration.milliseconds (d : Duration) : Int := Int.tdiv d 1000000

end SyntheticsOperator.Support
