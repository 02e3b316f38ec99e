/-!
# Clocks

Instants and durations are whole numbers of nanoseconds.  A sleep ends at the first instant at or
after its deadline that the clock offers; `Clock` is that map, and `millis` the clock that offers
whole milliseconds only.
-/

namespace Matchmaker

/-- the first instant offered at or after a deadline -/
abbrev Clock := Nat → Nat

def nanosPerMilli : Nat := 1000000

namespace Clock

/-- offers whole milliseconds -/
def millis : Clock := fun t => (t + (nanosPerMilli - 1)) / nanosPerMilli * nanosPerMilli

/-- when a sleep that starts at `now` and ends at `deadline` is over -/
def wake (clock : Clock) (now deadline : Nat) : Nat := if deadline ≤ now then now else clock deadline

theorem le_millis (t : Nat) : t ≤ millis t := by
  unfold millis nanosPerMilli
  omega

theorem millis_mul (n : Nat) : millis (n * nanosPerMilli) = n * nanosPerMilli := by
  unfold millis nanosPerMilli
  omega

/-- no earlier whole millisecond is at or after the deadline -/
theorem millis_le {t n : Nat} (h : t ≤ n * nanosPerMilli) : millis t ≤ n * nanosPerMilli := by
  unfold millis nanosPerMilli at *
  omega

end Clock

end Matchmaker
