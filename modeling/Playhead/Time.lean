import Playhead.Fault

/-!
# Logical time

Time is a whole number of milliseconds and passes only when a caller spends it. Authors write
instants and lengths as 64-bit counts (`Millis`); the play head and the pass counter of a player
are natural numbers that stop at the largest value of their width (`capMillis`, `capPlays`), so
that no sum wraps around. A clock does not stop there: it has no time beyond the last instant
(`addMillis`).
-/

namespace Playhead

/-- Milliseconds as an author writes them. -/
abbrev Millis := Fin UInt64.size

/-- The last instant of the time line. -/
def lastMillis : Nat := UInt64.size - 1

/-- The most completed passes that a counter holds. -/
def maxPlays : Nat := UInt32.size - 1

/-- An instant, moved back to the last one when it lies beyond it. -/
def capMillis (n : Nat) : Nat := min n lastMillis

/-- A pass count, held at the largest one. -/
def capPlays (n : Nat) : Nat := min n maxPlays

/-- The sum of two times, as long as it is one. -/
def addMillis (m n : Nat) : Except Fault Nat :=
  if m + n ≤ lastMillis then .ok (m + n) else .error .overflow

theorem addMillis_eq_ok_iff {m n sum : Nat} :
    addMillis m n = .ok sum ↔ m + n ≤ lastMillis ∧ m + n = sum := by
  unfold addMillis
  split <;> simp [*]

theorem addMillis_eq_error_iff {m n : Nat} {fault : Fault} :
    addMillis m n = .error fault ↔ fault = .overflow ∧ lastMillis < m + n := by
  unfold addMillis
  split
  · next h => simp [Nat.not_lt.mpr h]
  · next h => simp [Nat.lt_of_not_le h, eq_comm]

theorem capMillis_le (n : Nat) : capMillis n ≤ lastMillis := Nat.min_le_right _ _

theorem capMillis_lt (n : Nat) : capMillis n < UInt64.size :=
  Nat.lt_of_le_of_lt (capMillis_le n) (by decide)

theorem capMillis_of_le {n : Nat} (h : n ≤ lastMillis) : capMillis n = n := Nat.min_eq_left h

theorem capPlays_le (n : Nat) : capPlays n ≤ maxPlays := Nat.min_le_right _ _

theorem capPlays_lt (n : Nat) : capPlays n < UInt32.size :=
  Nat.lt_of_le_of_lt (capPlays_le n) (by decide)

theorem capPlays_of_le {n : Nat} (h : n ≤ maxPlays) : capPlays n = n := Nat.min_eq_left h

namespace Millis

/-- The authored count nearest to `n` from below. -/
def ofNat (n : Nat) : Millis := ⟨capMillis n, capMillis_lt n⟩

/-- No time at all. -/
def zero : Millis := ofNat 0

theorem val_ofNat (n : Nat) : (ofNat n).val = capMillis n := rfl

theorem val_le (ms : Millis) : ms.val ≤ lastMillis := Nat.le_sub_one_of_lt ms.isLt

end Millis

/-- Length of a playable window. -/
inductive Extent where
  /-- A window of this many milliseconds. -/
  | finite (length : Millis)
  /-- A window without an end, as live content has it. -/
  | unbounded
  deriving DecidableEq, Repr

namespace Extent

/-- Whether there is nothing to play. -/
def isEmpty : Extent → Bool
  | finite length => length.val == 0
  | unbounded => false

end Extent

/-- How many times the window is played in total. -/
inductive Repeat where
  | times (passes : Fin UInt32.size)
  | forever
  deriving DecidableEq, Repr

namespace Repeat

/-- A single pass. -/
def once : Repeat := times ⟨1, by decide⟩

/-- Whether another pass follows after `completed` full passes. -/
def allowsAnother : Repeat → Nat → Bool
  | times passes, completed => completed < passes.val
  | forever, _ => true

/-- A track is played at least once: no passes at all means one. -/
def atLeastOnce : Repeat → Repeat
  | times passes => if passes.val = 0 then once else times passes
  | forever => forever

end Repeat

end Playhead
