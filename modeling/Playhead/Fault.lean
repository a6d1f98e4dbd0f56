import Playhead.Word

/-!
# Computations without an answer

Not everything that is asked of the program is answered. Some loops never come to an end, and where
a sum does not fit its word the program stops on the spot, whatever it was doing. Both are outcomes
of their own, `Except Fault`, so that they can be told from each other and from all answers.
-/

namespace Playhead

/-- Why there is no answer. -/
inductive Fault where
  /-- The program goes on for ever. -/
  | endless
  /-- A sum does not fit its word, at which the program stops. -/
  | overflow
  deriving DecidableEq, Repr

variable {α β : Type}

/-- The answer of a loop, which has none only if it goes on for ever. -/
def orEndless : Option α → Except Fault α
  | some a => .ok a
  | none => .error .endless

/-- The sum of two signed words, as long as it is one. -/
def addSigned (m n : Int) : Except Fault Int :=
  if fitsSigned (m + n) then .ok (m + n) else .error .overflow

variable {o : Option α} {a : α} {fault : Fault}

theorem orEndless_eq_ok_iff : orEndless o = .ok a ↔ o = some a := by
  cases o <;> simp [orEndless]

theorem orEndless_eq_error_iff : orEndless o = .error fault ↔ fault = .endless ∧ o = none := by
  cases o <;> simp [orEndless, eq_comm]

theorem Fault.eq_endless_or_overflow (fault : Fault) : fault = .endless ∨ fault = .overflow := by
  cases fault
  · exact .inl rfl
  · exact .inr rfl

/-! ## Chains of computations -/

variable {ε γ : Type} {x : Except ε α} {f : α → β} {g : α → Except ε β} {b : β} {e : ε}

@[simp] theorem map_ok : (.ok a : Except ε α).map f = .ok (f a) := rfl

@[simp] theorem map_error : (.error e : Except ε α).map f = .error e := rfl

@[simp] theorem bind_ok : (.ok a : Except ε α) >>= g = g a := rfl

theorem map_map (h : β → γ) : (x.map f).map h = x.map (h ∘ f) := by
  cases x <;> rfl

theorem map_congr {f' : α → β} (h : ∀ a, x = .ok a → f a = f' a) : x.map f = x.map f' := by
  cases x with
  | error e => rfl
  | ok a => exact congrArg Except.ok (h a rfl)

theorem map_eq_ok_iff : x.map f = .ok b ↔ ∃ a, x = .ok a ∧ f a = b := by
  cases x <;> simp

theorem map_eq_error_iff : x.map f = .error e ↔ x = .error e := by
  cases x <;> simp

theorem bind_eq_ok_iff : x >>= g = .ok b ↔ ∃ a, x = .ok a ∧ g a = .ok b := by
  cases x <;> simp [bind, Except.bind]

theorem bind_eq_error_iff :
    x >>= g = .error e ↔ x = .error e ∨ ∃ a, x = .ok a ∧ g a = .error e := by
  cases x <;> simp [bind, Except.bind]

end Playhead
