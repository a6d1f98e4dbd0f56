/-!
# Draws from a stream of words

Numbers below a bound are drawn evenly: a word of a given width is multiplied by the bound and the
upper half of the product is the number, unless the lower half falls into the part of its range
that would make some numbers more likely; then another word is drawn. The stream is any function
that takes a state to a word and a next state.

A draw goes on until a word is accepted. It has no answer if the stream never gives one that is.
-/

namespace Playhead.Draw

variable {σ : Type} (next : σ → UInt32 × σ)

/-- One word of 32 bits. -/
def word (s : σ) : Nat × σ :=
  let (w, s) := next s
  (w.toNat, s)

/-- One word of 64 bits, made of two, the lower half first. -/
def doubleWord (s : σ) : Nat × σ :=
  let (low, s) := next s
  let (high, s) := next s
  (low.toNat + UInt32.size * high.toNat, s)

/-- The greatest lower half that is accepted when numbers below `bound` are drawn from words of
`width` bits. -/
def zone (width bound : Nat) : Nat := (bound <<< (width - (bound.log2 + 1))) - 1

section

variable (draw : σ → Nat × σ) (width bound : Nat)

/-- A number below `bound`, from the first word of `width` bits that is accepted. -/
def below? (s : σ) : Option (Nat × σ) :=
  let (w, s) := draw s
  let product := w * bound
  if product % (1 <<< width) ≤ zone width bound then some (product >>> width, s)
  else by
    -- Called by a tactic, for a call in a term leaves its place in the file in the definition.
    apply below?
    exact s
partial_fixpoint

end

/-- A word that is accepted is the only one that is drawn. -/
theorem below?_of_le {draw : σ → Nat × σ} {width bound w : Nat} {s s' : σ}
    (hdraw : draw s = (w, s')) (h : w * bound % (1 <<< width) ≤ zone width bound) :
    below? draw width bound s = some ((w * bound) >>> width, s') := by
  rw [below?, hdraw]
  exact if_pos h

/-- A choice out of `bound`. -/
def choice? (bound : Nat) (s : σ) : Option (Nat × σ) := below? (word next) 32 bound s

/-- A number from zero up to `most`. -/
def upTo? (most : Nat) (s : σ) : Option (Nat × σ) := below? (doubleWord next) 64 (most + 1) s

/-- A number between two bounds, of which the first one is not greater. -/
def between? (low high : Int) (s : σ) : Option (Int × σ) :=
  (below? (doubleWord next) 64 (high - low + 1).toNat s).map fun (n, s) => (low + n, s)

/-- True one time in five. -/
def oneInFive (s : σ) : Bool × σ :=
  let (w, s) := doubleWord next s
  (w < 3689348814741910528, s)

end Playhead.Draw
