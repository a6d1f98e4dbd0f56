import Mathlib
import Playhead.Text

/-!
# Numbers in digits

Digits say a number (`digitsValue`). Zeros in front do not change it, so a padded number reads back
(`digitsValue_zeroPadded`). Digits of one length are in the order of their numbers
(`lt_iff_digitsValue_lt`), so that no two of them say the same (`digitsValue_inj`). A number has one
width that it is padded to, so there is one way to pad it (`eq_zeroPadded`).
-/

namespace Playhead

variable {c d : Char} {s t : List Char} {width n : Nat}

/-! ## Order -/

/-- Texts are compared by what follows only if they begin the same. -/
theorem append_lt_append_iff {a b r r' : List Char} (hlength : a.length = b.length) :
    a ++ r < b ++ r' ↔ a < b ∨ a = b ∧ r < r' := by
  induction a generalizing b with
  | nil =>
    obtain rfl := List.length_eq_zero_iff.mp hlength.symm
    simp
  | cons c a ih =>
    cases b with
    | nil => cases hlength
    | cons d b =>
      rw [List.cons_append, List.cons_append, List.cons_lt_cons_iff, List.cons_lt_cons_iff,
        ih (Nat.succ.inj hlength), List.cons.injEq]
      tauto

/-- Numbers with two places are compared by the lower one only if the higher one is the same. -/
theorem place_lt_iff {p v w : Nat} (hv : v < p) (hw : w < p) (m n : Nat) :
    m * p + v < n * p + w ↔ m < n ∨ m = n ∧ v < w := by
  rcases Nat.lt_trichotomy m n with h | rfl | h
  · have hplace : (m + 1) * p ≤ n * p := Nat.mul_le_mul_right p h
    rw [Nat.succ_mul] at hplace
    omega
  · omega
  · have hplace : (n + 1) * p ≤ m * p := Nat.mul_le_mul_right p h
    rw [Nat.succ_mul] at hplace
    omega

/-! ## Values -/

/-- Text of digits alone. -/
def AllDigits (s : List Char) : Prop := ∀ c ∈ s, c.isDigit = true

instance (s : List Char) : Decidable (AllDigits s) :=
  inferInstanceAs (Decidable (∀ c ∈ s, c.isDigit = true))

theorem allDigits_cons : AllDigits (c :: s) ↔ c.isDigit = true ∧ AllDigits s :=
  List.forall_mem_cons

theorem AllDigits.notMem (hs : AllDigits s) (hc : c.isDigit = false) : c ∉ s := fun hmem =>
  Bool.false_ne_true (hc.symm.trans (hs c hmem))

/-- The number that digits say. -/
def digitsValue (s : List Char) : Nat := Nat.ofDigitChars 10 s 0

/-- The number that one digit says. -/
def digitValue (c : Char) : Nat := c.toNat - '0'.toNat

theorem digitValue_add (hc : c.isDigit = true) : digitValue c + '0'.toNat = c.toNat :=
  Nat.sub_add_cancel (Char.isDigit_iff_toNat.mp hc).1

theorem digitValue_lt (hc : c.isDigit = true) : digitValue c < 10 := by
  have hnine : c.toNat ≤ '9'.toNat := (Char.isDigit_iff_toNat.mp hc).2
  rw [← digitValue_add hc, show '9'.toNat = 9 + '0'.toNat from rfl] at hnine
  omega

theorem lt_iff_digitValue_lt (hc : c.isDigit = true) (hd : d.isDigit = true) :
    c < d ↔ digitValue c < digitValue d := by
  rw [Char.lt_def, UInt32.lt_iff_toNat_lt]
  change c.toNat < d.toNat ↔ _
  rw [← digitValue_add hc, ← digitValue_add hd, Nat.add_lt_add_iff_right]

theorem digitValue_inj (hc : c.isDigit = true) (hd : d.isDigit = true) :
    digitValue c = digitValue d ↔ c = d := by
  rw [← Char.toNat_inj, ← digitValue_add hc, ← digitValue_add hd, Nat.add_right_cancel_iff]

theorem digitsValue_cons (c : Char) (s : List Char) :
    digitsValue (c :: s) = digitValue c * 10 ^ s.length + digitsValue s := by
  rw [digitsValue, Nat.ofDigitChars_cons, Nat.ofDigitChars_eq_ofDigitChars_zero, Nat.mul_zero,
    Nat.zero_add, Nat.mul_comm]
  rfl

theorem digitsValue_lt (hs : AllDigits s) : digitsValue s < 10 ^ s.length := by
  induction s with
  | nil => exact Nat.one_pos
  | cons c s ih =>
    obtain ⟨hc, hs⟩ := allDigits_cons.mp hs
    calc digitsValue (c :: s)
        = digitValue c * 10 ^ s.length + digitsValue s := digitsValue_cons c s
      _ < (digitValue c + 1) * 10 ^ s.length := by
        rw [Nat.succ_mul]
        exact Nat.add_lt_add_left (ih hs) _
      _ ≤ 10 * 10 ^ s.length := Nat.mul_le_mul_right _ (digitValue_lt hc)
      _ = 10 ^ (s.length + 1) := (Nat.pow_succ').symm

/-- Digits of one length are in the order of their numbers. -/
theorem lt_iff_digitsValue_lt (hs : AllDigits s) (ht : AllDigits t)
    (hlength : s.length = t.length) : s < t ↔ digitsValue s < digitsValue t := by
  induction s generalizing t with
  | nil =>
    obtain rfl := List.length_eq_zero_iff.mp hlength.symm
    simp
  | cons c s ih =>
    cases t with
    | nil => cases hlength
    | cons d t =>
      obtain ⟨hc, hs⟩ := allDigits_cons.mp hs
      obtain ⟨hd, ht⟩ := allDigits_cons.mp ht
      have hlength : s.length = t.length := Nat.succ.inj hlength
      have hlow : digitsValue s < 10 ^ t.length := hlength ▸ digitsValue_lt hs
      rw [List.cons_lt_cons_iff, ih hs ht hlength, lt_iff_digitValue_lt hc hd,
        ← digitValue_inj hc hd, digitsValue_cons, digitsValue_cons, hlength,
        place_lt_iff hlow (digitsValue_lt ht)]

/-- Digits of one length say different numbers. -/
theorem digitsValue_inj (hs : AllDigits s) (ht : AllDigits t) (hlength : s.length = t.length) :
    digitsValue s = digitsValue t ↔ s = t := by
  refine ⟨fun h => ?_, congrArg digitsValue⟩
  rcases lt_trichotomy s t with hlt | heq | hlt
  · exact absurd h ((lt_iff_digitsValue_lt hs ht hlength).mp hlt).ne
  · exact heq
  · exact absurd h ((lt_iff_digitsValue_lt ht hs hlength.symm).mp hlt).ne'

/-- Digits begin with a zero just if their number would do with one fewer. -/
theorem ne_zero_iff_pow_le (hs : AllDigits (c :: s)) :
    c ≠ '0' ↔ 10 ^ s.length ≤ digitsValue (c :: s) := by
  obtain ⟨hc, hs⟩ := allDigits_cons.mp hs
  have hlow := digitsValue_lt hs
  rw [ne_eq, ← digitValue_inj hc rfl, digitsValue_cons, show digitValue '0' = 0 from rfl]
  constructor
  · intro hpos
    exact (Nat.le_mul_of_pos_left _ (Nat.pos_of_ne_zero hpos)).trans (Nat.le_add_right _ _)
  · intro hle hzero
    rw [hzero, Nat.zero_mul, Nat.zero_add] at hle
    exact absurd hlow hle.not_gt

/-! ## Padded numbers -/

theorem toList_zeroPadded (width n : Nat) :
    (zeroPadded width n).toList =
      List.replicate (width - (Nat.toDigits 10 n).length) '0' ++ Nat.toDigits 10 n := by
  rw [zeroPadded, Nat.toString_eq_ofList_toDigits, String.toList_append, String.toList_ofList,
    String.toList_ofList, String.length_ofList]

theorem allDigits_zeroPadded (width n : Nat) : AllDigits (zeroPadded width n).toList := by
  intro c hc
  rw [toList_zeroPadded, List.mem_append] at hc
  rcases hc with hzero | hdigit
  · rw [List.eq_of_mem_replicate hzero]
    rfl
  · exact Nat.isDigit_of_mem_toDigits (by decide) (by decide) hdigit

theorem length_zeroPadded (width n : Nat) :
    (zeroPadded width n).toList.length = max width (Nat.toDigits 10 n).length := by
  rw [toList_zeroPadded, List.length_append, List.length_replicate]
  omega

/-- A padded number reads back. -/
theorem digitsValue_zeroPadded (width n : Nat) : digitsValue (zeroPadded width n).toList = n := by
  rw [toList_zeroPadded, digitsValue, Nat.ofDigitChars_append, Nat.ofDigitChars_replicate_zero,
    Nat.mul_zero, Nat.ofDigitChars_toDigits (by decide) (by decide)]

theorem length_zeroPadded_of_lt (hwidth : 0 < width) (h : n < 10 ^ width) :
    (zeroPadded width n).toList.length = width := by
  rw [length_zeroPadded, max_eq_left ((Nat.length_toDigits_le_iff (by decide) hwidth).mpr h)]

/-- Whether a text has a width, or more than that and then no zero in front. -/
def IsPadded (width : Nat) (s : List Char) : Prop :=
  s.length = width ∨ width < s.length ∧ s.head? ≠ some '0'

instance (width : Nat) (s : List Char) : Decidable (IsPadded width s) :=
  inferInstanceAs (Decidable (_ ∨ _ ∧ _))

theorem isPadded_iff_length_eq (hwidth : 0 < width) (hs : AllDigits s) :
    IsPadded width s ↔ s.length = max width (Nat.toDigits 10 (digitsValue s)).length := by
  cases s with
  | nil =>
    have hmax := Nat.le_max_left width (Nat.toDigits 10 (digitsValue [])).length
    simp only [IsPadded, List.length_nil]
    omega
  | cons c s =>
    have hfits : (Nat.toDigits 10 (digitsValue (c :: s))).length ≤ s.length + 1 :=
      (Nat.length_toDigits_le_iff (by decide) (Nat.succ_pos _)).mpr (digitsValue_lt hs)
    -- Beyond the width there is more than one digit, so that one fewer is still a number.
    have hfirst (hs' : 0 < s.length) :
        c ≠ '0' ↔ s.length < (Nat.toDigits 10 (digitsValue (c :: s))).length := by
      rw [ne_zero_iff_pow_le hs, ← not_lt, ← Nat.length_toDigits_le_iff (by decide) hs', not_le]
    simp only [IsPadded, List.length_cons, List.head?_cons, ne_eq, Option.some.injEq] at hfirst ⊢
    by_cases hlong : width < s.length + 1
    · rw [hfirst (by omega)]
      omega
    · omega

theorem isPadded_zeroPadded (hwidth : 0 < width) (n : Nat) :
    IsPadded width (zeroPadded width n).toList := by
  rw [isPadded_iff_length_eq hwidth (allDigits_zeroPadded width n), digitsValue_zeroPadded,
    length_zeroPadded]

/-- There is one way to pad a number. -/
theorem eq_zeroPadded (hwidth : 0 < width) (hs : AllDigits s) (hpadded : IsPadded width s) :
    s = (zeroPadded width (digitsValue s)).toList := by
  have hlength : s.length = (zeroPadded width (digitsValue s)).toList.length := by
    rw [length_zeroPadded]
    exact (isPadded_iff_length_eq hwidth hs).mp hpadded
  rw [← digitsValue_inj hs (allDigits_zeroPadded _ _) hlength, digitsValue_zeroPadded]

end Playhead
