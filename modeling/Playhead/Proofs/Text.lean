import Mathlib
import Playhead.Text

/-!
# Reading texts back

Numbers are written with digits only, so that anything else shows where they end, and texts without
blanks can be told from the blanks that they are padded with. Each lemma allows for any text behind
what is read.
-/

namespace Playhead

variable {c : Char} {s s' : String} {a b r r' : List Char} {width : Nat}

/-- A mark cuts two texts at the same place if neither has it before. -/
theorem eq_of_append_cons (ha : c ∉ a) (hb : c ∉ b) (h : a ++ c :: r = b ++ c :: r') :
    a = b ∧ r = r' := by
  induction a generalizing b with
  | nil =>
    cases b with
    | nil => exact ⟨rfl, (List.cons.inj h).2⟩
    | cons d b => exact absurd (List.cons.inj h).1 (List.ne_of_not_mem_cons hb)
  | cons d a ih =>
    cases b with
    | nil => exact absurd (List.cons.inj h).1.symm (List.ne_of_not_mem_cons ha)
    | cons d' b =>
      obtain ⟨hd, hrest⟩ := List.cons.inj h
      obtain ⟨hab, hr⟩ :=
        ih (List.not_mem_of_not_mem_cons ha) (List.not_mem_of_not_mem_cons hb) hrest
      exact ⟨by rw [hd, hab], hr⟩

/-! ## Numbers -/

theorem notMem_toString (hc : c.isDigit = false) (n : Nat) : c ∉ (toString n).toList := by
  intro hmem
  rw [Nat.toString_eq_ofList_toDigits, String.toList_ofList] at hmem
  have hdigit := Nat.isDigit_of_mem_toDigits (b := 10) (by decide) (by decide) hmem
  rw [hc] at hdigit
  cases hdigit

theorem notMem_toString_int (hc : c.isDigit = false) (hsign : c ≠ '-') (n : Int) :
    c ∉ (toString n).toList := by
  rw [Int.toString_eq_repr, Int.repr_eq_if]
  split
  · exact notMem_toString hc _
  · rw [String.toList_append, List.mem_append]
    rintro (hmem | hmem)
    · exact hsign (List.mem_singleton.mp hmem)
    · exact notMem_toString hc _ hmem

theorem toString_injective : Function.Injective (toString : Nat → String) := fun _ _ h =>
  Nat.repr_injective h

/-! ## Columns -/

theorem toList_alignRight (width : Nat) (s : String) :
    (alignRight width s).toList = List.replicate (width - s.length) ' ' ++ s.toList := by
  rw [alignRight, String.toList_append, String.toList_ofList]

theorem toList_alignLeft (width : Nat) (s : String) :
    (alignLeft width s).toList = s.toList ++ List.replicate (width - s.length) ' ' := by
  rw [alignLeft, String.toList_append, String.toList_ofList]

theorem filter_alignRight (width : Nat) (hs : ' ' ∉ s.toList) :
    (alignRight width s).toList.filter (· != ' ') = s.toList := by
  rw [toList_alignRight, List.filter_append, List.filter_replicate_of_neg (by decide),
    List.nil_append, List.filter_eq_self]
  intro c hc
  exact bne_iff_ne.mpr (ne_of_mem_of_not_mem hc hs)

/-- Padding adds nothing but blanks. -/
theorem notMem_alignRight (hblank : c ≠ ' ') (hc : c ∉ s.toList) (width : Nat) :
    c ∉ (alignRight width s).toList := by
  rw [toList_alignRight, List.mem_append]
  rintro (hmem | hmem)
  · exact hblank (List.eq_of_mem_replicate hmem)
  · exact hc hmem

theorem alignRight_inj (hs : ' ' ∉ s.toList) (hs' : ' ' ∉ s'.toList)
    (h : (alignRight width s).toList = (alignRight width s').toList) : s = s' := by
  rw [← String.toList_inj, ← filter_alignRight width hs, h, filter_alignRight width hs']

/-- Padding that goes on with a blank begins with one. -/
theorem alignLeft_append_blank (width : Nat) (s : String) (r : List Char) :
    (alignLeft width s).toList ++ ' ' :: r =
      s.toList ++ ' ' :: (List.replicate (width - s.length) ' ' ++ r) := by
  rw [toList_alignLeft, List.append_assoc, ← List.singleton_append, ← List.append_assoc _ [' '],
    ← List.replicate_succ', List.replicate_succ, List.cons_append]

/-- A text without blanks can be told from its padding if a blank follows. -/
theorem alignLeft_inj (hs : ' ' ∉ s.toList) (hs' : ' ' ∉ s'.toList)
    (h : (alignLeft width s).toList ++ ' ' :: r = (alignLeft width s').toList ++ ' ' :: r') :
    s = s' ∧ r = r' := by
  rw [alignLeft_append_blank, alignLeft_append_blank] at h
  obtain ⟨htext, hrest⟩ := eq_of_append_cons hs hs' h
  obtain rfl := String.toList_inj.mp htext
  exact ⟨rfl, List.append_cancel_left hrest⟩

end Playhead
