import Playhead.Proofs.Player.Bounds
import Playhead.Proofs.Scenario.Soaking

/-!
# The ranges that a soak draws from

Steps and seeks of a soak are drawn from ranges that grow with the window. The longest step always
fits its word. The farthest seek goes a quarter beyond the window, and for that a signed word may
have no room although it has room for the window (`Soak.Overfull`). Then a soak comes to a stop as
soon as it is to draw a seek; all other windows have ranges to draw from (`Soak.draws_in_range`).
-/

namespace Playhead

namespace Draw

variable {σ : Type} {next : σ → UInt32 × σ} {draw : σ → Nat × σ} {s s' : σ}
  {width bound most n : Nat} {low high x : Int} {drawn : Nat × σ}

/-- The state of a source of words that `count` words were taken from. -/
def after (draw : σ → Nat × σ) : Nat → σ → σ
  | 0, s => s
  | count + 1, s => after draw count (draw s).2

/-- Whether the next word is refused when a number below `bound` is drawn. -/
def Refuses (draw : σ → Nat × σ) (width bound : Nat) (s : σ) : Prop :=
  zone width bound < (draw s).1 * bound % (1 <<< width)

/-- What is drawn from a source of words. -/
inductive Yields (draw : σ → Nat × σ) (width bound : Nat) : σ → Nat × σ → Prop
  | accept {s : σ} (haccept : ¬Refuses draw width bound s) :
      Yields draw width bound s (((draw s).1 * bound) >>> width, (draw s).2)
  | refuse {s : σ} {drawn : Nat × σ} (hrefuse : Refuses draw width bound s)
      (hrest : Yields draw width bound (draw s).2 drawn) : Yields draw width bound s drawn

theorem below?_of_refuses (h : Refuses draw width bound s) :
    below? draw width bound s = below? draw width bound (draw s).2 := by
  rw [below?]
  exact if_neg (Nat.not_le.mpr h)

theorem yields_of_below? (h : below? draw width bound s = some drawn) :
    Yields draw width bound s drawn := by
  refine below?.partial_correctness draw width bound (Yields draw width bound) ?_ s drawn h
  intro rest hrest s drawn hdrawn
  dsimp only at hdrawn
  split at hdrawn
  · next haccept =>
    cases hdrawn
    exact .accept (Nat.not_lt.mpr haccept)
  · next hrefuse => exact .refuse (Nat.lt_of_not_le hrefuse) (hrest _ _ hdrawn)

theorem Yields.exists_accept (h : Yields draw width bound s drawn) :
    ∃ count, ¬Refuses draw width bound (after draw count s) := by
  induction h with
  | accept haccept => exact ⟨0, haccept⟩
  | refuse _ _ ih =>
    obtain ⟨count, haccept⟩ := ih
    exact ⟨count + 1, haccept⟩

/-- A draw goes on for ever just if every word that it may come to is refused. -/
theorem below?_eq_none_iff :
    below? draw width bound s = none ↔
      ∀ count, Refuses draw width bound (after draw count s) := by
  constructor
  · intro hnone count
    induction count generalizing s with
    | zero =>
      by_contra haccept
      cases hnone.symm.trans (below?_of_le rfl (Nat.not_lt.mp haccept))
    | succ count ih =>
      have hrefuse : Refuses draw width bound s := by
        by_contra haccept
        cases hnone.symm.trans (below?_of_le rfl (Nat.not_lt.mp haccept))
      exact ih ((below?_of_refuses hrefuse).symm.trans hnone)
  · intro hrefuses
    cases hbelow : below? draw width bound s with
    | none => rfl
    | some drawn =>
      obtain ⟨count, haccept⟩ := (yields_of_below? hbelow).exists_accept
      exact absurd (hrefuses count) haccept

/-- Whether all words are refused that a number below `bound` could be drawn with. -/
def GivesUp (next : σ → UInt32 × σ) (bound : Nat) (s : σ) : Prop :=
  ∀ count, Refuses (doubleWord next) 64 bound (after (doubleWord next) count s)

theorem doubleWord_lt (s : σ) : (doubleWord next s).1 < 1 <<< 64 := by
  have hlow := (next s).1.toNat_lt
  have hhigh := (next (next s).2).1.toNat_lt
  simp only [doubleWord, UInt32.size]
  omega

/-- Whatever words are refused before, the number that is drawn is below its bound. -/
theorem Yields.lt (hdraw : ∀ s, (draw s).1 < 1 <<< width) (hbound : 0 < bound)
    (h : Yields draw width bound s drawn) : drawn.1 < bound := by
  induction h with
  | accept =>
    rw [Nat.shiftRight_eq_div_pow, Nat.div_lt_iff_lt_mul (Nat.two_pow_pos width), Nat.mul_comm,
      ← Nat.one_shiftLeft]
    exact Nat.mul_lt_mul_of_pos_left (hdraw _) hbound
  | refuse _ _ ih => exact ih

theorem le_of_upTo? (h : upTo? next most s = some (n, s')) : n ≤ most :=
  Nat.le_of_lt_succ ((yields_of_below? h).lt doubleWord_lt (Nat.succ_pos most))

theorem mem_of_between? (hle : low ≤ high) (h : between? next low high s = some (x, s')) :
    low ≤ x ∧ x ≤ high := by
  obtain ⟨⟨n, u⟩, hbelow, heq⟩ := Option.map_eq_some_iff.mp h
  cases heq
  have hlt := (yields_of_below? hbelow).lt doubleWord_lt (by omega)
  dsimp only at hlt
  omega

theorem upTo?_eq_none_iff : upTo? next most s = none ↔ GivesUp next (most + 1) s :=
  below?_eq_none_iff

theorem between?_eq_none_iff :
    between? next low high s = none ↔ GivesUp next (high - low + 1).toNat s := by
  rw [between?, Option.map_eq_none_iff]
  exact below?_eq_none_iff

end Draw

namespace Soak

/-- Windows that fit a signed word while what lies a quarter beyond them does not. -/
def Overfull (span : Nat) : Prop := 7378697629483820646 < span ∧ span ≤ greatestSigned.toNat

instance (span : Nat) : Decidable (Overfull span) := inferInstanceAs (Decidable (_ ∧ _))

/-- The offset of the farthest seek back, a quarter of a reach. -/
def lowest (span : Nat) : Int := -(reach span / 4 : Nat)

/-- The offset of the farthest seek ahead, a reach and a quarter. -/
def highest (span : Nat) : Int := reach span + (reach span / 4 : Nat)

theorem span_le (p : Params) : span p ≤ lastMillis := by
  cases hlast : p.last? with
  | none =>
    rw [span, hlast, Option.map_none, Option.getD_none]
    decide
  | some last =>
    have hle := Params.last_le_lastMillis hlast
    rw [span_eq hlast]
    simp only [lastMillis, UInt64.size] at hle ⊢
    omega

theorem longestStep_lt {span : Nat} (h : span ≤ lastMillis) :
    longestStep span + 1 < UInt64.size := by
  simp only [lastMillis, UInt64.size] at h
  simp only [longestStep, UInt64.size]
  omega

/-- The distance that seeks are scaled by is the window, or a quarter of what words have. -/
theorem reach_eq (span : Nat) :
    span ≤ 9223372036854775807 ∧ reach span = span ∨
      9223372036854775807 < span ∧ reach span = 4611686018427387903 := by
  have hmax : greatestSigned.toNat = 9223372036854775807 := by decide
  rw [reach, hmax]
  by_cases hfits : span ≤ 9223372036854775807
  · exact .inl ⟨hfits, if_pos hfits⟩
  · exact .inr ⟨Nat.lt_of_not_le hfits, if_neg hfits⟩

theorem lowest_le (span : Nat) : leastSigned ≤ lowest span ∧ lowest span ≤ highest span := by
  have hreach := reach_eq span
  simp only [lowest, highest, leastSigned]
  omega

theorem highest_le_iff (span : Nat) : highest span ≤ greatestSigned ↔ ¬Overfull span := by
  have hreach := reach_eq span
  simp only [Overfull, highest, greatestSigned]
  omega

theorem fitsSigned_highest_iff (span : Nat) :
    fitsSigned (highest span) = true ↔ ¬Overfull span := by
  obtain ⟨hleast, hle⟩ := lowest_le span
  rw [← highest_le_iff, fitsSigned, Bool.and_eq_true, decide_eq_true_eq, decide_eq_true_eq]
  exact and_iff_right (hleast.trans hle)

theorem seekBounds_of_room {span : Nat} (h : ¬Overfull span) :
    seekBounds span = .ok (lowest span, highest span) := by
  have hsum : addSigned (reach span) (reach span / 4 : Nat) = .ok (highest span) :=
    if_pos ((fitsSigned_highest_iff span).mpr h)
  rw [seekBounds, hsum]
  rfl

theorem seekBounds_of_overfull {span : Nat} (h : Overfull span) :
    seekBounds span = .error .overflow := by
  have hsum : addSigned (reach span) (reach span / 4 : Nat) = .error .overflow :=
    if_neg fun hfits => (fitsSigned_highest_iff span).mp hfits h
  rw [seekBounds, hsum]
  rfl

section

variable {σ : Type} {next : σ → UInt32 × σ} {source source' : σ} {span choice : Nat}

/-- What is drawn for each choice. -/
theorem draw_of_choice (span : Nat)
    (hchoice : Draw.choice? next 100 source = some (choice, source')) :
    draw next span source =
      if choice < 55 then
        (orEndless (Draw.upTo? next (longestStep span) source')).map
          fun (budget, s) => (.advance budget, s)
      else if choice < 65 then .ok (.command .play, source')
      else if choice < 72 then .ok (.command .pause, source')
      else if choice < 78 then .ok (.command .rewind, source')
      else if choice < 82 then .ok (.command .finish, source')
      else if choice < 94 then
        seekBounds span >>= fun (low, high) =>
          (orEndless (Draw.between? next low high source')).map
            fun (offset, s) => (.command (.seek offset), s)
      else .ok (.command .clearRepeat, source') := by
  rw [draw, hchoice]
  rfl

/-- Steps and seeks that are drawn come from their ranges. -/
theorem drawn_from_range {a : Action} (h : draw next span source = .ok (a, source')) :
    match a with
    | .advance budget => ∃ s, Draw.upTo? next (longestStep span) s = some (budget, source')
    | .command (.seek offset) =>
      ¬Overfull span ∧
        ∃ s, Draw.between? next (lowest span) (highest span) s = some (offset, source')
    | .command _ => True := by
  obtain ⟨⟨choice, s⟩, hchoice, -⟩ := bind_eq_ok_iff.mp h
  rw [draw_of_choice span (orEndless_eq_ok_iff.mp hchoice)] at h
  split_ifs at h
  · obtain ⟨⟨budget, _⟩, hdraw, heq⟩ := map_eq_ok_iff.mp h
    cases heq
    exact ⟨s, orEndless_eq_ok_iff.mp hdraw⟩
  · cases h
    trivial
  · cases h
    trivial
  · cases h
    trivial
  · cases h
    trivial
  · obtain ⟨⟨low, high⟩, hbounds, hdrawn⟩ := bind_eq_ok_iff.mp h
    obtain ⟨⟨offset, _⟩, hdraw, heq⟩ := map_eq_ok_iff.mp hdrawn
    cases heq
    have hroom : ¬Overfull span := fun hover =>
      nomatch hbounds.symm.trans (seekBounds_of_overfull hover)
    cases hbounds.symm.trans (seekBounds_of_room hroom)
    exact ⟨hroom, s, orEndless_eq_ok_iff.mp hdraw⟩
  · cases h
    trivial

/-- Where there is room for its seeks, a draw fails only if the words for its number are refused,
and then it goes on for ever. -/
theorem draw_eq_error_iff {fault : Fault} (hroom : ¬Overfull span)
    (hchoice : Draw.choice? next 100 source = some (choice, source')) :
    draw next span source = .error fault ↔
      fault = .endless ∧
        (choice < 55 ∧ Draw.GivesUp next (longestStep span + 1) source' ∨
        82 ≤ choice ∧ choice < 94 ∧
          Draw.GivesUp next (highest span - lowest span + 1).toNat source') := by
  rw [draw_of_choice span hchoice, seekBounds_of_room hroom, ← Draw.upTo?_eq_none_iff,
    ← Draw.between?_eq_none_iff]
  simp only [bind_ok]
  split_ifs <;> grind [map_eq_error_iff, orEndless_eq_error_iff]

theorem draw_of_overfull (hspan : Overfull span)
    (hchoice : Draw.choice? next 100 source = some (choice, source')) (hleast : 82 ≤ choice)
    (hmost : choice < 94) : draw next span source = .error .overflow := by
  rw [draw_of_choice span hchoice, seekBounds_of_overfull hspan, if_neg (by omega),
    if_neg (by omega), if_neg (by omega), if_neg (by omega), if_neg (by omega), if_pos hmost]
  rfl

/-- A soak stops at its first action if that cannot be drawn. -/
theorem run_of_draw_eq_error {scenario : Scenario} {content : Content} {fault : Fault}
    (hcontent : scenario.content.resolve = .ok content)
    (hdraw : draw next (Soak.span (Player.ofTrack scenario.track content).params) source =
      .error fault)
    (operations : Nat) : run next scenario (operations + 1) source = .error fault := by
  have hturn : turn next (Player.ofTrack scenario.track content)
      (Soak.span (Player.ofTrack scenario.track content).params)
      { source, player := Player.ofTrack scenario.track content } = .error fault := by
    have hidle : (Player.ofTrack scenario.track content).lifecycle ≠ .failed :=
      show Lifecycle.idle ≠ .failed by decide
    rw [turn, restart, if_neg hidle]
    dsimp only
    rw [hdraw]
    rfl
  rw [run, hcontent]
  dsimp only
  rw [turns, hturn]
  rfl

end

/-- What a soak draws from, for every scenario whose content is valid.

The range of its steps always fits its word, and that of its seeks is never empty and never goes
below what a signed word has. It goes above that just for windows that are overfull, and then it
cannot be computed. For all others a draw has an answer unless all words for it are refused, and
what is drawn is in its range; with an overfull window, a soak of which the first action would be a
seek stops there. -/
theorem draws_in_range {scenario : Scenario} {content : Content}
    (hcontent : scenario.content.resolve = .ok content) :
    ∀ span, span = Soak.span (Player.ofTrack scenario.track content).params →
      longestStep span ≤ lastMillis ∧
      leastSigned ≤ lowest span ∧ lowest span ≤ highest span ∧
      (highest span ≤ greatestSigned ↔ ¬Overfull span) ∧
      (¬Overfull span → seekBounds span = .ok (lowest span, highest span)) ∧
      (Overfull span → seekBounds span = .error .overflow) ∧
      ∀ (σ : Type) (next : σ → UInt32 × σ) (source source' : σ),
        (∀ budget, draw next span source = .ok (.advance budget, source') →
          budget ≤ longestStep span) ∧
        (∀ offset, draw next span source = .ok (.command (.seek offset), source') →
          lowest span ≤ offset ∧ offset ≤ highest span) ∧
        ∀ choice, Draw.choice? next 100 source = some (choice, source') →
          (¬Overfull span → ∀ fault, draw next span source = .error fault ↔
            fault = .endless ∧
              (choice < 55 ∧ Draw.GivesUp next (longestStep span + 1) source' ∨
              82 ≤ choice ∧ choice < 94 ∧
                Draw.GivesUp next (highest span - lowest span + 1).toNat source')) ∧
          (Overfull span → 82 ≤ choice → choice < 94 →
            ∀ operations, run next scenario (operations + 1) source = .error .overflow) := by
  rintro span rfl
  have hspan := span_le (Player.ofTrack scenario.track content).params
  have hstep := longestStep_lt hspan
  have hlow := lowest_le (Soak.span (Player.ofTrack scenario.track content).params)
  refine ⟨?_, hlow.1, hlow.2, highest_le_iff _, seekBounds_of_room, seekBounds_of_overfull, ?_⟩
  · rw [lastMillis]
    omega
  intro σ next source source'
  refine ⟨?_, ?_, ?_⟩
  · intro budget hdraw
    obtain ⟨s, hdraw⟩ := drawn_from_range hdraw
    exact Draw.le_of_upTo? hdraw
  · intro offset hdraw
    obtain ⟨-, s, hdraw⟩ := drawn_from_range hdraw
    exact Draw.mem_of_between? hlow.2 hdraw
  · intro choice hchoice
    refine ⟨fun hroom fault => draw_eq_error_iff hroom hchoice, ?_⟩
    intro hover hleast hmost
    exact run_of_draw_eq_error hcontent (draw_of_overfull hover hchoice hleast hmost)

/-- Content of a length. -/
def lasting (length : Int) : Scenario := { content := { length } }

/-- The longest window that leaves room for its seeks: the farthest of them is the greatest signed
word, and it is drawn with the greatest words. -/
theorem draws_in_range_up_to_greatestSigned :
    ∃ content offset rest, (lasting 7378697629483820646).content.resolve = .ok content ∧
      span (Player.ofTrack (lasting 7378697629483820646).track content).params =
        7378697629483820646 ∧
      highest 7378697629483820646 = greatestSigned ∧ ¬Overfull 7378697629483820646 ∧
      draw listed 7378697629483820646 [3543348020, 4294967295, 4294967295] =
        .ok (.command (.seek offset), rest) ∧
      offset = greatestSigned ∧
      lowest 7378697629483820646 ≤ offset ∧ offset ≤ highest 7378697629483820646 := by
  have hcontent : (lasting 7378697629483820646).content.resolve =
      .ok { length := .finite 7378697629483820646 } := by rfl
  have hspan : (7378697629483820646 : Nat) =
      span (Player.ofTrack {} { length := .finite 7378697629483820646 }).params := by
    decide
  obtain ⟨-, -, -, hroom, -, -, hdraws⟩ := draws_in_range hcontent _ hspan
  have hgreatest : highest 7378697629483820646 = greatestSigned := by decide
  have hfits : ¬Overfull 7378697629483820646 := hroom.mp (Int.le_of_eq hgreatest)
  have hchoice : Draw.choice? listed 100 [3543348020, 4294967295, 4294967295] =
      some (82, [4294967295, 4294967295]) := by cbv
  have hoffset : Draw.between? listed (lowest 7378697629483820646) (highest 7378697629483820646)
      [4294967295, 4294967295] = some (9223372036854775807, []) := by
    have hwide : Draw.doubleWord listed [4294967295, 4294967295] = (18446744073709551615, []) := rfl
    rw [Draw.between?, Draw.below?_of_le hwide (by decide +kernel)]
    decide +kernel
  have hdraw : draw listed 7378697629483820646 [3543348020, 4294967295, 4294967295] =
      .ok (.command (.seek 9223372036854775807), []) := by
    rw [draw_of_choice _ hchoice, seekBounds_of_room hfits]
    simp only [bind_ok, hoffset]
    rfl
  obtain ⟨-, hseek, -⟩ := hdraws _ listed [3543348020, 4294967295, 4294967295] []
  obtain ⟨hlow, hhigh⟩ := hseek _ hdraw
  exact ⟨_, _, _, hcontent, hspan.symm, hgreatest, hfits, hdraw, rfl, hlow, hhigh⟩

/-- With one millisecond more, the farthest seek is no signed word any more, and a soak that is to
draw one stops. -/
theorem draws_out_of_range :
    ∃ content, (lasting 7378697629483820647).content.resolve = .ok content ∧
      span (Player.ofTrack (lasting 7378697629483820647).track content).params =
        7378697629483820647 ∧
      highest 7378697629483820647 = greatestSigned + 1 ∧
      ¬highest 7378697629483820647 ≤ greatestSigned ∧
      seeded (lasting 7378697629483820647) 1 1 = .error .overflow := by
  have hcontent : (lasting 7378697629483820647).content.resolve =
      .ok { length := .finite 7378697629483820647 } := by rfl
  have hspan : span (Player.ofTrack (lasting 7378697629483820647).track
      { length := .finite 7378697629483820647 }).params = 7378697629483820647 := by
    decide
  -- The first word of the seed chooses a seek.
  have hword : (Draw.word ChaCha.next (ChaCha.ofSeed 1)).1 * 100 % (1 <<< 32) ≤ Draw.zone 32 100 ∧
      ((Draw.word ChaCha.next (ChaCha.ofSeed 1)).1 * 100) >>> 32 = 82 := by decide +kernel
  have hchoice : Draw.choice? ChaCha.next 100 (ChaCha.ofSeed 1) =
      some (82, (Draw.word ChaCha.next (ChaCha.ofSeed 1)).2) := by
    rw [← hword.2]
    exact Draw.below?_of_le rfl hword.1
  have hover : Overfull 7378697629483820647 := by decide
  have hdraw := draw_of_overfull hover hchoice (by decide) (by decide)
  rw [← hspan] at hdraw
  exact ⟨_, hcontent, hspan, by decide, by decide, run_of_draw_eq_error hcontent hdraw 0⟩

end Soak

end Playhead
