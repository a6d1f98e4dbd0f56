import Playhead.Proofs.Digits
import Playhead.Screen

/-!
# Reading times back

A time on the screen is a stamp: minutes, seconds and milliseconds in digits, with marks between.
Stamps and times correspond one to one (`Stamp.time_ofTime`, `Stamp.ofTime_time`), and so do stamps
and their texts (`Stamp.ofText?_eq_some_iff`), so that a time can be read off its text, and a text
that can be read is one that is shown. Stamps whose minutes have the same number of digits are in
the order of their times (`Stamp.text_lt_iff`).
-/

namespace Playhead

/-! ## Marks -/

section

variable {mark : Char} {s a b : List Char}

theorem eq_append_cons_of_splitOn (h : s.splitOn mark = [a, b]) : s = a ++ mark :: b := by
  have hjoined : [mark].intercalate (s.splitOn mark) = s := List.intercalate_splitOn mark
  rw [h, List.intercalate_cons_cons, List.intercalate_singleton, List.append_assoc] at hjoined
  exact hjoined.symm

/-- A mark that stands in a text once cuts it into two. -/
theorem splitOn_append_cons (ha : mark ∉ a) (hb : mark ∉ b) :
    (a ++ mark :: b).splitOn mark = [a, b] := by
  rw [List.splitOn_append_cons_self_of_not_mem ha, List.splitOn_eq_singleton hb]

end

namespace Screen

/-- A time as it is written: minutes in two digits, or in more if there are so many, seconds in two,
which stay below a minute, and milliseconds in three. -/
@[ext]
structure Stamp where
  minutes : List Char
  seconds : List Char
  millis : List Char
  minutes_digits : AllDigits minutes
  minutes_padded : IsPadded 2 minutes
  seconds_digits : AllDigits seconds
  seconds_length : seconds.length = 2
  seconds_lt : digitsValue seconds < 60
  millis_digits : AllDigits millis
  millis_length : millis.length = 3

namespace Stamp

variable {f f' : Stamp} {s : String}

/-- A stamp with its marks: a colon after the minutes and a point after the seconds. -/
def text (f : Stamp) : String :=
  String.ofList (f.minutes ++ ':' :: (f.seconds ++ '.' :: f.millis))

/-- The milliseconds that a stamp says. -/
def time (f : Stamp) : Nat :=
  digitsValue f.minutes * 60000 + digitsValue f.seconds * 1000 + digitsValue f.millis

/-- Read a stamp. Any other text is refused. -/
def ofText? (s : String) : Option Stamp :=
  match s.toList.splitOn ':' with
  | [minutes, rest] =>
    match rest.splitOn '.' with
    | [seconds, millis] =>
      if h : AllDigits minutes ∧ IsPadded 2 minutes ∧
          AllDigits seconds ∧ seconds.length = 2 ∧ digitsValue seconds < 60 ∧
          AllDigits millis ∧ millis.length = 3 then
        some ⟨minutes, seconds, millis, h.1, h.2.1, h.2.2.1, h.2.2.2.1, h.2.2.2.2.1,
          h.2.2.2.2.2.1, h.2.2.2.2.2.2⟩
      else none
    | _ => none
  | _ => none

/-- The stamp of a time. -/
def ofTime (ms : Nat) : Stamp where
  minutes := (zeroPadded 2 (ms / 1000 / 60)).toList
  seconds := (zeroPadded 2 (ms / 1000 % 60)).toList
  millis := (zeroPadded 3 (ms % 1000)).toList
  minutes_digits := allDigits_zeroPadded _ _
  minutes_padded := isPadded_zeroPadded (by decide) _
  seconds_digits := allDigits_zeroPadded _ _
  seconds_length := length_zeroPadded_of_lt (by decide) (by omega)
  seconds_lt := by
    rw [digitsValue_zeroPadded]
    omega
  millis_digits := allDigits_zeroPadded _ _
  millis_length := length_zeroPadded_of_lt (by decide) (by omega)

@[simp]
theorem minutes_ofTime (ms : Nat) :
    (ofTime ms).minutes = (zeroPadded 2 (ms / 1000 / 60)).toList := by rw [ofTime]

@[simp]
theorem seconds_ofTime (ms : Nat) :
    (ofTime ms).seconds = (zeroPadded 2 (ms / 1000 % 60)).toList := by rw [ofTime]

@[simp]
theorem millis_ofTime (ms : Nat) : (ofTime ms).millis = (zeroPadded 3 (ms % 1000)).toList := by
  rw [ofTime]

/-! ## Texts -/

theorem toList_text (f : Stamp) :
    f.text.toList = f.minutes ++ ':' :: (f.seconds ++ '.' :: f.millis) := String.toList_ofList

theorem text_ofTime (ms : Nat) : (ofTime ms).text = timeText ms := by
  have hcolon : ":".toList = [':'] := by rfl
  have hpoint : ".".toList = ['.'] := by rfl
  rw [← String.toList_inj, toList_text]
  simp only [minutes_ofTime, seconds_ofTime, millis_ofTime, timeText, String.toList_append, hcolon,
    hpoint, List.append_assoc, List.cons_append, List.nil_append]

theorem ofText?_text (f : Stamp) : ofText? f.text = some f := by
  have hminutes : ':' ∉ f.minutes := f.minutes_digits.notMem rfl
  have hrest : ':' ∉ f.seconds ++ '.' :: f.millis := by
    simp only [List.mem_append, List.mem_cons, not_or]
    exact ⟨f.seconds_digits.notMem rfl, by decide, f.millis_digits.notMem rfl⟩
  have hseconds : '.' ∉ f.seconds := f.seconds_digits.notMem rfl
  have hmillis : '.' ∉ f.millis := f.millis_digits.notMem rfl
  rw [ofText?, toList_text]
  simp only [splitOn_append_cons hminutes hrest, splitOn_append_cons hseconds hmillis]
  exact dif_pos ⟨f.minutes_digits, f.minutes_padded, f.seconds_digits, f.seconds_length,
    f.seconds_lt, f.millis_digits, f.millis_length⟩

theorem text_of_ofText? (h : ofText? s = some f) : f.text = s := by
  -- A stamp comes out of one branch only, and there both cuts can be joined again.
  rw [← String.toList_inj, toList_text]
  unfold ofText? at h
  split at h
  · rename_i minutes rest hcut
    split at h
    · rename_i seconds millis hcut'
      split at h
      · obtain rfl := Option.some.inj h
        rw [eq_append_cons_of_splitOn hcut, eq_append_cons_of_splitOn hcut']
      · cases h
    · cases h
  · cases h

/-- Reading takes exactly the texts of stamps, and gives the stamp. -/
theorem ofText?_eq_some_iff : ofText? s = some f ↔ f.text = s :=
  ⟨text_of_ofText?, fun h => h ▸ ofText?_text f⟩

/-! ## Times -/

theorem time_ofTime (ms : Nat) : (ofTime ms).time = ms := by
  simp only [time, minutes_ofTime, seconds_ofTime, millis_ofTime, digitsValue_zeroPadded]
  omega

theorem millis_lt (f : Stamp) : digitsValue f.millis < 1000 := by
  have hlt := digitsValue_lt f.millis_digits
  rwa [f.millis_length] at hlt

/-- What stands behind the minutes is less than one of them. -/
theorem behind_lt (f : Stamp) : digitsValue f.seconds * 1000 + digitsValue f.millis < 60000 := by
  have hseconds := f.seconds_lt
  have hmillis := f.millis_lt
  omega

theorem ofTime_time (f : Stamp) : ofTime f.time = f := by
  -- No part reaches the unit above it, so dividing takes the time apart as it was put together.
  have hbelowSecond := f.millis_lt
  have hbelowMinute := f.seconds_lt
  have hminutes : f.time / 1000 / 60 = digitsValue f.minutes := by
    rw [time]
    omega
  have hseconds : f.time / 1000 % 60 = digitsValue f.seconds := by
    rw [time]
    omega
  have hmillis : f.time % 1000 = digitsValue f.millis := by
    rw [time]
    omega
  ext1
  · rw [minutes_ofTime, hminutes, ← eq_zeroPadded (by decide) f.minutes_digits f.minutes_padded]
  · rw [seconds_ofTime, hseconds,
      ← eq_zeroPadded (by decide) f.seconds_digits (.inl f.seconds_length)]
  · rw [millis_ofTime, hmillis,
      ← eq_zeroPadded (by decide) f.millis_digits (.inl f.millis_length)]

/-! ## Order -/

/-- Stamps are compared place by place as long as their colons stand at the same place. -/
theorem text_lt_iff (hminutes : f.minutes.length = f'.minutes.length) :
    f.text < f'.text ↔ f.time < f'.time := by
  have hseconds : f.seconds.length = f'.seconds.length :=
    f.seconds_length.trans f'.seconds_length.symm
  have hmillis : f.millis.length = f'.millis.length := f.millis_length.trans f'.millis_length.symm
  calc f.text < f'.text
      ↔ f.minutes < f'.minutes ∨ f.minutes = f'.minutes ∧
          (f.seconds < f'.seconds ∨ f.seconds = f'.seconds ∧ f.millis < f'.millis) := by
        rw [String.lt_iff_toList_lt, toList_text, toList_text, append_lt_append_iff hminutes,
          List.cons_lt_cons_self, append_lt_append_iff hseconds, List.cons_lt_cons_self]
    _ ↔ digitsValue f.minutes < digitsValue f'.minutes ∨
          digitsValue f.minutes = digitsValue f'.minutes ∧
            (digitsValue f.seconds < digitsValue f'.seconds ∨
              digitsValue f.seconds = digitsValue f'.seconds ∧
                digitsValue f.millis < digitsValue f'.millis) := by
        rw [lt_iff_digitsValue_lt f.minutes_digits f'.minutes_digits hminutes,
          lt_iff_digitsValue_lt f.seconds_digits f'.seconds_digits hseconds,
          lt_iff_digitsValue_lt f.millis_digits f'.millis_digits hmillis,
          digitsValue_inj f.minutes_digits f'.minutes_digits hminutes,
          digitsValue_inj f.seconds_digits f'.seconds_digits hseconds]
    _ ↔ f.time < f'.time := by
        rw [← place_lt_iff f.millis_lt f'.millis_lt, ← place_lt_iff f.behind_lt f'.behind_lt,
          time, time, Nat.add_assoc, Nat.add_assoc]

end Stamp

theorem ofText?_timeText (ms : Nat) : Stamp.ofText? (timeText ms) = some (Stamp.ofTime ms) :=
  Stamp.ofText?_eq_some_iff.mpr (Stamp.text_ofTime ms)

theorem timeText_time {f : Stamp} {s : String} (h : Stamp.ofText? s = some f) :
    timeText f.time = s := by
  rw [← Stamp.text_ofTime, Stamp.ofTime_time, Stamp.ofText?_eq_some_iff.mp h]

/-- A time that is shown can be read back, however long it is. Its text is a stamp, from which the
time can be computed, and every stamp is the text of its time; so the texts of different times
differ. Two times whose minutes have the same number of digits are in the order of their texts,
which are compared character by character. -/
theorem timeText_reads_back :
    (∀ ms, ∃ f : Stamp, Stamp.ofText? (timeText ms) = some f ∧ f.text = timeText ms ∧
      f.time = ms) ∧
    (∀ (s : String) (f : Stamp), Stamp.ofText? s = some f → timeText f.time = s) ∧
    Function.Injective timeText ∧
    ∀ (ms ms' : Nat) (f f' : Stamp), Stamp.ofText? (timeText ms) = some f →
      Stamp.ofText? (timeText ms') = some f' → f.minutes.length = f'.minutes.length →
      (timeText ms < timeText ms' ↔ ms < ms') := by
  refine ⟨fun ms => ⟨Stamp.ofTime ms, ofText?_timeText ms, Stamp.text_ofTime ms,
    Stamp.time_ofTime ms⟩, fun s f => timeText_time, ?_, ?_⟩
  · intro ms ms' h
    have hstamp : Stamp.ofTime ms = Stamp.ofTime ms' := by
      rw [← Option.some_inj, ← ofText?_timeText, h, ofText?_timeText]
    rw [← Stamp.time_ofTime ms, hstamp, Stamp.time_ofTime]
  · intro ms ms' f f' hread hread' hlength
    obtain rfl := Option.some.inj ((ofText?_timeText ms).symm.trans hread)
    obtain rfl := Option.some.inj ((ofText?_timeText ms').symm.trans hread')
    rw [← Stamp.text_ofTime, ← Stamp.text_ofTime, Stamp.text_lt_iff hlength, Stamp.time_ofTime,
      Stamp.time_ofTime]

/-- The last instant and the end of the minute before it. Where one time has minutes with a digit
more, the later one may come first. -/
theorem timeText_reads_back_at_lastMillis :
    timeText (lastMillis - 51616) = "307445734561824:59.999" ∧
    timeText lastMillis = "307445734561825:51.615" ∧
    (∃ f f' : Stamp, Stamp.ofText? "307445734561824:59.999" = some f ∧
      Stamp.ofText? "307445734561825:51.615" = some f' ∧
      f.minutes.length = 15 ∧ f'.minutes.length = 15 ∧
      timeText f.time = "307445734561824:59.999" ∧ f'.time = lastMillis ∧
      timeText (lastMillis - 51616) < timeText lastMillis) ∧
    timeText 6000000 < timeText 5999999 := by
  obtain ⟨hread, hback, -, horder⟩ := timeText_reads_back
  have hbefore : timeText (lastMillis - 51616) = "307445734561824:59.999" := by decide +kernel
  have hlast : timeText lastMillis = "307445734561825:51.615" := by decide +kernel
  have hf := ofText?_timeText (lastMillis - 51616)
  have hf' := ofText?_timeText lastMillis
  have hlength : (Stamp.ofTime (lastMillis - 51616)).minutes.length = 15 := by decide +kernel
  have hlength' : (Stamp.ofTime lastMillis).minutes.length = 15 := by decide +kernel
  obtain ⟨f', hread', -, htime⟩ := hread lastMillis
  obtain rfl := Option.some.inj (hf'.symm.trans hread')
  have hlt := (horder _ _ _ _ hf hf' (hlength.trans hlength'.symm)).mpr (by decide)
  exact ⟨hbefore, hlast, ⟨_, _, hbefore ▸ hf, hlast ▸ hf', hlength, hlength',
    hback _ _ (hbefore ▸ hf), htime, hlt⟩, by decide +kernel⟩

end Screen

end Playhead
