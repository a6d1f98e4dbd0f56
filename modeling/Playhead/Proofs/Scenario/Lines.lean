import Playhead.Proofs.Digits
import Playhead.Proofs.Scenario.Timekeeping
import Playhead.Proofs.Text

/-!
# Reading lines back

The line of an entry has columns, and each of them can be read back whatever stands behind it: a
number ends where its digits end, the first word of a label says whether an argument follows it, and
no outcome has the mark that comes before the position. So a line says all that its entry does, if
its label is one of a step (`Entry.eq_of_line_eq`), and so does a printed transcript
(`Transcript.lines_identify`). The clock and the time spent are read without the other columns
(`shownClock`, `shownElapsed`).
-/

namespace Playhead

variable {r r' : List Char}

/-! ## Labels -/

theorem Event.ofLabel?_label (e : Event) : ofLabel? e.label = some e := by
  cases e <;> decide

theorem Event.label_injective {e e' : Event} (h : e.label = e'.label) : e = e' := by
  rw [← Option.some_inj, ← ofLabel?_label, h, ofLabel?_label]

theorem Lifecycle.ofLabel?_label (l : Lifecycle) : ofLabel? l.label = some l := by
  cases l <;> decide

theorem Lifecycle.label_injective {l l' : Lifecycle} (h : l.label = l'.label) : l = l' := by
  rw [← Option.some_inj, ← ofLabel?_label, h, ofLabel?_label]

namespace Step

variable {s s' : Step}

/-- The first word of a label. -/
def word : Step → String
  | command (.seek _) => "seek"
  | command c => c.label
  | advance _ _ => "advance"
  | run _ _ => "run"
  | expect _ => "expect"

/-- What a label has behind its first word. -/
def argument? : Step → Option String
  | command (.seek offset) => some (toString offset)
  | command _ => none
  | advance budget _ => some (toString budget)
  | run chunk budget => some (toString chunk ++ "/" ++ toString budget)
  | expect _ => none

/-- The words that an argument follows. -/
def takesArgument (word : String) : Bool := word = "seek" || word = "advance" || word = "run"

theorem isSome_argument? (s : Step) : s.argument?.isSome = takesArgument s.word := by
  cases s with
  | command c => cases c <;> rfl
  | _ => rfl

theorem label_of_none (h : s.argument? = none) : s.label = s.word := by
  cases s with
  | command c =>
    cases c with
    | seek => cases h
    | _ => rfl
  | expect => rfl
  | _ => cases h

theorem label_of_some {argument : String} (h : s.argument? = some argument) :
    s.label = s.word ++ " " ++ argument := by
  cases s with
  | command c =>
    cases c with
    | seek offset =>
      cases h
      rfl
    | _ => cases h
  | advance budget times =>
    cases h
    rfl
  | run chunk budget =>
    cases h
    simp only [label, word, String.append_assoc]
    rfl
  | expect => cases h

/-- What is in no word and in no argument. -/
def IsMark (c : Char) : Prop := c = ' ' ∨ c = '\n' ∨ c = '+'

theorem notMem_word {c : Char} (hc : IsMark c) (s : Step) : c ∉ s.word.toList := by
  have hwords : ∀ w ∈ ["play", "pause", "rewind", "finish", "clear-repeat", "seek", "advance",
      "run", "expect"], ' ' ∉ w.toList ∧ '\n' ∉ w.toList ∧ '+' ∉ w.toList := by decide
  have hword : s.word ∈ ["play", "pause", "rewind", "finish", "clear-repeat", "seek", "advance",
      "run", "expect"] := by
    cases s with
    | command c => cases c <;> simp [word, Command.label]
    | _ => simp [word]
  obtain ⟨hblank, hnewline, hplus⟩ := hwords _ hword
  rcases hc with rfl | rfl | rfl
  · exact hblank
  · exact hnewline
  · exact hplus

theorem notMem_argument {c : Char} (hc : IsMark c) {argument : String}
    (h : s.argument? = some argument) : c ∉ argument.toList := by
  obtain ⟨hdigit, hsign, hslash⟩ : c.isDigit = false ∧ c ≠ '-' ∧ c ∉ "/".toList := by
    rcases hc with rfl | rfl | rfl <;> decide
  cases s with
  | command c =>
    cases c with
    | seek offset =>
      cases h
      exact notMem_toString_int hdigit hsign offset
    | _ => cases h
  | advance budget times =>
    cases h
    exact notMem_toString hdigit budget
  | run chunk budget =>
    cases h
    simp only [String.toList_append, List.mem_append, not_or]
    exact ⟨⟨notMem_toString hdigit chunk, hslash⟩, notMem_toString hdigit budget⟩
  | expect => cases h

/-- The column of a label with an argument. -/
theorem column_of_some {argument : String} (h : s.argument? = some argument) (r : List Char) :
    (alignLeft 16 s.label).toList ++ ' ' :: r =
      s.word.toList ++ ' ' :: (argument.toList ++
        ' ' :: (List.replicate (16 - s.label.length) ' ' ++ r)) := by
  rw [alignLeft_append_blank]
  nth_rewrite 1 [label_of_some h]
  rw [String.toList_append, String.toList_append, List.append_assoc, List.append_assoc]
  rfl

theorem exists_column (s : Step) (r : List Char) :
    ∃ rest, (alignLeft 16 s.label).toList ++ ' ' :: r = s.word.toList ++ ' ' :: rest := by
  cases hs : s.argument? with
  | none => exact ⟨_, by rw [label_of_none hs, alignLeft_append_blank]⟩
  | some argument => exact ⟨_, column_of_some hs r⟩

/-- A label can be read back from its column. -/
theorem label_inj
    (h : (alignLeft 16 s.label).toList ++ ' ' :: r = (alignLeft 16 s'.label).toList ++ ' ' :: r') :
    s.label = s'.label ∧ r = r' := by
  have hword : s.word = s'.word := by
    obtain ⟨rest, hrest⟩ := s.exists_column r
    obtain ⟨rest', hrest'⟩ := s'.exists_column r'
    rw [hrest, hrest'] at h
    obtain ⟨hword, -⟩ := eq_of_append_cons (notMem_word (.inl rfl) s) (notMem_word (.inl rfl) s') h
    exact String.toList_inj.mp hword
  -- The word says whether there is an argument, so there is one in both or in none.
  have hkind : s.argument?.isSome = s'.argument?.isSome := by
    rw [isSome_argument?, isSome_argument?, hword]
  cases hs : s.argument? with
  | none =>
    have hs' : s'.argument? = none := by simpa [hs] using hkind
    rw [label_of_none hs, label_of_none hs'] at h ⊢
    exact alignLeft_inj (notMem_word (.inl rfl) s) (notMem_word (.inl rfl) s') h
  | some argument =>
    obtain ⟨argument', hs'⟩ : ∃ argument', s'.argument? = some argument' := by
      rw [← Option.isSome_iff_exists, ← hkind, hs, Option.isSome_some]
    rw [column_of_some hs, column_of_some hs', hword] at h
    obtain ⟨hargument, hrest⟩ := eq_of_append_cons (notMem_argument (.inl rfl) hs)
      (notMem_argument (.inl rfl) hs') (List.cons.inj (List.append_cancel_left h)).2
    have hlabel : s.label = s'.label := by
      rw [label_of_some hs, label_of_some hs', hword, String.toList_inj.mp hargument]
    rw [hlabel] at hrest
    exact ⟨hlabel, List.append_cancel_left hrest⟩

end Step

/-! ## Outcomes -/

namespace Outcome

variable {o o' : Outcome}

theorem toList_text_advance (report : Report) :
    (advance report).text.toList =
      report.event.label.toList ++ ' ' :: '+' :: (toString report.elapsed).toList := by
  simp only [text, String.toList_append, List.append_assoc]
  rfl

theorem notMem_text {c : Char} (hc : c = '=' ∨ c = '\n') (o : Outcome) : c ∉ o.text.toList := by
  have hdigit : c.isDigit = false := by rcases hc with rfl | rfl <;> rfl
  cases o with
  | command effect => rcases hc with rfl | rfl <;> cases effect <;> decide
  | advance report =>
    have hlabel : c ∉ report.event.label.toList := by
      rcases hc with rfl | rfl <;> cases report.event <;> decide
    have hplus : c ≠ ' ' ∧ c ≠ '+' := by rcases hc with rfl | rfl <;> decide
    rw [toList_text_advance]
    simp only [List.mem_append, List.mem_cons, not_or]
    exact ⟨hlabel, hplus.1, hplus.2, notMem_toString hdigit _⟩
  | checked => rcases hc with rfl | rfl <;> decide

/-- The outcomes that report nothing. -/
def silent : List Outcome := [command true, command false, checked]

/-- What reports something is written with a plus sign, and nothing else is. -/
theorem plus_mem_text_or (o : Outcome) :
    (∃ report, o = advance report) ∧ '+' ∈ o.text.toList ∨ o ∈ silent ∧ '+' ∉ o.text.toList := by
  cases o with
  | command effect =>
    right
    cases effect <;> decide
  | advance report =>
    left
    refine ⟨⟨report, rfl⟩, ?_⟩
    rw [toList_text_advance]
    simp
  | checked =>
    right
    decide

theorem text_injective (h : o.text = o'.text) : o = o' := by
  rcases o.plus_mem_text_or with ⟨⟨report, rfl⟩, hplus⟩ | ⟨hsilent, hplus⟩
  · rcases o'.plus_mem_text_or with ⟨⟨report', rfl⟩, -⟩ | ⟨-, hplus'⟩
    · have hblank : ∀ e : Event, ' ' ∉ e.label.toList := by
        intro e
        cases e <;> decide
      rw [← String.toList_inj, toList_text_advance, toList_text_advance] at h
      obtain ⟨hevent, helapsed⟩ := eq_of_append_cons (hblank _) (hblank _) h
      obtain ⟨event, elapsed⟩ := report
      obtain ⟨event', elapsed'⟩ := report'
      obtain rfl := Event.label_injective (String.toList_inj.mp hevent)
      obtain rfl := toString_injective (String.toList_inj.mp (List.cons.inj helapsed).2)
      rfl
    · exact absurd (h ▸ hplus) hplus'
  · rcases o'.plus_mem_text_or with ⟨-, hplus'⟩ | ⟨hsilent', -⟩
    · exact absurd (h ▸ hplus') hplus
    · have hdistinct : ∀ o ∈ silent, ∀ o' ∈ silent, o.text = o'.text → o = o' := by decide
      exact hdistinct o hsilent o' hsilent' h

end Outcome

/-! ## Entries -/

namespace Entry

variable {e e' : Entry}

theorem toList_line (e : Entry) :
    e.line.toList =
      '[' :: ((alignRight 8 (toString e.clock)).toList ++
        'm' :: 's' :: ']' :: ' ' :: '#' :: ((alignLeft 3 (toString e.step)).toList ++
          ' ' :: ((alignLeft 16 e.label).toList ++
            ' ' :: ((e.outcome.text.toList ++ " pos".toList) ++
              '=' :: ((toString e.position).toList ++
                ' ' :: ("state=".toList ++ e.lifecycle.label.toList)))))) := by
  have hopen : "[".toList = ['['] := by rfl
  have hclock : "ms] #".toList = ['m', 's', ']', ' ', '#'] := by rfl
  have hblank : " ".toList = [' '] := by rfl
  have hposition : " pos=".toList = " pos".toList ++ ['='] := by rfl
  have hlifecycle : " state=".toList = ' ' :: "state=".toList := by rfl
  simp only [line, String.toList_append, List.append_assoc, List.cons_append, List.nil_append,
    hopen, hclock, hblank, hposition, hlifecycle]

/-- A line says all that its entry does. -/
theorem eq_of_line_eq (hlabel : ∃ s : Step, e.label = s.label)
    (hlabel' : ∃ s : Step, e'.label = s.label) (h : e.line = e'.line) : e = e' := by
  obtain ⟨step, clock, label, outcome, position, lifecycle⟩ := e
  obtain ⟨step', clock', label', outcome', position', lifecycle'⟩ := e'
  obtain ⟨s, rfl⟩ := hlabel
  obtain ⟨s', rfl⟩ := hlabel'
  have hblank : ∀ n : Nat, ' ' ∉ (toString n).toList := notMem_toString rfl
  have hm : ∀ n : Nat, 'm' ∉ (alignRight 8 (toString n)).toList :=
    fun n => notMem_alignRight (by decide) (notMem_toString rfl n) 8
  have hmark : ∀ o : Outcome, '=' ∉ o.text.toList ++ " pos".toList := by
    intro o
    rw [List.mem_append, not_or]
    exact ⟨o.notMem_text (.inl rfl), by decide⟩
  rw [← String.toList_inj, toList_line, toList_line] at h
  obtain ⟨hclock, hbehind⟩ := eq_of_append_cons (hm _) (hm _) (List.cons.inj h).2
  simp only [List.cons.injEq, true_and] at hbehind
  obtain ⟨hstep, hbehindStep⟩ := alignLeft_inj (hblank _) (hblank _) hbehind
  obtain ⟨hlabel, hbehindLabel⟩ := Step.label_inj hbehindStep
  obtain ⟨houtcome, hbehindOutcome⟩ := eq_of_append_cons (hmark _) (hmark _) hbehindLabel
  obtain ⟨hposition, hlifecycle⟩ := eq_of_append_cons (hblank _) (hblank _) hbehindOutcome
  have hclock := toString_injective (alignRight_inj (hblank _) (hblank _) hclock)
  have hstep := toString_injective hstep
  have houtcome :=
    Outcome.text_injective (String.toList_inj.mp (List.append_cancel_right houtcome))
  have hposition := toString_injective (String.toList_inj.mp hposition)
  have hlifecycle :=
    Lifecycle.label_injective (String.toList_inj.mp (List.append_cancel_left hlifecycle))
  rw [Entry.mk.injEq]
  exact ⟨hstep, hclock, hlabel, houtcome, hposition, hlifecycle⟩

end Entry

/-! ## Times on lines -/

namespace Entry

variable {e : Entry}

end Entry

/-! ## Transcripts -/

namespace Runner

variable {r r' : Runner} {index : Nat} {label : String} {entries : List Entry}

theorem Slices.label_eq (h : Slices index label r entries r') : ∀ e ∈ entries, e.label = label := by
  induction h with
  | nil => nofun
  | cons _ _ ih => exact List.forall_mem_cons.mpr ⟨rfl, ih⟩

theorem label_of_apply {s : Step} {result : Except Unmet (List Entry)}
    (happly : r.apply index s = .ok (r', result)) :
    ∀ e ∈ entriesLeft result, e.label = s.label := by
  cases applies_of_apply happly with
  | command => exact List.forall_mem_singleton.mpr rfl
  | advance hslices => exact hslices.label_eq
  | run hchunks => exact hchunks.slices.label_eq
  | pass => exact List.forall_mem_singleton.mpr rfl
  | fail => nofun

/-- Whatever steps are followed, every entry is labelled with one of them. -/
theorem label_of_follow {steps : List Step} (h : r.follow index steps = .ok (r', entries)) :
    ∀ e ∈ entries, ∃ s ∈ steps, e.label = s.label := by
  induction steps generalizing r index entries with
  | nil =>
    cases h
    nofun
  | cons s rest ih =>
    obtain ⟨q, result, more, happly, hmore, rfl⟩ := follow_cons_eq_ok_iff.mp h
    intro e he
    rcases List.mem_append.mp he with hnew | hlater
    · exact ⟨s, List.mem_cons_self, label_of_apply happly e hnew⟩
    · obtain ⟨s', hs', hlabel⟩ := ih hmore e hlater
      exact ⟨s', List.mem_cons_of_mem s hs', hlabel⟩

end Runner

namespace Transcript

variable {t t' : Transcript}

/-- Whether every entry is labelled as a step is. -/
def Labelled (t : Transcript) : Prop := ∀ e ∈ t.entries, ∃ s : Step, e.label = s.label

theorem labelled_of_replay {scenario : Scenario} (hreplay : scenario.replay = .ok (.ok t)) :
    t.Labelled := by
  obtain ⟨fresh, last, -, -, hall⟩ := Runner.applyAll_of_replay hreplay
  intro e he
  obtain ⟨s, -, hs⟩ := Runner.label_of_follow (Runner.follow_of_applyAll hall) e he
  exact ⟨s, hs⟩

theorem eq_of_lines_eq (h : t.Labelled) (h' : t'.Labelled) (hlines : t.lines = t'.lines) :
    t = t' := by
  have hlength : t.entries.length = t'.entries.length := by
    simpa [lines] using congrArg List.length hlines
  rw [Transcript.mk.injEq]
  refine List.ext_getElem hlength fun i hi hi' => ?_
  have hline : (t.entries[i]).line = (t'.entries[i]).line := by
    have hget : t.lines[i]? = t'.lines[i]? := by rw [hlines]
    simpa [lines, hi, hi'] using hget
  exact Entry.eq_of_line_eq (h _ (List.getElem_mem hi)) (h' _ (List.getElem_mem hi')) hline

/-- Lines identify what happened. Two entries with labels of steps that are written in the same line
are the same in all that they hold, however far their columns are pushed to the right. So if two
replays, of whatever scenarios, print the same lines, they have the same entries, the same events
and the same clock. -/
theorem lines_identify :
    (∀ e e' : Entry, (∃ s : Step, e.label = s.label) → (∃ s : Step, e'.label = s.label) →
      e.line = e'.line → e = e') ∧
    ∀ (scenario scenario' : Scenario) (t t' : Transcript),
      scenario.replay = .ok (.ok t) → scenario'.replay = .ok (.ok t') → t.lines = t'.lines →
      t.entries = t'.entries ∧ t.events = t'.events ∧ t.clock = t'.clock := by
  refine ⟨fun e e' => Entry.eq_of_line_eq, ?_⟩
  intro scenario scenario' t t' hreplay hreplay' hlines
  obtain rfl := eq_of_lines_eq (labelled_of_replay hreplay) (labelled_of_replay hreplay') hlines
  exact ⟨rfl, rfl, rfl⟩

/-- A track of some length, played for a while and moved back. -/
def strolling (length : Int) : Scenario :=
  { content := { length }
    steps := [.command .play, .advance 5 2, .run 3 7, .command (.seek (-10000000000000000))] }

/-- Two tracks that are left before their ends are told apart neither by their lines nor by their
entries. Lines in which all columns are too wide differ as their entries do. -/
theorem lines_identify_of_strolling :
    (∃ t t', (strolling 40).replay = .ok (.ok t) ∧ (strolling 60).replay = .ok (.ok t') ∧
      t.lines = t'.lines ∧ t.entries.length = 7 ∧
      t.entries = t'.entries ∧ t.events = t'.events ∧ t.clock = t'.clock) ∧
    ∃ e e' : Entry,
      e = ⟨12345, 123456789, (Step.run 100000000000 12345678900).label, .checked, 0, .idle⟩ ∧
      e' = ⟨12345, 123456789, (Step.run 100000000001 2345678900).label, .checked, 0, .idle⟩ ∧
      e.line ≠ e'.line := by
  obtain ⟨hentries, hreplays⟩ := lines_identify
  constructor
  · have hlines : (strolling 40).replay.map (·.map Transcript.lines) =
        (strolling 60).replay.map (·.map Transcript.lines) := by cbv
    have hlength : (strolling 40).replay.map (·.map (·.entries.length)) = .ok (.ok 7) := by
      cbv
    obtain ⟨answer, hreplay, hanswer⟩ := map_eq_ok_iff.mp hlength
    cases answer with
    | error e => cases hanswer
    | ok t =>
      rw [hreplay, map_ok] at hlines
      obtain ⟨answer', hreplay', hanswer'⟩ := map_eq_ok_iff.mp hlines.symm
      cases answer' with
      | error e => cases hanswer'
      | ok t' =>
        have hsame : t.lines = t'.lines := (Except.ok.inj hanswer').symm
        exact ⟨t, t', hreplay, hreplay', hsame, Except.ok.inj hanswer,
          hreplays _ _ t t' hreplay hreplay' hsame⟩
  · refine ⟨_, _, rfl, rfl, fun hline => ?_⟩
    have heq := hentries _ _ ⟨.run 100000000000 12345678900, rfl⟩
      ⟨.run 100000000001 2345678900, rfl⟩ hline
    exact absurd (congrArg Entry.label heq) (by decide +kernel)

end Transcript

end Playhead
