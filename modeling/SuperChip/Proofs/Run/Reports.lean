import SuperChip.Proofs.Run.Plain

/-!
# The journal against the trace

The *reports* of a run are the entries of its journal that are for one executed instruction.
A run is *reported* when its reports are what its observer leaves of its trace: instruction by
instruction, in the order of execution, and nothing besides (`Run.Reported`).

What the machine, its timers and its speaker note is no report (`Journal.Untraced`), and an
instruction is told to the observer right when it joins the trace (`Run.Reported.executed`).  So
whatever a run does it stays reported, from its start on (`Run.reported_moves`).  If the observer
is the journal there is one report for each executed instruction, and otherwise there is none
(`Run.reports_moves`).
-/

namespace SuperChip

/-! ## Reports -/

/-- The entries that are for an executed instruction. -/
def Journal.reports (entries : List Journal.Entry) : List Journal.Entry :=
  entries.filter fun e => e.level = .trace

/-- There are no reports where none is noted. -/
theorem Journal.Untraced.reports_eq {entries : List Journal.Entry} (h : Untraced entries) :
    reports entries = [] :=
  List.filter_eq_nil_iff.mpr fun e he => by simpa using h e he

/-- All that an observer leaves in the journal is a report. -/
theorem Observer.reports_entries (o : Observer) (t : Traced) :
    Journal.reports (o.entries t) = o.entries t := by
  cases o <;> rfl

namespace Run

/-- The reports in the journal of a run. -/
def reports (r : Run) : List Journal.Entry := Journal.reports r.journal

/-- The reports of a run are what its observer leaves of its trace. -/
def Reported (r : Run) : Prop := r.reports = r.trace.flatMap r.observer.entries

variable {r : Run}

/-- What is noted comes behind all else in the journal. -/
theorem journal_note (entries : List Journal.Entry) :
    (r.note entries).journal = r.journal ++ entries := by
  have hn : (entries.map Happening.noted).filterMap Happening.entry? = entries := by
    rw [List.filterMap_map]
    exact List.filterMap_some
  simp only [journal, note, Array.toList_appendList, List.filterMap_append, hn]

theorem journal_add (x : Happening) : (r.add x).journal = r.journal ++ x.entry?.toList := by
  simp only [journal, add, Array.toList_push, List.filterMap_append]
  cases x <;> rfl

theorem reports_note (entries : List Journal.Entry) :
    (r.note entries).reports = r.reports ++ Journal.reports entries := by
  rw [reports, journal_note, Journal.reports, List.filter_append]
  rfl

/-! ## What keeps a run reported -/

namespace Reported

variable (h : r.Reported)
include h

/-- Notes of the machine and its devices change neither side. -/
theorem note {entries : List Journal.Entry} (hu : Journal.Untraced entries) :
    (r.note entries).Reported := by
  rw [Reported, reports_note, hu.reports_eq, List.append_nil, trace_note]
  exact h

/-- A call of the speaker changes neither side. -/
theorem add {x : Happening} (he : x.entry? = none) (ht : x.traced? = none) :
    (r.add x).Reported := by
  have hj : (r.add x).journal = r.journal := by
    rw [journal_add, he]
    exact List.append_nil _
  have htrace : (r.add x).trace = r.trace := by
    rw [trace_add, ht]
    exact List.append_nil _
  rw [Reported, reports, hj, htrace]
  exact h

/-- An executed instruction joins the trace, and what the observer leaves of it the reports. -/
theorem executed (t : Traced) : ((r.add (.executed t)).note (r.observer.entries t)).Reported := by
  have hj : (r.add (.executed t)).reports = r.reports := by
    rw [reports, journal_add]
    exact congrArg Journal.reports (List.append_nil _)
  have hr : r.reports = r.trace.flatMap r.observer.entries := h
  rw [Reported, reports_note, hj, Observer.reports_entries, trace_note, trace_add, hr]
  show _ = (r.trace ++ [t]).flatMap r.observer.entries
  rw [List.flatMap_append, List.flatMap_singleton]

/-- The machine and the processor are on neither side. -/
theorem elsewhere (machine : Machine) (phase : Phase) : Reported { r with machine, phase } := h

theorem take {s : Machine.Step} (hu : Journal.Untraced s.entries) : (r.take s).Reported := by
  have hn : ({ r with machine := s.machine }.note s.entries).Reported :=
    (h.elsewhere s.machine r.phase).note hu
  rw [Run.take]
  dsimp only
  split
  next t _ _ => exact (hn.executed t).elsewhere _ _
  next => exact hn.elsewhere _ _
  next => exact hn.elsewhere _ _
  next => exact hn.elsewhere _ _

/-- Behind the last instruction nothing is reported any more. -/
theorem leave (fault? : Option Fault) : (r.leave fault?).Reported := by
  have hclocks := Clocks.untraced_stop r.machine.clocks
  have hoff : Journal.Untraced (r.speaker.offEntries ++ [.stoppedAt r.machine.pc]) :=
    r.speaker.untraced_off.append (Journal.untraced_singleton rfl)
  exact (((h.elsewhere _ _).note hclocks).add (x := .off) rfl rfl).note hoff

theorem proceed (random : UInt8) : (r.proceed random).Reported := by
  rw [Run.proceed]
  split
  next => exact h.elsewhere _ _
  next => exact h.take (r.machine.untraced_step random)
  next t _ => exact h.take (r.machine.untraced_execute random t.instruction)
  next fault? _ => exact h.leave fault?
  next => exact h

theorem tickSound : r.tickSound.Reported := by
  rw [Run.tickSound]
  dsimp only
  split
  · exact ((h.elsewhere _ _).add (x := .beep) rfl rfl).elsewhere _ _
  · exact h.elsewhere _ _

/-- A run that is reported stays so, whoever moves. -/
theorem move (mv : Move) : (r.move mv).Reported := by
  cases mv with
  | proceed random => exact h.proceed random
  | act a => exact h
  | tickDelay => exact h
  | tickSound => exact h.tickSound

end Reported

/-! ## Whole runs -/

variable (m : Machine) (entry : UInt16) (speaker : Speaker) (observer : Observer)

/-- At its start a run has reported nothing, and there is nothing to report. -/
theorem reported_start : (start m entry speaker observer).Reported := by
  have hs := Clocks.untraced_start m.settings.delayHz m.settings.soundHz speaker.callback
  have hbefore (machine : Machine) (phase : Phase) {entries : List Journal.Entry}
      (hu : Journal.Untraced entries) :
      (Run.mk machine speaker observer phase
        (entries.map Happening.noted).toArray).Reported := by
    have hempty : (Run.mk machine speaker observer phase #[]).Reported := rfl
    simpa [Run.note] using hempty.note hu
  rw [start]
  dsimp only
  split
  · exact hbefore m _ hs
  · exact (((hbefore _ _ hs).add (x := .boot) rfl rfl).note speaker.untraced_boot).note
      (Journal.untraced_singleton rfl)

/-- A run is reported after any moves. -/
theorem reported_moves (ms : List Move) : ((start m entry speaker observer).moves ms).Reported := by
  have hmoves : ∀ {r : Run}, r.Reported → (r.moves ms).Reported := by
    induction ms with
    | nil => exact id
    | cons mv ms ih => exact fun h => ih (h.move mv)
  exact hmoves (reported_start m entry speaker observer)

/-- The journal has one report for each executed instruction, in their order, if it is the
observer, and it has none if it is not. -/
theorem reports_moves (ms : List Move) :
    let r := (start m entry speaker observer).moves ms
    r.reports = if observer = .journal then r.trace.map .executed else [] := by
  intro r
  have hobserver : r.observer = observer :=
    (observer_moves ms).trans (observer_start m entry speaker observer)
  have hr : r.reports = r.trace.flatMap r.observer.entries :=
    reported_moves m entry speaker observer ms
  rw [hr, hobserver]
  cases observer with
  | journal => exact List.map_eq_flatMap.symm
  | nobody | watcher => exact List.flatMap_eq_nil_iff.mpr fun _ _ => rfl

end Run

end SuperChip
