import SuperChip.Proofs.Machine.Plain
import SuperChip.Proofs.Run.Moves

/-!
# Plain runs

A run is *plain* when its machine is, when nobody is told about executed instructions, and when
no instruction was reported in its journal.  `Run.plain` makes any run plain and keeps the rest
of it: where the processor is, the speaker, and everything else that happened, in its order.

The plain run is in lockstep with the run itself (`Run.plain_moves`).  For this the machine, its
timers and its speaker must report no instruction on their own (`Journal.Untraced`): whatever
is taken out of a journal was put there for an observer.
-/

namespace SuperChip

/-! ## Journals without reports -/

/-- No entry reports an instruction. -/
def Journal.Untraced (entries : List Journal.Entry) : Prop := ∀ e ∈ entries, e.level ≠ .trace

namespace Journal

theorem untraced_nil : Untraced [] := fun _ he => absurd he List.not_mem_nil

theorem Untraced.append {es es' : List Entry} (h : Untraced es) (h' : Untraced es') :
    Untraced (es ++ es') := fun e he => (List.mem_append.mp he).elim (h e) (h' e)

theorem untraced_singleton {e : Entry} (h : (e.level == .trace) = false) : Untraced [e] :=
  fun _ he => List.mem_singleton.mp he ▸ ne_of_beq_false h

end Journal

open Journal (Untraced untraced_nil untraced_singleton)

namespace Machine

/-- A program that is put into memory is no report. -/
theorem untraced_load {m m' : Machine} {address : UInt16} {program : List UInt8}
    {entries : List Journal.Entry} (h : m.load address program = .ok (m', entries)) :
    Untraced entries := by
  rw [load] at h
  split at h
  · cases h
    exact untraced_singleton rfl
  · cases h

variable (m : Machine)

/-- A wait that was cut short is no report. -/
theorem untraced_executeWait (x : UInt8) : Untraced (m.executeWait x).entries := by
  rw [executeWait]
  split
  · exact untraced_nil
  · exact (untraced_singleton (e := .waitInterrupted) rfl).append
      (untraced_singleton (e := .keyNotRead x) rfl)
  · exact untraced_nil

/-- An instruction does not report itself. -/
theorem untraced_execute (random : UInt8) (i : Instruction) :
    Untraced (m.execute random i).entries := by
  cases i with
  | waitKey x => exact m.untraced_executeWait x
  | ret =>
      rw [execute, executeReturn]
      split <;> exact untraced_nil
  | call address =>
      rw [execute, executeCall]
      split <;> exact untraced_nil
  | draw x y n =>
      rw [execute, executeDraw]
      dsimp only
      split <;> exact untraced_nil
  | bcd x | store x =>
      rw [execute, executeWrite]
      split <;> exact untraced_nil
  | read x =>
      rw [execute, executeRead]
      split <;> exact untraced_nil
  | _ => exact untraced_nil

/-- A step reports nothing itself; only an observer does. -/
theorem untraced_step (random : UInt8) : Untraced (m.step random).entries := by
  rw [step]
  split
  · exact untraced_nil
  · split
    · exact untraced_nil
    · exact untraced_execute _ random _

end Machine

namespace Clocks

theorem untraced_finish (c : Countdown) : Untraced c.finish.2 := by
  rw [Countdown.finish]
  split
  · exact untraced_nil
  · exact untraced_singleton rfl
  · exact untraced_nil

/-- Timers that are stopped report nothing. -/
theorem untraced_stop (c : Clocks) : Untraced c.stop.2 := by
  rw [stop]
  dsimp only
  rw [Countdown.stop_eq_finish, Countdown.stop_eq_finish]
  exact ((untraced_finish c.delay).append (untraced_finish c.sound)).append
    (untraced_singleton rfl)

theorem untraced_startOne {name : String} {hz : UInt32} {callback : Option Callback}
    {c : Countdown} {entries : List Journal.Entry}
    (h : Countdown.start name hz callback = .ok (c, entries)) : Untraced entries := by
  rw [Countdown.start] at h
  split at h
  · cases h
  · cases h
    exact untraced_singleton rfl

theorem untraced_startDelay (c : Clocks) (hz : UInt32) : Untraced (c.startDelay hz).entries := by
  rw [startDelay]
  split
  · exact untraced_nil
  next h => exact untraced_startOne h

theorem untraced_startSound (c : Clocks) (hz : UInt32) (callback : Callback) :
    Untraced (c.startSound hz callback).entries := by
  rw [startSound]
  split
  · exact untraced_finish c.delay
  next h => exact untraced_startOne h

/-- Timers that are started, or cannot be, report nothing. -/
theorem untraced_start (delayHz soundHz : UInt32) (callback : Callback) :
    Untraced (start delayHz soundHz callback).entries := by
  rw [start, attempt]
  dsimp only
  split
  · exact untraced_startDelay _ delayHz
  · split
    · exact (untraced_startDelay _ delayHz).append (untraced_startSound _ soundHz callback)
    · exact (untraced_startDelay _ delayHz).append (untraced_startSound _ soundHz callback)

end Clocks

namespace Speaker

variable (s : Speaker)

theorem untraced_boot : Untraced s.bootEntries := by
  rw [bootEntries]
  split
  · exact untraced_singleton rfl
  · exact untraced_nil

theorem untraced_off : Untraced s.offEntries := by
  rw [offEntries]
  split
  · exact untraced_singleton rfl
  · exact untraced_nil

end Speaker

/-! ## Plain runs -/

/-- Whether a happening is anything but a report of an instruction. -/
def Happening.isPlain : Happening → Bool
  | .noted entry => entry.level ≠ .trace
  | _ => true

namespace Happening

/-- Where no entry is a report none is taken out. -/
theorem filter_noted {entries : List Journal.Entry} (h : Untraced entries) :
    (entries.map noted).filter isPlain = entries.map noted := by
  refine List.filter_eq_self.mpr fun x hx => ?_
  obtain ⟨e, he, rfl⟩ := List.mem_map.mp hx
  exact decide_eq_true (h e he)

/-- What an observer leaves in the journal are reports. -/
theorem filter_noted_observer (o : Observer) (t : Traced) :
    ((o.entries t).map noted).filter isPlain = [] := by
  cases o <;> rfl

end Happening

open Happening (filter_noted filter_noted_observer)

namespace Run

/-- The run with a plain machine, nobody told, and no reports. -/
def plain (r : Run) : Run :=
  { r with
    machine := r.machine.plain
    observer := .nobody
    history := r.history.filter Happening.isPlain }

variable (r : Run)

@[simp] theorem machine_plain : r.plain.machine = r.machine.plain := rfl

@[simp] theorem phase_plain : r.plain.phase = r.phase := rfl

/-! ## The history -/

/-- A plain run notes what is no report. -/
theorem plain_note {entries : List Journal.Entry} (h : Untraced entries) :
    r.plain.note entries = (r.note entries).plain := by
  simp only [note, plain, Run.mk.injEq, true_and]
  apply Array.toList_inj.mp
  simp [filter_noted h]

theorem note_nil : r.note [] = r := by
  simp [note]

/-- What an observer notes is taken out again. -/
theorem plain_note_observer (o : Observer) (t : Traced) :
    (r.note (o.entries t)).plain = r.plain := by
  simp only [note, plain, Run.mk.injEq, true_and]
  apply Array.toList_inj.mp
  simp [filter_noted_observer]

/-- What is no report happens in a plain run too. -/
theorem plain_add {x : Happening} (h : x.isPlain = true) : r.plain.add x = (r.add x).plain := by
  simp [add, plain, h]

theorem plain_actAll (actions : List Keypad.Action) :
    r.plain.actAll actions = (r.actAll actions).plain := by
  simp only [actAll, plain, Machine.plain_actAll]

/-! ## Moves -/

/-- A plain run takes over a plain step in lockstep with the run itself. -/
theorem plain_take {s : Machine.Step} (h : Untraced s.entries) :
    r.plain.take s.plain = (r.take s).plain := by
  have hn : { r.plain with machine := s.plain.machine }.note s.plain.entries =
      ({ r with machine := s.machine }.note s.entries).plain :=
    plain_note { r with machine := s.machine } h
  simp only [take, hn, Machine.Step.ending_plain, Machine.Step.issued_plain]
  split
  next t _ _ =>
    -- nobody is told by the plain run, and what the other one tells is taken out
    rw [plain_add _ rfl]
    have ht := plain_note_observer
      (({ r with machine := s.machine }.note s.entries).add (.executed t)) r.observer t
    generalize ({ r with machine := s.machine }.note s.entries).add (.executed t) = r' at ht ⊢
    show { r'.plain.note [] with phase := .looking } =
      { (r'.note (r.observer.entries t)).plain with phase := .looking }
    rw [ht, note_nil]
  next => rfl
  next => rfl
  next => rfl

/-- A plain run is left in lockstep with the run itself. -/
theorem plain_leave (fault? : Option Fault) : r.plain.leave fault? = (r.leave fault?).plain := by
  simp only [leave]
  have hoff : Untraced (r.speaker.offEntries ++ [.stoppedAt r.machine.pc]) :=
    r.speaker.untraced_off.append (untraced_singleton rfl)
  rw [← plain_note _ hoff, ← plain_add _ rfl,
    ← plain_note _ (Clocks.untraced_stop r.machine.clocks)]
  rfl

/-- The processor of a plain run goes on in lockstep with that of the run itself. -/
theorem plain_proceed (random : UInt8) : r.plain.proceed random = (r.proceed random).plain := by
  simp only [proceed, phase_plain, machine_plain, Machine.plain_step, Machine.plain_perform]
  split
  next => rfl
  next => exact r.plain_take (r.machine.untraced_step random)
  next t _ => exact r.plain_take (r.machine.untraced_execute random t.instruction)
  next fault? _ => exact r.plain_leave fault?
  next => rfl

/-- The sound of a plain run ticks in lockstep with that of the run itself. -/
theorem plain_tickSound : r.plain.tickSound = r.tickSound.plain := by
  have hf : r.plain.machine.clocks.sound.firesNext = r.machine.clocks.sound.firesNext := rfl
  simp only [tickSound, hf]
  split
  · rw [← plain_actAll, ← plain_add _ rfl]
    rfl
  · rfl

/-- A plain run moves in lockstep with the run itself. -/
theorem plain_move (mv : Move) : r.plain.move mv = (r.move mv).plain := by
  cases mv with
  | proceed random => exact r.plain_proceed random
  | act a => exact r.plain_actAll [a]
  | tickDelay => rfl
  | tickSound => exact r.plain_tickSound

/-- A plain run begins in lockstep with the run itself. -/
theorem plain_start (m : Machine) (entry : UInt16) (speaker : Speaker) (observer : Observer) :
    start m.plain entry speaker .nobody = (start m entry speaker observer).plain := by
  have hs := Clocks.untraced_start m.settings.delayHz m.settings.soundHz speaker.callback
  simp only [start, Machine.delayHz_plain, Machine.soundHz_plain]
  generalize Clocks.start m.settings.delayHz m.settings.soundHz speaker.callback = started at hs ⊢
  have hp : (started.entries.map Happening.noted).toArray.filter Happening.isPlain =
      (started.entries.map Happening.noted).toArray := by
    simp [filter_noted hs]
  cases started.result with
  | error fault => simp only [plain, hp]
  | ok clocks =>
      simp only
      rw [← plain_note _ (untraced_singleton (e := .running entry) rfl),
        ← plain_note _ speaker.untraced_boot, ← plain_actAll, ← plain_add _ rfl]
      simp only [plain, hp]
      rfl

/-- A plain run stays in lockstep with the run itself. -/
theorem plain_moves (ms : List Move) : ∀ r : Run, r.plain.moves ms = (r.moves ms).plain := by
  induction ms with
  | nil => exact fun _ => rfl
  | cons mv ms ih =>
      intro r
      show (r.plain.move mv).moves ms = ((r.move mv).moves ms).plain
      rw [plain_move, ih]

/-- The history of a plain run is the history without reports. -/
theorem toList_history_plain :
    r.plain.history.toList = r.history.toList.filter Happening.isPlain :=
  Array.toList_filter ..

end Run

end SuperChip
