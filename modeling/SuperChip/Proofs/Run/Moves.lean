import SuperChip.Proofs.Run.Sound

/-!
# The moves of a run

A move is the processor's or comes from outside.  Those from outside are the *stirs*:
someone acts on the keypad, or a timer ticks.  When the sound timer runs out, what the
speaker does as it beeps belongs to the stir.

A stir changes the keypad and the timers and nothing else of the machine
(`Machine.same_stir`), and it neither moves the processor on nor tells the observer
anything (`phase_stir`, `trace_stir`).  The observer hears of the processor only when it
takes over a step that is done (`trace_take`).
-/

namespace SuperChip

/-! ## Stirs -/

/-- Something others do in a run. -/
inductive Stir where
  | act (action : Keypad.Action)
  | tickDelay
  | tickSound
deriving DecidableEq

/-- A stir as a move. -/
def Stir.toMove : Stir → Run.Move
  | .act action => .act action
  | .tickDelay => .tickDelay
  | .tickSound => .tickSound

/-- A move that is not the processor's is a stir. -/
theorem Run.Move.cases (m : Move) : (∃ random, m = .proceed random) ∨ ∃ x : Stir, m = x.toMove := by
  cases m with
  | proceed random => exact .inl ⟨random, rfl⟩
  | act action => exact .inr ⟨.act action, rfl⟩
  | tickDelay => exact .inr ⟨.tickDelay, rfl⟩
  | tickSound => exact .inr ⟨.tickSound, rfl⟩

namespace Machine

variable {m : Machine} {p : Part}

/-- The machine after a stir, with a speaker that may beep. -/
def stir (speaker : Speaker) (m : Machine) : Stir → Machine
  | .act action => m.act action
  | .tickDelay => { m with clocks := m.clocks.tickDelay }
  | .tickSound =>
      let ticked := { m with clocks := m.clocks.tickSound }
      if m.clocks.sound.firesNext then speaker.onBeep.foldl act ticked else ticked

/-- The machine after stirs, one after the other. -/
def stirAll (speaker : Speaker) (m : Machine) (xs : List Stir) : Machine :=
  xs.foldl (stir speaker) m

/-- Someone who acts on the keypad reaches nothing else. -/
theorem same_act (a : Keypad.Action) (h : p ≠ .keypad) : p.Same m (m.act a) := by
  cases p with
  | keypad => exact absurd rfl h
  | _ => exact rfl

/-- Someone who acts on the keypad again and again reaches nothing else. -/
theorem same_actAll (actions : List Keypad.Action) (h : p ≠ .keypad) :
    ∀ {m : Machine}, p.Same m (actions.foldl act m) := by
  induction actions with
  | nil => exact .refl _ p
  | cons a actions ih => exact (same_act a h).trans ih

theorem registers_actAll (actions : List Keypad.Action) :
    ∀ {m : Machine}, (actions.foldl act m).registers = m.registers := by
  induction actions with
  | nil => exact rfl
  | cons a actions ih => exact ih

theorem clocks_actAll (actions : List Keypad.Action) {m : Machine} :
    (actions.foldl act m).clocks = m.clocks :=
  same_actAll (p := .clocks) actions (by decide)

/-- Others reach the keypad and the timers only. -/
theorem same_stir (speaker : Speaker) (x : Stir) (hk : p ≠ .keypad) (hc : p ≠ .clocks) :
    p.Same m (m.stir speaker x) := by
  cases x with
  | act a => exact same_act a hk
  | tickDelay => exact same_setClocks _ hc
  | tickSound =>
      unfold stir
      dsimp only
      split
      · exact (same_setClocks _ hc).trans (same_actAll _ hk)
      · exact same_setClocks _ hc

/-- Others never take back that the machine is shut down. -/
theorem isShutdown_actAll (actions : List Keypad.Action) :
    ∀ {m : Machine}, m.keypad.isShutdown = true →
      (actions.foldl act m).keypad.isShutdown = true := by
  induction actions with
  | nil => exact id
  | cons a actions ih => exact fun h => ih (Keypad.isShutdown_act a h)

/-- A machine that is shut down stays so, whatever others do. -/
theorem isShutdown_stir (speaker : Speaker) (x : Stir) (h : m.keypad.isShutdown = true) :
    (m.stir speaker x).keypad.isShutdown = true := by
  cases x with
  | act a => exact Keypad.isShutdown_act a h
  | tickDelay => exact h
  | tickSound =>
      unfold stir
      dsimp only
      split
      · exact isShutdown_actAll _ h
      · exact h

/-- Where the processor is once a run took over a step. -/
def Step.phase (s : Step) : Phase :=
  match s.ending, s.issued with
  | .done, _ => .looking
  | .failed fault, _ => .leaving (some fault)
  | .waiting, some t => .waiting t
  | .waiting, none => .looking

end Machine

/-! ## Both timers -/

namespace Clocks

/-- Two timers that tick and that nobody set so far. -/
def fresh (delayHz soundHz : UInt32) (callback : Callback) : Clocks :=
  ⟨⟨"delay", delayHz, none, 0, .ticking, 0⟩, ⟨"sound", soundHz, some callback, 0, .ticking, 0⟩⟩

/-- With ticks for both, the two timers are started at zero. -/
theorem result_start {delayHz soundHz : UInt32} (hd : delayHz ≠ 0) (hs : soundHz ≠ 0)
    (callback : Callback) :
    (start delayHz soundHz callback).result = .ok (.fresh delayHz soundHz callback) := by
  rw [start, attempt_of_ne_zero hd hs, fresh]

end Clocks

namespace Run

variable {r : Run}

/-! ## What is noted leaves the trace as it is -/

/-- The journal is not part of the trace. -/
@[simp] theorem trace_note (entries : List Journal.Entry) : (r.note entries).trace = r.trace := by
  have hn : (entries.map Happening.noted).filterMap Happening.traced? = [] := by
    rw [List.filterMap_map]
    exact List.filterMap_eq_nil_iff.mpr fun _ _ => rfl
  simp only [trace, note, Array.toList_appendList, List.filterMap_append, hn, List.append_nil]

/-- An executed instruction joins the trace at its end. -/
@[simp] theorem trace_add (h : Happening) : (r.add h).trace = r.trace ++ h.traced?.toList := by
  simp only [trace, add, Array.toList_push, List.filterMap_append]
  cases h <;> rfl

@[simp] theorem trace_actAll (actions : List Keypad.Action) : (r.actAll actions).trace = r.trace :=
  rfl

/-! ## The start -/

/-- A run begins with nothing executed. -/
theorem trace_start (m : Machine) (entry : UInt16) (speaker : Speaker) (observer : Observer) :
    (start m entry speaker observer).trace = [] := by
  have hn (entries : List Journal.Entry) :
      ((entries.map Happening.noted).toArray.toList).filterMap Happening.traced? = [] := by
    rw [List.filterMap_map]
    exact List.filterMap_eq_nil_iff.mpr fun _ _ => rfl
  unfold start
  dsimp only
  split
  · exact hn _
  · rw [trace_note, trace_note, trace_actAll, trace_add]
    exact List.append_eq_nil_iff.mpr ⟨hn _, rfl⟩

theorem speaker_start (m : Machine) (entry : UInt16) (speaker : Speaker) (observer : Observer) :
    (start m entry speaker observer).speaker = speaker := by
  unfold start
  dsimp only
  split <;> rfl

theorem observer_start (m : Machine) (entry : UInt16) (speaker : Speaker) (observer : Observer) :
    (start m entry speaker observer).observer = observer := by
  unfold start
  dsimp only
  split <;> rfl

/-- The start of a run reaches the program counter, the keypad and the timers only. -/
theorem same_start (m : Machine) (entry : UInt16) (speaker : Speaker) (observer : Observer)
    {p : Part} (hp : p ∉ [.pc, .keypad, .clocks]) :
    p.Same m (start m entry speaker observer).machine := by
  have hpc : p ≠ .pc := by grind
  have hk : p ≠ .keypad := by grind
  have hc : p ≠ .clocks := by grind
  rw [start]
  dsimp only
  split
  · exact .refl m p
  · exact ((Machine.same_setClocks _ hc).trans (Machine.same_setPc entry hpc)).trans
      (Machine.same_actAll _ hk)

/-- Where both timers have ticks a run starts them at zero, goes to its entry, and lets the
speaker act. -/
theorem start_of_ticks {m : Machine} (hd : m.settings.delayHz ≠ 0) (hs : m.settings.soundHz ≠ 0)
    (entry : UInt16) (speaker : Speaker) (observer : Observer) :
    (start m entry speaker observer).phase = .looking ∧
      (start m entry speaker observer).machine = speaker.onBoot.foldl Machine.act
        (Machine.setPc { m with
          clocks := .fresh m.settings.delayHz m.settings.soundHz speaker.callback } entry) := by
  unfold start
  dsimp only
  rw [Clocks.result_start hd hs]
  exact ⟨rfl, rfl⟩

/-! ## Moves from outside -/

/-- A stir does to the machine of a run what it does to a machine. -/
theorem machine_stir (x : Stir) : (r.move x.toMove).machine = r.machine.stir r.speaker x := by
  cases x with
  | act a => rfl
  | tickDelay => rfl
  | tickSound =>
      simp only [Stir.toMove, move, tickSound, Machine.stir]
      split <;> rfl

/-- A stir does not move the processor on. -/
theorem phase_stir (x : Stir) : (r.move x.toMove).phase = r.phase := by
  cases x with
  | act a => rfl
  | tickDelay => rfl
  | tickSound =>
      simp only [Stir.toMove, move, tickSound]
      split <;> rfl

/-- A stir executes nothing. -/
theorem trace_stir (x : Stir) : (r.move x.toMove).trace = r.trace := by
  cases x with
  | act a => rfl
  | tickDelay => rfl
  | tickSound =>
      simp only [Stir.toMove, move, tickSound]
      split
      · simp only [trace_actAll, trace_add, Happening.traced?, Option.toList_none, List.append_nil]
        rfl
      · rfl

/-! ## Moves of the processor -/

theorem proceed_of_issuing (h : r.phase = .issuing) (random : UInt8) :
    r.proceed random = r.take (r.machine.step random) := by
  rw [proceed, h]

theorem proceed_of_waiting {t : Traced} (h : r.phase = .waiting t) (random : UInt8) :
    r.proceed random = r.take (r.machine.perform random t) := by
  rw [proceed, h]

/-- Where the processor goes depends on the step alone. -/
theorem phase_take (s : Machine.Step) : (r.take s).phase = s.phase := by
  unfold take Machine.Step.phase
  cases s.ending <;> cases s.issued <;> rfl

/-- Of a step that is done its instruction joins the trace, and of no other. -/
theorem trace_take (s : Machine.Step) : (r.take s).trace = r.trace ++ s.traced.toList := by
  have hn : ({ r with machine := s.machine }.note s.entries).trace = r.trace := trace_note _
  unfold take Machine.Step.traced
  cases s.ending with
  | done =>
      cases s.issued with
      | none => exact hn.trans (List.append_nil _).symm
      | some t =>
          show ((({ r with machine := s.machine }.note s.entries).add (.executed t)).note
            (r.observer.entries t)).trace = r.trace ++ [t]
          rw [trace_note, trace_add, hn]
          rfl
  | failed fault => exact hn.trans (List.append_nil _).symm
  | waiting =>
      cases s.issued with
      | none => exact hn.trans (List.append_nil _).symm
      | some t => exact hn.trans (List.append_nil _).symm

@[simp] theorem machine_leave (fault? : Option Fault) :
    (r.leave fault?).machine = { r.machine with clocks := r.machine.clocks.stop.1 } := rfl

@[simp] theorem phase_leave (fault? : Option Fault) : (r.leave fault?).phase = .over fault? := rfl

/-- Nothing is executed at the end of a run. -/
theorem trace_leave (fault? : Option Fault) : (r.leave fault?).trace = r.trace := by
  unfold leave
  dsimp only
  rw [trace_note, trace_add, trace_note]
  exact List.append_nil _

/-! ## Moves in any case -/

/-- A run keeps its speaker and its observer. -/
theorem audience_move (mv : Move) :
    (r.move mv).speaker = r.speaker ∧ (r.move mv).observer = r.observer := by
  cases mv with
  | act a => exact ⟨rfl, rfl⟩
  | tickDelay => exact ⟨rfl, rfl⟩
  | tickSound =>
      simp only [move, tickSound]
      split <;> exact ⟨rfl, rfl⟩
  | proceed random =>
      have ht (s : Machine.Step) :
          (r.take s).speaker = r.speaker ∧ (r.take s).observer = r.observer := by
        unfold take
        split <;> exact ⟨rfl, rfl⟩
      simp only [move, proceed]
      split
      · exact ⟨rfl, rfl⟩
      · exact ht _
      · exact ht _
      · exact ⟨rfl, rfl⟩
      · exact ⟨rfl, rfl⟩

theorem speaker_move (mv : Move) : (r.move mv).speaker = r.speaker := (audience_move mv).1

theorem observer_move (mv : Move) : (r.move mv).observer = r.observer := (audience_move mv).2

theorem moves_append (ms ms' : List Move) : r.moves (ms ++ ms') = (r.moves ms).moves ms' :=
  List.foldl_append

theorem moves_append_singleton (ms : List Move) (mv : Move) :
    r.moves (ms ++ [mv]) = (r.moves ms).move mv := by
  rw [moves_append]
  rfl

theorem speaker_moves (ms : List Move) : ∀ {r : Run}, (r.moves ms).speaker = r.speaker := by
  induction ms with
  | nil => exact rfl
  | cons mv ms ih => exact ih.trans (speaker_move mv)

theorem observer_moves (ms : List Move) : ∀ {r : Run}, (r.moves ms).observer = r.observer := by
  induction ms with
  | nil => exact rfl
  | cons mv ms ih => exact ih.trans (observer_move mv)

/-- What others do, one after the other. -/
theorem moves_stirs (xs : List Stir) :
    ∀ {r : Run}, (r.moves (xs.map Stir.toMove)).machine = r.machine.stirAll r.speaker xs ∧
      (r.moves (xs.map Stir.toMove)).phase = r.phase ∧
      (r.moves (xs.map Stir.toMove)).trace = r.trace := by
  induction xs with
  | nil => exact ⟨rfl, rfl, rfl⟩
  | cons x xs ih =>
      intro r
      obtain ⟨hm, hp, ht⟩ := ih (r := r.move x.toMove)
      rw [speaker_move, machine_stir] at hm
      exact ⟨hm, hp.trans (phase_stir x), ht.trans (trace_stir x)⟩

end Run

end SuperChip
