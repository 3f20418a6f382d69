import SuperChip.Proofs.Run.Sound

/-!
# Sessions

A *session* is what a host has from a machine it built: the machine, and the
instruction the processor waits in, if it waits.  A session goes on by *events*.  The
host loads programs, takes single steps and whole runs, changes the surface, acts on
the keypad and sets the timers, in any order and as often as it likes, and goes on
after failures too.

A step that waits is taken up by the next step event.  A run is given by its moves,
all that happens in it.  Where the moves end before the run does, the session is in
the middle of the run, so the machines of sessions are all machines there are at any
moment.  A host has no means to load or to start a run while the processor waits.  An
event list may say so all the same, and what holds of all sessions holds of those
that do not.

Every session is sound (`Session.sound_of_reachable`).
-/

namespace SuperChip

/-! ## Events -/

/-- Something that happens to a machine that a host has. -/
inductive Event where
  /-- A program is put into memory, if it can be. -/
  | load (address : UInt16) (program : List UInt8)
  /-- The processor takes a step, or takes up the one it waits in; if it needs a random
  byte it is this one. -/
  | step (random : UInt8)
  /-- The machine is run from an address; with it comes all that happens in the run. -/
  | run (entry : UInt16) (speaker : Speaker) (observer : Observer) (moves : List Run.Move)
  /-- The host changes the surface. -/
  | change (c : Surface.Change)
  /-- Someone acts on the keypad. -/
  | act (a : Keypad.Action)
  /-- The timers become others, by a tick, by being set or by being replaced. -/
  | time (clocks : Clocks)

/-! ## Sessions -/

/-- What a host has from a machine it built. -/
structure Session where
  /-- The machine. -/
  machine : Machine
  /-- The instruction the processor waits in, if it waits. -/
  parked : Option Traced

namespace Session

/-- The session of a machine before anything happened. -/
def start (m : Machine) : Session := ⟨m, none⟩

/-- What a step event comes to: a step from its start, or what it waits in once more. -/
def proceed (s : Session) (random : UInt8) : Machine.Step :=
  match s.parked with
  | none => s.machine.step random
  | some t => s.machine.perform random t

/-- The session behind a step. -/
def ofStep (step : Machine.Step) : Session :=
  ⟨step.machine, if step.ending = .waiting then step.issued else none⟩

/-- The session in a run. -/
def ofRun (r : Run) : Session :=
  ⟨r.machine,
    match r.phase with
    | .waiting t => some t
    | _ => none⟩

/-- The session behind an event. -/
def next (s : Session) : Event → Session
  | .load address program =>
      match s.machine.load address program with
      | .ok (machine, _) => { s with machine }
      | .error _ => s
  | .step random => ofStep (s.proceed random)
  | .run entry speaker observer moves =>
      ofRun ((Run.start s.machine entry speaker observer).moves moves)
  | .change c => { s with machine := s.machine.change c }
  | .act a => { s with machine := s.machine.act a }
  | .time clocks => { s with machine := { s.machine with clocks } }

/-- The session behind events, one after the other. -/
def after (s : Session) (events : List Event) : Session := events.foldl next s

/-- A session that begins with a new machine of some settings. -/
inductive Reachable (settings : Settings) : Session → Prop where
  | start {m : Machine} (h : Machine.build settings = .ok m) : Reachable settings (start m)
  | next {s : Session} (h : Reachable settings s) (e : Event) : Reachable settings (s.next e)

end Session

/-- A machine of some settings that a session can have, at any moment. -/
def Machine.Reachable (settings : Settings) (m : Machine) : Prop :=
  ∃ parked, Session.Reachable settings ⟨m, parked⟩

variable {settings : Settings}

namespace Session

/-! ## Loading -/

/-- A machine that was loaded differs from before in memory, which keeps its size. -/
theorem load_eq_ok {m m' : Machine} {address : UInt16} {program : List UInt8}
    {entries : List Journal.Entry} (h : m.load address program = .ok (m', entries)) :
    ∃ ram, m.ram.write address program = .ok ram ∧ m' = { m with ram } := by
  unfold Machine.load at h
  split at h
  next ram hr =>
    cases h
    exact ⟨ram, Ram.write_of_load hr, rfl⟩
  next => cases h

/-- Loading writes the program into memory, or it leaves all as it is. -/
theorem next_load (s : Session) (address : UInt16) (program : List UInt8) :
    (∃ ram, s.machine.ram.write address program = .ok ram ∧
      s.next (.load address program) = { s with machine := { s.machine with ram } }) ∨
      s.next (.load address program) = s := by
  rw [next]
  split
  next hl =>
    obtain ⟨ram, hr, rfl⟩ := load_eq_ok hl
    exact .inl ⟨ram, hr, rfl⟩
  next => exact .inr rfl

theorem registers_next_load (s : Session) (address : UInt16) (program : List UInt8) :
    (s.next (.load address program)).machine.registers = s.machine.registers := by
  rcases s.next_load address program with ⟨ram, -, he⟩ | he <;> rw [he]

theorem parked_next_load (s : Session) (address : UInt16) (program : List UInt8) :
    (s.next (.load address program)).parked = s.parked := by
  rcases s.next_load address program with ⟨ram, -, he⟩ | he <;> rw [he]

end Session

namespace Machine

theorem Sound.setRam {m : Machine} (h : m.Sound settings) {ram : Ram} (hr : ram.size = m.ram.size) :
    Sound { m with ram } settings where
  checked := h.checked
  settings_eq := h.settings_eq
  size := hr.trans h.size
  stack := by
    show m.registers.stack.Within settings.stackDepth ram.size
    rw [hr]
    exact h.stack
  index_lt := lt_of_lt_of_eq h.index_lt hr.symm
  full := h.full

theorem Sound.change {m : Machine} (h : m.Sound settings) (c : Surface.Change) :
    (m.change c).Sound settings :=
  ⟨h.checked, h.settings_eq, h.size, h.stack, h.index_lt, Surface.full_change h.full c⟩

end Machine

namespace Session

/-! ## The invariant -/

/-- The machine of a session is sound, and what the processor waits in can be taken up. -/
structure Sound (s : Session) (settings : Settings) : Prop where
  machine : s.machine.Sound settings
  ready : ∀ t, s.parked = some t → s.machine.Ready t

theorem sound_start {m : Machine} (h : m.Sound settings) : (start m).Sound settings := by
  refine ⟨h, ?_⟩
  intro t ht
  cases ht

/-- Behind a step that waits the processor waits in what the step has issued. -/
theorem parked_ofStep_eq_some_iff {step : Machine.Step} {t : Traced} :
    (ofStep step).parked = some t ↔ step.ending = .waiting ∧ step.issued = some t := by
  rw [ofStep]
  by_cases hw : step.ending = .waiting <;> simp [hw]

theorem sound_ofStep {step : Machine.Step} (hs : step.machine.Sound settings)
    (hr : ∀ t, step.issued = some t → step.machine.Ready t) : (ofStep step).Sound settings :=
  ⟨hs, fun t ht => hr t (parked_ofStep_eq_some_iff.mp ht).2⟩

theorem sound_ofRun {r : Run} (h : r.Sound settings) : (ofRun r).Sound settings := by
  refine ⟨h.machine, fun t ht => ?_⟩
  unfold ofRun at ht
  dsimp only at ht
  split at ht
  next hp =>
    cases ht
    exact h.ready t hp
  · cases ht

namespace Sound

variable {s : Session} (h : s.Sound settings)
include h

theorem proceed (random : UInt8) : (ofStep (s.proceed random)).Sound settings := by
  unfold Session.proceed
  split
  next => exact sound_ofStep (h.machine.step random) fun _ ht => h.machine.ready_step ht
  next t hp =>
    have hr := h.ready t hp
    refine sound_ofStep (h.machine.perform hr random) fun _ ht => ?_
    cases ht
    exact h.machine.ready_perform hr random

theorem load (address : UInt16) (program : List UInt8) :
    (s.next (.load address program)).Sound settings := by
  rcases s.next_load address program with ⟨ram, hr, he⟩ | he
  · have hsize := Ram.size_write hr
    rw [he]
    refine ⟨h.machine.setRam hsize, fun t ht => ⟨(h.ready t ht).standsFor, ?_⟩⟩
    exact lt_of_lt_of_eq (h.ready t ht).pc_lt hsize.symm
  · rw [he]
    exact h

/-- A session stays sound, whatever happens. -/
theorem next (e : Event) : (s.next e).Sound settings := by
  cases e with
  | load address program => exact h.load address program
  | step random => exact h.proceed random
  | run entry speaker observer moves =>
      exact sound_ofRun ((Run.sound_start h.machine entry speaker observer).moves moves)
  | change c =>
      exact ⟨h.machine.change c, fun t ht => ⟨(h.ready t ht).standsFor, (h.ready t ht).pc_lt⟩⟩
  | act a =>
      exact ⟨h.machine.act a, fun t ht => ⟨(h.ready t ht).standsFor, (h.ready t ht).pc_lt⟩⟩
  | time clocks =>
      exact ⟨h.machine.setClocks clocks,
        fun t ht => ⟨(h.ready t ht).standsFor, (h.ready t ht).pc_lt⟩⟩

end Sound

theorem sound_of_reachable {s : Session} (h : s.Reachable settings) : s.Sound settings := by
  induction h with
  | start hb => exact sound_start (Machine.sound_build hb)
  | next _ e ih => exact ih.next e

theorem Reachable.after (events : List Event) :
    ∀ {s : Session}, s.Reachable settings → (s.after events).Reachable settings := by
  induction events with
  | nil => exact id
  | cons e events ih => exact fun h => ih (h.next e)

end Session

theorem Machine.Reachable.sound {m : Machine} (h : Machine.Reachable settings m) :
    m.Sound settings := by
  obtain ⟨parked, hs⟩ := h
  exact (Session.sound_of_reachable hs).machine

/-! ## Addresses stay in memory -/

/-- The taken slots of a call stack hold addresses in memory. -/
theorem CallStack.Within.slot_lt {s : CallStack} {slots size : Nat} (h : s.Within slots size)
    {k : Nat} (hk : k < s.used) : ∃ a, s.slots[k]? = some a ∧ a.toNat < size := by
  have hl : k < s.slots.size := Nat.lt_of_lt_of_le hk h.fits
  refine ⟨s.slots[k], Array.getElem?_eq_getElem hl, h.frames_lt _ ?_⟩
  rw [frames, List.mem_take_iff_getElem]
  refine ⟨k, ?_, Array.getElem_toList hl⟩
  rw [Array.length_toList]
  omega

namespace Session

/-- Once a word was fetched, and also while the processor waits, a step leaves the
program counter in memory. -/
theorem Sound.pc_step_lt {s : Session} (h : s.Sound settings) (random : UInt8)
    (hf : s.parked.isSome ∨ ∃ w, s.machine.Fetches w) :
    (s.next (.step random)).machine.pc.toNat < settings.memorySize := by
  obtain ⟨m, parked⟩ := s
  have hsize : m.ram.size = settings.memorySize := h.machine.size
  cases parked with
  | none =>
      rcases hf with ho | ⟨w, hw⟩
      · cases ho
      · exact lt_of_lt_of_eq (h.machine.pc_step_lt hw random) hsize
  | some t =>
      have hr := h.ready t rfl
      exact lt_of_lt_of_eq (h.machine.pc_execute_lt hr.pc_lt random t.instruction) hsize

/-- In every session of a machine with accepted settings the address register and the
return addresses of open calls point into memory, the call stack has the slots that
were asked for and no more of them are taken, and a step that has fetched a word leaves
the program counter in memory. -/
theorem addresses_in_memory {settings : Settings} (hc : settings.check = .ok ()) :
    ∃ m, Machine.build settings = .ok m ∧ ∀ events : List Event,
      let s := (start m).after events
      let stack := s.machine.registers.stack
      s.machine.ram.size = settings.memorySize ∧
        s.machine.index.toNat < settings.memorySize ∧
        stack.used ≤ settings.stackDepth ∧
        stack.slots.size = settings.stackDepth ∧
        (∀ k < stack.used, ∃ a, stack.slots[k]? = some a ∧ a.toNat < settings.memorySize) ∧
        ∀ random, (s.parked.isSome ∨ ∃ w, s.machine.Fetches w) →
          (s.next (.step random)).machine.pc.toNat < settings.memorySize := by
  obtain ⟨m, hb⟩ := Machine.exists_build hc
  refine ⟨m, hb, fun events => ?_⟩
  have h := sound_of_reachable (Reachable.after events (.start hb))
  have hsize := h.machine.size
  have hstack := h.machine.stack
  rw [hsize] at hstack
  refine ⟨hsize, ?_, ?_, hstack.depth, fun k hk => hstack.slot_lt hk, h.pc_step_lt⟩
  · exact lt_of_lt_of_eq h.machine.index_lt hsize
  · exact le_of_le_of_eq hstack.fits hstack.depth

/-- Memory of an odd size, one slot for calls, and a start behind the end of memory. -/
theorem addresses_in_odd_memory :
    ∃ m, Machine.build { memorySize := 0xF3, stackDepth := 1, entry := 0xFFFF } = .ok m ∧
      ∀ events, ((start m).after events).machine.index.toNat < 0xF3 := by
  have hc : Settings.check { memorySize := 0xF3, stackDepth := 1, entry := 0xFFFF } = .ok () := rfl
  obtain ⟨m, hb, h⟩ := addresses_in_memory hc
  exact ⟨m, hb, fun events => (h events).2.1⟩

end Session

end SuperChip
