import SuperChip.Proofs.Run.Plain
import SuperChip.Proofs.Session

/-!
# Observing

A *host* has a session, decides who is told about executed instructions, and keeps what
happened and what it got for each event.  It changes its mind about the observer whenever it
likes.  Before it does so for the first time, the settings decide.

A host is *plain* when its session is, nobody is told, and no report is kept.  What an event
does to a plain host is the plain form of what it does to the host itself, and a new observer
does nothing to it (`Host.plain_event`, `Host.plain_watch`).  So two hosts that are alike when
they are made plain are so behind the same events, whoever is told meanwhile
(`Host.plain_after`).  Machines with settings that are alike but for what is watched and where
a program is put have such hosts (`Host.observation_leaves_no_mark`).
-/

namespace SuperChip

/-- Settings that differ in nothing but the address a program is put at, the idle turns, and
whether instructions are reported. -/
structure Settings.Alike (s s' : Settings) : Prop where
  memorySize : s.memorySize = s'.memorySize
  stackDepth : s.stackDepth = s'.stackDepth
  entry : s.entry = s'.entry
  delayHz : s.delayHz = s'.delayHz
  soundHz : s.soundHz = s'.soundHz

theorem Settings.Alike.plain_eq {s s' : Settings} (h : s.Alike s') : s.plain = s'.plain := by
  simp only [plain, h.memorySize, h.stackDepth, h.entry, h.delayHz, h.soundHz]

/-- What the settings are checked for is none of what alike settings may differ in. -/
theorem Settings.Alike.check_eq {s s' : Settings} (h : s.Alike s') : s.check = s'.check := by
  simp only [check, fault?, h.memorySize, h.stackDepth, h.delayHz, h.soundHz]

/-- The event with another observer, if it is a run. -/
def Event.observedBy (o : Observer) : Event → Event
  | .run entry speaker _ moves => .run entry speaker o moves
  | e => e

/-- What a host gets for an event. -/
inductive Session.Answer where
  /-- Nothing. -/
  | nothing
  /-- Whether the program could be put into memory. -/
  | loaded (fault? : Option Fault)
  /-- How the step ended. -/
  | stepped (ending : Ending)
  /-- Where the processor is in the run. -/
  | ran (phase : Phase)
deriving DecidableEq

namespace Session

/-- The session with its machine plain. -/
def plain (s : Session) : Session := { s with machine := s.machine.plain }

/-- A run in a session. -/
def play (s : Session) (entry : UInt16) (speaker : Speaker) (observer : Observer)
    (moves : List Run.Move) : Run :=
  (Run.start s.machine entry speaker observer).moves moves

/-- What happens in an event; in a step the observer is told as it is in a run. -/
def happenings (s : Session) (o : Observer) : Event → List Happening
  | .load address program =>
      match s.machine.load address program with
      | .ok (_, entries) => entries.map .noted
      | .error _ => []
  | .step random =>
      let step := s.proceed random
      step.entries.map .noted ++
        (step.traced.map fun t => .executed t :: (o.entries t).map .noted).getD []
  | .run entry speaker _ moves => (s.play entry speaker o moves).history.toList
  | _ => []

/-- What a host gets for an event. -/
def answer (s : Session) : Event → Answer
  | .load address program =>
      match s.machine.load address program with
      | .ok _ => .loaded none
      | .error fault => .loaded (some fault)
  | .step random => .stepped (s.proceed random).ending
  | .run entry speaker observer moves => .ran (s.play entry speaker observer moves).phase
  | _ => .nothing

end Session

/-! ## Hosts -/

/-- A session with its host. -/
structure Host where
  /-- The session. -/
  session : Session
  /-- Who is told about executed instructions. -/
  observer : Observer
  /-- What happened, oldest first. -/
  history : List Happening
  /-- What the host got for each event, oldest first. -/
  answers : List Session.Answer

namespace Host

/-- What a host does. -/
inductive Turn where
  /-- It decides who is told from now on. -/
  | watch (observer : Observer)
  /-- It lets an event happen.  In a run the observer is the one that the host has. -/
  | event (e : Event)

/-- The event of a turn, if it is one. -/
def Turn.event? : Turn → Option Event
  | .watch _ => none
  | .event e => some e

/-- A new machine with its host.  Instructions are reported if the settings ask for it. -/
def start (m : Machine) : Host :=
  ⟨.start m, if m.settings.trace then .journal else .nobody, [], []⟩

/-- The host behind a turn. -/
def next (h : Host) : Turn → Host
  | .watch observer => { h with observer }
  | .event e =>
      let e := e.observedBy h.observer
      { h with
        session := h.session.next e
        history := h.history ++ h.session.happenings h.observer e
        answers := h.answers ++ [h.session.answer e] }

/-- The host behind turns, one after the other. -/
def after (h : Host) (ts : List Turn) : Host := ts.foldl next h

/-- The journal of all that happened. -/
def journal (h : Host) : List Journal.Entry := h.history.filterMap Happening.entry?

/-- What the speaker was told, in its order. -/
def calls (h : Host) : List Happening :=
  h.history.filter fun x => x = .boot ∨ x = .beep ∨ x = .off

/-- The host with a plain session, nobody told, and no reports. -/
def plain (h : Host) : Host :=
  { h with
    session := h.session.plain
    observer := .nobody
    history := h.history.filter Happening.isPlain }

end Host

/-! ## Plain sessions -/

namespace Session

variable (s : Session) (o : Observer)

theorem machine_plain : s.plain.machine = s.machine.plain := rfl

theorem plain_proceed (random : UInt8) : s.plain.proceed random = (s.proceed random).plain := by
  obtain ⟨m, parked⟩ := s
  cases parked with
  | none => exact m.plain_step random
  | some t => exact m.plain_perform random t

theorem untraced_proceed (random : UInt8) : Journal.Untraced (s.proceed random).entries := by
  obtain ⟨m, parked⟩ := s
  cases parked with
  | none => exact m.untraced_step random
  | some t => exact m.untraced_execute random t.instruction

/-- A run in a plain session is in lockstep with the run in the session itself. -/
theorem plain_play (entry : UInt16) (speaker : Speaker) (moves : List Run.Move) :
    s.plain.play entry speaker .nobody moves = (s.play entry speaker o moves).plain := by
  rw [play, play, ← Run.plain_moves, ← Run.plain_start, machine_plain]

/-- A plain session goes on in lockstep with the session itself. -/
theorem plain_next (e : Event) :
    s.plain.next (e.observedBy .nobody) = (s.next (e.observedBy o)).plain := by
  cases e with
  | load address program =>
      simp only [Event.observedBy, next, machine_plain, Machine.plain_load]
      cases s.machine.load address program <;> rfl
  | step random => exact congrArg ofStep (s.plain_proceed random)
  | run entry speaker observer moves => exact congrArg ofRun (s.plain_play o entry speaker moves)
  | act a =>
      simp only [Event.observedBy, next, machine_plain, Machine.plain_act]
      rfl
  | change | time => rfl

/-- The host of a plain session gets the same for an event. -/
theorem answer_plain (e : Event) :
    s.plain.answer (e.observedBy .nobody) = s.answer (e.observedBy o) := by
  cases e with
  | load address program =>
      simp only [Event.observedBy, answer, machine_plain, Machine.plain_load]
      cases s.machine.load address program <;> rfl
  | step random =>
      simp only [Event.observedBy, answer, plain_proceed, Machine.Step.ending_plain]
  | run entry speaker observer moves =>
      simp only [Event.observedBy, answer, s.plain_play o]
      rfl
  | change | act | time => rfl

/-- In a plain session the same happens, but for the reports. -/
theorem happenings_plain (e : Event) :
    s.plain.happenings .nobody (e.observedBy .nobody) =
      (s.happenings o (e.observedBy o)).filter Happening.isPlain := by
  cases e with
  | load address program =>
      simp only [Event.observedBy, happenings, machine_plain, Machine.plain_load]
      cases hl : s.machine.load address program with
      | error fault => rfl
      | ok loaded => exact (Happening.filter_noted (Machine.untraced_load hl)).symm
  | step random =>
      simp only [Event.observedBy, happenings, plain_proceed, Machine.Step.entries_plain,
        Machine.Step.traced_plain, List.filter_append,
        Happening.filter_noted (s.untraced_proceed random)]
      congr 1
      cases (s.proceed random).traced with
      | none => rfl
      | some t =>
          exact (congrArg (Happening.executed t :: ·) (Happening.filter_noted_observer o t)).symm
  | run entry speaker observer moves =>
      simp only [Event.observedBy, happenings, s.plain_play o]
      exact Run.toList_history_plain _
  | change | act | time => rfl

end Session

/-! ## Plain hosts -/

namespace Host

variable (h : Host)

/-- A new observer is nothing to a plain host. -/
theorem plain_watch (o : Observer) : (h.next (.watch o)).plain = h.plain := rfl

/-- A plain host goes on in lockstep with the host itself. -/
theorem plain_event (e : Event) : (h.next (.event e)).plain = h.plain.next (.event e) := by
  have hs := h.session.plain_next h.observer e
  have hh := h.session.happenings_plain h.observer e
  have ha := h.session.answer_plain h.observer e
  simp only [next, plain, hs, hh, ha, List.filter_append]

/-- What becomes of a plain host depends on the events alone, and not on who is told. -/
theorem plain_after (ts : List Turn) :
    ∀ h : Host, (h.after ts).plain = h.plain.after ((ts.filterMap Turn.event?).map .event) := by
  induction ts with
  | nil => exact fun _ => rfl
  | cons t ts ih =>
      intro h
      cases t with
      | watch o =>
          show ((h.next (.watch o)).after ts).plain = _
          rw [ih, plain_watch]
          rfl
      | event e =>
          show ((h.next (.event e)).after ts).plain = _
          rw [ih, plain_event]
          rfl

theorem journal_plain : h.plain.journal = h.journal.filter fun e => e.level ≠ .trace := by
  simp only [journal, plain, List.filterMap_filter, List.filter_filterMap]
  congr 1
  funext x
  cases x <;> simp [Happening.isPlain, Happening.entry?, Option.filter]

theorem calls_plain : h.plain.calls = h.calls := by
  simp only [calls, plain, List.filter_filter]
  congr 1
  funext x
  cases x <;> simp [Happening.isPlain]

/-- New machines with settings that are alike have hosts that are alike. -/
theorem plain_start {settings settings' : Settings} {m m' : Machine}
    (ha : settings.Alike settings') (hb : Machine.build settings = .ok m)
    (hb' : Machine.build settings' = .ok m') : (start m).plain = (start m').plain := by
  have hp : m.plain = m'.plain := by
    obtain ⟨-, ram, hr, rfl⟩ := Machine.build_eq_ok_iff.mp hb
    obtain ⟨-, ram', hr', rfl⟩ := Machine.build_eq_ok_iff.mp hb'
    rw [ha.memorySize, hr'] at hr
    cases hr
    have hk : settings.keypad.plain = settings'.keypad.plain := rfl
    simp only [Machine.plain, ha.plain_eq, ha.entry, ha.stackDepth, hk]
  show (⟨⟨m.plain, none⟩, .nobody, [], []⟩ : Host) = ⟨⟨m'.plain, none⟩, .nobody, [], []⟩
  rw [hp]

/-- Two machines whose settings differ in nothing but the address a program is put at, the idle
turns, and whether instructions are reported, let the same events happen, whoever is told about
executed instructions meanwhile.  Then both hosts have got the same for each event, the two
machines are the same but for their settings, the speaker was told the same, and what is in
the journals is the same but for the reports of instructions. -/
theorem observation_leaves_no_mark {settings settings' : Settings} (hc : settings.check = .ok ())
    (ha : settings.Alike settings') :
    ∃ m m', Machine.build settings = .ok m ∧ Machine.build settings' = .ok m' ∧
      ∀ ts ts' : List Turn, ts.filterMap Turn.event? = ts'.filterMap Turn.event? →
        let h := (start m).after ts
        let h' := (start m').after ts'
        h.answers = h'.answers ∧
          h.session.machine.registers = h'.session.machine.registers ∧
          h.session.machine.ram = h'.session.machine.ram ∧
          h.session.machine.surface = h'.session.machine.surface ∧
          h.session.machine.clocks = h'.session.machine.clocks ∧
          h.session.machine.keypad.held = h'.session.machine.keypad.held ∧
          h.session.machine.keypad.isShutdown = h'.session.machine.keypad.isShutdown ∧
          h.session.parked = h'.session.parked ∧
          h.calls = h'.calls ∧
          (h.journal.filter fun e => e.level ≠ .trace) =
            h'.journal.filter fun e => e.level ≠ .trace := by
  obtain ⟨m, hb⟩ := Machine.exists_build hc
  obtain ⟨m', hb'⟩ := Machine.exists_build (ha.check_eq ▸ hc)
  refine ⟨m, m', hb, hb', ?_⟩
  intro ts ts' hts h h'
  have hp : h.plain = h'.plain := by
    rw [plain_after, plain_after, plain_start ha hb hb', hts]
  have hm : h.session.machine.plain = h'.session.machine.plain :=
    congrArg (fun h => h.session.machine) hp
  refine ⟨congrArg (fun h => h.answers) hp, congrArg (fun m => m.registers) hm,
    congrArg (fun m => m.ram) hm, congrArg (fun m => m.surface) hm,
    congrArg (fun m => m.clocks) hm, congrArg (fun m => m.keypad.held) hm,
    congrArg (fun m => m.keypad.isShutdown) hm, congrArg (fun h => h.session.parked) hp, ?_, ?_⟩
  · rw [← calls_plain, hp, calls_plain]
  · rw [← journal_plain, hp, journal_plain]

/-- Of two machines that idle at different times the one has a step reported and the other
one the run behind it, in which the speaker beeps and which is left in a wait for a key. -/
theorem observation_leaves_no_mark_of_wait :
    ∃ m m', Machine.build ⟨0x100, 1, 0xF0, 0x300, 1, 1, 9, 0, true⟩ = .ok m ∧
      Machine.build ⟨0x100, 1, 0xF0, 0, 1, 1, 0, 5, false⟩ = .ok m' ∧
      let load := Event.load 0xF0 [0x60, 0x01, 0xF0, 0x18, 0xF1, 0x0A]
      let run := Event.run 0xF2 .bell .nobody
        [.proceed 0, .proceed 0, .proceed 0, .tickSound, .proceed 0, .act (.press 3)]
      let h := (start m).after [.event load, .event (.step 0), .watch .nobody, .event run]
      let h' := (start m').after [.event load, .event (.step 0), .watch .journal, .event run]
      h.answers = h'.answers ∧
        h.session.machine.registers = h'.session.machine.registers ∧
        h.calls = h'.calls ∧ h'.calls = [.boot, .beep] ∧
        h.journal ≠ h'.journal ∧
        (h.journal.filter fun e => e.level ≠ .trace) =
          h'.journal.filter fun e => e.level ≠ .trace := by
  obtain ⟨m, m', hb, hb', hall⟩ := @observation_leaves_no_mark
    ⟨0x100, 1, 0xF0, 0x300, 1, 1, 9, 0, true⟩ ⟨0x100, 1, 0xF0, 0, 1, 1, 0, 5, false⟩ rfl
    ⟨rfl, rfl, rfl, rfl, rfl⟩
  refine ⟨m, m', hb, hb', ?_⟩
  intro load run h h'
  obtain ⟨hanswers, hregisters, -, -, -, -, -, -, hcalls, hjournal⟩ := hall
    [.event load, .event (.step 0), .watch .nobody, .event run]
    [.event load, .event (.step 0), .watch .journal, .event run] rfl
  obtain ⟨hbeep, hne⟩ : h'.calls = [.boot, .beep] ∧ h.journal ≠ h'.journal := by
    cases hb
    cases hb'
    decide +kernel
  exact ⟨hanswers, hregisters, hcalls, hbeep, hne, hjournal⟩

end Host

end SuperChip
