import SuperChip.Proofs.Session.Calls

/-!
# Whole steps

A step that waits for a key is taken up again, maybe more than once, before it ends.  An
*attempt* is the processor at work once: it takes a step from its start, or takes up the one
it waits in.  A *stint* is a step as a whole, from the machine that it began with to what it
came to in the last attempt.

The attempts of a session are those of its step events and those in the moves of its runs.
Of these `Stint.ofAttempts` makes stints.  It carries along the machine with which the last
step began, and lets go of the attempts that wait.

What is executed is told once for each stint that is done, in their order
(`Session.trace_eq`, `Run.trace_eq`).  What a stint came to is either a step of the machine
it began with, or else a look for a key that this machine reads (`Machine.Yields`,
`Session.sound_stints`).
-/

namespace SuperChip

/-! ## Steps that may wait -/

namespace Machine

/-- A machine has an instruction at its program counter. -/
structure Reads (m : Machine) (t : Traced) : Prop where
  pc : t.pc = m.pc
  fetches : m.Fetches t.word
  standsFor : Word.StandsFor t.word t.instruction

/-- A machine comes to something in a step, which may have waited for a key in between. -/
inductive Yields (b : Machine) : Step → Prop where
  /-- The step did not wait. -/
  | atOnce (random : UInt8) : Yields b (b.step random)
  /-- The step has waited, and a machine with as much memory takes it up behind the word. -/
  | later {m : Machine} {t : Traced} {x : UInt8} (random : UInt8) : b.Reads t →
      t.instruction = .waitKey x → m.pc = b.advance.pc → m.ram.size = b.ram.size →
      Yields b (m.perform random t)

variable {m b : Machine} {random : UInt8} {t t' : Traced} {s : Step}

theorem Reads.unique (h : m.Reads t) (h' : m.Reads t') : t = t' := by
  obtain ⟨pc, w, i⟩ := t
  obtain ⟨pc', w', i'⟩ := t'
  cases h.pc.trans h'.pc.symm
  cases h.fetches.unique h'.fetches
  cases h.standsFor.unique h'.standsFor
  rfl

/-- What a step has issued is at the program counter, and it is executed behind the word. -/
theorem reads_of_issued (h : (m.step random).issued = some t) :
    m.Reads t ∧ m.step random = m.advance.perform random t := by
  rcases stage_cases m with hf | ⟨w, hw, hi⟩ | ⟨w, i, hw, hi⟩
  · rw [step_of_not_fetches hf] at h
    cases h
  · rw [step_of_unsupported hw hi] at h
    cases h
  · rw [step_of_standsFor hw hi] at h ⊢
    cases h
    exact ⟨⟨rfl, hw, hi⟩, rfl⟩

/-- A look for a key leaves the program counter where it is. -/
theorem pc_perform_of_waitKey {x : UInt8} (h : t.instruction = .waitKey x) :
    (m.perform random t).machine.pc = m.pc := by
  rw [perform, h]
  exact same_execute (p := .pc) random (by simp [Instruction.footprint])

namespace Yields

variable (h : b.Yields s)
include h

theorem reads (hi : s.issued = some t) : b.Reads t := by
  cases h with
  | atOnce random => exact (reads_of_issued hi).1
  | later random hr =>
      cases hi
      exact hr

/-- A step that is done has executed what the machine reads, behind the word.  If it is
another machine that has executed it then it is a look for a key. -/
theorem performs (hd : s.ending = .done) :
    ∃ (m : Machine) (random : UInt8) (t : Traced), b.Reads t ∧ s = m.perform random t ∧
      m.pc = b.advance.pc ∧ m.ram.size = b.ram.size ∧
      (m = b.advance ∨ ∃ x, t.instruction = .waitKey x) := by
  cases h with
  | atOnce random =>
      rcases b.step_issued random with ⟨t, ht⟩ | ⟨fault, hf⟩
      · obtain ⟨hr, he⟩ := reads_of_issued ht
        exact ⟨b.advance, random, t, hr, he, rfl, rfl, .inl rfl⟩
      · cases hd.symm.trans hf
  | later random hr hi hpc hs => exact ⟨_, random, _, hr, rfl, hpc, hs, .inr ⟨_, hi⟩⟩

/-- The observer is told what the machine reads, once it is executed to its end. -/
theorem traced_eq_some_iff : s.traced = some t ↔ s.ending = .done ∧ b.Reads t := by
  rw [Step.traced_eq_some_iff]
  constructor
  · rintro ⟨hd, hi⟩
    exact ⟨hd, h.reads hi⟩
  · rintro ⟨hd, hr⟩
    refine ⟨hd, ?_⟩
    obtain ⟨m, random, t', hr', rfl, -⟩ := h.performs hd
    cases hr.unique hr'
    rfl

end Yields

end Machine

/-! ## Attempts and stints -/

/-- The processor is at work once in a session; if it needs a random byte it is this one. -/
structure Attempt where
  session : Session
  random : UInt8

/-- What an attempt comes to. -/
def Attempt.step (a : Attempt) : Machine.Step := a.session.proceed a.random

/-- A whole step: what it began with and what it came to. -/
structure Stint where
  before : Machine
  step : Machine.Step

/-- The machine with which the next step of a session begins.  If the processor waits then
its step has begun already. -/
def Session.beginning (s : Session) (before : Machine) : Machine :=
  match s.parked with
  | none => s.machine
  | some _ => before

/-- The machine with which the last step of some attempts began. -/
def Attempt.carry (before : Machine) (as : List Attempt) : Machine :=
  as.foldl (fun b a => a.session.beginning b) before

namespace Stint

/-- The steps that end in some attempts.  The one that is under way at first began with a
machine. -/
def ofAttempts (before : Machine) : List Attempt → List Stint
  | [] => []
  | a :: as =>
      let b := a.session.beginning before
      if a.step.ending = .waiting then ofAttempts b as else ⟨b, a.step⟩ :: ofAttempts b as

section

variable {before : Machine} {a : Attempt} {as : List Attempt}

theorem ofAttempts_of_waiting (h : a.step.ending = .waiting) :
    ofAttempts before (a :: as) = ofAttempts (a.session.beginning before) as := if_pos h

theorem ofAttempts_of_ended (h : a.step.ending ≠ .waiting) :
    ofAttempts before (a :: as) =
      ⟨a.session.beginning before, a.step⟩ :: ofAttempts (a.session.beginning before) as :=
  if_neg h

end

theorem ofAttempts_append (as as' : List Attempt) : ∀ before : Machine,
    ofAttempts before (as ++ as') =
      ofAttempts before as ++ ofAttempts (Attempt.carry before as) as' := by
  induction as with
  | nil => exact fun _ => rfl
  | cons a as ih =>
      intro before
      have hi := ih (a.session.beginning before)
      rw [List.cons_append]
      by_cases hw : a.step.ending = .waiting
      · rw [ofAttempts_of_waiting hw, ofAttempts_of_waiting hw]
        exact hi
      · rw [ofAttempts_of_ended hw, ofAttempts_of_ended hw, hi]
        rfl

/-- An attempt that waits is told to nobody. -/
theorem filterMap_traced_ofAttempts (as : List Attempt) : ∀ before : Machine,
    (ofAttempts before as).filterMap (fun d => d.step.traced) =
      as.filterMap fun a => a.step.traced := by
  induction as with
  | nil => exact fun _ => rfl
  | cons a as ih =>
      intro before
      by_cases hw : a.step.ending = .waiting
      · have hn : a.step.traced = none := by rw [Machine.Step.traced, hw]
        rw [ofAttempts_of_waiting hw, ih, List.filterMap_cons, hn]
      · rw [ofAttempts_of_ended hw, List.filterMap_cons, List.filterMap_cons, ih]

end Stint

namespace Run

/-- The attempt that a run makes in a move, if the processor is at work in it. -/
def attempt? (r : Run) : Move → Option Attempt
  | .proceed random =>
      match r.phase with
      | .issuing | .waiting _ => some ⟨Session.ofRun r, random⟩
      | _ => none
  | _ => none

/-- The attempts in some moves of a run. -/
def attempts (r : Run) : List Move → List Attempt
  | [] => []
  | mv :: ms => (r.attempt? mv).toList ++ (r.move mv).attempts ms

/-- The steps that end in some moves of a run, from where none is under way. -/
def stints (r : Run) (ms : List Move) : List Stint :=
  Stint.ofAttempts r.machine (r.attempts ms)

variable {r : Run}

/-- In a move the processor makes an attempt and the run takes over what it comes to, or
else the move is quiet and the processor waits after it just as before. -/
theorem attempt_cases (r : Run) (mv : Move) :
    (∃ random, r.attempt? mv = some ⟨Session.ofRun r, random⟩ ∧
      r.move mv = r.take ((Session.ofRun r).proceed random)) ∨
      r.attempt? mv = none ∧ r.Quiet (r.move mv) ∧
        (Session.ofRun (r.move mv)).parked = (Session.ofRun r).parked := by
  have hstir (x : Stir) : r.Quiet (r.move x.toMove) ∧
      (Session.ofRun (r.move x.toMove)).parked = (Session.ofRun r).parked := by
    refine ⟨quiet_stir x, ?_⟩
    unfold Session.ofRun
    rw [phase_stir]
  cases mv with
  | act a => exact .inr ⟨rfl, hstir (.act a)⟩
  | tickDelay => exact .inr ⟨rfl, hstir .tickDelay⟩
  | tickSound => exact .inr ⟨rfl, hstir .tickSound⟩
  | proceed random =>
      have hquiet (hi : r.phase ≠ .issuing) (hw : ∀ t, r.phase ≠ .waiting t) :
          r.Quiet (r.proceed random) := quiet_proceed random hi hw
      cases hp : r.phase with
      | issuing => exact .inl ⟨random, by rw [attempt?, hp], proceed_eq_take random (.inl hp)⟩
      | waiting t =>
          exact .inl ⟨random, by rw [attempt?, hp], proceed_eq_take random (.inr ⟨t, hp⟩)⟩
      | looking =>
          refine .inr ⟨by rw [attempt?, hp], hquiet (by simp [hp]) (by simp [hp]), ?_⟩
          simp only [Session.ofRun, move, proceed, hp]
          cases r.machine.keypad.isShutdown <;> rfl
      | leaving fault? =>
          refine .inr ⟨by rw [attempt?, hp], hquiet (by simp [hp]) (by simp [hp]), ?_⟩
          simp only [Session.ofRun, move, proceed, hp, phase_leave]
      | «over» fault? =>
          refine .inr ⟨by rw [attempt?, hp], hquiet (by simp [hp]) (by simp [hp]), ?_⟩
          simp only [move, proceed, hp]

/-- What is executed in moves is what the attempts in them come to. -/
theorem trace_attempts (ms : List Move) : ∀ r : Run,
    (r.moves ms).trace = r.trace ++ (r.attempts ms).filterMap fun a => a.step.traced := by
  induction ms with
  | nil => exact fun r => (List.append_nil _).symm
  | cons mv ms ih =>
      intro r
      have hms : r.moves (mv :: ms) = (r.move mv).moves ms := rfl
      rw [hms, ih, attempts, List.filterMap_append, ← List.append_assoc]
      congr 1
      rcases r.attempt_cases mv with ⟨random, ha, he⟩ | ⟨ha, hq, -⟩
      · rw [he, trace_take, ha]
        show _ = r.trace ++ List.filterMap (fun a : Attempt => a.step.traced)
          [(⟨Session.ofRun r, random⟩ : Attempt)]
        rw [List.filterMap_cons, Attempt.step]
        cases ((Session.ofRun r).proceed random).traced <;> rfl
      · rw [hq.trace, ha]
        exact (List.append_nil _).symm

/-- What is executed in moves is what the stints in them have executed. -/
theorem trace_eq (r : Run) (ms : List Move) :
    (r.moves ms).trace = r.trace ++ (r.stints ms).filterMap fun d => d.step.traced := by
  rw [trace_attempts, stints, Stint.filterMap_traced_ofAttempts]

end Run

namespace Session

/-- The attempts in an event. -/
def attempted (s : Session) : Event → List Attempt
  | .step random => [⟨s, random⟩]
  | .run entry speaker observer moves =>
      (Run.start s.machine entry speaker observer).attempts moves
  | _ => []

/-- The attempts in events, one after the other. -/
def attempts (s : Session) : List Event → List Attempt
  | [] => []
  | e :: events => s.attempted e ++ (s.next e).attempts events

/-- The steps that end in some events of a session, from where none is under way. -/
def stints (s : Session) (events : List Event) : List Stint :=
  Stint.ofAttempts s.machine (s.attempts events)

theorem executed_eq (s : Session) (e : Event) :
    s.executed e = (s.attempted e).filterMap fun a => a.step.traced := by
  cases e with
  | step random =>
      show (s.proceed random).traced.toList = _
      rw [attempted, List.filterMap_cons, Attempt.step]
      cases (s.proceed random).traced <;> rfl
  | run entry speaker observer moves =>
      rw [executed, Run.trace_attempts, Run.trace_start, List.nil_append]
      rfl
  | load | change | act | time => rfl

/-- What is executed in events is what the stints in them have executed. -/
theorem trace_eq (events : List Event) (s : Session) :
    s.trace events = (s.stints events).filterMap fun d => d.step.traced := by
  rw [stints, Stint.filterMap_traced_ofAttempts]
  induction events generalizing s with
  | nil => rfl
  | cons e events ih => rw [trace, attempts, List.filterMap_append, executed_eq, ih]

end Session

/-! ## What stints are -/

variable {settings : Settings}

/-- A whole step of a sound machine: it has ended, and it is what the machine comes to. -/
structure Stint.Sound (d : Stint) (settings : Settings) : Prop where
  before : d.before.Sound settings
  yields : d.before.Yields d.step
  ended : d.step.ending ≠ .waiting

namespace Session

variable {s : Session} {before : Machine} {random : UInt8}

/-- A session is sound, and if the processor waits then in a look for a key that a machine
reads, with the program counter behind its word. -/
structure Tracks (s : Session) (settings : Settings) (before : Machine) : Prop where
  session : s.Sound settings
  sound : ∀ t, s.parked = some t → before.Sound settings
  reads : ∀ t, s.parked = some t → before.Reads t
  waits : Waits s.parked
  pc : ∀ t, s.parked = some t → s.machine.pc = before.advance.pc

/-- Where the processor does not wait, any machine will do. -/
theorem tracks_of_parked (hs : s.Sound settings) (hp : s.parked = none) (before : Machine) :
    s.Tracks settings before := by
  have hn (t : Traced) (P : Prop) (ht : s.parked = some t) : P := by
    rw [hp] at ht
    cases ht
  exact ⟨hs, fun t => hn t _, fun t => hn t _, fun t => hn t _, fun t => hn t _⟩

namespace Tracks

variable (h : s.Tracks settings before)
include h

/-- A session tracks the same machine where it stands as before, on a sound machine. -/
theorem of_same {s' : Session} (hs : s'.Sound settings) (hp : s'.parked = s.parked)
    (hpc : s'.machine.pc = s.machine.pc) : s'.Tracks settings before := by
  refine ⟨hs, ?_, ?_, ?_, ?_⟩
  · rw [hp]
    exact h.sound
  · rw [hp]
    exact h.reads
  · rw [hp]
    exact h.waits
  · rw [hp, hpc]
    exact h.pc

theorem sound_beginning : (s.beginning before).Sound settings := by
  unfold beginning
  split
  next => exact h.session.machine
  next t hp => exact h.sound t hp

theorem yields (random : UInt8) : (s.beginning before).Yields (s.proceed random) := by
  obtain ⟨m, parked⟩ := s
  cases parked with
  | none => exact .atOnce random
  | some t =>
      obtain ⟨x, hx⟩ := h.waits t rfl
      have hsize : m.ram.size = before.ram.size :=
        h.session.machine.size.trans (h.sound t rfl).size.symm
      exact .later random (h.reads t rfl) hx (h.pc t rfl) hsize

/-- Behind an attempt a session tracks the machine with which the step began. -/
theorem proceed (random : UInt8) :
    (ofStep (s.proceed random)).Tracks settings (s.beginning before) := by
  refine ⟨h.session.proceed random, fun _ _ => h.sound_beginning, fun t ht => ?_,
    waits_ofStep waits_proceed, fun t ht => ?_⟩
  · exact (h.yields random).reads (parked_ofStep_eq_some_iff.mp ht).2
  · -- a look for a key that is blocked leaves the program counter behind its word
    obtain ⟨he, hi⟩ := parked_ofStep_eq_some_iff.mp ht
    obtain ⟨x, hx⟩ := waits_proceed he t hi
    obtain ⟨m, parked⟩ := s
    cases parked with
    | none =>
        obtain ⟨-, hm⟩ := Machine.reads_of_issued hi
        show (m.step random).machine.pc = m.advance.pc
        rw [hm]
        exact Machine.pc_perform_of_waitKey hx
    | some t' =>
        cases hi
        exact (Machine.pc_perform_of_waitKey hx).trans (h.pc t rfl)

end Tracks

/-- Some attempts lead to a session: the steps that end in them are sound, and the session
tracks the machine with which the last one began. -/
structure Led (settings : Settings) (before : Machine) (as : List Attempt) (s : Session) :
    Prop where
  stints : ∀ d ∈ Stint.ofAttempts before as, d.Sound settings
  tracks : s.Tracks settings (Attempt.carry before as)

theorem led_nil (h : s.Tracks settings before) : Led settings before [] s :=
  ⟨fun _ hd => absurd hd List.not_mem_nil, h⟩

theorem led_attempt (h : s.Tracks settings before) (random : UInt8) :
    Led settings before [⟨s, random⟩] (ofStep (s.proceed random)) where
  stints d hd := by
    by_cases hw : (Attempt.mk s random).step.ending = .waiting
    · rw [Stint.ofAttempts_of_waiting hw] at hd
      cases hd
    · rw [Stint.ofAttempts_of_ended hw] at hd
      cases List.mem_singleton.mp hd
      exact ⟨h.sound_beginning, h.yields random, hw⟩
  tracks := h.proceed random

theorem Led.append {as as' : List Attempt} {s' : Session} (h : Led settings before as s)
    (h' : Led settings (Attempt.carry before as) as' s') :
    Led settings before (as ++ as') s' where
  stints d hd := by
    rw [Stint.ofAttempts_append, List.mem_append] at hd
    rcases hd with hd | hd
    · exact h.stints d hd
    · exact h'.stints d hd
  tracks := by
    rw [Attempt.carry, List.foldl_append]
    exact h'.tracks

end Session

/-- The attempts in a move lead to the session behind the move. -/
theorem Run.led_move {r : Run} {before : Machine} (hr : r.Sound settings)
    (h : (Session.ofRun r).Tracks settings before) (mv : Move) :
    Session.Led settings before (r.attempt? mv).toList (Session.ofRun (r.move mv)) := by
  rcases r.attempt_cases mv with ⟨random, ha, he⟩ | ⟨ha, hq, hp⟩
  · rw [ha, he, ofRun_take]
    exact Session.led_attempt h random
  · rw [ha]
    refine Session.led_nil (h.of_same (Session.sound_ofRun (hr.move mv)) hp ?_)
    exact hq.same .pc (by decide) (by decide)

theorem Run.led_moves (ms : List Move) : ∀ {r : Run} {before : Machine}, r.Sound settings →
    (Session.ofRun r).Tracks settings before →
    Session.Led settings before (r.attempts ms) (Session.ofRun (r.moves ms)) := by
  induction ms with
  | nil => exact fun _ h => Session.led_nil h
  | cons mv ms ih =>
      intro r before hr h
      have hmv := led_move hr h mv
      exact hmv.append (ih (hr.move mv) hmv.tracks)

/-- The steps that end in a run of a sound machine are sound. -/
theorem Run.sound_stints {m : Machine} (hm : m.Sound settings) (entry : UInt16)
    (speaker : Speaker) (observer : Observer) (ms : List Move) :
    ∀ d ∈ (start m entry speaker observer).stints ms, d.Sound settings := by
  have hr := sound_start hm entry speaker observer
  have ht := Session.tracks_of_parked (Session.sound_ofRun hr) (parked_start m entry _ _)
    (start m entry speaker observer).machine
  exact (led_moves ms hr ht).stints

namespace Session

variable {s : Session} {before : Machine}

/-- The attempts in an event lead to the session behind the event. -/
theorem led_next (h : s.Tracks settings before) (e : Event) :
    Led settings before (s.attempted e) (s.next e) := by
  have hs := h.session.next e
  cases e with
  | step random => exact led_attempt h random
  | run entry speaker observer moves =>
      have hr := Run.sound_start h.session.machine entry speaker observer
      exact Run.led_moves moves hr
        (tracks_of_parked (sound_ofRun hr) (Run.parked_start s.machine entry _ _) before)
  | load address program =>
      refine led_nil (h.of_same hs (s.parked_next_load address program) ?_)
      exact congrArg Registers.pc (s.registers_next_load address program)
  | change c => exact led_nil (h.of_same hs rfl rfl)
  | act a => exact led_nil (h.of_same hs rfl rfl)
  | time clocks => exact led_nil (h.of_same hs rfl rfl)

theorem led_after (events : List Event) : ∀ {s : Session} {before : Machine},
    s.Tracks settings before → Led settings before (s.attempts events) (s.after events) := by
  induction events with
  | nil => exact fun h => led_nil h
  | cons e events ih =>
      intro s before h
      have he := led_next h e
      exact he.append (ih he.tracks)

/-- The steps that end in a session of a new machine are sound. -/
theorem sound_stints {m : Machine} (hb : Machine.build settings = .ok m) (events : List Event) :
    ∀ d ∈ (start m).stints events, d.Sound settings :=
  (led_after events (tracks_of_parked (sound_start (Machine.sound_build hb)) rfl m)).stints

end Session

end SuperChip
