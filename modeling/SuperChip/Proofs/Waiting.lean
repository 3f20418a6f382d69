import SuperChip.Proofs.Machine.Refusal
import SuperChip.Proofs.Run.Moves

/-!
# What the processor waits in

The processor waits in an instruction that looks for a key, and in no other one
(`Run.waits_moves`, `Session.waits_of_reachable`).

Where a run issues an instruction, or waits in one, its next move takes over what the
session in it comes to in a step (`Run.proceed_eq_take`).  So a run and a host that takes
single steps ask the same of a machine.
-/

namespace SuperChip

/-- What is waited in, if anything is, looks for a key. -/
def Waits (t? : Option Traced) : Prop := ∀ t, t? = some t → ∃ x, t.instruction = .waitKey x

theorem waits_none : Waits none := fun _ ht => by cases ht

namespace Machine

/-- A step that waits has come to a look for a key. -/
theorem waits_step {m : Machine} {random : UInt8} (h : (m.step random).ending = .waiting) :
    Waits (m.step random).issued :=
  fun _ ht => step_waiting h ht

/-- An instruction that waits looks for a key. -/
theorem waits_perform {m : Machine} {random : UInt8} {t : Traced}
    (h : (m.perform random t).ending = .waiting) : Waits (m.perform random t).issued := by
  intro _ ht
  cases ht
  exact execute_waiting h

end Machine

namespace Session

variable {s : Session}

/-- A session that waits has come to a look for a key. -/
theorem waits_proceed {random : UInt8} (h : (s.proceed random).ending = .waiting) :
    Waits (s.proceed random).issued := by
  obtain ⟨m, parked⟩ := s
  cases parked with
  | none => exact Machine.waits_step h
  | some t => exact Machine.waits_perform h

theorem waits_ofStep {step : Machine.Step} (h : step.ending = .waiting → Waits step.issued) :
    Waits (ofStep step).parked := by
  intro t ht
  obtain ⟨he, hi⟩ := parked_ofStep_eq_some_iff.mp ht
  exact h he t hi

end Session

namespace Run

variable {r : Run}

/-- Where a run is when it took over a step is where a session is after the step. -/
theorem ofRun_take (s : Machine.Step) : Session.ofRun (r.take s) = Session.ofStep s := by
  unfold Session.ofRun Session.ofStep
  rw [machine_take, phase_take, Machine.Step.phase]
  congr 1
  cases s.ending <;> cases s.issued <;> rfl

/-- A run takes over what the session in it comes to. -/
theorem proceed_eq_take (random : UInt8) (h : r.phase = .issuing ∨ ∃ t, r.phase = .waiting t) :
    r.proceed random = r.take ((Session.ofRun r).proceed random) := by
  unfold Session.ofRun Session.proceed
  rcases h with h | ⟨t, h⟩
  · rw [proceed_of_issuing h, h]
  · rw [proceed_of_waiting h, h]

/-- A move of which nobody is told anything changes the keypad and the timers at most, and
the processor does not begin to wait in it. -/
structure Quiet (r r' : Run) : Prop where
  same : ∀ p : Part, p ≠ .keypad → p ≠ .clocks → p.Same r.machine r'.machine
  trace : r'.trace = r.trace
  parked : (Session.ofRun r').parked = none ∨
    (Session.ofRun r').parked = (Session.ofRun r).parked

/-- Where no instruction is issued or waits the processor is quiet. -/
theorem quiet_proceed (random : UInt8) (h : r.phase ≠ .issuing) (hw : ∀ t, r.phase ≠ .waiting t) :
    r.Quiet (r.proceed random) := by
  unfold proceed
  cases hp : r.phase with
  | looking =>
      refine ⟨fun p _ _ => .refl _ p, rfl, .inl ?_⟩
      unfold Session.ofRun
      cases r.machine.keypad.isShutdown <;> rfl
  | issuing => exact absurd hp h
  | waiting t => exact absurd hp (hw t)
  | leaving fault? =>
      exact ⟨fun p _ hc => Machine.same_setClocks _ hc, trace_leave fault?, .inl rfl⟩
  | «over» fault? => exact ⟨fun p _ _ => .refl _ p, rfl, .inr rfl⟩

/-- Others are quiet. -/
theorem quiet_stir (x : Stir) : r.Quiet (r.move x.toMove) where
  same p hk hc := by
    rw [machine_stir]
    exact Machine.same_stir r.speaker x hk hc
  trace := trace_stir x
  parked := by
    right
    unfold Session.ofRun
    rw [phase_stir]

/-- In a move a run takes over what the session in it comes to, or else it is quiet. -/
theorem move_cases (r : Run) (mv : Move) :
    (∃ random, r.move mv = r.take ((Session.ofRun r).proceed random)) ∨ r.Quiet (r.move mv) := by
  rcases mv.cases with ⟨random, rfl⟩ | ⟨x, rfl⟩
  · by_cases hb : r.phase = .issuing ∨ ∃ t, r.phase = .waiting t
    · exact .inl ⟨random, proceed_eq_take random hb⟩
    · obtain ⟨hi, hw⟩ := not_or.mp hb
      exact .inr (quiet_proceed random hi (not_exists.mp hw))
  · exact .inr (quiet_stir x)

/-! ## What is told -/

/-- What the observer of a run is told in a move, if anything. -/
def told (r : Run) (mv : Move) : Option Traced := (r.move mv).trace[r.trace.length]?

variable {mv : Move}

theorem told_eq {t? : Option Traced} (h : (r.move mv).trace = r.trace ++ t?.toList) :
    r.told mv = t? := by
  unfold told
  rw [h, List.getElem?_append_right (Nat.le_refl _), Nat.sub_self]
  cases t? <;> rfl

/-- A move that takes over a step tells what the step has executed. -/
theorem told_take {random : UInt8} (h : r.move mv = r.take ((Session.ofRun r).proceed random)) :
    r.told mv = ((Session.ofRun r).proceed random).traced := by
  refine told_eq ?_
  rw [h]
  exact trace_take _

/-- A quiet move tells nothing. -/
theorem told_quiet (h : r.Quiet (r.move mv)) : r.told mv = none :=
  told_eq (h.trace.trans (List.append_nil _).symm)

/-- The trace grows by what a move tells. -/
theorem trace_move (r : Run) (mv : Move) :
    (r.move mv).trace = r.trace ++ (r.told mv).toList := by
  rcases r.move_cases mv with ⟨random, he⟩ | hq
  · rw [told_take he, he]
    exact trace_take _
  · rw [told_quiet hq, hq.trace]
    exact (List.append_nil _).symm

/-- The trace only grows. -/
theorem trace_moves (ms : List Move) :
    ∀ r : Run, ∃ ts, (r.moves ms).trace = r.trace ++ ts := by
  induction ms with
  | nil => exact fun r => ⟨[], (List.append_nil _).symm⟩
  | cons mv ms ih =>
      intro r
      obtain ⟨ts, hts⟩ := ih (r.move mv)
      rw [trace_move, List.append_assoc] at hts
      exact ⟨_, hts⟩

/-! ## Waits in a run -/

theorem waits_move (h : Waits (Session.ofRun r).parked) (mv : Move) :
    Waits (Session.ofRun (r.move mv)).parked := by
  rcases r.move_cases mv with ⟨random, he⟩ | hq
  · rw [he, ofRun_take]
    exact Session.waits_ofStep Session.waits_proceed
  · rcases hq.parked with hp | hp
    · rw [hp]
      exact waits_none
    · rw [hp]
      exact h

/-- A run waits in nothing but looks for a key. -/
theorem waits_moves (ms : List Move) :
    ∀ {r : Run}, Waits (Session.ofRun r).parked → Waits (Session.ofRun (r.moves ms)).parked := by
  induction ms with
  | nil => exact id
  | cons mv ms ih => exact fun h => ih (waits_move h mv)

/-- A run begins with a look, or it is over since the timers cannot be started. -/
theorem phase_start (m : Machine) (entry : UInt16) (speaker : Speaker) (observer : Observer) :
    (start m entry speaker observer).phase = .looking ∨
      ∃ fault, (start m entry speaker observer).phase = .over (some fault) := by
  unfold start
  dsimp only
  split
  next fault _ => exact .inr ⟨fault, rfl⟩
  next => exact .inl rfl

/-- At the beginning of a run the processor waits in nothing. -/
theorem parked_start (m : Machine) (entry : UInt16) (speaker : Speaker) (observer : Observer) :
    (Session.ofRun (start m entry speaker observer)).parked = none := by
  rw [Session.ofRun]
  rcases phase_start m entry speaker observer with h | ⟨fault, h⟩ <;> rw [h]

theorem waits_start (m : Machine) (entry : UInt16) (speaker : Speaker) (observer : Observer) :
    Waits (Session.ofRun (start m entry speaker observer)).parked := by
  rw [parked_start]
  exact waits_none

end Run

namespace Session

/-- In a session the processor waits for a key, if it waits. -/
theorem waits_of_reachable {settings : Settings} {s : Session} (h : s.Reachable settings) :
    Waits s.parked := by
  induction h with
  | start hb => exact waits_none
  | next _ e ih =>
      cases e with
      | load address program =>
          rw [parked_next_load]
          exact ih
      | step random => exact waits_ofStep waits_proceed
      | run entry speaker observer moves => exact Run.waits_moves moves (Run.waits_start _ _ _ _)
      | change c => exact ih
      | act a => exact ih
      | time clocks => exact ih

end Session

end SuperChip
