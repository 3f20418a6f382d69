import SuperChip.Proofs.Run.Rounds

/-!
# Shutdown in a run

A run *winds up* once it executes nothing any more: whatever happens, it changes the keypad
and the timers at most, and some moves of the processor later it is over.  It does so once
the processor leaves, and also where the processor looks for shutdown and the machine is
shut down.

Shutdown does not reach into a step.  A step that is issued when the machine is shut down
is executed as ever, and a wait for a key comes to its end with no key read (`heeds`).
`iterates_step` puts this beside what a run does in all its moves.
-/

namespace SuperChip

/-! ## Steps of a machine that is shut down -/

namespace Machine

variable {m : Machine} {x : UInt8}

theorem executeWait_of_shutdown (h : m.keypad.isShutdown = true) :
    (m.executeWait x).machine = m ∧ (m.executeWait x).ending = .done := by
  unfold executeWait Keypad.wait
  rw [if_pos h]
  exact ⟨rfl, rfl⟩

/-- A wait that is given up leaves the machine as it is. -/
theorem perform_wait_of_shutdown (h : m.keypad.isShutdown = true) {t : Traced}
    (ht : t.instruction = .waitKey x) (random : UInt8) :
    (m.perform random t).machine = m ∧ (m.perform random t).traced = some t := by
  have he : (m.perform random t).machine = m ∧ (m.perform random t).ending = .done := by
    unfold perform
    rw [ht]
    exact executeWait_of_shutdown h
  exact ⟨he.1, Step.traced_eq_some_iff.mpr ⟨he.2, rfl⟩⟩

/-- A step that begins after shutdown and waits for a key just moves on. -/
theorem step_wait_of_shutdown (h : m.keypad.isShutdown = true) (hi : m.Issues (.waitKey x))
    (random : UInt8) : (m.step random).machine = m.advance ∧
      ∃ t, (m.step random).traced = some t ∧ t.instruction = .waitKey x := by
  obtain ⟨w, hw, hi⟩ := hi
  rw [step_of_standsFor hw hi]
  obtain ⟨hm, ht⟩ :=
    perform_wait_of_shutdown (m := m.advance) (t := ⟨m.pc, w, .waitKey x⟩) h rfl random
  exact ⟨hm, _, ht, rfl⟩

theorem keypad_step (m : Machine) (random : UInt8) : (m.step random).machine.keypad = m.keypad := by
  rcases stage_cases m with hf | ⟨w, hw, hi⟩ | ⟨w, i, hw, hi⟩
  · rw [step_of_not_fetches hf]
  · rw [step_of_unsupported hw hi]
    rfl
  · rw [step_of_standsFor hw hi]
    exact same_execute random (keypad_not_mem_footprint i)

/-- A step that begins after shutdown does not wait. -/
theorem step_of_shutdown (h : m.keypad.isShutdown = true) (random : UInt8) :
    (∃ t, (m.step random).traced = some t) ∨ ∃ fault, (m.step random).ending = .failed fault := by
  rcases stage_cases m with hf | ⟨w, hw, hi⟩ | ⟨w, i, hw, hi⟩
  · rw [step_of_not_fetches hf]
    exact .inr ⟨_, rfl⟩
  · rw [step_of_unsupported hw hi]
    exact .inr ⟨_, rfl⟩
  · rw [step_of_standsFor hw hi]
    cases he : (m.advance.perform random ⟨m.pc, w, i⟩).ending with
    | done => exact .inl ⟨_, Step.traced_eq_some_iff.mpr ⟨he, rfl⟩⟩
    | failed fault => exact .inr ⟨fault, rfl⟩
    | waiting =>
        obtain ⟨x, rfl⟩ := execute_waiting he
        have hd : (m.advance.executeWait x).ending = .done :=
          (executeWait_of_shutdown (m := m.advance) h).2
        cases he.symm.trans hd

end Machine

namespace Run

variable {r : Run} {n : Nat} {fault? : Option Fault}

/-! ## Winding up -/

def Move.isProceed : Move → Bool
  | .proceed _ => true
  | _ => false

theorem Move.isProceed_toMove (x : Stir) : Move.isProceed x.toMove = false := by
  cases x <;> rfl

/-- A run executes nothing any more, changes the keypad and the timers at most, and is over
with this result after so many moves of the processor. -/
structure WindsUp (r : Run) (n : Nat) (fault? : Option Fault) : Prop where
  trace : ∀ ms, (r.moves ms).trace = r.trace
  same : ∀ ms (p : Part), p ≠ .keypad → p ≠ .clocks → p.Same r.machine (r.moves ms).machine
  result : ∀ ms, n ≤ ms.countP Move.isProceed → (r.moves ms).phase = .over fault?

/-- Where the processor is when that many moves are left. -/
inductive Left (r : Run) : Nat → Option Fault → Prop where
  | looking : r.phase = .looking → r.machine.keypad.isShutdown = true → Left r 2 none
  | leaving {fault? : Option Fault} : r.phase = .leaving fault? → Left r 1 fault?
  | gone {fault? : Option Fault} : r.phase = .over fault? → Left r 0 fault?

theorem Left.quiet (h : r.Left n fault?) (mv : Move) : r.Quiet (r.move mv) := by
  rcases mv.cases with ⟨random, rfl⟩ | ⟨x, rfl⟩
  · refine quiet_proceed random ?_ ?_
    · cases h with
      | looking hp | leaving hp | gone hp => exact fun he => by rw [hp] at he; cases he
    · cases h with
      | looking hp | leaving hp | gone hp => exact fun t he => by rw [hp] at he; cases he
  · exact quiet_stir x

theorem Left.proceed (h : r.Left n fault?) (random : UInt8) :
    (r.proceed random).Left (n - 1) fault? := by
  unfold Run.proceed
  cases h with
  | looking hp hk =>
      rw [hp]
      refine .leaving ?_
      show (if r.machine.keypad.isShutdown then Phase.leaving none else .issuing) = .leaving none
      rw [hk]
      rfl
  | leaving hp =>
      rw [hp]
      exact .gone (phase_leave _)
  | gone hp =>
      rw [hp]
      exact .gone hp

theorem Left.stir (h : r.Left n fault?) (x : Stir) : (r.move x.toMove).Left n fault? := by
  have hp := phase_stir (r := r) x
  cases h with
  | looking hl hk =>
      refine .looking (hp.trans hl) ?_
      rw [machine_stir]
      exact Machine.isShutdown_stir _ x hk
  | leaving hl => exact .leaving (hp.trans hl)
  | gone hl => exact .gone (hp.trans hl)

/-- A move of the processor brings a run nearer to its end, and the others do not delay it. -/
theorem Left.move (h : r.Left n fault?) (mv : Move) :
    (r.move mv).Left (n - if mv.isProceed then 1 else 0) fault? := by
  rcases mv.cases with ⟨random, rfl⟩ | ⟨x, rfl⟩
  · exact h.proceed random
  · rw [Move.isProceed_toMove]
    exact h.stir x

theorem Left.moves (ms : List Move) :
    ∀ {r : Run} {n : Nat}, r.Left n fault? →
      (r.moves ms).Left (n - ms.countP Move.isProceed) fault? := by
  induction ms with
  | nil => exact id
  | cons mv ms ih =>
      intro r n h
      have hm := ih (h.move mv)
      rw [Nat.sub_sub, Nat.add_comm, ← List.countP_cons] at hm
      exact hm

/-- What is quiet move by move is quiet all along. -/
theorem Left.same (ms : List Move) :
    ∀ {r : Run} {n : Nat}, r.Left n fault? → (r.moves ms).trace = r.trace ∧
      ∀ p : Part, p ≠ .keypad → p ≠ .clocks → p.Same r.machine (r.moves ms).machine := by
  induction ms with
  | nil => exact fun _ => ⟨rfl, fun p _ _ => .refl _ p⟩
  | cons mv ms ih =>
      intro r n h
      obtain ⟨ht, hs⟩ := ih (h.move mv)
      have hq := h.quiet mv
      exact ⟨ht.trans hq.trace, fun p hk hc => (hq.same p hk hc).trans (hs p hk hc)⟩

theorem Left.windsUp (h : r.Left n fault?) : r.WindsUp n fault? where
  trace ms := (Left.same ms h).1
  same ms := (Left.same ms h).2
  result ms hn := by
    have hl := Left.moves ms h
    rw [Nat.sub_eq_zero_of_le hn] at hl
    cases hl with
    | gone hp => exact hp

/-! ## Wherever the processor is -/

/-- What becomes of a run whose machine is shut down, by where the processor is. -/
structure Heeds (r : Run) : Prop where
  /-- The next look finds it. -/
  looking : r.phase = .looking → r.WindsUp 2 none
  /-- A step is executed to its end and told, or it fails with its fault. -/
  issuing : r.phase = .issuing → ∀ random, let s := r.machine.step random
    (r.proceed random).machine = s.machine ∧
      ((∃ t, s.traced = some t ∧ (r.proceed random).trace = r.trace ++ [t] ∧
          (r.proceed random).WindsUp 2 none) ∨
        ∃ fault, s.ending = .failed fault ∧ (r.proceed random).trace = r.trace ∧
          (r.proceed random).WindsUp 1 (some fault))
  /-- A look for a key reads none and is executed all the same. -/
  key : r.phase = .issuing → ∀ x, r.machine.Issues (.waitKey x) → ∀ random,
    (r.proceed random).machine = r.machine.advance ∧ ∃ t, t.instruction = .waitKey x ∧
      (r.proceed random).trace = r.trace ++ [t] ∧ (r.proceed random).WindsUp 2 none
  /-- So does one that has waited. -/
  waiting : ∀ t, r.phase = .waiting t → (∃ x, t.instruction = .waitKey x) ∧ ∀ random,
    (r.proceed random).machine = r.machine ∧ (r.proceed random).trace = r.trace ++ [t] ∧
      (r.proceed random).WindsUp 2 none

/-- Behind a step that was told, a run whose machine is shut down winds up. -/
theorem windsUp_take {s : Machine.Step} {t : Traced} (h : s.traced = some t)
    (hk : s.machine.keypad.isShutdown = true) :
    (r.take s).trace = r.trace ++ [t] ∧ (r.take s).WindsUp 2 none := by
  refine ⟨?_, Left.windsUp (.looking ?_ ?_)⟩
  · rw [trace_take, h]
    rfl
  · rw [phase_take, Machine.Step.phase, (Machine.Step.traced_eq_some_iff.mp h).1]
  · rw [machine_take]
    exact hk

/-- Behind a step that fails a run winds up. -/
theorem windsUp_take_of_failed {s : Machine.Step} {fault : Fault} (h : s.ending = .failed fault) :
    (r.take s).trace = r.trace ∧ (r.take s).WindsUp 1 (some fault) := by
  refine ⟨?_, Left.windsUp (.leaving ?_)⟩
  · rw [trace_take, Machine.Step.traced, h]
    exact List.append_nil _
  · rw [phase_take, Machine.Step.phase, h]

theorem heeds (hk : r.machine.keypad.isShutdown = true)
    (hw : Waits (Session.ofRun r).parked) : r.Heeds where
  looking hp := Left.windsUp (.looking hp hk)
  issuing hp random := by
    rw [proceed_of_issuing hp]
    refine ⟨machine_take r _, ?_⟩
    rcases Machine.step_of_shutdown hk random with ⟨t, ht⟩ | ⟨fault, hf⟩
    · refine .inl ⟨t, ht, windsUp_take ht ?_⟩
      rw [Machine.keypad_step]
      exact hk
    · exact .inr ⟨fault, hf, windsUp_take_of_failed hf⟩
  key hp x hi random := by
    obtain ⟨hm, t, ht, hx⟩ := Machine.step_wait_of_shutdown hk hi random
    rw [proceed_of_issuing hp, machine_take]
    refine ⟨hm, t, hx, windsUp_take ht ?_⟩
    rw [hm]
    exact hk
  waiting t hp := by
    obtain ⟨x, hx⟩ := hw t (by rw [Session.ofRun, hp])
    refine ⟨⟨x, hx⟩, fun random => ?_⟩
    obtain ⟨hm, ht⟩ := Machine.perform_wait_of_shutdown hk hx random
    rw [proceed_of_waiting hp, machine_take]
    refine ⟨hm, windsUp_take ht ?_⟩
    rw [hm]
    exact hk

/-! ## From the start on -/

/-- Where its timers have ticks, a run of a machine from an entry, with any speaker and any
observer, only goes to the entry and starts the timers at zero before its first look.  After
any moves it stands where rounds of steps have brought it.  At the end of the rounds it is
over with one more move of the processor, and it is over in no other way.  Once the machine
is shut down the run still comes to the end of what it is in, and if the machine was shut
down before the run, it executes nothing. -/
theorem iterates_step {m : Machine} (hd : m.settings.delayHz ≠ 0) (hs : m.settings.soundHz ≠ 0)
    (entry : UInt16) (speaker : Speaker) (observer : Observer) :
    let r := start m entry speaker observer
    (r.machine.registers = { m.registers with pc := entry } ∧
      (∀ p : Part, p ≠ .pc → p ≠ .keypad → p ≠ .clocks → p.Same m r.machine) ∧
      r.machine.clocks.delay.count = 0 ∧ r.machine.clocks.sound.count = 0) ∧
    (∀ ms ts m' p, Stands speaker r.machine ms ts m' p ↔ (r.moves ms).Shows ts m' p) ∧
    (∀ ms ts m' fault?, Ends speaker r.machine ms ts m' fault? →
      (r.moves ms).Shows ts m' (.leaving fault?) ∧ (r.moves ms).WindsUp 1 fault?) ∧
    (∀ ms fault?, (r.moves ms).phase = .over fault? →
      Ended speaker r.machine ms (r.moves ms).trace fault?) ∧
    (∀ ms, (r.moves ms).machine.keypad.isShutdown = true → (r.moves ms).Heeds) ∧
    (m.keypad.isShutdown = true → r.trace = [] ∧ r.WindsUp 2 none) := by
  intro r
  obtain ⟨hp, hm⟩ := start_of_ticks hd hs entry speaker observer
  have hc : r.machine.clocks =
      .fresh m.settings.delayHz m.settings.soundHz speaker.callback := by
    rw [hm]
    exact Machine.clocks_actAll _
  have hr : r.Shows [] r.machine .looking := ⟨trace_start m entry speaker observer, rfl, hp⟩
  have hstands (ms ts m' p) :
      Stands speaker r.machine ms ts m' p ↔ (r.moves ms).Shows ts m' p := by
    have hi : Stands r.speaker r.machine ms ts m' p ↔ (r.moves ms).Shows ts m' p := stands_iff hr
    rw [speaker_start] at hi
    exact hi
  refine ⟨⟨?_, ?_, ?_, ?_⟩, hstands, ?_, ?_, ?_, ?_⟩
  · rw [hm]
    exact Machine.registers_actAll _
  · intro p hpc hk hcl
    rw [hm]
    refine .trans ?_ (Machine.same_actAll _ hk)
    exact (Machine.same_setClocks _ hcl).trans (Machine.same_setPc _ hpc)
  · rw [hc]
    rfl
  · rw [hc]
    rfl
  · intro ms ts m' fault? he
    have hs := (hstands _ _ _ _).mp (.leaving [] he)
    rw [List.map_nil, List.append_nil] at hs
    exact ⟨hs, Left.windsUp (.leaving hs.phase)⟩
  · exact fun ms fault? ho => Stands.ended ((hstands _ _ _ _).mpr ⟨rfl, rfl, ho⟩)
  · exact fun ms hk => heeds hk (waits_moves ms (waits_start m entry speaker observer))
  · intro hk
    refine ⟨hr.trace, Left.windsUp (.looking hp ?_)⟩
    rw [hm]
    exact Machine.isShutdown_actAll _ hk

/-- A run waits for a key and is shut down. -/
theorem iterates_step_into_wait :
    Machine.tiny.settings.delayHz ≠ 0 ∧ Machine.tiny.settings.soundHz ≠ 0 ∧
      let t : Traced := ⟨0, 0xF30A, .waitKey 3⟩
      let r := (start Machine.tiny 0 .mute .nobody).moves
        [.proceed 0, .proceed 0, .tickDelay, .act .shutdown]
      r.phase = .waiting t ∧ ∀ ms, 2 ≤ ms.countP Move.isProceed →
        ((r.proceed 0).moves ms).phase = .over none ∧ ((r.proceed 0).moves ms).trace = [t] ∧
          ((r.proceed 0).moves ms).machine.registers.v = Machine.tiny.registers.v := by
  have hd : Machine.tiny.settings.delayHz ≠ 0 := by decide
  have hs : Machine.tiny.settings.soundHz ≠ 0 := by decide
  refine ⟨hd, hs, ?_⟩
  intro t r
  obtain ⟨-, -, -, -, hheeds, -⟩ := iterates_step hd hs 0 .mute .nobody
  have hh : r.Heeds := hheeds _ (by decide +kernel)
  have hp : r.phase = .waiting t := by decide +kernel
  obtain ⟨-, hw⟩ := hh.waiting t hp
  obtain ⟨hm, ht, hu⟩ := hw 0
  refine ⟨hp, fun ms hn => ⟨hu.result ms hn, (hu.trace ms).trans ht, ?_⟩⟩
  have hv : ((r.proceed 0).moves ms).machine.registers.v = (r.proceed 0).machine.registers.v :=
    hu.same ms .v (by decide) (by decide)
  rw [hv, hm]
  rfl

end Run

end SuperChip
