import SuperChip.Proofs.Run.Course

/-!
# Beeps in the course of a run

The sound timer of a run is *wound* where the processor executes `FX18` and VX is not zero.
Nothing else makes it count: it starts at zero, its ticks take it down, and joining it leaves
its count as it is.

A winding comes to one beep at most.  It is a count that is still to come to zero, then a
beep that the timer owes, then a beep in the log, or it is lost on the way.  So no move adds
to these together but a winding (`Course.stock_move`), and there are never more beeps than
windings (`Course.count_beep_le`).
-/

namespace SuperChip

/-! ## What the processor does with the sound timer -/

/-- What executing an instruction sets the sound timer to, if it sets it. -/
def Traced.chime? (m : Machine) (t : Traced) : Option UInt8 :=
  match t.instruction with
  | .setSound x => some (m.v x)
  | _ => none

namespace Machine

variable {m : Machine} {random : UInt8}

theorem sound_execute {i : Instruction} (h : ∀ x, i ≠ .setSound x) :
    (m.execute random i).machine.clocks.sound = m.clocks.sound := by
  cases i with
  | setSound x => exact absurd rfl (h x)
  | setDelay x => rfl
  | _ =>
      refine congrArg Clocks.sound (same_execute (p := .clocks) random ?_)
      simp [Instruction.footprint]

/-- What is told of an instruction says what the sound timer was set to. -/
theorem sound_perform (m : Machine) (random : UInt8) (t : Traced) :
    (m.perform random t).machine.clocks.sound =
      ((m.perform random t).traced.bind (Traced.chime? m)).elim m.clocks.sound
        m.clocks.sound.set := by
  by_cases h : ∃ x, t.instruction = .setSound x
  · obtain ⟨x, hx⟩ := h
    obtain ⟨pc, word, i⟩ := t
    cases hx
    rfl
  · have hd : (m.perform random t).machine.clocks.sound = m.clocks.sound :=
      sound_execute (not_exists.mp h)
    have hnone : t.chime? m = none := by
      unfold Traced.chime?
      split
      next x hx => exact absurd ⟨x, hx⟩ h
      next => rfl
    have hbind : (m.perform random t).traced.bind (Traced.chime? m) = none := by
      unfold Step.traced
      split
      · exact hnone
      · rfl
    rw [hd, hbind]
    rfl

end Machine

theorem Session.sound_proceed (s : Session) (random : UInt8) :
    (s.proceed random).machine.clocks.sound =
      ((s.proceed random).traced.bind (Traced.chime? s.machine)).elim s.machine.clocks.sound
        s.machine.clocks.sound.set := by
  obtain ⟨m, parked⟩ := s
  cases parked with
  | some t => exact m.sound_perform random t
  | none =>
      show (m.step random).machine.clocks.sound =
        ((m.step random).traced.bind (Traced.chime? m)).elim m.clocks.sound m.clocks.sound.set
      rcases Machine.stage_cases m with hf | ⟨w, hw, hi⟩ | ⟨w, i, hw, hi⟩
      · rw [Machine.step_of_not_fetches hf]
        rfl
      · rw [Machine.step_of_unsupported hw hi]
        rfl
      · rw [Machine.step_of_standsFor hw hi]
        exact m.advance.sound_perform random ⟨m.pc, w, i⟩

theorem Countdown.count_finish (c : Countdown) : c.finish.1.count = c.count := by
  unfold finish
  split <;> rfl

/-- What the processor sets the sound timer to in its next move, if it sets it. -/
def Run.chime? (r : Run) (random : UInt8) : Option UInt8 :=
  (r.told (.proceed random)).bind (Traced.chime? r.machine)

/-- A move of the processor leaves the count of the sound timer, unless it sets it. -/
theorem Run.count_sound_proceed (r : Run) (random : UInt8) :
    (r.proceed random).machine.clocks.sound.count =
      (r.chime? random).getD r.machine.clocks.sound.count := by
  unfold Run.chime?
  by_cases hb : r.phase = .issuing ∨ ∃ t, r.phase = .waiting t
  · have he : r.move (.proceed random) = r.take ((Session.ofRun r).proceed random) :=
      proceed_eq_take random hb
    have hm : (Session.ofRun r).machine = r.machine := rfl
    rw [told_take he, proceed_eq_take random hb, machine_take, Session.sound_proceed, hm]
    cases ((Session.ofRun r).proceed random).traced.bind (Traced.chime? r.machine) <;> rfl
  · obtain ⟨hi, hw⟩ := not_or.mp hb
    rw [told_quiet (quiet_proceed random hi (not_exists.mp hw))]
    show (r.proceed random).machine.clocks.sound.count = r.machine.clocks.sound.count
    unfold proceed
    cases hp : r.phase with
    | looking | «over» => rfl
    | issuing => exact absurd hp hi
    | waiting t => exact absurd ⟨t, hp⟩ hw
    | leaving fault? =>
        show r.machine.clocks.sound.stop.1.count = r.machine.clocks.sound.count
        rw [Countdown.stop_eq_finish, Countdown.count_finish]

/-! ## Windings -/

namespace Course

/-- Whether the processor executes `FX18` in a move and VX is not zero. -/
def winds (c : Course) : Move → Bool
  | .proceed random =>
      match c.unseen, c.ahead with
      | [], .work :: _ => (c.run.chime? random).any (· ≠ 0)
      | _, _ => false
  | _ => false

/-- In how many moves it does. -/
def windings (c : Course) : List Move → Nat
  | [] => 0
  | mv :: ms => (if c.winds mv then 1 else 0) + (c.move mv).windings ms

/-- The beeps that were seen, the one that is owed, and the one still to come. -/
def stock (c : Course) : Nat :=
  (c.log ++ c.unseen).count .beep + (if c.owes then 1 else 0) + c.run.machine.clocks.sound.pending

end Course

variable {c : Course} {d : Deed} {ahead : List Deed}

theorem Countdown.pending_of_count {c c' : Countdown} (h : c'.count = c.count) :
    c'.pending = c.pending := by
  unfold pending
  rw [h]

theorem Countdown.pending_le_one (c : Countdown) : c.pending ≤ 1 := by
  unfold pending
  split <;> omega

theorem Countdown.pending_of_zero {c : Countdown} (h : c.count = 0) : c.pending = 0 := if_pos h

/-- A tick lowers what is to come by what it makes the timer owe. -/
theorem Countdown.pending_lowered (c : Countdown) :
    (if c.firesNext then 1 else 0) + c.lowered.pending ≤ c.pending := by
  by_cases hw : c.worker = .ticking
  · by_cases h0 : c.count = 0
    · simp [firesNext, lowered, pending, lower, hw, h0]
    · by_cases h1 : c.count = 1
      · simp [firesNext, lowered, pending, lower, hw, h1]
      · have hf : c.firesNext = false := by simp [firesNext, h1]
        have hp : c.pending = 1 := if_neg h0
        rw [hf, hp]
        simpa using c.lowered.pending_le_one
  · simp [firesNext, lowered, hw]

/-- Only the work can give the sound timer something to count. -/
theorem Deed.pending_does (r : Run) (random : UInt8) (d : Deed) :
    (d.does r random).machine.clocks.sound.pending ≤ r.machine.clocks.sound.pending +
      if d = .work ∧ (r.chime? random).any (· ≠ 0) then 1 else 0 := by
  have hkeep {r' : Run} {b : Prop} [Decidable b]
      (h : r'.machine.clocks.sound.count = r.machine.clocks.sound.count) :
      r'.machine.clocks.sound.pending ≤ r.machine.clocks.sound.pending + if b then 1 else 0 := by
    rw [Countdown.pending_of_count h]
    exact Nat.le_add_right _ _
  cases d with
  | startDelay =>
      refine hkeep ?_
      rw [does, Run.machine_begin, Clocks.sound_startDelay]
  | startSound =>
      rw [does, Run.machine_begin]
      by_cases hs : r.machine.settings.soundHz = 0
      · rw [hs, Clocks.sound_startSound_zero]
        exact Nat.le_add_right _ _
      · rw [Clocks.startSound_of_ne_zero _ hs, Countdown.pending_of_zero rfl]
        exact Nat.zero_le _
  | boot =>
      refine hkeep ?_
      show (r.speaker.onBoot.foldl Machine.act r.machine).clocks.sound.count = _
      rw [Machine.clocks_actAll]
  | work =>
      show (r.proceed random).machine.clocks.sound.pending ≤ _
      have hc := r.count_sound_proceed random
      cases ht : r.chime? random with
      | none =>
          rw [ht] at hc
          exact hkeep hc
      | some count =>
          rw [ht] at hc
          have hc : (r.proceed random).machine.clocks.sound.count = count := hc
          by_cases h0 : count = 0
          · rw [Countdown.pending_of_zero (hc.trans h0)]
            exact Nat.zero_le _
          · have hw : (some count).any (· ≠ 0) = true := by simpa using h0
            rw [hw, if_pos ⟨rfl, rfl⟩]
            exact Nat.le_add_left_of_le (Countdown.pending_le_one _)
  | joinSound =>
      refine hkeep ?_
      show r.machine.clocks.sound.stop.1.count = _
      rw [Countdown.stop_eq_finish, Countdown.count_finish]
  | enter | announce | joinDelay | tell | off | report => exact hkeep rfl

namespace Course

/-! ## Beeps and windings -/

theorem stock_proceed (c : Course) (random : UInt8) :
    (c.proceed random).stock ≤ c.stock + if c.winds (.proceed random) then 1 else 0 := by
  rcases c.proceed_cases random with
    ⟨he, -⟩ | ⟨s, unseen, hu, he⟩ | ⟨d, ahead, hu, ha, -, he⟩
  · rw [he]
    exact Nat.le_add_right _ _
  · rw [he]
    unfold stock
    rw [hu, List.append_assoc]
    exact Nat.le_add_right _ _
  · have hwinds : c.winds (.proceed random) =
        decide (d = .work ∧ (c.run.chime? random).any (· ≠ 0)) := by
      unfold winds
      dsimp only
      rw [hu, ha]
      cases d <;> simp
    have hp := d.pending_does c.run random
    rw [he, hwinds]
    simp only [stock, hu, List.append_nil, List.count_append,
      List.count_eq_zero_of_not_mem (d.beep_not_mem_sights c.run random), decide_eq_true_eq]
    omega

theorem stock_callSpeaker (c : Course) : c.callSpeaker.stock = c.stock := by
  cases ho : c.owes with
  | false => rw [callSpeaker_of_not_owes ho]
  | true =>
      have hp : (c.callSpeaker).run.machine.clocks.sound.pending =
          c.run.machine.clocks.sound.pending := by
        refine Countdown.pending_of_count ?_
        rw [callSpeaker_of_owes ho]
        show (c.run.speaker.onBeep.foldl Machine.act _).clocks.sound.count = _
        rw [Machine.clocks_actAll]
        exact Countdown.count_fire _
      unfold stock
      rw [hp, callSpeaker_of_owes ho, ho]
      simp only [List.count_append, List.count_singleton_self, if_true]
      simp
      omega

theorem stock_tickSound (c : Course) : c.tickSound.stock ≤ c.stock := by
  cases ho : c.owes with
  | true => exact Nat.le_of_eq (congrArg stock (tickSound_of_owes ho))
  | false =>
      have hp := c.run.machine.clocks.sound.pending_lowered
      rw [tickSound_of_not_owes ho]
      unfold stock
      rw [ho]
      show _ + (if c.run.machine.clocks.sound.firesNext then 1 else 0) +
        c.run.machine.clocks.sound.lowered.pending ≤ _
      simp only [Bool.false_eq_true, if_false]
      omega

/-- No move adds to what there is but a winding. -/
theorem stock_move (c : Course) (mv : Move) :
    (c.move mv).stock ≤ c.stock + if c.winds mv then 1 else 0 := by
  cases mv with
  | proceed random => exact c.stock_proceed random
  | act a => exact Nat.le_refl _
  | tickDelay => exact Nat.le_refl _
  | tickSound => exact c.stock_tickSound
  | callSpeaker => exact Nat.le_of_eq c.stock_callSpeaker

theorem stock_moves (ms : List Move) :
    ∀ c : Course, (c.moves ms).stock ≤ c.stock + c.windings ms := by
  induction ms with
  | nil => exact fun c => Nat.le_refl _
  | cons mv ms ih =>
      intro c
      refine Nat.le_trans (ih (c.move mv)) ?_
      rw [windings, ← Nat.add_assoc]
      exact Nat.add_le_add_right (c.stock_move mv) _

/-- In a course there are at most as many beeps as windings. -/
theorem count_beep_le (m : Machine) (entry : UInt16) (speaker : Speaker) (observer : Observer)
    (ms : List Move) : ((start m entry speaker observer).moves ms).log.count .beep ≤
      (start m entry speaker observer).windings ms := by
  have hstock : (start m entry speaker observer).stock = 0 := rfl
  have hle := stock_moves ms (start m entry speaker observer)
  rw [hstock, Nat.zero_add] at hle
  refine Nat.le_trans ?_ hle
  unfold stock
  rw [List.count_append]
  omega

end Course

end SuperChip
