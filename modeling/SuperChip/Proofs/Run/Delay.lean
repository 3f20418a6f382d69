import SuperChip.Proofs.Countdown
import SuperChip.Proofs.Run.Shutdown

/-!
# The delay in a run

In a run the delay ticks when its clock does, is set by `FX15`, and is read by `FX07`.
Nothing else reaches it while the run lasts, the sound timer and its speaker included
(`delay_moves`).  So what `FX07` reads is what the last `FX15` set less the ticks of the
delay in between (`read_delay`).

`timers_count_down` puts this beside the laws of a single countdown.
-/

namespace SuperChip

/-! ## What the processor does with the delay -/

/-- What executing an instruction does with the delay, if anything. -/
def Traced.delayOp? (m : Machine) (t : Traced) : Option Countdown.Op :=
  match t.instruction with
  | .setDelay x => some (.set (m.v x))
  | .loadDelay _ => some .get
  | _ => none

namespace Machine

variable {m : Machine} {random : UInt8}

theorem delay_execute {i : Instruction} (h : ∀ x, i ≠ .setDelay x) :
    (m.execute random i).machine.clocks.delay = m.clocks.delay := by
  cases i with
  | setDelay x => exact absurd rfl (h x)
  | setSound x => rfl
  | _ =>
      refine congrArg Clocks.delay (same_execute (p := .clocks) random ?_)
      simp [Instruction.footprint]

/-- What is told of an instruction says what was done with the delay.  Setting it is always
told. -/
theorem delay_perform (m : Machine) (random : UInt8) (t : Traced) :
    (m.perform random t).machine.clocks.delay =
      m.clocks.delay.after ((m.perform random t).traced.bind (Traced.delayOp? m)).toList := by
  by_cases h : ∃ x, t.instruction = .setDelay x
  · obtain ⟨x, hx⟩ := h
    obtain ⟨pc, word, i⟩ := t
    cases hx
    rfl
  · have hd : (m.perform random t).machine.clocks.delay = m.clocks.delay :=
      delay_execute (not_exists.mp h)
    have hop : t.delayOp? m = none ∨ t.delayOp? m = some .get := by
      unfold Traced.delayOp?
      split
      next x hx => exact absurd ⟨x, hx⟩ h
      next => exact .inr rfl
      next => exact .inl rfl
    rw [hd]
    unfold Step.traced
    split
    next =>
      show _ = m.clocks.delay.after (t.delayOp? m).toList
      rcases hop with hop | hop <;> rw [hop] <;> rfl
    next => rfl

/-- Others reach the delay only by letting it tick. -/
theorem delay_stir (speaker : Speaker) (x : Stir) :
    (m.stir speaker x).clocks.delay =
      if x = .tickDelay then m.clocks.delay.tick else m.clocks.delay := by
  cases x with
  | act a => rfl
  | tickDelay => rfl
  | tickSound =>
      unfold stir
      dsimp only
      split
      · rw [clocks_actAll]
        rfl
      · rfl

end Machine

theorem Session.delay_proceed (s : Session) (random : UInt8) :
    (s.proceed random).machine.clocks.delay = s.machine.clocks.delay.after
      ((s.proceed random).traced.bind (Traced.delayOp? s.machine)).toList := by
  obtain ⟨m, parked⟩ := s
  cases parked with
  | some t => exact m.delay_perform random t
  | none =>
      show (m.step random).machine.clocks.delay =
        m.clocks.delay.after ((m.step random).traced.bind (Traced.delayOp? m)).toList
      rcases Machine.stage_cases m with hf | ⟨w, hw, hi⟩ | ⟨w, i, hw, hi⟩
      · rw [Machine.step_of_not_fetches hf]
        rfl
      · rw [Machine.step_of_unsupported hw hi]
        rfl
      · rw [Machine.step_of_standsFor hw hi]
        exact m.advance.delay_perform random ⟨m.pc, w, i⟩

namespace Run

/-! ## While a run lasts -/

/-- What a move does with the delay, if anything. -/
def delayOp? (r : Run) (mv : Move) : Option Countdown.Op :=
  if mv = .tickDelay then some .tick else (r.told mv).bind (Traced.delayOp? r.machine)

/-- What moves do with the delay. -/
def delayOps (r : Run) : List Move → List Countdown.Op
  | [] => []
  | mv :: ms => (r.delayOp? mv).toList ++ (r.move mv).delayOps ms

def isOver (r : Run) : Prop := ∃ fault?, r.phase = .over fault?

variable {r : Run}

theorem isOver_moves (h : r.isOver) (ms : List Move) : (r.moves ms).isOver := by
  obtain ⟨fault?, hp⟩ := h
  exact ⟨fault?, (Left.gone hp).windsUp.result ms (Nat.zero_le _)⟩

/-- A move that does not end the run reaches the delay as it says. -/
theorem delay_move (r : Run) (mv : Move) (h : ¬(r.move mv).isOver) :
    (r.move mv).machine.clocks.delay =
      r.machine.clocks.delay.after (r.delayOp? mv).toList := by
  rcases mv.cases with ⟨random, rfl⟩ | ⟨x, rfl⟩
  · have hop : r.delayOp? (.proceed random) =
        (r.told (.proceed random)).bind (Traced.delayOp? r.machine) :=
      if_neg fun he => by cases he
    by_cases hb : r.phase = .issuing ∨ ∃ t, r.phase = .waiting t
    · have he : r.move (.proceed random) = r.take ((Session.ofRun r).proceed random) :=
        proceed_eq_take random hb
      rw [hop, told_take he, he, machine_take]
      exact Session.delay_proceed (Session.ofRun r) random
    · obtain ⟨hi, hw⟩ := not_or.mp hb
      rw [hop, told_quiet (quiet_proceed random hi (not_exists.mp hw))]
      show (r.proceed random).machine.clocks.delay = r.machine.clocks.delay
      have hover (hf : ∃ fault?, r.phase = .leaving fault?) : (r.proceed random).isOver := by
        obtain ⟨fault?, hp⟩ := hf
        rw [proceed, hp]
        exact ⟨fault?, rfl⟩
      unfold proceed
      cases hp : r.phase with
      | looking | «over» => rfl
      | issuing => exact absurd hp hi
      | waiting t => exact absurd ⟨t, hp⟩ hw
      | leaving fault? => exact absurd (hover ⟨fault?, hp⟩) h
  · rw [machine_stir, Machine.delay_stir, delayOp?, told_quiet (quiet_stir x)]
    cases x <;> rfl

theorem delay_moves (ms : List Move) : ∀ {r : Run}, ¬(r.moves ms).isOver →
    (r.moves ms).machine.clocks.delay = r.machine.clocks.delay.after (r.delayOps ms) := by
  induction ms with
  | nil => exact fun _ => rfl
  | cons mv ms ih =>
      intro r h
      have hmv : ¬(r.move mv).isOver := fun ho => h (isOver_moves ho ms)
      rw [delayOps, Countdown.after_append, ← delay_move r mv hmv]
      exact ih h

/-- Moves let the delay tick as often as its clock does. -/
theorem count_delayOps (ms : List Move) :
    ∀ r : Run, (r.delayOps ms).count .tick = ms.count .tickDelay := by
  have hone (r : Run) (mv : Move) :
      (r.delayOp? mv).toList.count .tick = if mv = .tickDelay then 1 else 0 := by
    unfold delayOp?
    split
    · rfl
    · cases r.told mv with
      | none => rfl
      | some t =>
          show (t.delayOp? r.machine).toList.count .tick = 0
          unfold Traced.delayOp?
          split <;> rfl
  induction ms with
  | nil => exact fun _ => rfl
  | cons mv ms ih =>
      intro r
      rw [delayOps, List.count_append, hone, ih, List.count_cons, Nat.add_comm]
      simp only [beq_iff_eq]

/-- Where no `FX15` is told, the delay is not set. -/
theorem set_not_mem_delayOps (ms : List Move) : ∀ {r : Run} {ts : List Traced},
    (r.moves ms).trace = r.trace ++ ts → (∀ t ∈ ts, ∀ x, t.instruction ≠ .setDelay x) →
    ∀ count, .set count ∉ r.delayOps ms := by
  have hone (r : Run) (mv : Move)
      (h : ∀ t ∈ (r.told mv).toList, ∀ x, t.instruction ≠ .setDelay x) (count : UInt8) :
      .set count ∉ (r.delayOp? mv).toList := by
    unfold delayOp?
    split
    · simp
    · cases ht : r.told mv with
      | none => simp
      | some t =>
          have hset := h t (by simp [ht])
          show .set count ∉ (t.delayOp? r.machine).toList
          unfold Traced.delayOp?
          split
          next x hx => exact absurd hx (hset x)
          next => simp
          next => simp
  induction ms with
  | nil => exact fun _ _ _ hm => by cases hm
  | cons mv ms ih =>
      intro r ts htrace hts count hm
      obtain ⟨ts', hts'⟩ := trace_moves ms (r.move mv)
      have hsplit : ts = (r.told mv).toList ++ ts' := by
        refine (List.append_right_inj r.trace).mp ?_
        rw [← htrace, ← List.append_assoc, ← trace_move]
        exact hts'
      subst hsplit
      rcases List.mem_append.mp hm with hm | hm
      · exact hone r mv (fun t ht => hts t (List.mem_append_left _ ht)) count hm
      · exact ih hts' (fun t ht => hts t (List.mem_append_right _ ht)) count hm

/-! ## From the start on -/

theorem steady_start (m : Machine) (entry : UInt16) (speaker : Speaker) (observer : Observer) :
    (start m entry speaker observer).isOver ∨
      (start m entry speaker observer).machine.clocks.delay.Steady := by
  by_cases hd : m.settings.delayHz = 0
  · left
    unfold start Clocks.start
    rw [hd, Clocks.attempt_zero]
    exact ⟨_, rfl⟩
  by_cases hs : m.settings.soundHz = 0
  · left
    unfold start Clocks.start
    rw [hs, Clocks.attempt_of_sound_zero hd]
    exact ⟨_, rfl⟩
  · right
    rw [(start_of_ticks hd hs entry speaker observer).2, Machine.clocks_actAll]
    exact ⟨rfl, fun he => by cases he⟩

/-- As long as a run lasts, its delay ticks. -/
theorem steady_moves (m : Machine) (entry : UInt16) (speaker : Speaker) (observer : Observer)
    {ms : List Move} (h : ¬((start m entry speaker observer).moves ms).isOver) :
    ((start m entry speaker observer).moves ms).machine.clocks.delay.Steady := by
  rw [delay_moves ms h]
  rcases steady_start m entry speaker observer with ho | hs
  · exact absurd (isOver_moves ho ms) h
  · exact hs.after _

theorem not_isOver_of_issuing (h : r.phase = .issuing) : ¬r.isOver := by
  rintro ⟨fault?, hp⟩
  rw [h] at hp
  cases hp

/-- In a run `FX07` reads what `FX15` set less the ticks of the delay since then, if no
other `FX15` is told in between. -/
theorem read_delay {x y : UInt8} {ms : List Move} {ts : List Traced} {random : UInt8}
    (hs : r.machine.clocks.delay.Steady) (hp : r.phase = .issuing)
    (hx : r.machine.Issues (.setDelay x))
    (ht : ((r.proceed random).moves ms).trace = (r.proceed random).trace ++ ts)
    (hts : ∀ t ∈ ts, ∀ z, t.instruction ≠ .setDelay z)
    (hp' : ((r.proceed random).moves ms).phase = .issuing)
    (hy : ((r.proceed random).moves ms).machine.Issues (.loadDelay y)) (random' : UInt8) :
    ((((r.proceed random).moves ms).proceed random').machine.v y).toNat =
      (r.machine.v x).toNat - ms.count .tickDelay := by
  have hset : (r.proceed random).machine.clocks.delay =
      r.machine.clocks.delay.set (r.machine.v x) := by
    obtain ⟨w, hw, hi⟩ := hx
    rw [proceed_of_issuing hp, machine_take, Machine.step_of_standsFor hw hi]
    rfl
  have hsteady : (r.proceed random).machine.clocks.delay.Steady := by
    rw [hset]
    exact hs.apply (.set _)
  have hcount := hsteady.count_after_of_no_set _ (set_not_mem_delayOps ms ht hts)
  rw [← delay_moves ms (not_isOver_of_issuing hp'), count_delayOps, hset] at hcount
  obtain ⟨w, hw, hi⟩ := hy
  have hread : (((r.proceed random).moves ms).proceed random').machine.v y =
      ((r.proceed random).moves ms).machine.clocks.delay.count := by
    rw [proceed_of_issuing hp', machine_take, Machine.step_of_standsFor hw hi]
    exact (Bank.read_write (hi.named y List.mem_cons_self)).trans (if_pos rfl)
  rw [hread, hcount]
  rfl

/-- The countdown law.  For a timer that was just started, with a callback that returns,
whatever is done with it: what is read is what it was set to last less the ticks since
then; the callback is called by the ticks that take the count from one to zero and by
nothing else; between two such ticks the timer is set to something; there are no more of
them than times that it was set to something; and a number that it is set to is counted
down to one of them, if there are ticks enough before it is set again.

Of the two timers of a machine, each does what it would do alone.  So in a run `FX07` reads
what `FX15` set less the ticks of the delay in between. -/
theorem timers_count_down {name : String} {hz : UInt32} {c : Countdown}
    {entries : List Journal.Entry}
    (h : Countdown.start name hz (some .returns) = .ok (c, entries)) :
    (∀ ops, ∃ v, (c.after ops).answer .get = some v ∧
      v.toNat = (Countdown.latest ops).toNat - Countdown.since ops) ∧
    (∀ ops op, (c.after (ops ++ [op])).calls = (c.after ops).calls +
      if op = .tick ∧ (c.after ops).count = 1 ∧ (c.after (ops ++ [op])).count = 0 then 1 else 0) ∧
    (∀ ops ops', c.Fires ops → c.Fires (ops ++ .tick :: ops') → ∃ op ∈ ops', op.winds = true) ∧
    (∀ ops, (c.after ops).calls ≤ ops.countP Countdown.Op.winds) ∧
    (∀ ops v ops', v ≠ 0 → (∀ w, .set w ∉ ops') → v.toNat ≤ ops'.count .tick →
      (c.after (ops ++ .set v :: ops')).calls = (c.after ops).calls + 1) ∧
    (∀ (k : Clocks) ops, (k.after ops).delay = k.delay.after (ops.filterMap Clocks.Op.delay?) ∧
      (k.after ops).sound = k.sound.after (ops.filterMap Clocks.Op.sound?)) ∧
    ∀ m entry speaker observer before random ms random' x y ts,
      let r := (start m entry speaker observer).moves before
      let r' := (r.proceed random).moves ms
      r.phase = .issuing → r.machine.Issues (.setDelay x) →
      r'.trace = (r.proceed random).trace ++ ts →
      (∀ t ∈ ts, ∀ z, t.instruction ≠ .setDelay z) →
      r'.phase = .issuing → r'.machine.Issues (.loadDelay y) →
      ((r'.proceed random').machine.v y).toNat = (r.machine.v x).toNat - ms.count .tickDelay := by
  obtain ⟨hs, hc, h0, hcalls⟩ := Countdown.steady_of_start h (by decide)
  refine ⟨?_, ?_, ?_, ?_, ?_, ?_, ?_⟩
  · exact fun ops => ⟨_, rfl, hs.count_after h0 ops⟩
  · intro ops op
    rw [Countdown.after_append_singleton]
    exact (hs.after ops).calls_apply ((hs.callback_after ops).trans hc) op
  · exact fun ops ops' => hs.winds_between hc
  · intro ops
    have hle := hs.calls_after_le hc ops
    have hpending : c.pending = 0 := if_pos h0
    rw [hcalls, hpending] at hle
    omega
  · intro ops v ops' hv hn hle
    rw [Countdown.after_append]
    exact (hs.after ops).calls_after_set ((hs.callback_after ops).trans hc) hv hn hle
  · exact fun k ops => ⟨k.delay_after ops, k.sound_after ops⟩
  · intro m entry speaker observer before random ms random' x y ts r r' hp hx ht hts hp' hy
    have hsteady : r.machine.clocks.delay.Steady :=
      steady_moves m entry speaker observer (not_isOver_of_issuing hp)
    exact read_delay hsteady hp hx ht hts hp' hy random'

/-- A countdown from two is called for once, and a program reads three after it set five
and the delay ticked twice. -/
theorem timers_count_down_to_three :
    ∃ c entries, Countdown.start "sound" 60 (some .returns) = .ok (c, entries) ∧
      (c.after [.get, .set 2, .tick, .get, .tick, .tick]).calls = 1 ∧
      let m : Machine := { Machine.tiny with ram := ⟨#[0xF3, 0x15, 0xF4, 0x07]⟩ }
      let r := (start (m.setV 3 5) 0 .mute .nobody).moves [.proceed 0]
      let r' := (r.proceed 0).moves [.tickDelay, .tickSound, .proceed 0, .tickDelay]
      r.machine.v 3 = 5 ∧ ((r'.proceed 0).machine.v 4).toNat = 5 - 2 := by
  have h : Countdown.start "sound" 60 (some .returns) =
      .ok (⟨"sound", 60, some .returns, 0, .ticking, 0⟩, [.timerStarted "sound" 60]) := rfl
  obtain ⟨-, -, -, -, hset, -, hread⟩ := timers_count_down h
  refine ⟨_, _, h, hset [.get] 2 [.tick, .get, .tick, .tick] (by decide) ?_ (by decide), ?_⟩
  · intro w hw
    simp at hw
  intro m r r'
  have hx : r.machine.Issues (.setDelay 3) :=
    ⟨0xF315, by unfold Machine.Fetches; decide +kernel, ⟨.setDelay, ⟨rfl, trivial, rfl, rfl⟩, rfl⟩⟩
  have hy : r'.machine.Issues (.loadDelay 4) :=
    ⟨0xF407, by unfold Machine.Fetches; decide +kernel, ⟨.loadDelay, ⟨rfl, trivial, rfl, rfl⟩, rfl⟩⟩
  have hv : r.machine.v 3 = 5 := by decide +kernel
  have hp : r.phase = .issuing := by decide +kernel
  have hp' : r'.phase = .issuing := by decide +kernel
  have ht : r'.trace = (r.proceed 0).trace ++ [] := by decide +kernel
  have hn := hread (m.setV 3 5) 0 .mute .nobody [.proceed 0] 0
    [.tickDelay, .tickSound, .proceed 0, .tickDelay] 0 3 4 [] hp hx ht (by simp) hp' hy
  refine ⟨hv, hn.trans ?_⟩
  rw [hv]
  rfl

end Run

end SuperChip
