import SuperChip.Proofs.Lasting
import SuperChip.Proofs.Run.Beeps

/-!
# The order of things in a run

A run whose timers start is bracketed.  Both timers are started, the delay first, then the
speaker is switched on and the run says where it runs from.  Then come the instructions.
Behind them, whatever ended them, both timers are joined, then the speaker is switched off and
the run says where it stopped.

The sound timer ticks all the while, from before the speaker is switched on.  It is *mute* as
long as its count is zero and it owes nothing, and once it is joined, so it is heard neither
before the first instruction nor behind the join.  That is the invariant (`Course.Stands`),
with one rule for each of the places where the processor can be.

`course_brackets` says this of the log of every course, and that there are at most as many
beeps in it as windings of the sound timer.
-/

namespace SuperChip

/-! ## What is seen of the work -/

/-- What can happen in the work of a run. -/
def Happening.ofWork : Happening → Bool
  | .executed _ | .beep => true
  | .noted (.executed _) | .noted .waitInterrupted | .noted (.keyNotRead _) => true
  | _ => false

/-- What can be seen of the work of a run. -/
def Sight.ofWork : Sight → Bool
  | .happened h => h.ofWork
  | _ => false

namespace Machine

variable {m : Machine} {random : UInt8}

/-- An instruction leaves nothing in the journal but that shutdown ended a wait. -/
theorem ofWork_entries_execute (i : Instruction) :
    ∀ e ∈ (m.execute random i).entries, (Happening.noted e).ofWork = true := by
  cases i with
  | ret =>
      rw [execute, executeReturn]
      split <;> simp [Outcome.done, Outcome.failed]
  | call address =>
      rw [execute, executeCall]
      split <;> simp [Outcome.done, Outcome.failed]
  | draw x y n =>
      rw [execute, executeDraw]
      dsimp only
      split <;> simp [Outcome.done, Outcome.failed]
  | waitKey x =>
      rw [execute, executeWait]
      split <;> simp [Outcome.done, Keypad.Waited.entries, Happening.ofWork]
  | bcd x | store x =>
      rw [execute, executeWrite]
      split <;> simp [Outcome.done, Outcome.failed]
  | read x =>
      rw [execute, executeRead]
      split <;> simp [Outcome.done, Outcome.failed]
  | _ => simp [execute, Outcome.done]

/-- What a step notes is of the work between the brackets. -/
theorem ofWork_entries_step :
    ∀ e ∈ (m.step random).entries, (Happening.noted e).ofWork = true := by
  rcases stage_cases m with hf | ⟨w, hw, hi⟩ | ⟨w, i, hw, hi⟩
  · rw [step_of_not_fetches hf]
    simp
  · rw [step_of_unsupported hw hi]
    simp
  · rw [step_of_standsFor hw hi]
    exact ofWork_entries_execute i

end Machine

namespace Run

variable {r : Run}

/-- Taking over a step adds only what is of the work. -/
theorem ofWork_take {s : Machine.Step} (h : ∀ e ∈ s.entries, (Happening.noted e).ofWork = true) :
    ∃ hs, (r.take s).history.toList = r.history.toList ++ hs ∧ ∀ x ∈ hs, x.ofWork = true := by
  refine ⟨_, toList_history_take s, fun x hx => ?_⟩
  rcases List.mem_append.mp hx with hx | hx
  · obtain ⟨e, he, rfl⟩ := List.mem_map.mp hx
    exact h e he
  · obtain ⟨t, -, hx⟩ := List.mem_flatMap.mp hx
    rcases List.mem_cons.mp hx with rfl | hx
    · rfl
    · obtain ⟨e, he, rfl⟩ := List.mem_map.mp hx
      unfold Observer.entries at he
      split at he
      · cases List.mem_singleton.mp he
        rfl
      · cases he

/-- All that happens before a run leaves is work. -/
theorem ofWork_proceed (h : r.phase.left = false) (random : UInt8) :
    ∃ hs, (r.proceed random).history.toList = r.history.toList ++ hs ∧
      ∀ x ∈ hs, x.ofWork = true := by
  have hnone : ∃ hs, r.history.toList = r.history.toList ++ hs ∧
      ∀ x ∈ hs, Happening.ofWork x = true := ⟨[], (List.append_nil _).symm, by simp⟩
  unfold proceed
  split
  next => exact hnone
  next => exact ofWork_take Machine.ofWork_entries_step
  next t _ => exact ofWork_take (Machine.ofWork_entries_execute t.instruction)
  next hp =>
    rw [hp] at h
    cases h
  next hp =>
    rw [hp] at h
    cases h

end Run

/-! ## What a run keeps -/

namespace Countdown

/-- A countdown that calls nothing, so that nothing brings its worker down. -/
structure Calm (c : Countdown) : Prop where
  callback : c.callback = none
  worker : c.worker ≠ .down

variable {c : Countdown}

/-- A calm countdown stays calm as it ticks. -/
theorem Calm.tick (h : c.Calm) : c.tick.Calm := by
  obtain ⟨hc, hw⟩ := h
  obtain ⟨name, hz, callback, count, worker, calls⟩ := c
  cases hc
  unfold Countdown.tick fire
  split
  · dsimp only
    split <;> exact ⟨rfl, hw⟩
  · exact ⟨rfl, hw⟩

theorem Calm.after (ops : List Op) : ∀ {c : Countdown}, c.Calm → (c.after ops).Calm := by
  induction ops with
  | nil => exact id
  | cons op ops ih =>
      intro c h
      refine ih ?_
      cases op with
      | set count => exact ⟨h.callback, h.worker⟩
      | get => exact h
      | tick => exact h.tick

/-- A calm countdown is finished without a word. -/
theorem Calm.finish (h : c.Calm) : c.finish.1.Calm ∧ c.finish.2 = [] := by
  obtain ⟨hc, hw⟩ := h
  unfold Countdown.finish
  cases hk : c.worker with
  | ticking => exact ⟨⟨hc, by simp⟩, rfl⟩
  | down => exact absurd hk hw
  | ended => exact ⟨⟨hc, hw⟩, rfl⟩

/-- A calm countdown is stopped without a word. -/
theorem Calm.stop (h : c.Calm) : c.stop.1.Calm ∧ c.stop.2 = [] := by
  rw [stop_eq_finish]
  exact h.finish

theorem worker_lowered (c : Countdown) : c.lowered.worker = c.worker := by
  unfold lowered
  split <;> rfl

theorem count_lowered_of_zero (h : c.count = 0) :
    c.lowered.count = 0 := by
  unfold lowered
  split
  · rw [h]
    rfl
  · exact h

end Countdown

namespace Run

variable {r : Run} {settings : Settings} {speaker : Speaker}

/-- A run of a machine of some settings with a speaker.  Nothing brings its delay down. -/
structure Keeps (r : Run) (settings : Settings) (speaker : Speaker) : Prop where
  settings : r.machine.settings = settings
  speaker : r.speaker = speaker
  delay : r.machine.clocks.delay.Calm

/-- The processor leaves the settings and the speaker, and the delay calm. -/
theorem Keeps.proceed (h : r.Keeps settings speaker) (random : UInt8) :
    (r.proceed random).Keeps settings speaker where
  settings := by
    have hlasting : Machine.Lasting (·.settings = settings) :=
      ⟨fun h random i => Eq.trans
          (Machine.same_execute (p := .settings) random (Machine.settings_not_mem_footprint i)) h,
        fun h _ => h, fun h _ _ _ _ => h, fun h _ => h, fun h _ => h, fun h _ => h⟩
    exact hlasting.proceed h.settings random
  speaker := (speaker_move (.proceed random)).trans h.speaker
  delay := by
    by_cases hb : r.phase = .issuing ∨ ∃ t, r.phase = .waiting t
    · rw [proceed_eq_take random hb, machine_take, Session.delay_proceed]
      exact Countdown.Calm.after _ h.delay
    · obtain ⟨hi, hw⟩ := not_or.mp hb
      unfold Run.proceed
      cases hp : r.phase with
      | looking | «over» => exact h.delay
      | issuing => exact absurd hp hi
      | waiting t => exact absurd ⟨t, hp⟩ hw
      | leaving fault? => exact h.delay.stop.1

theorem Keeps.actAll (actions : List Keypad.Action) (h : r.Keeps settings speaker) :
    (r.actAll actions).Keeps settings speaker := by
  have hsame (p : Part) (hp : p ≠ .keypad) : p.Same r.machine (r.actAll actions).machine :=
    Machine.same_actAll actions hp
  refine ⟨Eq.trans (hsame .settings (by decide)) h.settings, h.speaker, ?_⟩
  rw [show (r.actAll actions).machine.clocks = r.machine.clocks from hsame .clocks (by decide)]
  exact h.delay

/-- Starting a timer leaves the settings and the speaker. -/
theorem Keeps.begin {part : Clocks.Part} (h : r.Keeps settings speaker)
    (hd : part.clocks.delay.Calm) : (r.begin part).Keeps settings speaker := by
  refine ⟨?_, ?_, ?_⟩
  · rw [machine_begin]
    exact h.settings
  · rw [speaker_begin]
    exact h.speaker
  · rw [machine_begin]
    exact hd

/-- No deed touches the settings or the speaker. -/
theorem Keeps.does (h : r.Keeps settings speaker) (random : UInt8) (d : Deed) :
    (d.does r random).Keeps settings speaker := by
  cases d with
  | startDelay =>
      refine h.begin ?_
      unfold Clocks.startDelay Countdown.start
      split
      next => exact h.delay
      next delay entries hs =>
        split at hs <;> cases hs
        exact ⟨rfl, Worker.noConfusion⟩
  | startSound =>
      refine h.begin ?_
      unfold Clocks.startSound
      split
      · exact h.delay.finish.1
      · exact h.delay
  | boot => exact ⟨(h.actAll r.speaker.onBoot).settings, h.speaker, (h.actAll _).delay⟩
  | work => exact h.proceed random
  | joinDelay => exact ⟨h.settings, h.speaker, h.delay.stop.1⟩
  | enter | announce | joinSound | tell | off | report => exact ⟨h.settings, h.speaker, h.delay⟩

end Run

/-! ## What is seen of a course -/

/-- What is seen of a deed before the work. -/
def Deed.opens (settings : Settings) (speaker : Speaker) : Deed → List Sight
  | .startDelay => [.started "delay" 0, .noted (.timerStarted "delay" settings.delayHz)]
  | .startSound => [.started "sound" 0, .noted (.timerStarted "sound" settings.soundHz)]
  | .boot => .happened .boot :: speaker.bootEntries.map .noted
  | .announce entry => [.noted (.running entry)]
  | _ => []

/-- What is seen of a deed once both timers are joined. -/
def Deed.ends (speaker : Speaker) (pc : UInt16) : Deed → List Sight
  | .tell => [.noted .timersStopped]
  | .off => .happened .off :: speaker.offEntries.map .noted
  | .report => [.noted (.stoppedAt pc)]
  | _ => []

namespace Course

/-- What is seen before the work. -/
def opened (settings : Settings) (entry : UInt16) (speaker : Speaker) : List Sight :=
  [.started "delay" 0, .noted (.timerStarted "delay" settings.delayHz),
      .started "sound" 0, .noted (.timerStarted "sound" settings.soundHz), .happened .boot] ++
    speaker.bootEntries.map .noted ++ [.noted (.running entry)]

/-- What is seen once both timers are joined. -/
def closed (speaker : Speaker) (pc : UInt16) : List Sight :=
  [.noted .timersStopped, .happened .off] ++ speaker.offEntries.map .noted ++
    [.noted (.stoppedAt pc)]

/-- What is seen of a course from its beginning to its end. -/
def bracketed (settings : Settings) (entry : UInt16) (speaker : Speaker) (pc : UInt16)
    (body late failed : List Sight) : List Sight :=
  opened settings entry speaker ++ body ++ .joined "delay" :: late ++
    .joined "sound" :: failed ++ closed speaker pc

/-- What opens a run, and the work behind it, is how every complete log begins. -/
theorem opened_prefix_bracketed (settings : Settings) (entry : UInt16) (speaker : Speaker)
    (pc : UInt16) (body : List Sight) :
    opened settings entry speaker ++ body <+: bracketed settings entry speaker pc body [] [] := by
  simp only [bracketed, List.append_assoc]
  rw [← List.append_assoc]
  exact List.prefix_append _ _

/-- The deeds of the beginning leave what opens a run. -/
theorem flatMap_opens (settings : Settings) (entry : UInt16) (speaker : Speaker) :
    (Deed.opening entry).flatMap (Deed.opens settings speaker) = opened settings entry speaker :=
  rfl

/-- The deeds of the end leave what closes a run. -/
theorem flatMap_ends (speaker : Speaker) (pc : UInt16) :
    Deed.ending.flatMap (Deed.ends speaker pc) = closed speaker pc := rfl

/-- The sound timer has nothing to count and nothing to call, or it was joined. -/
structure Mute (c : Course) : Prop where
  owes : c.owes = false
  sound : c.run.machine.clocks.sound.count = 0 ∨ c.run.machine.clocks.sound.worker = .ended

end Course

namespace Deed

variable {r : Run} {d : Deed} {settings : Settings} {speaker : Speaker} {entry : UInt16}

/-- What a deed before the work does: all of it is seen, nothing of it is left, and the sound
timer is not wound. -/
structure Opens (r : Run) (random : UInt8) (settings : Settings) (speaker : Speaker) (d : Deed) :
    Prop where
  sights : d.sights r (d.does r random) = d.opens settings speaker
  phase : (d.does r random).phase = .looking
  next : ∀ ahead, d.next (d.does r random) ahead = ahead
  sound : (d.does r random).machine.clocks.sound.count = 0 ∨
    (d.does r random).machine.clocks.sound.worker = .ended

theorem not_left_of_looking (h : r.phase = .looking) : ¬r.phase.left = true := by
  rw [h]
  exact Bool.false_ne_true

/-- With ticks the delay is started, and that is all that is seen. -/
theorem opens_startDelay (hd : r.machine.settings.delayHz ≠ 0) (hp : r.phase = .looking)
    (hm : r.machine.clocks.sound.count = 0 ∨ r.machine.clocks.sound.worker = .ended)
    (random : UInt8) : startDelay.Opens r random r.machine.settings speaker := by
  have he := does_startDelay hd random
  have hphase : (startDelay.does r random).phase = .looking := by
    rw [he]
    exact hp
  refine ⟨?_, hphase, fun _ => if_neg (not_left_of_looking hphase), ?_⟩
  · have hh : (startDelay.does r random).history.toList = r.history.toList ++
        [.noted (.timerStarted "delay" r.machine.settings.delayHz)] := by
      rw [he]
      exact Run.toList_history_note _
    rw [sights_eq hh, marks, if_neg (not_left_of_looking hphase), he]
    rfl
  · rw [he]
    exact hm

/-- With ticks the sound is started, and that is all that is seen. -/
theorem opens_startSound (hs : r.machine.settings.soundHz ≠ 0) (hp : r.phase = .looking)
    (random : UInt8) : startSound.Opens r random r.machine.settings speaker := by
  have he := does_startSound hs random
  have hphase : (startSound.does r random).phase = .looking := by
    rw [he]
    exact hp
  refine ⟨?_, hphase, fun _ => if_neg (not_left_of_looking hphase), ?_⟩
  · have hh : (startSound.does r random).history.toList = r.history.toList ++
        [.noted (.timerStarted "sound" r.machine.settings.soundHz)] := by
      rw [he]
      exact Run.toList_history_note _
    rw [sights_eq hh, marks, if_neg (not_left_of_looking hphase), he]
    rfl
  · rw [he]
    exact .inl rfl

/-- Each deed of the beginning leaves what it should in the log. -/
theorem opens_of_mem (h : r.Keeps settings speaker) (hd : settings.delayHz ≠ 0)
    (hs : settings.soundHz ≠ 0) (hp : r.phase = .looking)
    (hm : r.machine.clocks.sound.count = 0 ∨ r.machine.clocks.sound.worker = .ended)
    (hmem : d ∈ opening entry) (random : UInt8) : d.Opens r random settings speaker := by
  obtain ⟨rfl, rfl, -⟩ := h
  simp only [opening, List.mem_cons, List.not_mem_nil, or_false] at hmem
  rcases hmem with rfl | rfl | rfl | rfl | rfl
  · exact opens_startDelay hd hp hm random
  · exact opens_startSound hs hp random
  · have hh : ((enter entry).does r random).history.toList = r.history.toList ++ [] :=
      (List.append_nil _).symm
    exact ⟨sights_eq hh _, hp, fun _ => rfl, hm⟩
  · have hclocks : (boot.does r random).machine.clocks = r.machine.clocks :=
      Machine.clocks_actAll r.speaker.onBoot
    refine ⟨?_, hp, fun _ => rfl, ?_⟩
    · rw [sights_eq (toList_history_boot r random), List.map_cons, List.map_map]
      rfl
    · rw [hclocks]
      exact hm
  · exact ⟨sights_eq (Run.toList_history_note [.running entry]) _, hp, fun _ => rfl, hm⟩

/-- What a deed does once both timers are joined. -/
structure Ends (r : Run) (random : UInt8) (speaker : Speaker) (d : Deed) : Prop where
  sights : d.sights r (d.does r random) = d.ends speaker r.machine.pc
  machine : (d.does r random).machine = r.machine
  next : ∀ ahead, d.next (d.does r random) ahead = ahead

/-- Each deed of the end leaves what it should in the log. -/
theorem ends_of_mem (h : r.speaker = speaker) (hmem : d ∈ ending) (random : UInt8) :
    d.Ends r random speaker := by
  subst h
  simp only [ending, List.mem_cons, List.not_mem_nil, or_false] at hmem
  rcases hmem with rfl | rfl | rfl
  · exact ⟨sights_eq (Run.toList_history_note [.timersStopped]) _, rfl, fun _ => rfl⟩
  · refine ⟨?_, rfl, fun _ => rfl⟩
    rw [sights_eq (toList_history_off r random), List.map_cons, List.map_map]
    rfl
  · exact ⟨sights_eq (Run.toList_history_note [.stoppedAt r.machine.pc]) _, rfl, fun _ => rfl⟩

end Deed

/-- Timers that were started have ticks. -/
theorem Clocks.ne_zero_of_result_start {delayHz soundHz : UInt32} {callback : Callback}
    {clocks : Clocks} (h : (start delayHz soundHz callback).result = .ok clocks) :
    delayHz ≠ 0 ∧ soundHz ≠ 0 := by
  have hd : delayHz ≠ 0 := by
    rintro rfl
    rw [start, attempt_zero] at h
    cases h
  refine ⟨hd, ?_⟩
  rintro rfl
  rw [start, attempt_of_sound_zero hd] at h
  cases h

namespace Course

variable {c c' : Course} {settings : Settings} {entry : UInt16} {speaker : Speaker}

/-! ## Where the processor can be -/

/-- The places of the processor in a course, with what was seen so far. -/
inductive Stands (settings : Settings) (entry : UInt16) (speaker : Speaker) (c : Course) :
    Prop where
  /-- Before the work; what was seen, what is to be seen and the deeds that are left come to
  all that is seen before the work. -/
  | opening (ds : List Deed) (ahead : c.ahead = ds ++ .work :: Deed.closing)
      (suffix : ds <:+ Deed.opening entry) (some_left : ds ≠ [] ∨ c.unseen ≠ [])
      (log : c.log ++ c.unseen ++ ds.flatMap (Deed.opens settings speaker) =
        opened settings entry speaker)
      (mute : c.Mute) (phase : c.run.phase = .looking)
  /-- At work, or done with it. -/
  | working (body : List Sight) (log : c.log = opened settings entry speaker ++ body)
      (work : ∀ s ∈ body ++ c.unseen, s.ofWork = true)
      (ahead : c.ahead = .work :: Deed.closing ∧ c.run.phase.left = false ∨
        c.ahead = Deed.closing)
  /-- With the delay joined. -/
  | joined (body : List Sight) (log : c.log = opened settings entry speaker ++ body)
      (work : ∀ s ∈ body, s.ofWork = true) (unseen : c.unseen = [.joined "delay"])
      (ahead : c.ahead = .joinSound :: Deed.ending)
      (delay : c.run.machine.clocks.delay.worker = .ended)
  /-- With the sound timer still going. -/
  | ringing (body late : List Sight)
      (log : c.log = opened settings entry speaker ++ body ++ .joined "delay" :: late)
      (work : ∀ s ∈ body, s.ofWork = true) (beeps : ∀ s ∈ late, s = .beep) (unseen : c.unseen = [])
      (ahead : c.ahead = .joinSound :: Deed.ending)
      (delay : c.run.machine.clocks.delay.worker = .ended)
  /-- With both timers joined; what was seen, what is to be seen and the deeds that are left
  come to all that is seen of the course. -/
  | ending (ds : List Deed) (body late failed : List Sight) (ahead : c.ahead = ds)
      (suffix : ds <:+ Deed.ending)
      (log : c.log ++ c.unseen ++ ds.flatMap (Deed.ends speaker c.run.machine.pc) =
        bracketed settings entry speaker c.run.machine.pc body late failed)
      (work : ∀ s ∈ body, s.ofWork = true) (beeps : ∀ s ∈ late, s = .beep)
      (failures : ∀ s ∈ failed, s = .noted .callbackFailed) (owes : c.owes = false)
      (delay : c.run.machine.clocks.delay.worker = .ended)
      (sound : c.run.machine.clocks.sound.worker = .ended)

/-! ## Moves of others -/

/-- What others do to a course: they leave the processor where it is, and they make a beep at
most, if one is owed. -/
structure Stirred (c c' : Course) : Prop where
  ahead : c'.ahead = c.ahead
  unseen : c'.unseen = c.unseen
  phase : c'.run.phase = c.run.phase
  pc : c'.run.machine.pc = c.run.machine.pc
  log : ∃ beeps, c'.log = c.log ++ beeps ∧ (∀ s ∈ beeps, s = .beep) ∧
    (c.owes = false → beeps = [])
  mute : c.Mute → c'.Mute
  delay : c.run.machine.clocks.delay.worker = .ended → c'.run.machine.clocks.delay.worker = .ended
  sound : c.owes = false → c.run.machine.clocks.sound.worker = .ended →
    c'.owes = false ∧ c'.run.machine.clocks.sound.worker = .ended

/-- What others do adds nothing to the log but a beep that was owed. -/
theorem log_of_unheard (c : Course) : ∃ beeps, c.log = c.log ++ beeps ∧
    (∀ s ∈ beeps, s = Sight.beep) ∧ (c.owes = false → beeps = []) :=
  ⟨[], (List.append_nil _).symm, by simp, fun _ => rfl⟩

/-- A tick of the sound is something others do. -/
theorem stirred_tickSound (c : Course) : c.Stirred c.tickSound := by
  cases ho : c.owes with
  | true =>
      rw [tickSound_of_owes ho]
      refine ⟨rfl, rfl, rfl, rfl, c.log_of_unheard, id, id, fun hn => ?_⟩
      rw [ho] at hn
      cases hn
  | false =>
      rw [tickSound_of_not_owes ho]
      have hended (he : c.run.machine.clocks.sound.worker = .ended) :
          c.run.machine.clocks.sound.firesNext = false ∧
            c.run.machine.clocks.sound.lowered.worker = .ended :=
        ⟨by simp [Countdown.firesNext, he], (Countdown.worker_lowered _).trans he⟩
      refine ⟨rfl, rfl, rfl, rfl, c.log_of_unheard, ?_, id, fun _ => hended⟩
      rintro ⟨-, h0 | he⟩
      · exact ⟨by simp [Countdown.firesNext, h0], .inl (Countdown.count_lowered_of_zero h0)⟩
      · exact ⟨(hended he).1, .inr (hended he).2⟩

/-- A call of the speaker is something others do. -/
theorem stirred_callSpeaker (c : Course) : c.Stirred c.callSpeaker := by
  cases ho : c.owes with
  | false =>
      rw [callSpeaker_of_not_owes ho]
      exact ⟨rfl, rfl, rfl, rfl, c.log_of_unheard, id, id, fun hn he => ⟨hn, he⟩⟩
  | true =>
      have habsurd {p : Prop} (hn : c.owes = false) : p := by
        rw [ho] at hn
        cases hn
      rw [callSpeaker_of_owes ho]
      refine ⟨rfl, rfl, rfl, ?_, ⟨[.beep], rfl, by simp, habsurd⟩, fun hm => habsurd hm.owes, ?_,
        habsurd⟩
      · exact congrArg Registers.pc (Machine.registers_actAll c.run.speaker.onBeep)
      · intro he
        show (c.run.speaker.onBeep.foldl Machine.act _).clocks.delay.worker = .ended
        rw [Machine.clocks_actAll]
        exact he

/-- What is not the processor's stirs a course. -/
theorem stirred_move (c : Course) {mv : Move} (h : ∀ random, mv ≠ .proceed random) :
    c.Stirred (c.move mv) := by
  cases mv with
  | proceed random => exact absurd rfl (h random)
  | act a =>
      exact ⟨rfl, rfl, rfl, rfl, c.log_of_unheard, fun hm => ⟨hm.owes, hm.sound⟩, id,
        fun ho he => ⟨ho, he⟩⟩
  | tickDelay =>
      refine ⟨rfl, rfl, rfl, rfl, c.log_of_unheard, fun hm => ⟨hm.owes, hm.sound⟩, fun he => ?_,
        fun ho he => ⟨ho, he⟩⟩
      show c.run.machine.clocks.delay.tick.worker = .ended
      rw [Countdown.tick_of_not_ticking (by simp [he])]
      exact he
  | tickSound => exact c.stirred_tickSound
  | callSpeaker => exact c.stirred_callSpeaker

/-- What others do keeps a course in order. -/
theorem Stands.stir (h : c.Stands settings entry speaker) (hs : c.Stirred c') :
    c'.Stands settings entry speaker := by
  obtain ⟨beeps, hlog, hbeeps, hnone⟩ := hs.log
  have hwork : ∀ s ∈ beeps, s.ofWork = true := fun s hm => by rw [hbeeps s hm]; rfl
  cases h with
  | opening ds ahead suffix some_left log mute phase =>
      refine .opening ds (hs.ahead.trans ahead) suffix (by rwa [hs.unseen]) ?_ (hs.mute mute)
        (hs.phase.trans phase)
      rwa [hlog, hnone mute.owes, List.append_nil, hs.unseen]
  | working body log work ahead =>
      refine .working (body ++ beeps) ?_ ?_ (by rwa [hs.ahead, hs.phase])
      · rw [hlog, log, List.append_assoc]
      · rw [hs.unseen]
        intro s hm
        rcases List.mem_append.mp hm with hm | hm
        · rcases List.mem_append.mp hm with hm | hm
          · exact work s (List.mem_append_left _ hm)
          · exact hwork s hm
        · exact work s (List.mem_append_right _ hm)
  | joined body log work unseen ahead delay =>
      refine .joined (body ++ beeps) ?_ ?_ (hs.unseen.trans unseen) (hs.ahead.trans ahead)
        (hs.delay delay)
      · rw [hlog, log, List.append_assoc]
      · intro s hm
        rcases List.mem_append.mp hm with hm | hm
        · exact work s hm
        · exact hwork s hm
  | ringing body late log work beeps' unseen ahead delay =>
      refine .ringing body (late ++ beeps) ?_ work ?_ (hs.unseen.trans unseen)
        (hs.ahead.trans ahead) (hs.delay delay)
      · rw [hlog, log, List.append_assoc, List.cons_append]
      · intro s hm
        rcases List.mem_append.mp hm with hm | hm
        · exact beeps' s hm
        · exact hbeeps s hm
  | ending ds body late failed ahead suffix log work beeps' failures owes delay sound =>
      obtain ⟨owes', sound'⟩ := hs.sound owes sound
      refine .ending ds body late failed (hs.ahead.trans ahead) suffix ?_ work beeps' failures
        owes' (hs.delay delay) sound'
      rwa [hlog, hnone owes, List.append_nil, hs.unseen, hs.pc]

/-! ## Moves of the processor -/

/-- A deed of the beginning keeps a course in order. -/
theorem Stands.proceed_opening {ds : List Deed} (hk : c.run.Keeps settings speaker)
    (hd : settings.delayHz ≠ 0) (hs : settings.soundHz ≠ 0)
    (ahead : c.ahead = ds ++ .work :: Deed.closing) (suffix : ds <:+ Deed.opening entry)
    (some_left : ds ≠ [] ∨ c.unseen ≠ [])
    (log : c.log ++ c.unseen ++ ds.flatMap (Deed.opens settings speaker) =
      opened settings entry speaker)
    (mute : c.Mute) (phase : c.run.phase = .looking) (random : UInt8) :
    (c.proceed random).Stands settings entry speaker := by
  cases hu : c.unseen with
  | cons s unseen =>
      rw [hu] at log
      rw [proceed_of_unseen hu]
      by_cases hn : ds = [] ∧ unseen = []
      · obtain ⟨rfl, rfl⟩ := hn
        rw [List.flatMap_nil, List.append_nil] at log
        refine .working [] (log.trans (List.append_nil _).symm) (by simp) (.inl ⟨ahead, ?_⟩)
        show c.run.phase.left = false
        rw [phase]
        rfl
      · refine .opening ds ahead suffix (not_and_or.mp hn) ?_ ⟨mute.owes, mute.sound⟩ phase
        rw [← log]
        simp
  | nil =>
      obtain ⟨d, ds, rfl⟩ := List.exists_cons_of_ne_nil (some_left.resolve_right fun hn => hn hu)
      have hmem : d ∈ Deed.opening entry := suffix.subset List.mem_cons_self
      have ho := Deed.opens_of_mem hk hd hs phase mute.sound hmem random
      rw [hu, List.append_nil] at log
      rw [proceed_of_deed hu ahead (fun _ => mute.owes)]
      refine .opening ds (ho.next _) ((List.suffix_cons d ds).trans suffix) ?_ ?_
        ⟨mute.owes, ho.sound⟩ ho.phase
      · by_cases hn : ds = []
        · -- the last deed before the work is seen
          right
          subst hn
          obtain ⟨before, hb⟩ := suffix
          have hlast := congrArg List.getLast? hb
          rw [List.getLast?_append, List.getLast?_singleton] at hlast
          obtain rfl : d = .announce entry := Option.some.inj hlast
          show (Deed.announce entry).sights c.run _ ≠ []
          rw [ho.sights]
          exact List.cons_ne_nil _ _
        · exact .inl hn
      · show c.log ++ d.sights c.run _ ++ _ = _
        rw [ho.sights, ← log, List.flatMap_cons, List.append_assoc]

/-- The work keeps a course in order. -/
theorem Stands.proceed_working {body : List Sight} (hk : c.run.Keeps settings speaker)
    (log : c.log = opened settings entry speaker ++ body)
    (work : ∀ s ∈ body ++ c.unseen, s.ofWork = true)
    (ahead : c.ahead = .work :: Deed.closing ∧ c.run.phase.left = false ∨ c.ahead = Deed.closing)
    (random : UInt8) : (c.proceed random).Stands settings entry speaker := by
  cases hu : c.unseen with
  | cons s unseen =>
      rw [hu] at work
      rw [proceed_of_unseen hu]
      refine .working (body ++ [s]) ?_ ?_ ahead
      · show c.log ++ [s] = _
        rw [log, List.append_assoc]
      · rw [List.append_assoc]
        exact work
  | nil =>
      rw [hu, List.append_nil] at work
      rcases ahead with ⟨ahead, hleft⟩ | ahead
      · obtain ⟨hs, hh, hwork⟩ := Run.ofWork_proceed hleft random
        rw [proceed_of_deed hu ahead (fun he => by cases he)]
        refine .working body log ?_ ?_
        · intro s hm
          rcases List.mem_append.mp hm with hm | hm
          · exact work s hm
          · rw [show Deed.sights c.run (Deed.work.does c.run random) .work = _ from
              Deed.sights_eq hh .work] at hm
            obtain ⟨x, hx, rfl⟩ := List.mem_map.mp hm
            exact hwork x hx
        · show (if (c.run.proceed random).phase.left then Deed.closing else .work :: Deed.closing) =
              .work :: Deed.closing ∧ (c.run.proceed random).phase.left = false ∨
            (if (c.run.proceed random).phase.left then Deed.closing else .work :: Deed.closing) =
              Deed.closing
          cases (c.run.proceed random).phase.left with
          | true => exact .inr rfl
          | false => exact .inl ⟨rfl, rfl⟩
      · have hh : (Deed.joinDelay.does c.run random).history.toList = c.run.history.toList ++
            c.run.machine.clocks.delay.stop.2.map .noted := Run.toList_history_note _
        rw [hk.delay.stop.2] at hh
        rw [proceed_of_deed hu ahead (fun he => by cases he)]
        refine .joined body log work (Deed.sights_eq hh .joinDelay) rfl ?_
        show c.run.machine.clocks.delay.stop.1.worker = .ended
        rw [Countdown.stop_eq_finish]
        exact Countdown.finish_worker _

/-- Joining the sound keeps a course in order, with the beeps up to it. -/
theorem Stands.proceed_ringing {body late : List Sight}
    (log : c.log = opened settings entry speaker ++ body ++ .joined "delay" :: late)
    (work : ∀ s ∈ body, s.ofWork = true) (beeps : ∀ s ∈ late, s = .beep) (unseen : c.unseen = [])
    (ahead : c.ahead = .joinSound :: Deed.ending)
    (delay : c.run.machine.clocks.delay.worker = .ended) (random : UInt8) :
    (c.proceed random).Stands settings entry speaker := by
  cases ho : c.owes with
  | true =>
      have hrest : c.proceed random = c := by
        unfold proceed
        rw [unseen, ahead]
        exact if_pos ⟨rfl, ho⟩
      rw [hrest]
      exact .ringing body late log work beeps unseen ahead delay
  | false =>
      have hh : (Deed.joinSound.does c.run random).history.toList = c.run.history.toList ++
          c.run.machine.clocks.sound.stop.2.map .noted := Run.toList_history_note _
      have hfinish := Countdown.stop_eq_finish c.run.machine.clocks.sound
      rw [proceed_of_deed unseen ahead (fun _ => ho)]
      refine .ending Deed.ending body late (c.run.machine.clocks.sound.stop.2.map .noted) rfl
        (List.suffix_refl _) ?_ work beeps ?_ ho delay ?_
      · rw [flatMap_ends]
        show c.log ++ Deed.sights c.run (Deed.joinSound.does c.run random) .joinSound ++ _ = _
        rw [Deed.sights_eq hh, log, List.map_map]
        simp [bracketed, Deed.marks, Sight.noted, Function.comp_def]
      · intro s hm
        obtain ⟨e, he, rfl⟩ := List.mem_map.mp hm
        rw [hfinish] at he
        unfold Countdown.finish at he
        split at he
        · cases he
        · cases List.mem_singleton.mp he
          rfl
        · cases he
      · show c.run.machine.clocks.sound.stop.1.worker = .ended
        rw [hfinish]
        exact Countdown.finish_worker _

/-- A deed of the end keeps a course in order. -/
theorem Stands.proceed_ending {ds : List Deed} {body late failed : List Sight}
    (hk : c.run.Keeps settings speaker) (ahead : c.ahead = ds) (suffix : ds <:+ Deed.ending)
    (log : c.log ++ c.unseen ++ ds.flatMap (Deed.ends speaker c.run.machine.pc) =
      bracketed settings entry speaker c.run.machine.pc body late failed)
    (work : ∀ s ∈ body, s.ofWork = true) (beeps : ∀ s ∈ late, s = .beep)
    (failures : ∀ s ∈ failed, s = .noted .callbackFailed) (owes : c.owes = false)
    (delay : c.run.machine.clocks.delay.worker = .ended)
    (sound : c.run.machine.clocks.sound.worker = .ended) (random : UInt8) :
    (c.proceed random).Stands settings entry speaker := by
  cases hu : c.unseen with
  | cons s unseen =>
      rw [hu] at log
      rw [proceed_of_unseen hu]
      refine .ending ds body late failed ahead suffix ?_ work beeps failures owes delay sound
      show c.log ++ [s] ++ unseen ++ _ = _
      rw [List.append_assoc c.log]
      exact log
  | nil =>
      cases ds with
      | nil =>
          have hrest : c.proceed random = c := by
            unfold proceed
            rw [hu, ahead]
          rw [hrest]
          exact .ending [] body late failed ahead suffix log work beeps failures owes delay sound
      | cons d ds =>
          have he := Deed.ends_of_mem hk.speaker (suffix.subset List.mem_cons_self) random
          rw [hu, List.append_nil] at log
          rw [proceed_of_deed hu ahead (fun _ => owes)]
          refine .ending ds body late failed (he.next _) ((List.suffix_cons d ds).trans suffix) ?_
            work beeps failures owes ?_ ?_
          · show c.log ++ d.sights c.run (d.does c.run random) ++
              ds.flatMap (Deed.ends speaker (d.does c.run random).machine.pc) =
                bracketed settings entry speaker (d.does c.run random).machine.pc body late failed
            rw [he.sights, he.machine, ← log, List.flatMap_cons, List.append_assoc]
          · show (d.does c.run random).machine.clocks.delay.worker = .ended
            rw [he.machine]
            exact delay
          · show (d.does c.run random).machine.clocks.sound.worker = .ended
            rw [he.machine]
            exact sound

/-- Whatever the processor does keeps a course in order. -/
theorem Stands.proceed (h : c.Stands settings entry speaker) (hk : c.run.Keeps settings speaker)
    (hd : settings.delayHz ≠ 0) (hs : settings.soundHz ≠ 0) (random : UInt8) :
    (c.proceed random).Stands settings entry speaker := by
  cases h with
  | opening ds ahead suffix some_left log mute phase =>
      exact proceed_opening hk hd hs ahead suffix some_left log mute phase random
  | working body log work ahead => exact proceed_working hk log work ahead random
  | joined body log work unseen ahead delay =>
      rw [proceed_of_unseen unseen]
      refine .ringing body [] ?_ work (by simp) rfl ahead delay
      show c.log ++ [.joined "delay"] = _
      rw [log]
  | ringing body late log work beeps unseen ahead delay =>
      exact proceed_ringing log work beeps unseen ahead delay random
  | ending ds body late failed ahead suffix log work beeps failures owes delay sound =>
      exact proceed_ending hk ahead suffix log work beeps failures owes delay sound random

/-! ## From the start on -/

theorem keeps_move (h : c.run.Keeps settings speaker) (mv : Move) :
    (c.move mv).run.Keeps settings speaker := by
  cases mv with
  | proceed random =>
      show (c.proceed random).run.Keeps settings speaker
      rcases c.proceed_cases random with ⟨he, -⟩ | ⟨s, unseen, -, he⟩ | ⟨d, ahead, -, -, -, he⟩
      · rw [he]
        exact h
      · rw [he]
        exact h
      · rw [he]
        exact h.does random d
  | act a => exact ⟨h.settings, h.speaker, h.delay⟩
  | tickDelay => exact ⟨h.settings, h.speaker, h.delay.tick⟩
  | tickSound =>
      show c.tickSound.run.Keeps settings speaker
      unfold tickSound
      split
      · exact h
      · exact ⟨h.settings, h.speaker, h.delay⟩
  | callSpeaker =>
      show c.callSpeaker.run.Keeps settings speaker
      unfold callSpeaker
      split
      · refine Run.Keeps.actAll _ ?_
        exact ⟨h.settings, h.speaker, h.delay⟩
      · exact h

/-- A course of which both timers start stands somewhere after any moves. -/
theorem stands_moves {m : Machine} (hd : m.settings.delayHz ≠ 0) (hs : m.settings.soundHz ≠ 0)
    (entry : UInt16) (speaker : Speaker) (observer : Observer) (ms : List Move) :
    ((start m entry speaker observer).moves ms).Stands m.settings entry speaker ∧
      ((start m entry speaker observer).moves ms).run.Keeps m.settings speaker := by
  induction ms using List.reverseRecOn with
  | nil =>
      refine ⟨.opening (Deed.opening entry) rfl (List.suffix_refl _) (.inl (List.cons_ne_nil _ _))
        (flatMap_opens m.settings entry speaker) ⟨rfl, .inl rfl⟩ rfl, rfl, rfl, rfl, ?_⟩
      exact Worker.noConfusion
  | append_singleton ms mv ih =>
      obtain ⟨h, hk⟩ := ih
      rw [moves_append_singleton]
      refine ⟨?_, keeps_move hk mv⟩
      cases mv with
      | proceed random => exact h.proceed hk hd hs random
      | _ => exact h.stir (stirred_move _ (by simp))

/-! ## The brackets -/

/-- What was seen is the beginning of a bracketed course, and all of it once the processor is
done. -/
theorem Stands.bracketed (h : c.Stands settings entry speaker) :
    ∃ body late failed, (∀ s ∈ body, s.ofWork = true) ∧ (∀ s ∈ late, s = .beep) ∧
      (∀ s ∈ failed, s = .noted .callbackFailed) ∧
      c.log <+: Course.bracketed settings entry speaker c.run.machine.pc body late failed ∧
      (c.Done → c.log = Course.bracketed settings entry speaker c.run.machine.pc body late failed ∧
        c.run.machine.clocks.delay.worker = .ended ∧
        c.run.machine.clocks.sound.worker = .ended) := by
  have hnone {l : List Sight} {p : Sight → Prop} (hl : l = []) : ∀ s ∈ l, p s := by simp [hl]
  cases h with
  | opening ds ahead suffix some_left log mute phase =>
      refine ⟨[], [], [], hnone rfl, hnone rfl, hnone rfl, ?_, ?_⟩
      · unfold Course.bracketed
        rw [← log]
        simp only [List.append_assoc]
        exact List.prefix_append _ _
      · rintro ⟨hn, -⟩
        rw [ahead] at hn
        simp at hn
  | working body log work ahead =>
      refine ⟨body, [], [], fun s hm => work s (List.mem_append_left _ hm), hnone rfl, hnone rfl,
        ?_, ?_⟩
      · rw [log]
        exact opened_prefix_bracketed settings entry speaker _ body
      · rintro ⟨hn, -⟩
        rcases ahead with ⟨ha, -⟩ | ha <;>
          · rw [ha] at hn
            cases hn
  | joined body log work unseen ahead delay =>
      refine ⟨body, [], [], work, hnone rfl, hnone rfl, ?_, ?_⟩
      · rw [log]
        exact opened_prefix_bracketed settings entry speaker _ body
      · rintro ⟨hn, -⟩
        rw [ahead] at hn
        cases hn
  | ringing body late log work beeps unseen ahead delay =>
      refine ⟨body, late, [], work, beeps, hnone rfl, ?_, ?_⟩
      · unfold Course.bracketed
        rw [log, List.append_assoc _ _ (closed speaker c.run.machine.pc)]
        exact List.prefix_append _ _
      · rintro ⟨hn, -⟩
        rw [ahead] at hn
        cases hn
  | ending ds body late failed ahead suffix log work beeps failures owes delay sound =>
      refine ⟨body, late, failed, work, beeps, failures, ?_, ?_⟩
      · rw [← log, List.append_assoc]
        exact List.prefix_append _ _
      · rintro ⟨hn, hu⟩
        rw [hn] at ahead
        subst ahead
        rw [hu, List.append_nil, List.flatMap_nil, List.append_nil] at log
        exact ⟨log, delay, sound⟩

/-- A course of which both timers start.  What was seen of it is the beginning of a bracketed
course: both timers are started at zero, the delay first; the speaker is switched on; the run
says where it runs from; then come instructions and beeps; the delay is joined, and there may
be more beeps, and the sound timer is joined; the speaker is switched off; and the run says
where it stopped.  Once the processor is done, with whatever result, all of that was seen.

There are at most as many beeps as times that `FX18` was executed with VX not zero, and none
if there is no such time.  And every run, in all its moves, is one of these courses. -/
theorem course_brackets {m : Machine} {speaker : Speaker} {clocks : Clocks}
    (h : (Clocks.start m.settings.delayHz m.settings.soundHz speaker.callback).result = .ok clocks)
    (entry : UInt16) (observer : Observer) :
    (∀ ms, let c := (start m entry speaker observer).moves ms
      let windings := (start m entry speaker observer).windings ms
      (∃ body late failed, (∀ s ∈ body, s.ofWork = true) ∧ (∀ s ∈ late, s = .beep) ∧
        (∀ s ∈ failed, s = .noted .callbackFailed) ∧
        c.log <+: bracketed m.settings entry speaker c.run.machine.pc body late failed ∧
        (c.Done →
          c.log = bracketed m.settings entry speaker c.run.machine.pc body late failed ∧
            c.run.machine.clocks.delay.worker = .ended ∧
            c.run.machine.clocks.sound.worker = .ended)) ∧
        c.log.count .beep ≤ windings ∧ (windings = 0 → .beep ∉ c.log)) ∧
    ∀ ms, ∃ ms', ((start m entry speaker observer).moves ms').run =
        (Run.start m entry speaker observer).moves ms ∧
      (((Run.start m entry speaker observer).moves ms).isOver →
        ((start m entry speaker observer).moves ms').Done) := by
  obtain ⟨hd, hs⟩ := Clocks.ne_zero_of_result_start h
  refine ⟨fun ms => ?_, exists_moves hd hs entry speaker observer⟩
  have hle := count_beep_le m entry speaker observer ms
  refine ⟨(stands_moves hd hs entry speaker observer ms).1.bracketed, hle, fun h0 => ?_⟩
  rw [h0] at hle
  exact List.count_eq_zero.mp (Nat.le_zero.mp hle)

/-- A program sets the sound timer to one, the timer beeps before the instruction is seen, and
then comes a word that stands for nothing. -/
theorem course_brackets_of_failure :
    let m : Machine := { Machine.tiny with ram := ⟨#[0x60, 0x01, 0xF0, 0x18, 0xFF, 0xFF, 0x00]⟩ }
    let ms := List.replicate 16 (.proceed 0) ++ [.tickSound, .callSpeaker] ++
      List.replicate 13 (.proceed 0)
    let c := (start m 0 .mute .nobody).moves ms
    c.Done ∧ c.run.phase = .over (some (.unsupportedOpcode 0xFFFF 4)) ∧
      c.log.count .beep = 1 ∧ 1 ≤ (start m 0 .mute .nobody).windings ms ∧
      ∃ body late failed, (∀ s ∈ body, s.ofWork = true) ∧
        c.log = bracketed m.settings 0 .mute 6 body late failed := by
  intro m ms
  have hstart : (Clocks.start m.settings.delayHz m.settings.soundHz Speaker.mute.callback).result =
      .ok (.fresh m.settings.delayHz m.settings.soundHz Speaker.mute.callback) := rfl
  obtain ⟨hall, -⟩ := course_brackets hstart 0 .nobody
  obtain ⟨⟨body, late, failed, hwork, -, -, -, hdone⟩, hle, -⟩ := hall ms
  have hd : ((start m 0 .mute .nobody).moves ms).Done := by
    unfold Done
    decide +kernel
  have hbeep : ((start m 0 .mute .nobody).moves ms).log.count .beep = 1 := by decide +kernel
  have hpc : ((start m 0 .mute .nobody).moves ms).run.machine.pc = 6 := by decide +kernel
  obtain ⟨hlog, -, -⟩ := hdone hd
  rw [hpc] at hlog
  rw [hbeep] at hle
  exact ⟨hd, by decide +kernel, hbeep, hle, body, late, failed, hwork, hlog⟩

end Course

end SuperChip
