import SuperChip.Proofs.Machine.Stage
import SuperChip.Run

/-!
# Sound runs

A run is *sound* when its machine is, and when the instruction it waits in, if it
waits, can be taken up.  The beginning of a run of a sound machine is sound
(`sound_start`), and every move keeps a run sound (`Sound.moves`): the moves of the
processor, in every phase, and those from outside.
-/

namespace SuperChip

variable {settings : Settings}

namespace Machine

/-! ## Changes from outside -/

theorem Sound.setClocks {m : Machine} (h : m.Sound settings) (clocks : Clocks) :
    Sound { m with clocks } settings := by
  apply h.of_same
  intro p hp
  apply same_setClocks
  rintro rfl
  simp at hp

theorem Sound.setPc {m : Machine} (h : m.Sound settings) (address : UInt16) :
    (m.setPc address).Sound settings := by
  apply h.of_same
  intro p hp
  apply same_setPc
  rintro rfl
  simp at hp

theorem Sound.act {m : Machine} (h : m.Sound settings) (a : Keypad.Action) :
    (m.act a).Sound settings :=
  ⟨h.checked, h.settings_eq, h.size, h.stack, h.index_lt, h.full⟩

theorem Sound.actAll (actions : List Keypad.Action) :
    ∀ {m : Machine}, m.Sound settings → (actions.foldl Machine.act m).Sound settings := by
  induction actions with
  | nil => exact id
  | cons a actions ih => exact fun h => ih (h.act a)

/-- Neither the keypad nor the timers matter for what can be taken up. -/
theorem Ready.actAll {t : Traced} (actions : List Keypad.Action) :
    ∀ {m : Machine}, m.Ready t → (actions.foldl Machine.act m).Ready t := by
  induction actions with
  | nil => exact id
  | cons a actions ih => exact fun h => ih ⟨h.standsFor, h.pc_lt⟩

end Machine

namespace Run

/-! ## Taking over a step -/

@[simp] theorem machine_take (r : Run) (s : Machine.Step) : (r.take s).machine = s.machine := by
  unfold take
  split <;> rfl

/-- A run waits in what the step has issued that it took over. -/
theorem issued_of_take {r : Run} {s : Machine.Step} {t : Traced}
    (h : (r.take s).phase = .waiting t) : s.issued = some t := by
  unfold take at h
  split at h
  · cases h
  · cases h
  next he hi =>
    cases h
    exact hi
  · cases h

/-! ## The invariant -/

/-- The machine of a run is sound, and what the run waits in can be taken up. -/
structure Sound (r : Run) (settings : Settings) : Prop where
  machine : r.machine.Sound settings
  ready : ∀ t, r.phase = .waiting t → r.machine.Ready t

theorem sound_start {m : Machine} (h : m.Sound settings) (entry : UInt16) (speaker : Speaker)
    (observer : Observer) : (start m entry speaker observer).Sound settings := by
  unfold start
  dsimp only
  split
  next =>
    refine ⟨h, ?_⟩
    intro t ht
    cases ht
  next clocks hc =>
    refine ⟨Machine.Sound.actAll speaker.onBoot ((h.setClocks clocks).setPc entry), ?_⟩
    intro t ht
    cases ht

/-- Taking over a step of a sound machine makes a run sound. -/
theorem sound_take (r : Run) {s : Machine.Step} (hs : s.machine.Sound settings)
    (hr : ∀ t, s.issued = some t → s.machine.Ready t) : (r.take s).Sound settings where
  machine := by
    rw [machine_take]
    exact hs
  ready := by
    intro t ht
    rw [machine_take]
    exact hr t (issued_of_take ht)

namespace Sound

variable {r : Run} (h : r.Sound settings)
include h

theorem leave (fault? : Option Fault) : (r.leave fault?).Sound settings where
  machine := h.machine.setClocks _
  ready := by
    intro t ht
    cases ht

theorem proceed (random : UInt8) : (r.proceed random).Sound settings := by
  unfold Run.proceed
  split
  next =>
    refine ⟨h.machine, fun _ ht => ?_⟩
    dsimp only at ht
    split at ht <;> cases ht
  next => exact sound_take r (h.machine.step random) fun _ ht => h.machine.ready_step ht
  next t hp =>
    have hr := h.ready t hp
    refine sound_take r (h.machine.perform hr random) fun _ ht => ?_
    cases ht
    exact h.machine.ready_perform hr random
  next fault? _ => exact h.leave fault?
  next => exact h

theorem act (a : Keypad.Action) : (r.act a).Sound settings where
  machine := h.machine.act a
  ready := fun t ht => ⟨(h.ready t ht).standsFor, (h.ready t ht).pc_lt⟩

theorem tickDelay : r.tickDelay.Sound settings where
  machine := h.machine.setClocks _
  ready := fun t ht => ⟨(h.ready t ht).standsFor, (h.ready t ht).pc_lt⟩

theorem tickSound : r.tickSound.Sound settings := by
  have ticked : Sound { r with machine := { r.machine with clocks := r.machine.clocks.tickSound } }
      settings :=
    ⟨h.machine.setClocks _, fun t ht => ⟨(h.ready t ht).standsFor, (h.ready t ht).pc_lt⟩⟩
  unfold Run.tickSound
  dsimp only
  split
  · exact ⟨.actAll r.speaker.onBeep ticked.machine,
      fun t ht => .actAll r.speaker.onBeep (ticked.ready t ht)⟩
  · exact ticked

theorem move (m : Move) : (r.move m).Sound settings := by
  cases m with
  | proceed random => exact h.proceed random
  | act action => exact h.act action
  | tickDelay => exact h.tickDelay
  | tickSound => exact h.tickSound

end Sound

theorem Sound.moves (ms : List Move) :
    ∀ {r : Run}, r.Sound settings → (r.moves ms).Sound settings := by
  induction ms with
  | nil => exact id
  | cons m ms ih => exact fun h => ih (h.move m)

end Run

end SuperChip
