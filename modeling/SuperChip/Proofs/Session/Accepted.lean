import SuperChip.Proofs.Waiting

/-!
# Accepted settings

Settings are looked at three times: when they are checked, when memory is built, and when a
run starts its timers.  The check comes first and asks for the most, so it alone decides
whether there is a machine (`Machine.exists_build_iff`, `Machine.build_eq_error_iff`).  What it
asks for are five things (`Settings.Suffice`), and settings that lack one are refused for the
first that they lack (`Settings.Lack`).

A machine keeps its settings.  So neither of the later looks ever finds anything wrong, and no
fault of a load, a step or a run is about settings, whatever happened before
(`Session.settings_checked_once`).
-/

namespace SuperChip

variable {settings : Settings}

namespace Settings

/-! ## What is asked for -/

/-- A machine can be built from the settings and run. -/
structure Suffice (s : Settings) : Prop where
  /-- Memory holds the glyphs and one instruction. -/
  least : 0xF2 ≤ s.memorySize
  /-- Memory is within reach of an address. -/
  most : s.memorySize ≤ 0x10000
  /-- There is a slot for a call. -/
  stack : 1 ≤ s.stackDepth
  /-- The delay timer ticks. -/
  delay : 1 ≤ s.delayHz.toNat
  /-- The sound timer ticks. -/
  sound : 1 ≤ s.soundHz.toNat

/-- What the settings lack, and nothing that is asked for before. -/
inductive Lack (s : Settings) : SettingsFault → Prop where
  | memoryTooSmall : s.memorySize < 0xF2 → Lack s (.memoryTooSmall s.memorySize 0xF2)
  | memoryTooLarge : 0xF2 ≤ s.memorySize → 0x10000 < s.memorySize →
      Lack s (.memoryTooLarge s.memorySize)
  | noStack : 0xF2 ≤ s.memorySize → s.memorySize ≤ 0x10000 → s.stackDepth = 0 → Lack s .noStack
  | noTicks : 0xF2 ≤ s.memorySize → s.memorySize ≤ 0x10000 → 1 ≤ s.stackDepth →
      s.delayHz.toNat = 0 ∨ s.soundHz.toNat = 0 → Lack s .noTicks

theorem toNat_eq_zero_iff {hz : UInt32} : hz.toNat = 0 ↔ hz = 0 := by
  rw [← UInt32.toNat_inj]
  rfl

theorem one_le_toNat_iff {hz : UInt32} : 1 ≤ hz.toNat ↔ hz ≠ 0 := by
  rw [Nat.one_le_iff_ne_zero, ne_eq, toNat_eq_zero_iff]

theorem check_eq_ok_iff_suffice : settings.check = .ok () ↔ settings.Suffice := by
  rw [check_eq_ok_iff, fault?_eq_none_iff]
  constructor
  · rintro ⟨hl, hm, hd, hdelay, hsound⟩
    exact ⟨hl, hm, Nat.one_le_iff_ne_zero.mpr hd, one_le_toNat_iff.mpr hdelay,
      one_le_toNat_iff.mpr hsound⟩
  · rintro ⟨hl, hm, hd, hdelay, hsound⟩
    exact ⟨hl, hm, Nat.one_le_iff_ne_zero.mp hd, one_le_toNat_iff.mp hdelay,
      one_le_toNat_iff.mp hsound⟩

/-- Settings that are refused lack what they are refused for. -/
theorem lack_of_fault? {cause : SettingsFault} (h : settings.fault? = some cause) :
    settings.Lack cause := by
  unfold fault? at h
  split at h
  next hl =>
    cases h
    exact .memoryTooSmall hl
  next hl =>
    have hl := Nat.le_of_not_lt hl
    split at h
    next hm =>
      cases h
      exact .memoryTooLarge hl hm
    next hm =>
      have hm := Nat.le_of_not_lt hm
      split at h
      next hd =>
        cases h
        exact .noStack hl hm hd
      next hd =>
        split at h
        next hz =>
          cases h
          exact .noTicks hl hm (Nat.one_le_iff_ne_zero.mpr hd)
            (hz.imp toNat_eq_zero_iff.mpr toNat_eq_zero_iff.mpr)
        next => cases h

theorem Lack.fault?_eq {cause : SettingsFault} (h : settings.Lack cause) :
    settings.fault? = some cause := by
  have hleast {rest : Option SettingsFault} (hl : 0xF2 ≤ settings.memorySize) :
      (if settings.memorySize < leastMemory then
        some (.memoryTooSmall settings.memorySize leastMemory) else rest) = rest :=
    if_neg (Nat.not_lt_of_le hl)
  have hmost {rest : Option SettingsFault} (hm : settings.memorySize ≤ 0x10000) :
      (if mostMemory < settings.memorySize then
        some (.memoryTooLarge settings.memorySize) else rest) = rest :=
    if_neg (Nat.not_lt_of_le hm)
  rw [fault?]
  cases h with
  | memoryTooSmall hl => exact if_pos hl
  | memoryTooLarge hl hm => exact (hleast hl).trans (if_pos hm)
  | noStack hl hm hd => rw [hleast hl, hmost hm, if_pos hd]
  | noTicks hl hm hd hz =>
      rw [hleast hl, hmost hm, if_neg (Nat.one_le_iff_ne_zero.mp hd),
        if_pos (hz.imp toNat_eq_zero_iff.mp toNat_eq_zero_iff.mp)]

/-- Memory is looked at before the stack. -/
example : fault? { memorySize := 241, stackDepth := 0 } = some (.memoryTooSmall 241 242) := by
  decide

/-- The check refuses settings for what they lack first. -/
theorem check_eq_error_iff {fault : Fault} :
    settings.check = .error fault ↔ ∃ cause, fault = .badSettings cause ∧ settings.Lack cause := by
  rw [check]
  constructor
  · intro h
    split at h
    next cause hc =>
      cases h
      exact ⟨cause, rfl, lack_of_fault? hc⟩
    next => cases h
  · rintro ⟨cause, rfl, hl⟩
    rw [hl.fault?_eq]

end Settings

/-! ## Later looks -/

namespace Machine

/-- There is a machine just if the settings pass the check. -/
theorem exists_build_iff : (∃ m, build settings = .ok m) ↔ settings.check = .ok () := by
  constructor
  · rintro ⟨m, hm⟩
    exact (build_eq_ok_iff.mp hm).1
  · exact exists_build

/-- If there is no machine then for what the check has found. -/
theorem build_eq_error_iff {fault : Fault} :
    build settings = .error fault ↔ settings.check = .error fault := by
  cases hc : settings.check with
  | ok u =>
      obtain ⟨m, hm⟩ := exists_build hc
      simp [hm]
  | error fault' => simp [build, hc, bind, Except.bind]

/-- A program that is refused is too long or would overwrite glyphs. -/
theorem load_ne_badSettings (m : Machine) (address : UInt16) (program : List UInt8)
    (cause : SettingsFault) : m.load address program ≠ .error (.badSettings cause) := by
  intro h
  rw [load] at h
  split at h
  next => cases h
  next hr =>
    cases h
    rw [Ram.load] at hr
    split at hr
    · cases hr
    · rw [Ram.write] at hr
      split at hr
      · cases hr
      · split at hr <;> cases hr

end Machine

namespace Session

variable {s : Session}

/-- What a step fails for is not about settings. -/
theorem Sound.proceed_ne_badSettings (h : s.Sound settings) (hw : Waits s.parked) (random : UInt8)
    (cause : SettingsFault) : (s.proceed random).ending ≠ .failed (.badSettings cause) := by
  intro he
  obtain ⟨m, parked⟩ := s
  cases parked with
  | none =>
      rcases (h.machine.step_failed_iff.mp he).cases with ⟨_, e⟩ | ⟨_, _, e⟩ | e | ⟨_, e⟩ <;>
        cases e
  | some t =>
      obtain ⟨x, hx⟩ := hw t rfl
      have hp : (m.execute random t.instruction).ending = .failed (.badSettings cause) := he
      rw [hx] at hp
      exact Machine.executeWait_not_failed hp

end Session

/-- The fault for which a run ends, if it ends badly. -/
def Phase.fault? : Phase → Option Fault
  | .leaving fault? | .over fault? => fault?
  | _ => none

theorem Machine.Step.ending_of_phase {s : Step} {fault : Fault}
    (h : s.phase.fault? = some fault) : s.ending = .failed fault := by
  unfold phase at h
  cases he : s.ending with
  | done =>
      rw [he] at h
      cases h
  | failed fault' =>
      rw [he] at h
      cases h
      rfl
  | waiting =>
      rw [he] at h
      cases hi : s.issued <;> rw [hi] at h <;> cases h

namespace Run

variable {r : Run}

/-- A move either keeps what the run ends for, or takes over a step and what that fails for. -/
theorem fault?_move (r : Run) (mv : Move) :
    (r.move mv).phase.fault? = r.phase.fault? ∨
      ∃ random, (r.move mv).phase = ((Session.ofRun r).proceed random).phase := by
  rcases mv.cases with ⟨random, rfl⟩ | ⟨x, rfl⟩
  · by_cases hb : r.phase = .issuing ∨ ∃ t, r.phase = .waiting t
    · exact .inr ⟨random, by rw [move, proceed_eq_take random hb, phase_take]⟩
    · left
      rw [move, proceed]
      cases hp : r.phase with
      | looking => cases r.machine.keypad.isShutdown <;> rfl
      | issuing => exact absurd (.inl hp) hb
      | waiting t => exact absurd (.inr ⟨t, hp⟩) hb
      | leaving fault? => rfl
      | «over» fault? =>
          dsimp only
          rw [hp]
  · exact .inl (congrArg Phase.fault? (phase_stir x))

/-- What a run ends for is not about settings, if it is not at first. -/
theorem moves_ne_badSettings (cause : SettingsFault) (ms : List Move) : ∀ {r : Run},
    r.Sound settings → Waits (Session.ofRun r).parked →
    r.phase.fault? ≠ some (.badSettings cause) →
    (r.moves ms).phase.fault? ≠ some (.badSettings cause) := by
  induction ms with
  | nil => exact fun _ _ h => h
  | cons mv ms ih =>
      intro r hr hw h
      refine ih (hr.move mv) (waits_move hw mv) ?_
      rcases r.fault?_move mv with he | ⟨random, he⟩
      · rwa [he]
      · rw [he]
        intro hf
        exact (Session.sound_ofRun hr).proceed_ne_badSettings hw random cause
          (Machine.Step.ending_of_phase hf)

end Run

/-- Both timers of a sound machine tick. -/
theorem Machine.Sound.ticks {m : Machine} (h : m.Sound settings) :
    m.settings.delayHz ≠ 0 ∧ m.settings.soundHz ≠ 0 := by
  have hs := Settings.check_eq_ok_iff_suffice.mp h.checked
  rw [h.settings_eq]
  exact ⟨Settings.one_le_toNat_iff.mp hs.delay, Settings.one_le_toNat_iff.mp hs.sound⟩

namespace Session

/-- There is a machine just if its settings pass the check, which asks for five things.  Else
what the check has found is the fault, and that is what the settings lack first.  Where there
is a machine its memory could be built, and whatever happens in a session of it both timers can
be started and no load, no step and no run has a fault that is about settings. -/
theorem settings_checked_once (settings : Settings) :
    ((∃ m, Machine.build settings = .ok m) ↔ settings.check = .ok ()) ∧
      (settings.check = .ok () ↔ settings.Suffice) ∧
      (∀ fault, Machine.build settings = .error fault ↔ settings.check = .error fault) ∧
      (∀ fault, settings.check = .error fault ↔
        ∃ cause, fault = .badSettings cause ∧ settings.Lack cause) ∧
      ∀ m, Machine.build settings = .ok m →
        Ram.build settings.memorySize = .ok m.ram ∧
          ∀ events : List Event,
            let s := (start m).after events
            (∀ callback, ∃ clocks, (Clocks.start s.machine.settings.delayHz
              s.machine.settings.soundHz callback).result = .ok clocks) ∧
            (∀ address program cause,
              s.machine.load address program ≠ .error (.badSettings cause)) ∧
            (∀ random cause, (s.proceed random).ending ≠ .failed (.badSettings cause)) ∧
            ∀ entry speaker observer moves cause,
              ((Run.start s.machine entry speaker observer).moves moves).phase.fault? ≠
                some (.badSettings cause) := by
  refine ⟨Machine.exists_build_iff, Settings.check_eq_ok_iff_suffice,
    fun _ => Machine.build_eq_error_iff, fun _ => Settings.check_eq_error_iff, fun m hb => ?_⟩
  constructor
  · obtain ⟨-, ram, hr, rfl⟩ := Machine.build_eq_ok_iff.mp hb
    exact hr
  · intro events s
    have hreach := Reachable.after events (.start hb)
    have hs : s.Sound settings := sound_of_reachable hreach
    have hw : Waits s.parked := waits_of_reachable hreach
    obtain ⟨hd, hsound⟩ := hs.machine.ticks
    refine ⟨fun callback => ⟨_, Clocks.result_start hd hsound callback⟩,
      fun address program => s.machine.load_ne_badSettings address program,
      hs.proceed_ne_badSettings hw, fun entry speaker observer moves cause => ?_⟩
    refine Run.moves_ne_badSettings cause moves (Run.sound_start hs.machine _ _ _)
      (Run.waits_start _ _ _ _) ?_
    rw [(Run.start_of_ticks hd hsound entry speaker observer).1]
    intro h
    cases h

/-- The least settings, started behind the end of memory, and settings that lack two things. -/
theorem settings_checked_once_of_least :
    (∃ m, Machine.build ⟨0xF2, 1, 0xFFFF, 0, 1, 1, 0, 0, false⟩ = .ok m ∧
      (m.step 0).ending = .failed (.outOfBounds 0xFFFF) ∧
      ∀ events random cause,
        (((start m).after events).proceed random).ending ≠ .failed (.badSettings cause)) ∧
      Machine.build ⟨0xF1, 0, 0x200, 0, 1, 1, 0, 0, false⟩ =
        .error (.badSettings (.memoryTooSmall 0xF1 0xF2)) := by
  constructor
  · obtain ⟨hexists, -, -, -, hlater⟩ :=
      settings_checked_once ⟨0xF2, 1, 0xFFFF, 0, 1, 1, 0, 0, false⟩
    obtain ⟨m, hb⟩ := hexists.mpr rfl
    obtain ⟨-, h⟩ := hlater m hb
    refine ⟨m, hb, ?_, fun events => (h events).2.2.1⟩
    obtain ⟨-, ram, hr, rfl⟩ := Machine.build_eq_ok_iff.mp hb
    rw [Machine.step_of_not_fetches]
    · rfl
    · show ram.size < (0xFFFF : UInt16).toNat + 2
      rw [Ram.size_build hr]
      decide
  · obtain ⟨-, -, hrefused, hlack, -⟩ :=
      settings_checked_once ⟨0xF1, 0, 0x200, 0, 1, 1, 0, 0, false⟩
    exact (hrefused _).mpr ((hlack _).mpr ⟨_, rfl, .memoryTooSmall (by decide)⟩)

end Session

end SuperChip
