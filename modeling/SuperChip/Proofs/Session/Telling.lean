import Mathlib.Data.List.Forall2
import SuperChip.Proofs.Session.Entry
import SuperChip.Proofs.Session.Stints

/-!
# What an observer is told

An observer is told of a step when the step is done, with the machine changed already.  What
it is told is of the machine with which the step began (`Machine.Tells`): the program counter
before it moved on, the word that was there before the instruction could overwrite it, and
the listing of the instruction.  Two words have no listing, `0_00` and `0_FD`.

In a session and in each of its runs the observer is told once of every step that is done,
in their order, and of no other step (`Stint.Told`).  In a run the first step begins at the
entry, and each other one where the step before has ended (`Stint.Follow`).
-/

namespace SuperChip

/-! ## Listings -/

/-- A word has no listing just when it is `0_00` or `0_FD`. -/
theorem Word.StandsFor.mnemonic_eq_none_iff {w : UInt16} {i : Instruction} (h : StandsFor w i) :
    i.mnemonic = none ↔ family w = 0x0 ∧ (kk w = 0x00 ∨ kk w = 0xFD) := by
  constructor
  · intro hn
    obtain ⟨f, hf, rfl⟩ := h
    cases f with
    | nop => exact ⟨hf.family, .inl (hf.kk 0x00 rfl rfl)⟩
    | quit => exact ⟨hf.family, .inr (hf.kk 0xFD rfl rfl)⟩
    | _ => cases hn
  · rintro ⟨hf, hk | hk⟩
    · cases h.unique ⟨.nop, .of_kk hf trivial hk rfl rfl, rfl⟩
      rfl
    · cases h.unique ⟨.quit, .of_kk hf trivial hk rfl rfl, rfl⟩
      rfl

/-- What is told of a machine that executes its next word. -/
structure Machine.Tells (m : Machine) (t : Traced) : Prop where
  /-- The program counter. -/
  pc : t.pc = m.pc
  /-- The word at the program counter, its high byte first. -/
  word : m.Fetches t.word
  /-- The instruction that the word stands for. -/
  instruction : Word.StandsFor t.word t.instruction
  /-- There is no text for `0_00` and `0_FD`. -/
  silent : t.mnemonic = none ↔
    Word.family t.word = 0x0 ∧ (Word.kk t.word = 0x00 ∨ Word.kk t.word = 0xFD)
  /-- The text of all others is their listing. -/
  listed : t.mnemonic ≠ none → t.mnemonic = some t.instruction.listing

theorem Machine.Reads.tells {m : Machine} {t : Traced} (h : m.Reads t) : m.Tells t :=
  ⟨h.pc, h.fetches, h.standsFor, h.standsFor.mnemonic_eq_none_iff,
    Instruction.mnemonic_eq_listing⟩

variable {settings : Settings}

namespace Stint

/-! ## Once for each step that is done -/

/-- An observer is told once of each step that is done, in their order. -/
def Told (ds : List Stint) (ts : List Traced) : Prop :=
  List.Forall₂ (fun d t => d.before.Tells t) (ds.filter fun d => d.step.ending = .done) ts

theorem Sound.exists_tells {d : Stint} (h : d.Sound settings) (hd : d.step.ending = .done) :
    ∃ t, d.step.traced = some t ∧ d.before.Tells t := by
  obtain ⟨m, random, t, hr, he, -⟩ := h.yields.performs hd
  exact ⟨t, h.yields.traced_eq_some_iff.mpr ⟨hd, hr⟩, hr.tells⟩

theorem told_of_sound {ds : List Stint} (h : ∀ d ∈ ds, d.Sound settings) :
    Told ds (ds.filterMap fun d => d.step.traced) := by
  unfold Told
  induction ds with
  | nil => exact .nil
  | cons d ds ih =>
      have hds := ih fun d' hd' => h d' (List.mem_cons_of_mem _ hd')
      by_cases hd : d.step.ending = .done
      · obtain ⟨t, ht, htells⟩ := (h d List.mem_cons_self).exists_tells hd
        rw [List.filter_cons_of_pos (by rwa [decide_eq_true_iff]), List.filterMap_cons, ht]
        exact .cons htells hds
      · have hn : d.step.traced = none := by
          unfold Machine.Step.traced
          split
          next he => exact absurd he hd
          next => rfl
        rw [List.filter_cons_of_neg (by rwa [decide_eq_true_iff]), List.filterMap_cons, hn]
        exact hds

/-! ## Each step where the one before has ended -/

/-- Steps follow each other from an address.  Each of them begins where the one before it has
ended, and all but the last are done. -/
inductive Follow : UInt16 → List Stint → Prop where
  | nil {address : UInt16} : Follow address []
  | last {d : Stint} {address : UInt16} : d.before.pc = address → Follow address [d]
  | cons {d : Stint} {ds : List Stint} {address : UInt16} : d.before.pc = address →
      d.step.ending = .done → Follow d.step.machine.pc ds → Follow address (d :: ds)

/-- A step that waits has issued something, so it has begun. -/
theorem beginning_of_waiting {s : Session} {random : UInt8}
    (hw : (s.proceed random).ending = .waiting) (b : Machine) :
    (Session.ofStep (s.proceed random)).beginning b = b := by
  obtain ⟨t, ht⟩ : ∃ t, (s.proceed random).issued = some t := by
    obtain ⟨m, parked⟩ := s
    cases parked with
    | none =>
        rcases m.step_issued random with ht | ⟨fault, hf⟩
        · exact ht
        · cases hw.symm.trans hf
    | some t => exact ⟨t, rfl⟩
  rw [Session.beginning, Session.parked_ofStep_eq_some_iff.mpr ⟨hw, ht⟩]

theorem beginning_of_not_waiting {step : Machine.Step} (hw : step.ending ≠ .waiting)
    (b : Machine) : (Session.ofStep step).beginning b = step.machine := by
  rw [Session.beginning, Session.ofStep, if_neg hw]

/-- An attempt goes before others that follow from where it leads, and of which there are none
if it fails. -/
theorem follow_attempt {s : Session} {before : Machine} {random : UInt8} {as : List Attempt}
    (h : Follow ((Session.ofStep (s.proceed random)).beginning (s.beginning before)).pc
      (ofAttempts (s.beginning before) as))
    (hf : ∀ fault, (s.proceed random).ending = .failed fault → as = []) :
    Follow (s.beginning before).pc (ofAttempts before (⟨s, random⟩ :: as)) := by
  by_cases hw : (Attempt.mk s random).step.ending = .waiting
  · rw [ofAttempts_of_waiting hw]
    rw [beginning_of_waiting hw] at h
    exact h
  · have hb : (Session.ofStep (s.proceed random)).beginning (s.beginning before) =
        (s.proceed random).machine := beginning_of_not_waiting hw _
    rw [ofAttempts_of_ended hw]
    rw [hb] at h
    cases he : (s.proceed random).ending with
    | waiting => exact absurd he hw
    | done => exact .cons rfl he h
    | failed fault =>
        cases hf fault he
        exact .last rfl

end Stint

namespace Run

/-- A run that has failed makes no more attempts. -/
theorem attempts_of_leaving (ms : List Move) : ∀ {r : Run},
    (∃ fault?, r.phase = .leaving fault? ∨ r.phase = .over fault?) → r.attempts ms = [] := by
  induction ms with
  | nil => exact fun _ => rfl
  | cons mv ms ih =>
      rintro r ⟨fault?, hp⟩
      have hn : r.attempt? mv = none := by
        rcases hp with hp | hp <;> cases mv <;> simp [attempt?, hp]
      have hnext : ∃ fault?, (r.move mv).phase = .leaving fault? ∨
          (r.move mv).phase = .over fault? := by
        rcases mv.cases with ⟨random, rfl⟩ | ⟨x, rfl⟩
        · refine ⟨fault?, .inr ?_⟩
          rcases hp with hp | hp
          · rw [move, proceed, hp]
            rfl
          · rw [move, proceed, hp]
            exact hp
        · exact ⟨fault?, by rwa [phase_stir]⟩
      rw [attempts, hn, ih hnext]
      rfl

/-- The steps of a run follow each other from where the step under way began. -/
theorem follow_attempts (ms : List Move) : ∀ (r : Run) (before : Machine),
    Stint.Follow ((Session.ofRun r).beginning before).pc
      (Stint.ofAttempts before (r.attempts ms)) := by
  induction ms with
  | nil => exact fun _ _ => .nil
  | cons mv ms ih =>
      intro r before
      rcases r.attempt_cases mv with ⟨random, ha, he⟩ | ⟨ha, hq, hp⟩
      · have hnext := ih (r.move mv) ((Session.ofRun r).beginning before)
        rw [he, ofRun_take, ← he] at hnext
        rw [attempts, ha]
        refine Stint.follow_attempt hnext fun fault hf => attempts_of_leaving ms ⟨some fault, ?_⟩
        rw [he, phase_take, Machine.Step.phase, hf]
        exact .inl rfl
      · have hnext := ih (r.move mv) before
        have hpc : (r.move mv).machine.pc = r.machine.pc := hq.same .pc (by decide) (by decide)
        rw [attempts, ha]
        -- nothing was attempted, so the step under way is the same one as before
        unfold Session.beginning at hnext ⊢
        rw [hp] at hnext
        split at hnext
        next => exact hpc ▸ hnext
        next => exact hnext

end Run

namespace Session

/-- In every session of a machine with accepted settings the observer is told once of each
step that is done and of no other, in their order, and what it is told is of the machine with
which the step began.  In each run that starts in the session it is the same, and there the
first step begins at the entry and each other one where the one before has ended. -/
theorem observer_told_of_done_steps {settings : Settings} (hc : settings.check = .ok ()) :
    ∃ m, Machine.build settings = .ok m ∧ ∀ events : List Event,
      (∀ d ∈ (start m).stints events, d.before.Yields d.step ∧ d.step.ending ≠ .waiting) ∧
        Stint.Told ((start m).stints events) ((start m).trace events) ∧
        ∀ entry speaker observer moves,
          let r := Run.start ((start m).after events).machine entry speaker observer
          (∀ d ∈ r.stints moves, d.before.Yields d.step ∧ d.step.ending ≠ .waiting) ∧
            Stint.Told (r.stints moves) (r.moves moves).trace ∧
            Stint.Follow entry (r.stints moves) := by
  obtain ⟨m, hb⟩ := Machine.exists_build hc
  refine ⟨m, hb, fun events => ?_⟩
  have hs := sound_stints hb events
  have hm := (sound_of_reachable (Reachable.after events (.start hb))).machine
  refine ⟨fun d hd => ⟨(hs d hd).yields, (hs d hd).ended⟩, ?_, ?_⟩
  · rw [trace_eq]
    exact Stint.told_of_sound hs
  · intro entry speaker observer moves r
    have hr : ∀ d ∈ r.stints moves, d.Sound settings :=
      Run.sound_stints hm entry speaker observer moves
    refine ⟨fun d hd => ⟨(hr d hd).yields, (hr d hd).ended⟩, ?_, ?_⟩
    · rw [Run.trace_eq, Run.trace_start, List.nil_append]
      exact Stint.told_of_sound hr
    · have hf := r.follow_attempts moves r.machine
      have hpc : r.machine.pc = entry := Run.pc_start hm entry speaker observer
      have hbegin : (ofRun r).beginning r.machine = r.machine := by
        unfold beginning
        split <;> rfl
      rw [hbegin, hpc] at hf
      exact hf

/-- A run whose second instruction overwrites itself, whose third one waits for a key, and
whose fourth one there is not. -/
theorem observer_told_of_overwritten_word :
    ∃ m, Machine.build { memorySize := 0x100, entry := 0xF0 } = .ok m ∧
      let s := (start m).after [.load 0xF0 [0xA0, 0xF2, 0xF1, 0x55, 0xF0, 0x0A, 0x80, 0x0F]]
      let r := Run.start s.machine 0xF0 .mute .watcher
      let moves : List Run.Move := [.proceed 0, .proceed 0, .proceed 0, .proceed 0, .proceed 0,
        .proceed 0, .act (.press 13), .proceed 0, .proceed 0, .proceed 0, .proceed 0]
      Stint.Told (r.stints moves) [⟨0xF0, 0xA0F2, .loadIndex 0xF2⟩, ⟨0xF2, 0xF155, .store 1⟩,
        ⟨0xF4, 0xF00A, .waitKey 0⟩] ∧
        Stint.Follow 0xF0 (r.stints moves) ∧
        (r.moves moves).machine.ram.word 0xF2 = .ok 0 ∧
        (r.moves moves).phase = .over (some (.unsupportedOpcode 0x800F 0xF6)) := by
  have hc : Settings.check { memorySize := 0x100, entry := 0xF0 } = .ok () := rfl
  obtain ⟨m, hb, h⟩ := observer_told_of_done_steps hc
  refine ⟨m, hb, ?_⟩
  intro s r moves
  obtain ⟨-, -, hrun⟩ := h [.load 0xF0 [0xA0, 0xF2, 0xF1, 0x55, 0xF0, 0x0A, 0x80, 0x0F]]
  obtain ⟨-, htold, hfollow⟩ := hrun 0xF0 .mute .watcher moves
  have ht : (r.moves moves).trace = [⟨0xF0, 0xA0F2, .loadIndex 0xF2⟩, ⟨0xF2, 0xF155, .store 1⟩,
      ⟨0xF4, 0xF00A, .waitKey 0⟩] := by
    cases hb
    decide +kernel
  obtain ⟨hw, hp⟩ : (r.moves moves).machine.ram.word 0xF2 = .ok 0 ∧
      (r.moves moves).phase = .over (some (.unsupportedOpcode 0x800F 0xF6)) := by
    cases hb
    decide +kernel
  exact ⟨ht ▸ htold, hfollow, hw, hp⟩

end Session

end SuperChip
