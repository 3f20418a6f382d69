import SuperChip.Bench
import SuperChip.Proofs.Machine.Refusal

/-!
# What failures leave behind

A failed step leaves one of three machines (`step_of_failed`).  Where there was no word
to fetch it is the machine as before.  Where the word stands for nothing it is the
machine with the program counter behind the word.  Where the instruction is refused it
is this one too, but that drawing has cleared the flag register before it looks at
memory.

So only two parts of the machine can be others than before, the program counter and the
flag register, and nobody is told of anything.  A failed load leaves everything.
-/

namespace SuperChip.Machine

/-! ## Refused instructions -/

variable {m : Machine} {fault : Fault}

/-- The machine behind an instruction that was refused. -/
def refused (m : Machine) : Instruction → Machine
  | .draw _ _ _ => m.setFlag false
  | _ => m

/-- An instruction that fails has changed nothing but the flag register, and that only
if it draws, and has left nothing in the journal. -/
theorem execute_of_failed {random : UInt8} {i : Instruction}
    (h : (m.execute random i).ending = .failed fault) :
    m.execute random i = .failed (m.refused i) fault := by
  cases i with
  | ret =>
      rw [Machine.execute, executeReturn] at h ⊢
      split at h
      · cases h
      · cases h
        rfl
  | call address =>
      rw [Machine.execute, executeCall] at h ⊢
      split at h
      · cases h
      · cases h
        rfl
  | draw x y n =>
      rw [Machine.execute, executeDraw] at h ⊢
      dsimp only at h ⊢
      split at h
      · cases h
      · cases h
        rfl
  | waitKey x => exact absurd h executeWait_not_failed
  | bcd x | store x =>
      rw [Machine.execute, executeWrite] at h ⊢
      split at h
      · cases h
      · cases h
        rfl
  | read x =>
      rw [Machine.execute, executeRead] at h ⊢
      split at h
      · cases h
      · cases h
        rfl
  | _ => cases h

/-- A refused instruction has kept all parts but the V registers. -/
theorem same_refused {p : Part} (i : Instruction) (h : p ≠ .v) : p.Same m (m.refused i) := by
  cases i with
  | draw x y n => exact same_setV _ _ h
  | _ => exact .refl m p

theorem refused_of_ne_draw {i : Instruction} (h : ∀ x y n, i ≠ .draw x y n) :
    m.refused i = m := by
  cases i with
  | draw x y n => exact absurd rfl (h x y n)
  | _ => rfl

theorem v_setFlag_of_ne {x : UInt8} (on : Bool) (h : x ≠ flagRegister) :
    (m.setFlag on).v x = m.v x := by
  unfold v setFlag Registers.setFlag
  exact (Bank.read_write (by decide)).trans (if_neg h.symm)

theorem v_setFlag (on : Bool) : (m.setFlag on).v flagRegister = if on then 1 else 0 := by
  unfold v setFlag Registers.setFlag
  exact (Bank.read_write (by decide)).trans (if_pos rfl)

theorem v_refused {i : Instruction} {x : UInt8} (h : x ≠ flagRegister) :
    (m.refused i).v x = m.v x := by
  cases i with
  | draw => exact v_setFlag_of_ne false h
  | _ => rfl

/-! ## Steps that are not done -/

/-- An instruction that does not come to its end keeps all parts but the V registers. -/
theorem same_perform_of_untold {random : UInt8} {t : Traced} {p : Part}
    (h : (m.perform random t).traced = none) (hv : p ≠ .v) :
    p.Same m (m.perform random t).machine := by
  show p.Same m (m.execute random t.instruction).machine
  cases he : (m.execute random t.instruction).ending with
  | done =>
      have ht : (m.perform random t).traced = some t := Step.traced_eq_some_iff.mpr ⟨he, rfl⟩
      rw [h] at ht
      cases ht
  | failed fault =>
      rw [execute_of_failed he]
      exact same_refused _ hv
  | waiting =>
      obtain ⟨x, hx⟩ := execute_waiting he
      refine same_execute random ?_
      rw [hx]
      simpa [Instruction.footprint] using hv

/-- A step that does not come to its end keeps all parts but the V registers and the
program counter. -/
theorem same_step_of_untold {random : UInt8} {p : Part} (h : (m.step random).traced = none)
    (hv : p ≠ .v) (hp : p ≠ .pc) :
    p.Same m (m.step random).machine := by
  rcases stage_cases m with hf | ⟨w, hw, hi⟩ | ⟨w, i, hw, hi⟩
  · rw [step_of_not_fetches hf]
    exact .refl m p
  · rw [step_of_unsupported hw hi]
    exact same_advance hp
  · rw [step_of_standsFor hw hi] at h ⊢
    exact (same_advance hp).trans (same_perform_of_untold h hv)

/-! ## Failed steps -/

/-- The three machines that a failed step can leave. -/
theorem step_of_failed {random : UInt8} (h : (m.step random).ending = .failed fault) :
    m.ram.size < m.pc.toNat + 2 ∧ m.step random = ⟨m, .failed fault, [], none⟩ ∨
      (∃ w, m.Fetches w ∧ (∀ i, ¬Word.StandsFor w i) ∧
        m.step random = ⟨m.advance, .failed fault, [], none⟩) ∨
      ∃ w i, m.Fetches w ∧ Word.StandsFor w i ∧
        m.step random = ⟨m.advance.refused i, .failed fault, [], some ⟨m.pc, w, i⟩⟩ := by
  rcases stage_cases m with hf | ⟨w, hw, hi⟩ | ⟨w, i, hw, hi⟩
  · rw [step_of_not_fetches hf] at h ⊢
    cases h
    exact .inl ⟨hf, rfl⟩
  · rw [step_of_unsupported hw hi] at h ⊢
    cases h
    exact .inr (.inl ⟨w, hw, hi, rfl⟩)
  · rw [step_of_standsFor hw hi] at h ⊢
    have he := execute_of_failed h
    refine .inr (.inr ⟨w, i, hw, hi, ?_⟩)
    rw [perform, he]
    rfl

section

variable {random : UInt8} (h : (m.step random).ending = .failed fault)
include h

/-- No observer is told of a failed step. -/
theorem traced_step_of_failed : (m.step random).traced = none := by
  rw [Step.traced, h]

/-- A failed step keeps all parts but the V registers and the program counter. -/
theorem same_step_of_failed {p : Part} (hv : p ≠ .v) (hp : p ≠ .pc) :
    p.Same m (m.step random).machine :=
  same_step_of_untold (traced_step_of_failed h) hv hp

theorem v_step_of_failed {x : UInt8} (hx : x ≠ flagRegister) :
    (m.step random).machine.v x = m.v x := by
  rcases step_of_failed h with ⟨-, e⟩ | ⟨w, -, -, e⟩ | ⟨w, i, -, -, e⟩
  · rw [e]
  · rw [e]
    rfl
  · rw [e]
    exact v_refused hx

/-- Drawing that fails has cleared the flag register. -/
theorem flag_step_of_failed_draw {x y n : UInt8} (hi : m.Issues (.draw x y n)) :
    (m.step random).machine.v flagRegister = 0 := by
  rcases step_of_failed h with ⟨hf, -⟩ | ⟨w, hw, hs, -⟩ | ⟨w, i, hw, hs, e⟩
  · obtain ⟨w, hw, -⟩ := hi
    exact absurd hw.1 (Nat.not_le_of_lt hf)
  · obtain ⟨w', hw', hs'⟩ := hi
    cases hw.unique hw'
    exact absurd hs' (hs _)
  · have hi' : m.Issues i := ⟨w, hw, hs⟩
    cases hi'.unique hi
    rw [e]
    exact v_setFlag false

theorem flag_step_of_failed (hi : ∀ x y n, ¬m.Issues (.draw x y n)) :
    (m.step random).machine.v flagRegister = m.v flagRegister := by
  rcases step_of_failed h with ⟨-, e⟩ | ⟨w, -, -, e⟩ | ⟨w, i, hw, hs, e⟩
  · rw [e]
  · rw [e]
    rfl
  · have hne (x y n : UInt8) : i ≠ .draw x y n := by
      rintro rfl
      exact hi x y n ⟨w, hw, hs⟩
    rw [e, refused_of_ne_draw hne]
    rfl

/-- A failed step moves the program counter behind the word, if it fetched one. -/
theorem pc_step_of_failed :
    (m.step random).machine.pc =
      if m.pc.toNat + 2 ≤ m.ram.size then m.advance.pc else m.pc := by
  rcases step_of_failed h with ⟨hf, e⟩ | ⟨w, hw, -, e⟩ | ⟨w, i, hw, -, e⟩
  · rw [e, if_neg (Nat.not_le_of_lt hf)]
  · rw [e, if_pos hw.1]
  · rw [e, if_pos hw.1]
    have hne : Part.pc ≠ .v := by decide
    exact same_refused i hne

theorem entries_step_of_failed : (m.step random).entries = [] := by
  rcases step_of_failed h with ⟨-, e⟩ | ⟨w, -, -, e⟩ | ⟨w, i, -, -, e⟩ <;> rw [e]

/-- Nothing happens in a run that takes over a failed step. -/
theorem history_take_of_failed (r : Run) : (r.take (m.step random)).history = r.history := by
  rw [Run.take, h, entries_step_of_failed h]
  exact Array.append_empty

/-- A bench that takes over a failed step tells nobody and writes nothing down. -/
theorem bench_take_of_failed (b : Bench) :
    (b.take (m.step random)).1 = none ∧ (b.take (m.step random)).2.2.journal = b.journal := by
  rw [Bench.take, h, entries_step_of_failed h, traced_step_of_failed h]
  exact ⟨ite_self _, Array.appendList_nil⟩

end

/-! ## Failed loads -/

/-- A bench on which a load fails is as before. -/
theorem bench_load_of_error {address : UInt16} {program : List UInt8} (b : Bench)
    (h : b.machine.load address program = .error fault) :
    b.load address program = (.error fault, b) := by
  rw [Bench.load, h]

theorem session_load_of_error {address : UInt16} {program : List UInt8} (s : Session)
    (h : s.machine.load address program = .error fault) :
    s.next (.load address program) = s := by
  rw [Session.next, h]

/-! ## Failures in a session -/

/-- A failed step of a machine in a session keeps every part of it but the V registers
and the program counter.  Of the V registers it keeps all but the flag register, which
it clears if the instruction draws and else keeps too.  The program counter is behind the
word if one was fetched, and else as before.  Nobody is told of the step.  A failed load
keeps all there is. -/
theorem failure_keeps {settings : Settings} (hm : Machine.Reachable settings m) :
    (∀ random fault, (m.step random).ending = .failed fault →
      let s := m.step random
      (∀ p : Part, p ≠ .v → p ≠ .pc → p.Same m s.machine) ∧
        (∀ x, x ≠ flagRegister → s.machine.v x = m.v x) ∧
        ((∃ x y n, m.Issues (.draw x y n)) → s.machine.v flagRegister = 0) ∧
        ((∀ x y n, ¬m.Issues (.draw x y n)) → s.machine.v flagRegister = m.v flagRegister) ∧
        (m.ram.size < m.pc.toNat + 2 → s.machine.pc = m.pc) ∧
        (m.pc.toNat + 2 ≤ m.ram.size → s.machine.pc.toNat = (m.pc.toNat + 2) % m.ram.size) ∧
        s.traced = none ∧ s.entries = [] ∧ (∀ r : Run, (r.take s).history = r.history) ∧
        ∀ b : Bench, (b.take s).1 = none ∧ (b.take s).2.2.journal = b.journal) ∧
      ∀ address program fault, m.load address program = .error fault →
        (∀ s : Session, s.machine = m → s.next (.load address program) = s) ∧
        ∀ b : Bench, b.machine = m → b.load address program = (.error fault, b) := by
  constructor
  · intro random fault h
    have hpc := pc_step_of_failed h
    refine ⟨fun p => same_step_of_failed h, fun x => v_step_of_failed h, ?_,
      flag_step_of_failed h, ?_, ?_, traced_step_of_failed h, entries_step_of_failed h,
      history_take_of_failed h, bench_take_of_failed h⟩
    · rintro ⟨x, y, n, hi⟩
      exact flag_step_of_failed_draw h hi
    · intro hf
      rw [hpc, if_neg (Nat.not_le_of_lt hf)]
    · intro hf
      rw [hpc, if_pos hf]
      exact hm.sound.toNat_pc_advance
  · intro address program fault h
    constructor
    · rintro s rfl
      exact session_load_of_error s h
    · rintro b rfl
      exact bench_load_of_error b h

/-- A program that sets VF and then draws what does not fit. -/
theorem failed_drawing_clears_flag :
    ∃ m, Machine.Reachable { memorySize := 0xF6, stackDepth := 1, entry := 0xF0 } m ∧
      m.v flagRegister = 7 ∧ (m.step 0).ending = .failed (.outOfBounds 0xF5) ∧
      (m.step 0).machine.v flagRegister = 0 ∧ (m.step 0).traced = none := by
  have hc : Settings.check { memorySize := 0xF6, stackDepth := 1, entry := 0xF0 } = .ok () := rfl
  obtain ⟨m, hb⟩ := exists_build hc
  have hs := Session.Reachable.after
    [.load 0xF0 [0x6F, 0x07, 0xA0, 0xF5, 0xD0, 0x0F], .step 0, .step 0] (.start hb)
  cases hb
  have hm : Machine.Reachable _ _ := ⟨_, hs⟩
  refine ⟨_, hm, by decide +kernel, by decide +kernel, ?_⟩
  obtain ⟨-, -, hd, -, -, -, ht, -⟩ :=
    (failure_keeps hm).1 0 (.outOfBounds 0xF5) (by decide +kernel)
  refine ⟨hd ⟨0, 0, 15, 0xD00F, ?_, ⟨.draw, ⟨rfl, trivial, trivial, trivial⟩, rfl⟩⟩, ht⟩
  unfold Fetches
  decide +kernel

end SuperChip.Machine
