import SuperChip.Proofs.Machine.Sound

/-!
# The stages of a step

A step passes up to three stages.  It fetches the word at the program counter; where
there is no whole word the step ends, and the machine is as before.  It decodes the
word; where the word stands for nothing the step ends with the program counter behind
the word.  Else it executes what the word stands for.

`step_of_not_fetches`, `step_of_unsupported` and `step_of_standsFor` say what a step
comes to at each stage, and one of the three always applies (`stage_cases`).  It is the
last one if the step is done (`step_of_done`).
-/

namespace SuperChip.Machine

/-! ## Fetching -/

/-- The word at the program counter, its high byte first. -/
def Fetches (m : Machine) (w : UInt16) : Prop :=
  m.pc.toNat + 2 ≤ m.ram.size ∧
    w.toNat = 256 * (m.ram.cell m.pc.toNat).toNat + (m.ram.cell (m.pc.toNat + 1)).toNat

instance (m : Machine) (w : UInt16) : Decidable (m.Fetches w) :=
  inferInstanceAs (Decidable (_ ∧ _))

/-- The instruction the word at the program counter stands for. -/
def Issues (m : Machine) (i : Instruction) : Prop := ∃ w, m.Fetches w ∧ Word.StandsFor w i

theorem word_eq_ok_iff_fetches {m : Machine} {w : UInt16} :
    m.ram.word m.pc = .ok w ↔ m.Fetches w := by
  have hh := (m.ram.cell m.pc.toNat).toNat_lt
  have hl := (m.ram.cell (m.pc.toNat + 1)).toNat_lt
  rw [Ram.word_eq_ok_iff, Fetches, ← UInt16.toNat_inj, UInt16.toNat_ofNat',
    Nat.mod_eq_of_lt (by omega)]

theorem Fetches.unique {m : Machine} {w w' : UInt16} (h : m.Fetches w) (h' : m.Fetches w') :
    w = w' := UInt16.toNat_inj.mp (h.2.trans h'.2.symm)

theorem Issues.unique {m : Machine} {i j : Instruction} (h : m.Issues i) (h' : m.Issues j) :
    i = j := by
  obtain ⟨w, hw, hi⟩ := h
  obtain ⟨w', hw', hj⟩ := h'
  cases hw.unique hw'
  exact hi.unique hj

/-- There is a word to fetch just when two bytes are left. -/
theorem exists_fetches_iff {m : Machine} :
    (∃ w, m.Fetches w) ↔ m.pc.toNat + 2 ≤ m.ram.size := by
  constructor
  · rintro ⟨w, hw, -⟩
    exact hw
  · intro h
    exact ⟨_, word_eq_ok_iff_fetches.mp (dif_pos h)⟩

/-! ## The three stages -/

variable {m : Machine} {w : UInt16} {i : Instruction}

theorem step_of_not_fetches (h : m.ram.size < m.pc.toNat + 2) (random : UInt8) :
    m.step random = ⟨m, .failed (.outOfBounds m.pc), [], none⟩ := by
  have hw : m.ram.word m.pc = .error (.outOfBounds m.pc) :=
    dif_neg (Nat.not_le_of_lt h)
  rw [step, hw]

theorem step_of_unsupported (hw : m.Fetches w) (hi : ∀ i, ¬Word.StandsFor w i)
    (random : UInt8) :
    m.step random = ⟨m.advance, .failed (.unsupportedOpcode w m.pc), [], none⟩ := by
  have hd : Instruction.decode w m.pc = .error (.unsupportedOpcode w m.pc) :=
    Instruction.decode_eq_error_iff.mpr ⟨hi, rfl⟩
  rw [step, word_eq_ok_iff_fetches.mpr hw]
  simp only [hd]

theorem step_of_standsFor (hw : m.Fetches w) (hi : Word.StandsFor w i) (random : UInt8) :
    m.step random = m.advance.perform random ⟨m.pc, w, i⟩ := by
  have hd : Instruction.decode w m.pc = .ok i := Instruction.decode_eq_ok_iff.mpr hi
  rw [step, word_eq_ok_iff_fetches.mpr hw]
  simp only [hd]

/-- A step fetches nothing, or a word that stands for nothing, or one that it executes. -/
theorem stage_cases (m : Machine) :
    m.ram.size < m.pc.toNat + 2 ∨
      (∃ w, m.Fetches w ∧ ∀ i, ¬Word.StandsFor w i) ∨
      ∃ w i, m.Fetches w ∧ Word.StandsFor w i := by
  by_cases h : m.pc.toNat + 2 ≤ m.ram.size
  · obtain ⟨w, hw⟩ := exists_fetches_iff.mpr h
    by_cases hi : ∃ i, Word.StandsFor w i
    · obtain ⟨i, hi⟩ := hi
      exact .inr (.inr ⟨w, i, hw, hi⟩)
    · exact .inr (.inl ⟨w, hw, not_exists.mp hi⟩)
  · exact .inl (Nat.lt_of_not_le h)

/-- A step that is done has executed what the word that it fetched stands for. -/
theorem step_of_done {random : UInt8} (h : (m.step random).ending = .done) :
    ∃ w i, m.Fetches w ∧ Word.StandsFor w i ∧
      m.step random = m.advance.perform random ⟨m.pc, w, i⟩ := by
  rcases stage_cases m with hf | ⟨w, hw, hi⟩ | ⟨w, i, hw, hi⟩
  · rw [step_of_not_fetches hf] at h
    cases h
  · rw [step_of_unsupported hw hi] at h
    cases h
  · exact ⟨w, i, hw, hi, step_of_standsFor hw hi random⟩

/-- A step comes to an instruction, or it fails. -/
theorem step_issued (m : Machine) (random : UInt8) :
    (∃ t, (m.step random).issued = some t) ∨ ∃ fault, (m.step random).ending = .failed fault := by
  rcases stage_cases m with hf | ⟨w, hw, hi⟩ | ⟨w, i, hw, hi⟩
  · rw [step_of_not_fetches hf]
    exact .inr ⟨_, rfl⟩
  · rw [step_of_unsupported hw hi]
    exact .inr ⟨_, rfl⟩
  · rw [step_of_standsFor hw hi]
    exact .inl ⟨_, rfl⟩

/-- An observer is told of what a step has issued, once it is done. -/
theorem Step.traced_eq_some_iff {s : Step} {t : Traced} :
    s.traced = some t ↔ s.ending = .done ∧ s.issued = some t := by
  unfold traced
  cases s.ending <;> simp

/-! ## Soundness -/

/-- An instruction that was issued and can be taken up: its word stands for it, and
the program counter is in memory. -/
structure Ready (m : Machine) (t : Traced) : Prop where
  standsFor : Word.StandsFor t.word t.instruction
  pc_lt : m.pc.toNat < m.ram.size

namespace Sound

variable {settings : Settings} {t : Traced} (h : m.Sound settings)
include h

theorem advance : m.advance.Sound settings := by
  apply h.of_same
  intro p hp
  apply same_advance
  rintro rfl
  simp at hp

theorem toNat_pc_advance : m.advance.pc.toNat = (m.pc.toNat + 2) % m.ram.size :=
  h.toNat_wrap _

theorem ready_advance (hi : Word.StandsFor w i) : m.advance.Ready ⟨m.pc, w, i⟩ :=
  ⟨hi, h.wrap_lt _⟩

theorem perform (hr : m.Ready t) (random : UInt8) : (m.perform random t).machine.Sound settings :=
  h.execute hr.pc_lt random t.instruction

theorem ready_perform (hr : m.Ready t) (random : UInt8) :
    (m.perform random t).machine.Ready t := by
  refine ⟨hr.standsFor, ?_⟩
  rw [Machine.perform, size_execute]
  exact h.pc_execute_lt hr.pc_lt random t.instruction

/-- A machine stays sound through a step, however the step ends. -/
theorem step (random : UInt8) : (m.step random).machine.Sound settings := by
  rcases stage_cases m with hf | ⟨w, hw, hi⟩ | ⟨w, i, hw, hi⟩
  · rw [step_of_not_fetches hf]
    exact h
  · rw [step_of_unsupported hw hi]
    exact h.advance
  · rw [step_of_standsFor hw hi]
    exact h.advance.perform (h.ready_advance hi) random

/-- What a step has issued can be taken up. -/
theorem ready_step {random : UInt8} (ht : (m.step random).issued = some t) :
    (m.step random).machine.Ready t := by
  rcases stage_cases m with hf | ⟨w, hw, hi⟩ | ⟨w, i, hw, hi⟩
  · rw [step_of_not_fetches hf] at ht
    cases ht
  · rw [step_of_unsupported hw hi] at ht
    cases ht
  · rw [step_of_standsFor hw hi] at ht ⊢
    cases ht
    exact h.advance.ready_perform (h.ready_advance hi) random

/-- Once a word was fetched, a step leaves the program counter in memory. -/
theorem pc_step_lt (hw : m.Fetches w) (random : UInt8) :
    (m.step random).machine.pc.toNat < m.ram.size := by
  by_cases hi : ∃ i, Word.StandsFor w i
  · obtain ⟨i, hi⟩ := hi
    rw [step_of_standsFor hw hi]
    exact h.advance.pc_execute_lt (h.wrap_lt _) random i
  · rw [step_of_unsupported hw (not_exists.mp hi)]
    exact h.wrap_lt _

end Sound

end SuperChip.Machine
