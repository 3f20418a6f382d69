import SuperChip.Proofs.Session

/-!
# How steps fail

`Machine.Refuses` has one rule for each instruction that can be refused: a return and a
call by the call stack, and what reads or writes memory from the address register on.
`Machine.Fails` has one rule for each stage of a step.  A step of a machine in a session
fails just when a rule says so, and with the fault of the rule
(`step_fails_just_by_rule`).

Only a step that looks for a key waits, and looking for a key is never refused.  So a
step that waits does not fail later either.
-/

namespace SuperChip.Machine

/-! ## Rules -/

/-- The number of bytes of the sprite that is drawn for a count. -/
def spriteLength (m : Machine) (n : UInt8) : Nat :=
  if m.surface.extended ∧ n = 0 then 32 else n.toNat

/-- An instruction cannot be executed. -/
inductive Refuses (m : Machine) : Instruction → Fault → Prop where
  | ret : m.registers.stack.used = 0 → Refuses m .ret .stackUnderflow
  | call {address : UInt16} : m.registers.stack.used = m.settings.stackDepth →
      Refuses m (.call address) (.stackOverflow m.settings.stackDepth)
  | draw {x y n : UInt8} : m.ram.size < m.index.toNat + m.spriteLength n →
      Refuses m (.draw x y n) (.outOfBounds m.index)
  | bcd {x : UInt8} : m.index.toNat < Glyphs.reservedEnd ∨ m.ram.size < m.index.toNat + 3 →
      Refuses m (.bcd x) (.outOfBounds m.index)
  | store {x : UInt8} :
      m.index.toNat < Glyphs.reservedEnd ∨ m.ram.size < m.index.toNat + (x.toNat + 1) →
      Refuses m (.store x) (.outOfBounds m.index)
  | read {x : UInt8} : m.ram.size < m.index.toNat + (x.toNat + 1) →
      Refuses m (.read x) (.outOfBounds m.index)

/-- A step cannot be taken. -/
inductive Fails (m : Machine) : Fault → Prop where
  | fetch : m.ram.size < m.pc.toNat + 2 → Fails m (.outOfBounds m.pc)
  | decode {w : UInt16} : m.Fetches w → (∀ i, ¬Word.StandsFor w i) →
      Fails m (.unsupportedOpcode w m.pc)
  | execute {i : Instruction} {fault : Fault} : m.Issues i → m.Refuses i fault → Fails m fault

/-! ## Instructions that can be refused -/

variable {m : Machine} {fault : Fault}

theorem executeReturn_failed_iff :
    m.executeReturn.ending = .failed fault ↔
      m.registers.stack.used = 0 ∧ fault = .stackUnderflow := by
  unfold executeReturn CallStack.pop
  by_cases h : m.registers.stack.used = 0
  · simp [h, Outcome.failed, eq_comm]
  · simp [h, Outcome.done]

theorem executeCall_failed_iff {address : UInt16} :
    (m.executeCall address).ending = .failed fault ↔
      m.registers.stack.depth ≤ m.registers.stack.used ∧
        fault = .stackOverflow m.registers.stack.used := by
  unfold executeCall CallStack.push CallStack.depth
  by_cases h : m.registers.stack.used < m.registers.stack.slots.size
  · simp [h, Outcome.done, Nat.not_le_of_lt h]
  · simp [h, Outcome.failed, Nat.le_of_not_lt h, eq_comm]

theorem mul_spriteShape (m : Machine) (n : UInt8) :
    (m.spriteShape n).1 * (m.spriteShape n).2 = m.spriteLength n := by
  unfold spriteShape spriteLength
  split
  · rfl
  · exact Nat.mul_one _

theorem executeDraw_failed_iff {x y n : UInt8} :
    (m.executeDraw x y n).ending = .failed fault ↔
      m.ram.size < m.index.toNat + m.spriteLength n ∧ fault = .outOfBounds m.index := by
  have hr : (m.setFlag false).ram = m.ram := rfl
  have hi : (m.setFlag false).index = m.index := rfl
  unfold executeDraw
  dsimp only
  rw [mul_spriteShape, hr, hi, Ram.slice]
  by_cases h : m.index.toNat + m.spriteLength n ≤ m.ram.size
  · simp [h, Outcome.done, Nat.not_lt_of_le h]
  · simp [h, Outcome.failed, Nat.lt_of_not_le h, eq_comm]

theorem executeWait_not_failed {x : UInt8} : (m.executeWait x).ending ≠ .failed fault := by
  intro h
  rw [executeWait] at h
  split at h <;> cases h

theorem executeWrite_failed_iff (bytes : List UInt8) (hb : bytes ≠ []) :
    (m.executeWrite bytes).ending = .failed fault ↔
      (m.index.toNat < Glyphs.reservedEnd ∨ m.ram.size < m.index.toNat + bytes.length) ∧
        fault = .outOfBounds m.index := by
  have hl : 0 < bytes.length := List.length_pos_iff.mpr hb
  unfold executeWrite Ram.write
  by_cases h : m.index.toNat < Glyphs.reservedEnd
  · simp [h, hl, Outcome.failed, eq_comm]
  · by_cases hs : m.index.toNat + bytes.length ≤ m.ram.size
    · simp [h, hs, Outcome.done, Nat.not_lt_of_le hs]
    · simp [h, hs, Outcome.failed, Nat.lt_of_not_le hs, eq_comm]

theorem executeRead_failed_iff {x : UInt8} :
    (m.executeRead x).ending = .failed fault ↔
      m.ram.size < m.index.toNat + (x.toNat + 1) ∧ fault = .outOfBounds m.index := by
  unfold executeRead Ram.slice
  by_cases h : m.index.toNat + (x.toNat + 1) ≤ m.ram.size
  · simp [h, Outcome.done, Nat.not_lt_of_le h]
  · simp [h, Outcome.failed, Nat.lt_of_not_le h, eq_comm]

/-! ## When an instruction is refused -/

variable {settings : Settings}

/-- An instruction fails just when a rule refuses it. -/
theorem Sound.execute_failed_iff (h : m.Sound settings) {i : Instruction} (hi : i.Named)
    {random : UInt8} : (m.execute random i).ending = .failed fault ↔ m.Refuses i fault := by
  cases i with
  | ret =>
      rw [Machine.execute, executeReturn_failed_iff]
      constructor
      · rintro ⟨hu, rfl⟩
        exact .ret hu
      · intro hr
        cases hr with
        | ret hu => exact ⟨hu, rfl⟩
  | call address =>
      have hd : m.registers.stack.depth = m.settings.stackDepth := by
        rw [h.settings_eq]
        exact h.stack.depth
      rw [Machine.execute, executeCall_failed_iff, hd]
      constructor
      · rintro ⟨hu, rfl⟩
        -- no more slots are taken than there are, so all of them are
        have he : m.registers.stack.used = m.settings.stackDepth :=
          Nat.le_antisymm (le_of_le_of_eq h.stack.fits hd) hu
        rw [he]
        exact .call he
      · intro hr
        cases hr with
        | call hu => exact ⟨Nat.le_of_eq hu.symm, congrArg _ hu.symm⟩
  | draw x y n =>
      rw [Machine.execute, executeDraw_failed_iff]
      constructor
      · rintro ⟨hs, rfl⟩
        exact .draw hs
      · intro hr
        cases hr with
        | draw hs => exact ⟨hs, rfl⟩
  | waitKey x =>
      constructor
      · intro he
        exact absurd he executeWait_not_failed
      · intro hr
        cases hr
  | bcd x =>
      rw [Machine.execute, executeWrite_failed_iff (decimalDigits _) (List.cons_ne_nil _ _)]
      constructor
      · rintro ⟨hs, rfl⟩
        exact .bcd hs
      · intro hr
        cases hr with
        | bcd hs => exact ⟨hs, rfl⟩
  | store x =>
      have hl : (m.registers.v.upTo x).length = x.toNat + 1 :=
        Bank.length_upTo (hi x (List.mem_singleton_self x))
      have hne : m.registers.v.upTo x ≠ [] := List.ne_nil_of_length_eq_add_one hl
      rw [Machine.execute, executeWrite_failed_iff _ hne, hl]
      constructor
      · rintro ⟨hs, rfl⟩
        exact .store hs
      · intro hr
        cases hr with
        | store hs => exact ⟨hs, rfl⟩
  | read x =>
      rw [Machine.execute, executeRead_failed_iff]
      constructor
      · rintro ⟨hs, rfl⟩
        exact .read hs
      · intro hr
        cases hr with
        | read hs => exact ⟨hs, rfl⟩
  | _ =>
      constructor
      · intro he
        cases he
      · intro hr
        cases hr

/-- What an instruction is refused for does not depend on the program counter. -/
theorem refuses_advance {i : Instruction} : m.advance.Refuses i fault ↔ m.Refuses i fault := by
  constructor
  · intro h
    cases h with
    | ret hu => exact .ret hu
    | call hu => exact .call hu
    | draw hs => exact .draw hs
    | bcd hs => exact .bcd hs
    | store hs => exact .store hs
    | read hs => exact .read hs
  · intro h
    cases h with
    | ret hu => exact .ret hu
    | call hu => exact .call hu
    | draw hs => exact .draw hs
    | bcd hs => exact .bcd hs
    | store hs => exact .store hs
    | read hs => exact .read hs

theorem Sound.step_failed_iff (h : m.Sound settings) {random : UInt8} :
    (m.step random).ending = .failed fault ↔ m.Fails fault := by
  constructor
  · intro he
    rcases stage_cases m with hf | ⟨w, hw, hi⟩ | ⟨w, i, hw, hi⟩
    · rw [step_of_not_fetches hf] at he
      cases he
      exact .fetch hf
    · rw [step_of_unsupported hw hi] at he
      cases he
      exact .decode hw hi
    · rw [step_of_standsFor hw hi] at he
      refine .execute ⟨w, hw, hi⟩ (refuses_advance.mp ?_)
      exact (h.advance.execute_failed_iff hi.named).mp he
  · intro hf
    cases hf with
    | fetch hs => rw [step_of_not_fetches hs]
    | decode hw hi => rw [step_of_unsupported hw hi]
    | execute hi hr =>
        obtain ⟨w, hw, hi⟩ := hi
        rw [step_of_standsFor hw hi]
        exact (h.advance.execute_failed_iff hi.named).mpr (refuses_advance.mpr hr)

/-! ## Steps that do not fail -/

/-- Only looking for a key waits. -/
theorem execute_waiting {random : UInt8} {i : Instruction}
    (h : (m.execute random i).ending = .waiting) : ∃ x, i = .waitKey x := by
  cases i with
  | waitKey x => exact ⟨x, rfl⟩
  | ret =>
      rw [Machine.execute, executeReturn] at h
      split at h <;> cases h
  | call address =>
      rw [Machine.execute, executeCall] at h
      split at h <;> cases h
  | draw x y n =>
      rw [Machine.execute, executeDraw] at h
      dsimp only at h
      split at h <;> cases h
  | bcd x | store x =>
      rw [Machine.execute, executeWrite] at h
      split at h <;> cases h
  | read x =>
      rw [Machine.execute, executeRead] at h
      split at h <;> cases h
  | _ => cases h

/-- What a step waits in is a look for a key. -/
theorem step_waiting {random : UInt8} {t : Traced} (h : (m.step random).ending = .waiting)
    (ht : (m.step random).issued = some t) : ∃ x, t.instruction = .waitKey x := by
  rcases stage_cases m with hf | ⟨w, hw, hi⟩ | ⟨w, i, hw, hi⟩
  · rw [step_of_not_fetches hf] at h
    cases h
  · rw [step_of_unsupported hw hi] at h
    cases h
  · rw [step_of_standsFor hw hi] at h ht
    cases ht
    exact execute_waiting h

/-- A step comes to its end if it issues an instruction that is neither refused nor
looks for a key. -/
theorem Sound.step_done (h : m.Sound settings) {random : UInt8} {i : Instruction}
    (hi : m.Issues i) (hw : ∀ x, i ≠ .waitKey x) (hr : ∀ fault, ¬m.Refuses i fault) :
    (m.step random).ending = .done := by
  obtain ⟨w, hf, hs⟩ := hi
  rw [step_of_standsFor hf hs]
  cases he : (m.advance.execute random i).ending with
  | done => exact he
  | failed fault =>
      have hr' := (h.advance.execute_failed_iff hs.named).mp he
      exact absurd (refuses_advance.mp hr') (hr fault)
  | waiting =>
      obtain ⟨x, hx⟩ := execute_waiting he
      exact absurd hx (hw x)

/-- A step fails for what fetching, decoding and executing can fail for, and for nothing
that loading or building can. -/
theorem Fails.cases (h : m.Fails fault) :
    (∃ address, fault = .outOfBounds address) ∨
      (∃ word address, fault = .unsupportedOpcode word address) ∨
      fault = .stackUnderflow ∨ ∃ depth, fault = .stackOverflow depth := by
  cases h with
  | fetch => exact .inl ⟨_, rfl⟩
  | decode => exact .inr (.inl ⟨_, _, rfl⟩)
  | execute hi hr =>
      cases hr with
      | ret => exact .inr (.inr (.inl rfl))
      | call => exact .inr (.inr (.inr ⟨_, rfl⟩))
      | draw | bcd | store | read => exact .inl ⟨_, rfl⟩

/-! ## Steps of a session -/

/-- A step of a machine in a session fails just by one of the rules, with its fault; a
step that waits does not fail when it is taken up; no step has the faults of loading or
of settings; and of the instructions that reach memory from the address register on,
those that read can reach into the glyphs while those that write cannot. -/
theorem step_fails_just_by_rule (h : Machine.Reachable settings m) (random : UInt8) :
    (∀ fault, (m.step random).ending = .failed fault ↔ m.Fails fault) ∧
      (∀ t, (m.step random).ending = .waiting → (m.step random).issued = some t →
        ∀ (later : Machine) (random' : UInt8) (fault : Fault),
          (later.perform random' t).ending ≠ .failed fault) ∧
      (∀ address length capacity,
        (m.step random).ending ≠ .failed (.programTooLong address length capacity)) ∧
      (∀ cause, (m.step random).ending ≠ .failed (.badSettings cause)) ∧
      (m.index.toNat < Glyphs.reservedEnd →
        (∀ x, m.Issues (.bcd x) ∨ m.Issues (.store x) →
          (m.step random).ending = .failed (.outOfBounds m.index)) ∧
        (∀ x, m.Issues (.read x) → m.index.toNat + (x.toNat + 1) ≤ m.ram.size →
          (m.step random).ending = .done) ∧
        ∀ x y n, m.Issues (.draw x y n) → m.index.toNat + m.spriteLength n ≤ m.ram.size →
          (m.step random).ending = .done) := by
  have hs := h.sound
  have hf (fault : Fault) : (m.step random).ending = .failed fault ↔ m.Fails fault :=
    hs.step_failed_iff
  refine ⟨hf, ?_, ?_, ?_, fun hlow => ⟨?_, ?_, ?_⟩⟩
  · intro t hw ht later random' fault
    obtain ⟨x, hx⟩ := step_waiting hw ht
    rw [perform, hx]
    exact executeWait_not_failed
  · intro address length capacity he
    rcases ((hf _).mp he).cases with ⟨_, e⟩ | ⟨_, _, e⟩ | e | ⟨_, e⟩ <;> cases e
  · intro cause he
    rcases ((hf _).mp he).cases with ⟨_, e⟩ | ⟨_, _, e⟩ | e | ⟨_, e⟩ <;> cases e
  · intro x hi
    rcases hi with hi | hi
    · exact (hf _).mpr (.execute hi (.bcd (.inl hlow)))
    · exact (hf _).mpr (.execute hi (.store (.inl hlow)))
  · intro x hi hfit
    apply hs.step_done hi
    · intro x' he
      cases he
    · intro fault hr
      cases hr with
      | read hlong => exact absurd hfit (Nat.not_le_of_lt hlong)
  · intro x y n hi hfit
    apply hs.step_done hi
    · intro x' he
      cases he
    · intro fault hr
      cases hr with
      | draw hlong => exact absurd hfit (Nat.not_le_of_lt hlong)

/-- A machine that starts at the last byte of the least memory has no word to fetch. -/
theorem step_fails_at_last_byte :
    ∃ m, Machine.Reachable { memorySize := 0xF2, entry := 0xF1 } m ∧
      (m.step 0).ending = .failed (.outOfBounds 0xF1) := by
  have hc : Settings.check { memorySize := 0xF2, entry := 0xF1 } = .ok () := rfl
  obtain ⟨m, hb⟩ := exists_build hc
  have hm : Machine.Reachable _ m := ⟨none, .start hb⟩
  obtain ⟨hf, -⟩ := step_fails_just_by_rule hm 0
  obtain ⟨-, ram, hr, rfl⟩ := build_eq_ok_iff.mp hb
  refine ⟨_, hm, (hf _).mpr (.fetch ?_)⟩
  show ram.size < (0xF1 : UInt16).toNat + 2
  rw [Ram.size_build hr]
  decide

end SuperChip.Machine
