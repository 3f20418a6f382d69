import SuperChip.Proofs.Machine.Flow

/-!
# Keys that a program looks for

What a keypad shows is decided by its history (`Keypad.recalls_acts`).  A program sees it
through three instructions.  `F_0A` waits for a key and finds its label; `E_9E` and `E_A1`
ask for the key with a label.  The label that a wait has found is that of the key that is
held, so as long as the same key is held the one skips and the other does not
(`Session.keys_by_history`).
-/

namespace SuperChip

namespace Machine

variable {settings : Settings} {m : Machine} {random : UInt8} {t : Traced} {x : UInt8}

/-- A wait that has come to its end while the machine is not shut down has found the key that
is held. -/
theorem holds_of_executeWait (hx : x.toNat < 16) (hd : (m.executeWait x).ending = .done)
    (hs : m.keypad.isShutdown = false) : m.keypad.Holds ((m.executeWait x).machine.v x) := by
  unfold executeWait at hd ⊢
  split
  next label hw =>
    have hv : (m.setV x label).v x = label := (Bank.read_write hx).trans (if_pos rfl)
    show m.keypad.Holds ((m.setV x label).v x)
    rw [hv]
    exact (Keypad.wait_eq_key_iff.mp hw).2
  next hw => cases hs.symm.trans (Keypad.wait_eq_interrupted_iff.mp hw)
  next hw =>
    rw [hw] at hd
    cases hd

/-- The same of a whole step, which may have waited. -/
theorem Yields.holds {b : Machine} {s : Step} (h : b.Yields s) (ht : s.traced = some t)
    (hi : t.instruction = .waitKey x) (hs : s.machine.keypad.isShutdown = false) :
    s.machine.keypad.Holds (s.machine.v x) := by
  obtain ⟨hd, hr⟩ := h.traced_eq_some_iff.mp ht
  obtain ⟨m, random, t', hr', rfl, -⟩ := h.performs hd
  cases hr.unique hr'
  have hx : x.toNat < 16 := hr.standsFor.named x (by simp [hi, Instruction.registers])
  have hk : (m.perform random t).machine.keypad = m.keypad :=
    same_execute (p := .keypad) random (keypad_not_mem_footprint t.instruction)
  rw [hk] at hs ⊢
  rw [perform, hi] at hd ⊢
  exact holds_of_executeWait hx hd hs

/-- A machine on which the key is held that VX is the label of skips where it is asked whether
the key is held, and does not skip where it is asked whether it is not. -/
theorem Sound.skips_of_holds (h : m.Sound settings) (hk : m.keypad.Holds (m.v x)) :
    (m.Issues (.skipPressed x) → (m.step random).ending = .done ∧
        (m.step random).machine.pc.toNat = (m.pc.toNat + 4) % m.ram.size) ∧
      (m.Issues (.skipNotPressed x) → (m.step random).ending = .done ∧
        (m.step random).machine.pc.toNat = (m.pc.toNat + 2) % m.ram.size) := by
  have hpeek : m.keypad.peek (m.v x) = true := Keypad.peek_eq_true_iff.mpr hk
  constructor
  · rintro ⟨w, hw, hi⟩
    rw [step_of_standsFor hw hi]
    refine ⟨rfl, ?_⟩
    show (m.advance.skipIf (m.keypad.peek (m.v x))).pc.toNat = _
    rw [h.toNat_pc_skipIf, if_pos hpeek]
  · rintro ⟨w, hw, hi⟩
    rw [step_of_standsFor hw hi]
    refine ⟨rfl, ?_⟩
    show (m.advance.skipIf (!m.keypad.peek (m.v x))).pc.toNat = _
    rw [h.toNat_pc_skipIf, if_neg (by simp [hpeek])]

end Machine

namespace Session

/-- A keypad that nobody had touched is after any actions as these have left it.  And in every
session, if a wait for a key has come to its end while the machine is not shut down, then
VX is the label of a key that is held; and as long as this key is held and VX stays, a skip
that asks for the key of VX is taken, and one that asks for the opposite is not. -/
theorem keys_by_history {settings : Settings} (hc : settings.check = .ok ()) :
    (∀ (peekDelay : UInt32) (as : List Keypad.Action),
      ((Keypad.untouched peekDelay).acts as).Recalls as) ∧
      ∃ m, Machine.build settings = .ok m ∧
        ∀ events : List Event, ∀ d ∈ (start m).stints events, ∀ (t : Traced) (x : UInt8),
          d.step.traced = some t → t.instruction = .waitKey x →
          d.step.machine.keypad.isShutdown = false →
          ∃ position, d.step.machine.keypad.held = some position ∧
            d.step.machine.v x = Keypad.labels.get position ∧
            ∀ later : Machine, Machine.Reachable settings later →
              later.keypad.held = some position → later.v x = d.step.machine.v x →
              ∀ random,
                (later.Issues (.skipPressed x) → (later.step random).ending = .done ∧
                  (later.step random).machine.pc.toNat =
                    (later.pc.toNat + 4) % settings.memorySize) ∧
                (later.Issues (.skipNotPressed x) → (later.step random).ending = .done ∧
                  (later.step random).machine.pc.toNat =
                    (later.pc.toNat + 2) % settings.memorySize) := by
  refine ⟨Keypad.recalls_acts, ?_⟩
  obtain ⟨m, hb⟩ := Machine.exists_build hc
  refine ⟨m, hb, fun events d hd t x ht hi hs => ?_⟩
  obtain ⟨position, hp, hl⟩ := (sound_stints hb events d hd).yields.holds ht hi hs
  refine ⟨position, hp, hl.symm, fun later hm hheld hv random => ?_⟩
  have hsound := hm.sound
  have hk : later.keypad.Holds (later.v x) := ⟨position, hheld, hl.trans hv.symm⟩
  rw [← hsound.size]
  exact hsound.skips_of_holds hk

/-- A program waits for a key and then asks for it. -/
theorem keys_by_history_of_awaited :
    ∃ m, Machine.build { memorySize := 0x100, entry := 0xF0 } = .ok m ∧
      let s := (start m).after
        [.load 0xF0 [0xF3, 0x0A, 0xE3, 0x9E], .step 0, .act (.press 3), .step 0]
      s.machine.v 3 = 0xC ∧ (s.machine.step 0).machine.pc.toNat = (0xF2 + 4) % 0x100 := by
  have hc : Settings.check { memorySize := 0x100, entry := 0xF0 } = .ok () := rfl
  obtain ⟨-, m, hb, h⟩ := keys_by_history hc
  refine ⟨m, hb, ?_⟩
  intro s
  let s₁ := (start m).after [.load 0xF0 [0xF3, 0x0A, 0xE3, 0x9E]]
  let s₂ := s₁.after [.step 0, .act (.press 3)]
  obtain ⟨hp, hw⟩ : s₁.parked = none ∧ (s₁.proceed 0).ending = .waiting := by
    cases hb
    decide +kernel
  obtain ⟨hp', hd⟩ : s₂.parked = some ⟨0xF0, 0xF30A, .waitKey 3⟩ ∧
      (s₂.proceed 0).ending = .done := by
    cases hb
    decide +kernel
  have hstints : (start m).stints
      [.load 0xF0 [0xF3, 0x0A, 0xE3, 0x9E], .step 0, .act (.press 3), .step 0] =
        [⟨s₁.machine, s₂.proceed 0⟩] := by
    show Stint.ofAttempts m [⟨s₁, 0⟩, ⟨s₂, 0⟩] = _
    simp only [Stint.ofAttempts, Attempt.step, beginning, hp, hp', hw, hd]
    rfl
  have ht : (s₂.proceed 0).traced = some ⟨0xF0, 0xF30A, .waitKey 3⟩ := by
    cases hb
    decide +kernel
  obtain ⟨hs, hheld, hpc, hf⟩ : s.machine.keypad.isShutdown = false ∧
      s.machine.keypad.held = some 3 ∧ s.machine.pc.toNat = 0xF2 ∧ s.machine.Fetches 0xE39E := by
    cases hb
    decide +kernel
  obtain ⟨position, hp, hv, hskip⟩ :=
    h _ _ (by rw [hstints]; exact List.mem_cons_self) _ 3 ht rfl hs
  cases hp.symm.trans hheld
  have hm : Machine.Reachable { memorySize := 0x100, entry := 0xF0 } s.machine := by
    have hr : s.Reachable { memorySize := 0x100, entry := 0xF0 } := .after _ (.start hb)
    exact ⟨s.parked, hr⟩
  have hissues : s.machine.Issues (.skipPressed 3) :=
    ⟨0xE39E, hf, ⟨.skipPressed, ⟨rfl, trivial, rfl, rfl⟩, rfl⟩⟩
  obtain ⟨-, hn⟩ := (hskip s.machine hm hheld rfl 0).1 hissues
  rw [hpc] at hn
  exact ⟨hv, hn⟩

end Session

end SuperChip
