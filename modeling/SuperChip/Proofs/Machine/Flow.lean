import SuperChip.Proofs.Keypad
import SuperChip.Proofs.Session.Stints

/-!
# Where the program counter goes

A step moves the program counter behind its word before anything else, and some
instructions move it once more.  `Word.Leads` says where it is when all is done, digit by
digit of the word and from the machine as the step found it.  A word that skips
(`Word.Skips`) leads four bytes on, around the end of memory, although it gets there in two
moves of two bytes; a return leads behind the last open call; the jumps and the call lead
to what is written in the word; and all else leads two bytes on.

This is so for every step that is done, one that has waited for a key included
(`Session.done_step_leads`).  Skips come in pairs of opposed words (`Word.Opposed`).  What
one of them does, the other one does not.
-/

namespace SuperChip

/-- The machine with other memory. -/
def Machine.setRam (m : Machine) (ram : Ram) : Machine := { m with ram }

namespace Word

/-! ## Skips -/

/-- A word is a skip, and what it asks for holds. -/
def Skips (w : UInt16) (m : Machine) : Prop :=
  family w = 0x3 ∧ m.v (x w) = kk w ∨
    family w = 0x4 ∧ m.v (x w) ≠ kk w ∨
    family w = 0x5 ∧ m.v (x w) = m.v (y w) ∨
    family w = 0x9 ∧ m.v (x w) ≠ m.v (y w) ∨
    family w = 0xE ∧ kk w = 0x9E ∧ m.keypad.Holds (m.v (x w)) ∨
    family w = 0xE ∧ kk w = 0xA1 ∧ ¬m.keypad.Holds (m.v (x w))

/-- Two words are skips that ask for opposite things, of the same operands. -/
inductive Opposed (w w' : UInt16) : Prop where
  | byte : family w = 0x3 → family w' = 0x4 → x w' = x w → kk w' = kk w → Opposed w w'
  | register : family w = 0x5 → family w' = 0x9 → x w' = x w → y w' = y w → Opposed w w'
  | key : family w = 0xE → kk w = 0x9E → family w' = 0xE → kk w' = 0xA1 → x w' = x w →
      Opposed w w'

variable {w w' : UInt16} {m : Machine}

/-- Of two opposed words just one skips, whatever else is in memory. -/
theorem Opposed.skips_iff (h : Opposed w w') (ram : Ram) :
    Skips w' (m.setRam ram) ↔ ¬Skips w m := by
  have hv (k : UInt8) : (m.setRam ram).v k = m.v k := rfl
  have hp : (m.setRam ram).keypad = m.keypad := rfl
  cases h with
  | byte hf hf' hx hk => simp [Skips, hv, hf, hf', hx, hk]
  | register hf hf' hx hy => simp [Skips, hv, hf, hf', hx, hy]
  | key hf hk hf' hk' hx => simp [Skips, hv, hp, hf, hf', hx, hk, hk']

theorem Opposed.family_mem (h : Opposed w w') :
    family w ∈ [0x3, 0x4, 0x5, 0x9, 0xE] ∧ family w' ∈ [0x3, 0x4, 0x5, 0x9, 0xE] := by
  cases h with
  | byte hf hf' | register hf hf' | key hf _ hf' => simp [hf, hf']

/-- Opposed words stand for instructions that only move the program counter. -/
theorem Opposed.standsFor (h : Opposed w w') :
    ∃ i j, StandsFor w i ∧ i.footprint = [.pc] ∧ StandsFor w' j ∧ j.footprint = [.pc] := by
  cases h with
  | byte hf hf' =>
      exact ⟨_, _, ⟨.skipEq, ⟨hf, trivial, trivial, trivial⟩, rfl⟩, rfl,
        ⟨.skipNe, ⟨hf', trivial, trivial, trivial⟩, rfl⟩, rfl⟩
  | register hf hf' =>
      exact ⟨_, _, ⟨.skipEqReg, ⟨hf, trivial, trivial, trivial⟩, rfl⟩, rfl,
        ⟨.skipNeReg, ⟨hf', trivial, trivial, trivial⟩, rfl⟩, rfl⟩
  | key hf hk hf' hk' =>
      exact ⟨_, _, ⟨.skipPressed, .of_kk hf trivial hk rfl rfl, rfl⟩, rfl,
        ⟨.skipNotPressed, .of_kk hf' trivial hk' rfl rfl, rfl⟩, rfl⟩

/-! ## Words that lead on -/

/-- Where the program counter of a machine is once a word at it was executed to its end. -/
structure Leads (w : UInt16) (m : Machine) (next : Nat) : Prop where
  /-- `1___` and `2___` lead to what is written in the word. -/
  jump : family w = 0x1 ∨ family w = 0x2 → next = (nnn w).toNat % m.ram.size
  /-- `B___` leads as far behind that as V0 says. -/
  indexed : family w = 0xB → next = ((m.v 0).toNat + (nnn w).toNat) % m.ram.size
  /-- `0_EE` leads to the return address of the last open call. -/
  back : family w = 0x0 → kk w = 0xEE →
    ∃ a, m.registers.stack.frames.getLast? = some a ∧ next = a.toNat
  /-- A word that skips leads behind the next word. -/
  skip : Skips w m → next = (m.pc.toNat + 4) % m.ram.size
  /-- All other words lead behind themselves. -/
  on : family w ∉ [0x1, 0x2, 0xB] → ¬(family w = 0x0 ∧ kk w = 0xEE) → ¬Skips w m →
    next = (m.pc.toNat + 2) % m.ram.size

/-- A skip leads behind the next word or behind itself. -/
theorem Leads.of_skip {next : Nat} (h : Leads w m next)
    (hf : family w ∈ [0x3, 0x4, 0x5, 0x9, 0xE]) :
    Skips w m ∧ next = (m.pc.toNat + 4) % m.ram.size ∨
      ¬Skips w m ∧ next = (m.pc.toNat + 2) % m.ram.size := by
  by_cases hs : Skips w m
  · exact .inl ⟨hs, h.skip hs⟩
  · exact .inr ⟨hs, h.on (by grind) (by grind) hs⟩

end Word

/-! ## Executing a word -/

namespace Machine

variable {settings : Settings} {m : Machine} {random : UInt8} {w w' : UInt16} {i : Instruction}

@[simp] theorem v_advance (x : UInt8) : m.advance.v x = m.v x := rfl

@[simp] theorem keypad_advance : m.advance.keypad = m.keypad := rfl

/-- Skipping moves the program counter twice around the end of memory, which comes to one
move of four bytes. -/
theorem Sound.toNat_pc_skipIf (h : m.Sound settings) (condition : Bool) :
    (m.advance.skipIf condition).pc.toNat =
      if condition = true then (m.pc.toNat + 4) % m.ram.size
      else (m.pc.toNat + 2) % m.ram.size := by
  unfold skipIf
  split
  next =>
    rw [h.advance.toNat_pc_advance, h.toNat_pc_advance]
    exact Nat.mod_add_mod ..
  next => exact h.toNat_pc_advance

theorem frames_of_executeReturn (hd : m.executeReturn.ending = .done)
    (hf : m.registers.stack.Fits) :
    m.registers.stack.frames.getLast? = some m.executeReturn.machine.pc := by
  unfold executeReturn at hd ⊢
  split
  next address stack hp => rw [CallStack.frames_pop hf hp, List.getLast?_concat]; rfl
  next hp =>
    rw [hp] at hd
    cases hd

theorem pc_of_executeCall {address : UInt16} (hd : (m.executeCall address).ending = .done) :
    (m.executeCall address).machine.pc = m.ram.wrap address.toNat := by
  unfold executeCall at hd ⊢
  split
  next => rfl
  next hp =>
    rw [hp] at hd
    cases hd

/-- An instruction without the program counter in its footprint leads behind its word. -/
theorem Sound.toNat_pc_execute (h : m.Sound settings) (hp : .pc ∉ i.footprint) :
    (m.advance.execute random i).machine.pc.toNat = (m.pc.toNat + 2) % m.ram.size := by
  have hs : (m.advance.execute random i).machine.pc = m.advance.pc :=
    same_execute (p := .pc) random hp
  rw [hs, h.toNat_pc_advance]

/-- What a word stands for goes where the word leads. -/
theorem Sound.leads_execute (h : m.Sound settings) (hi : Word.StandsFor w i)
    (hd : (m.advance.execute random i).ending = .done) :
    Word.Leads w m (m.advance.execute random i).machine.pc.toNat where
  jump hf := by
    rcases hf with hf | hf
    · cases hi.unique ⟨.jump, ⟨hf, trivial, trivial, trivial⟩, rfl⟩
      exact h.toNat_wrap _
    · obtain rfl : i = .call (Word.nnn w) :=
        hi.unique ⟨.call, ⟨hf, trivial, trivial, trivial⟩, rfl⟩
      rw [Machine.execute] at hd ⊢
      rw [pc_of_executeCall hd]
      exact h.toNat_wrap _
  indexed hf := by
    cases hi.unique ⟨.jumpIndexed, ⟨hf, trivial, trivial, trivial⟩, rfl⟩
    exact h.toNat_wrap _
  back hf hk := by
    obtain rfl : i = .ret := hi.unique ⟨.ret, .of_kk hf trivial hk rfl rfl, rfl⟩
    rw [Machine.execute] at hd ⊢
    have hback := frames_of_executeReturn hd h.advance.stack.fits
    exact ⟨_, hback, rfl⟩
  skip hs := by
    have hskip (condition : Bool) (hc : condition = true) :
        (m.advance.skipIf condition).pc.toNat = (m.pc.toNat + 4) % m.ram.size := by
      rw [h.toNat_pc_skipIf, if_pos hc]
    rcases hs with ⟨hf, hv⟩ | ⟨hf, hv⟩ | ⟨hf, hv⟩ | ⟨hf, hv⟩ | ⟨hf, hk, hv⟩ | ⟨hf, hk, hv⟩
    · cases hi.unique ⟨.skipEq, ⟨hf, trivial, trivial, trivial⟩, rfl⟩
      exact hskip _ (beq_iff_eq.mpr hv)
    · cases hi.unique ⟨.skipNe, ⟨hf, trivial, trivial, trivial⟩, rfl⟩
      exact hskip _ (bne_iff_ne.mpr hv)
    · cases hi.unique ⟨.skipEqReg, ⟨hf, trivial, trivial, trivial⟩, rfl⟩
      exact hskip _ (beq_iff_eq.mpr hv)
    · cases hi.unique ⟨.skipNeReg, ⟨hf, trivial, trivial, trivial⟩, rfl⟩
      exact hskip _ (bne_iff_ne.mpr hv)
    · cases hi.unique ⟨.skipPressed, .of_kk hf trivial hk rfl rfl, rfl⟩
      exact hskip _ (Keypad.peek_eq_true_iff.mpr hv)
    · cases hi.unique ⟨.skipNotPressed, .of_kk hf trivial hk rfl rfl, rfl⟩
      exact hskip _ (by simpa [Keypad.peek_eq_false_iff] using hv)
  on hj hr hs := by
    have hstay (condition : Bool) (hc : ¬condition = true) :
        (m.advance.skipIf condition).pc.toNat = (m.pc.toNat + 2) % m.ram.size := by
      rw [h.toNat_pc_skipIf, if_neg hc]
    obtain ⟨f, hf, rfl⟩ := hi
    have hfamily := hf.family
    cases f with
    | jump | call | jumpIndexed => exact absurd (by simp [hfamily, Form.layout]) hj
    | ret => exact absurd ⟨hfamily, hf.kk 0xEE rfl rfl⟩ hr
    | skipEq | skipNe | skipEqReg | skipNeReg =>
        exact hstay _ fun hc => hs (by simpa [Word.Skips, hfamily, Form.layout] using hc)
    | skipPressed =>
        have hk := hf.kk 0x9E rfl rfl
        exact hstay _ fun hc =>
          hs (by simpa [Word.Skips, hfamily, Form.layout, hk, Keypad.peek_eq_true_iff] using hc)
    | skipNotPressed =>
        have hk := hf.kk 0xA1 rfl rfl
        exact hstay _ fun hc =>
          hs (by simpa [Word.Skips, hfamily, Form.layout, hk, Keypad.peek_eq_false_iff] using hc)
    | _ => exact h.toNat_pc_execute (by simp [Form.instruction, Instruction.footprint])

/-! ## Steps -/

/-- A step that has come to its end goes where its word leads, also if it has waited. -/
theorem Sound.leads (h : m.Sound settings) {s : Step} (hy : m.Yields s) (hd : s.ending = .done) :
    ∃ w, m.Fetches w ∧ Word.Leads w m s.machine.pc.toNat := by
  obtain ⟨m', random, t, hr, rfl, hpc, -, he⟩ := hy.performs hd
  refine ⟨t.word, hr.fetches, ?_⟩
  rcases he with rfl | ⟨x, hx⟩
  · exact h.leads_execute hr.standsFor hd
  · -- the wait went on elsewhere, but it leads on just as if it had not
    have hw : Word.StandsFor t.word (.waitKey x) := hx ▸ hr.standsFor
    have hpc' : (m'.perform random t).machine.pc = m.advance.pc :=
      (pc_perform_of_waitKey hx).trans hpc
    have hkey : Word.family t.word = 0xF := by
      obtain ⟨f, hf, hi⟩ := hw
      cases f with
      | waitKey => exact hf.family
      | _ => cases hi
    rw [hpc', h.toNat_pc_advance]
    refine ⟨?_, ?_, ?_, ?_, fun _ _ _ => rfl⟩
    · rintro (hf | hf) <;> cases hkey.symm.trans hf
    · intro hf
      cases hkey.symm.trans hf
    · intro hf
      cases hkey.symm.trans hf
    · intro hs
      rcases hs with ⟨hf, -⟩ | ⟨hf, -⟩ | ⟨hf, -⟩ | ⟨hf, -⟩ | ⟨hf, -⟩ | ⟨hf, -⟩ <;>
        cases hkey.symm.trans hf

/-- A step that only moves the program counter is done. -/
theorem Sound.step_done_of_footprint (h : m.Sound settings) (hi : m.Issues i)
    (hf : i.footprint = [.pc]) : (m.step random).ending = .done := by
  refine h.step_done hi ?_ ?_
  · rintro x rfl
    cases hf
  · intro fault hr
    cases hr <;> cases hf

/-- Four bytes on is another address than two bytes on. -/
theorem Sound.add_four_mod_ne (h : m.Sound settings) (p : Nat) :
    (p + 4) % m.ram.size ≠ (p + 2) % m.ram.size := by
  have hn : 2 < m.ram.size := Nat.lt_of_le_of_lt (by decide) h.reservedEnd_lt
  have hp := Nat.mod_lt (p + 2) h.size_pos
  have he : (p + 4) % m.ram.size = ((p + 2) % m.ram.size + 2) % m.ram.size :=
    (Nat.mod_add_mod (p + 2) _ 2).symm
  rw [he]
  generalize (p + 2) % m.ram.size = q at hp ⊢
  by_cases hq : q + 2 < m.ram.size
  · rw [Nat.mod_eq_of_lt hq]
    omega
  · rw [Nat.mod_eq_sub_mod (Nat.le_of_not_lt hq), Nat.mod_eq_of_lt (by omega)]
    omega

/-- Two machines that differ in memory at most and have opposed words at their program counter
part in their next step.  One of them skips and the other one does not. -/
theorem Sound.part_of_opposed (h : m.Sound settings) {ram : Ram} (hr : ram.size = m.ram.size)
    (hw : m.Fetches w) (hw' : (m.setRam ram).Fetches w') (ho : Word.Opposed w w')
    (random random' : UInt8) :
    (m.step random).ending = .done ∧ ((m.setRam ram).step random').ending = .done ∧
      ((m.step random).machine.pc.toNat = (m.pc.toNat + 4) % m.ram.size ∧
          ((m.setRam ram).step random').machine.pc.toNat = (m.pc.toNat + 2) % m.ram.size ∨
        (m.step random).machine.pc.toNat = (m.pc.toNat + 2) % m.ram.size ∧
          ((m.setRam ram).step random').machine.pc.toNat = (m.pc.toNat + 4) % m.ram.size) := by
  have h' : (m.setRam ram).Sound settings := h.setRam hr
  obtain ⟨i, j, hi, hf, hj, hf'⟩ := ho.standsFor
  have hd : (m.step random).ending = .done := h.step_done_of_footprint ⟨w, hw, hi⟩ hf
  have hd' : ((m.setRam ram).step random').ending = .done :=
    h'.step_done_of_footprint ⟨w', hw', hj⟩ hf'
  refine ⟨hd, hd', ?_⟩
  obtain ⟨w₀, hw₀, hl⟩ := h.leads (.atOnce random) hd
  obtain ⟨w₁, hw₁, hl'⟩ := h'.leads (.atOnce random') hd'
  cases hw₀.unique hw
  cases hw₁.unique hw'
  have hone := ho.skips_iff (m := m) ram
  have hsize : (m.setRam ram).ram.size = m.ram.size := hr
  have hn' := hl'.of_skip ho.family_mem.2
  rw [hsize] at hn'
  rcases hl.of_skip ho.family_mem.1 with ⟨hs, hn⟩ | ⟨hs, hn⟩
  · rcases hn' with ⟨hs', -⟩ | ⟨-, hn'⟩
    · exact absurd hs (hone.mp hs')
    · exact .inl ⟨hn, hn'⟩
  · rcases hn' with ⟨-, hn'⟩ | ⟨hs', -⟩
    · exact .inr ⟨hn, hn'⟩
    · exact absurd (hone.mpr hs) hs'

end Machine

namespace Session

/-- A step of a machine in a session, if it is done, leaves the program counter where the word
leads that was at it before.  Two machines that differ in memory at most, and have opposed
words at their program counter, both do their step, and just one of them skips.  Steps that
wait for a key lead on in the same way, from the machine with which they began. -/
theorem done_step_leads {settings : Settings} (hc : settings.check = .ok ()) :
    (∀ m, Machine.Reachable settings m →
      (∀ random, (m.step random).ending = .done →
        ∃ w, m.Fetches w ∧ Word.Leads w m (m.step random).machine.pc.toNat) ∧
      ∀ (w w' : UInt16) (ram : Ram) (random random' : UInt8),
        m.Fetches w → ram.size = m.ram.size → (m.setRam ram).Fetches w' →
        Word.Opposed w w' →
        let s := m.step random
        let s' := (m.setRam ram).step random'
        let p := m.pc.toNat
        let size := m.ram.size
        s.ending = .done ∧ s'.ending = .done ∧ (p + 4) % size ≠ (p + 2) % size ∧
          (s.machine.pc.toNat = (p + 4) % size ∧ s'.machine.pc.toNat = (p + 2) % size ∨
            s.machine.pc.toNat = (p + 2) % size ∧ s'.machine.pc.toNat = (p + 4) % size)) ∧
      ∃ m, Machine.build settings = .ok m ∧
        ∀ events : List Event, ∀ d ∈ (start m).stints events,
          d.before.ram.size = settings.memorySize ∧
            (d.step.ending = .done →
              ∃ w, d.before.Fetches w ∧ Word.Leads w d.before d.step.machine.pc.toNat) := by
  constructor
  · intro m hm
    have h := hm.sound
    refine ⟨fun random hd => h.leads (.atOnce random) hd, ?_⟩
    intro w w' ram random random' hw hr hw' ho
    obtain ⟨hd, hd', hn⟩ := h.part_of_opposed hr hw hw' ho random random'
    exact ⟨hd, hd', h.add_four_mod_ne _, hn⟩
  · obtain ⟨m, hb⟩ := Machine.exists_build hc
    refine ⟨m, hb, fun events d hd => ?_⟩
    have h := sound_stints hb events d hd
    exact ⟨h.before.size, h.before.leads h.yields⟩

/-- In memory of an odd size a skip at the last word leads around its end. -/
theorem done_step_leads_around_odd_memory :
    ∃ m, Machine.build { memorySize := 0xF3, entry := 0xF1 } = .ok m ∧
      let s := (start m).next (.load 0xF1 [0x30, 0x00])
      (s.machine.step 0).ending = .done ∧
        (s.machine.step 0).machine.pc.toNat = (0xF1 + 4) % 0xF3 := by
  have hc : Settings.check { memorySize := 0xF3, entry := 0xF1 } = .ok () := rfl
  obtain ⟨hleads, m, hb, -⟩ := done_step_leads hc
  refine ⟨m, hb, ?_⟩
  intro s
  have hs : s.Reachable { memorySize := 0xF3, entry := 0xF1 } := .next (.start hb) _
  have hm : Machine.Reachable { memorySize := 0xF3, entry := 0xF1 } s.machine := ⟨s.parked, hs⟩
  obtain ⟨hf, hv, hpc, hd⟩ : s.machine.Fetches 0x3000 ∧ s.machine.v 0 = 0 ∧
      s.machine.pc.toNat = 0xF1 ∧ (s.machine.step 0).ending = .done := by
    cases hb
    decide +kernel
  obtain ⟨w, hw, hl⟩ := (hleads _ hm).1 0 hd
  cases hw.unique hf
  have hn := hl.skip (.inl ⟨rfl, hv⟩)
  rw [hpc, hm.sound.size] at hn
  exact ⟨hd, hn⟩

end Session

end SuperChip
