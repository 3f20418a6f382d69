import SuperChip.Proofs.Session.Moments

/-!
# Registers that come back

The first V registers can be saved in two places, behind the address register in memory
and in the saved flags.  From either place they can be restored later, as many of them as
were saved or fewer.

What is stored in memory stays there as long as no instruction writes on it and no load
changes it (`Along.cell_eq`).  The saved flags stay as long as none are saved again
(`Along.saved_eq`).  So the registers come back, whatever else is executed in between
(`saved_registers_come_back`).
-/

namespace SuperChip

namespace Machine

variable {m : Machine} {x k : UInt8}

/-- A slice within memory can be read. -/
theorem executeRead_done (h : m.index.toNat + (x.toNat + 1) ≤ m.ram.size) :
    (m.executeRead x).ending = .done := by
  rw [executeRead, Ram.slice, if_pos h]
  rfl

/-- Reading replaces V0 to VX by the bytes of memory. -/
theorem v_executeRead (hd : (m.executeRead x).ending = .done) (hk : k.toNat < 16) :
    (m.executeRead x).machine.v k =
      if k ≤ x then m.ram.cell (m.index.toNat + k.toNat) else m.v k := by
  rw [executeRead] at hd ⊢
  split at hd
  next bytes hb =>
    show (m.registers.v.overlay bytes).read k = _
    rw [Bank.read_overlay hk]
    split
    next h => rw [Ram.getElem?_slice hb (Nat.lt_succ_of_le (UInt8.le_iff_toNat_le.mp h)),
        Option.getD_some]
    next h =>
      rw [UInt8.le_iff_toNat_le] at h
      rw [List.getElem?_eq_none (by rw [Ram.length_slice hb]; omega), Option.getD_none]
      rfl
  next => cases hd

/-- The V registers up to one are those of a first machine.  The others and the address
register are those of a second one. -/
structure Restores (y : UInt8) (m m' m'' : Machine) : Prop where
  restored : ∀ k ≤ y, m''.v k = m.v k
  kept : ∀ k, y < k → k.toNat < 16 → m''.v k = m'.v k
  index : m''.index = m'.index

theorem restores_of_ite {m m' m'' : Machine} {y : UInt8} {saved : UInt8 → UInt8}
    (hy : y.toNat < 16) (hv : ∀ k : UInt8, k.toNat < 16 →
      m''.v k = if k ≤ y then saved k else m'.v k)
    (hs : ∀ k ≤ y, saved k = m.v k) (hi : m''.index = m'.index) : Restores y m m' m'' where
  restored k hk := by
    have hlt : k.toNat < 16 := Nat.lt_of_le_of_lt (UInt8.le_iff_toNat_le.mp hk) hy
    rw [hv k hlt, if_pos hk, hs k hk]
  kept k hk hlt := by
    rw [hv k hlt, if_neg (UInt8.not_le.mpr hk)]
  index := hi

end Machine

namespace Session

variable {settings : Settings} {s s' s₁ s₂ s₃ : Session} {t t' : Traced} {t? : Option Traced}
  {x y k : UInt8} {a : Nat}

/-! ## What spares a place -/

/-- From one moment to the next nothing is put on the bytes from an address on that hold
V0 to VX. -/
structure SparesBytes (a : Nat) (x : UInt8) (s : Session) (t? : Option Traced) (s' : Session) :
    Prop where
  /-- What is executed to its end does not write them. -/
  executed : ∀ t, t? = some t → ∀ k ≤ x, ¬Word.Writes t.word s.machine (a + k.toNat)
  /-- A program that is loaded leaves them as they are. -/
  loaded : ∀ address program, s' = s.next (.load address program) →
    ∀ k ≤ x, s'.machine.ram.cell (a + k.toNat) = s.machine.ram.cell (a + k.toNat)

/-- An instruction that cannot change memory spares all of it. -/
theorem Goes.sparesBytes (h : Goes s (some t) s') (hs : s.Sound settings)
    (hf : .ram ∉ t.instruction.footprint) : SparesBytes a x s (some t) s' where
  executed := by
    rintro _ ⟨⟩ k - ⟨hfamily, ⟨hk, -⟩ | ⟨hk, -⟩⟩
    · rw [(h.confined hs).1.unique ⟨.bcd, .of_kk hfamily trivial hk rfl rfl, rfl⟩] at hf
      simp [Form.instruction, Instruction.footprint] at hf
    · rw [(h.confined hs).1.unique ⟨.store, .of_kk hfamily trivial hk rfl rfl, rfl⟩] at hf
      simp [Form.instruction, Instruction.footprint] at hf
  loaded _ _ _ k _ := congrArg (Ram.cell · _) (h.same_of_some (p := .ram) (by decide) hf)

/-- From one moment to the next no flags are saved. -/
def SparesFlags (_ : Session) (t? : Option Traced) (_ : Session) : Prop :=
  ∀ t, t? = some t → ∀ x, t.instruction ≠ .saveFlags x

theorem Goes.cell_eq (h : Goes s t? s') (hs : s.Sound settings) (hp : SparesBytes a x s t? s')
    (hk : k ≤ x) : s'.machine.ram.cell (a + k.toNat) = s.machine.ram.cell (a + k.toNat) := by
  cases t? with
  | none =>
      rcases h.same_of_none with ⟨address, program, he⟩ | hsame
      · exact hp.loaded address program he k hk
      · exact congrArg (Ram.cell · _) (hsame .ram (by decide))
  | some t =>
      by_contra hne
      exact hp.executed t rfl k hk ((h.confined hs).2.ram _ hne)

theorem Along.cell_eq (h : Along (SparesBytes a x) s s') (hs : s.Sound settings) (hk : k ≤ x) :
    s'.machine.ram.cell (a + k.toNat) = s.machine.ram.cell (a + k.toNat) := by
  induction h with
  | here => rfl
  | goes h hg hp ih => rw [hg.cell_eq (h.sound hs) hp hk, ih]

theorem Goes.saved_eq (h : Goes s t? s') (hp : SparesFlags s t? s') :
    s'.machine.registers.saved = s.machine.registers.saved := by
  cases t? with
  | none =>
      rcases h.same_of_none with ⟨address, program, rfl⟩ | hsame
      · rw [registers_next_load]
      · exact hsame .saved (by decide)
  | some t =>
      refine h.same_of_some (p := .saved) (by decide) ?_
      have hne := hp t rfl
      cases hi : t.instruction with
      | saveFlags x => exact absurd hi (hne x)
      | _ => simp [Instruction.footprint]

theorem Along.saved_eq (h : Along SparesFlags s s') :
    s'.machine.registers.saved = s.machine.registers.saved := by
  induction h with
  | here => rfl
  | goes _ hg hp ih => rw [hg.saved_eq hp, ih]

/-! ## Saving and restoring -/

theorem Goes.index_eq (h : Goes s (some t) s') (hf : .index ∉ t.instruction.footprint) :
    s'.machine.index = s.machine.index := h.same_of_some (p := .index) (by decide) hf

theorem v_ready (s : Session) (k : UInt8) : s.ready.v k = s.machine.v k :=
  congrArg (Bank.read · k) (s.same_ready (p := .v) (by decide))

/-- Storing puts V0 to VX where the address register points. -/
theorem Goes.stored (h : Goes s (some t) s') (hs : s.Sound settings)
    (hi : t.instruction = .store x) :
    x.toNat < 16 ∧ s.machine.index.toNat + x.toNat < s.machine.ram.size ∧
      ∀ k ≤ x, s'.machine.ram.cell (s.machine.index.toNat + k.toNat) = s.machine.v k := by
  obtain ⟨hw, hc⟩ := h.confined hs
  rw [hi] at hw
  refine ⟨hw.named _ List.mem_cons_self, ?_⟩
  obtain ⟨hf, ⟨-, hx⟩ | ⟨hk, hx⟩⟩ := hw.of_ram (by simp [Instruction.footprint])
  · cases hx
  · cases hx
    exact hc.stored hf hk

/-- Saving flags puts V0 to VX into the first of them. -/
theorem Goes.savedFlags (h : Goes s (some t) s') (hs : s.Sound settings)
    (hi : t.instruction = .saveFlags x) :
    x.toNat < 16 ∧ ∀ k ≤ x, s'.machine.registers.saved.read k = s.machine.v k := by
  have hw := (h.confined hs).1
  rw [hi] at hw
  have hx : x.toNat < 16 := hw.named _ List.mem_cons_self
  refine ⟨hx, fun k hk => ?_⟩
  obtain ⟨random, hm, -⟩ := h.executes
  rw [hi] at hm
  rw [hm, ← s.v_ready k]
  rw [UInt8.le_iff_toNat_le] at hk
  exact (Bank.read_overlay_upTo hx (by omega)).trans (if_pos (UInt8.le_iff_toNat_le.mpr hk))

/-- Reading brings back what is in memory where the address register points. -/
theorem Goes.read (h : Goes s (some t) s') (hi : t.instruction = .read y) (hk : k.toNat < 16) :
    s'.machine.v k =
      if k ≤ y then s.machine.ram.cell (s.machine.index.toNat + k.toNat) else s.machine.v k := by
  have hram : s.ready.ram = s.machine.ram := s.same_ready (p := .ram) (by decide)
  have hindex : s.ready.index = s.machine.index := s.same_ready (p := .index) (by decide)
  obtain ⟨random, hm, hd⟩ := h.executes
  rw [hi] at hm hd
  rw [hm, ← hram, ← hindex, ← s.v_ready k]
  exact Machine.v_executeRead hd hk

/-- Loading flags brings back what is in the first of them. -/
theorem Goes.loadedFlags (h : Goes s (some t) s') (hs : s.Sound settings)
    (hi : t.instruction = .loadFlags y) (hk : k.toNat < 16) :
    s'.machine.v k = if k ≤ y then s.machine.registers.saved.read k else s.machine.v k := by
  have hw := (h.confined hs).1
  have hsaved : s.ready.registers.saved = s.machine.registers.saved :=
    s.same_ready (p := .saved) (by decide)
  obtain ⟨random, hm, -⟩ := h.executes
  rw [hi] at hm hw
  rw [hm, ← hsaved, ← s.v_ready k]
  exact Bank.read_overlay_upTo (hw.named _ List.mem_cons_self) hk

/-- What is in memory where the address register points can be read. -/
theorem Sound.read_done (hs : s.Sound settings) {w : UInt16} (hc : s.ComesTo w)
    (hw : Word.StandsFor w (.read y))
    (hy : s.machine.index.toNat + y.toNat < s.machine.ram.size) (random : UInt8) :
    (s.proceed random).ending = .done := by
  have hram : s.ready.ram = s.machine.ram := s.same_ready (p := .ram) (by decide)
  have hindex : s.ready.index = s.machine.index := s.same_ready (p := .index) (by decide)
  obtain ⟨pc, he⟩ := hs.proceed_of_comesTo hc hw random
  rw [he]
  refine Machine.executeRead_done ?_
  rw [hram, hindex]
  exact hy

/-- In every session, V registers that an instruction has saved come back by one that
restores as many of them or fewer, whatever happens in between that spares the place
where they are.  Neither instruction changes the address register.  If the first one has
stored them in memory, the second one cannot fail with the address register as it was
then, even where the place was not spared. -/
theorem saved_registers_come_back (hs : s.Reachable settings) (h₁ : Goes s (some t) s₁) :
    (t.instruction = .store x →
      s₁.machine.index = s.machine.index ∧
        (∀ P s₂ y w, Along P s₁ s₂ → s₂.machine.index = s.machine.index → y ≤ x →
          s₂.ComesTo w → Word.StandsFor w (.read y) →
            ∀ random, (s₂.proceed random).ending = .done) ∧
        ∀ s₂ y t' s₃, Along (SparesBytes s.machine.index.toNat x) s₁ s₂ →
          s₂.machine.index = s.machine.index → y ≤ x → Goes s₂ (some t') s₃ →
            t'.instruction = .read y → Machine.Restores y s.machine s₂.machine s₃.machine) ∧
      (t.instruction = .saveFlags x →
        s₁.machine.index = s.machine.index ∧
          ∀ s₂ y t' s₃, Along SparesFlags s₁ s₂ → y ≤ x → Goes s₂ (some t') s₃ →
            t'.instruction = .loadFlags y →
              Machine.Restores y s.machine s₂.machine s₃.machine) := by
  have hsound := sound_of_reachable hs
  have hsound₁ := h₁.sound hsound
  refine ⟨fun hi => ⟨h₁.index_eq (by simp [hi, Instruction.footprint]), ?_, ?_⟩,
    fun hi => ⟨h₁.index_eq (by simp [hi, Instruction.footprint]), ?_⟩⟩
  · intro P s₂ y w h hindex hy hc hw
    obtain ⟨-, hx, -⟩ := h₁.stored hsound hi
    have hsound₂ := h.sound hsound₁
    rw [hsound.machine.size, ← hsound₂.machine.size, ← hindex] at hx
    exact hsound₂.read_done hc hw
      (Nat.lt_of_le_of_lt (Nat.add_le_add_left (UInt8.le_iff_toNat_le.mp hy) _) hx)
  · intro s₂ y t' s₃ h hindex hy h₃ hi₃
    obtain ⟨hx, -, hstored⟩ := h₁.stored hsound hi
    refine Machine.restores_of_ite (Nat.lt_of_le_of_lt (UInt8.le_iff_toNat_le.mp hy) hx)
      (fun k hk => h₃.read hi₃ hk) (fun k hk => ?_)
      (h₃.index_eq (by simp [hi₃, Instruction.footprint]))
    have hkx := UInt8.le_trans hk hy
    rw [hindex, h.cell_eq hsound₁ hkx, hstored k hkx]
  · intro s₂ y t' s₃ h hy h₃ hi₃
    obtain ⟨hx, hsaved⟩ := h₁.savedFlags hsound hi
    refine Machine.restores_of_ite (Nat.lt_of_le_of_lt (UInt8.le_iff_toNat_le.mp hy) hx)
      (fun k hk => h₃.loadedFlags (h.sound hsound₁) hi₃ hk) (fun k hk => ?_)
      (h₃.index_eq (by simp [hi₃, Instruction.footprint]))
    rw [h.saved_eq, hsaved k (UInt8.le_trans hk hy)]

/-- A program stores V0 and V1, puts others into them, and reads back V0. -/
theorem saved_registers_come_back_in_part :
    ∃ m, Machine.build { memorySize := 0x110, entry := 0xF0 } = .ok m ∧
      let s := ((start m).next (.load 0xF0
        [0x60, 0x2A, 0x61, 0x07, 0xA1, 0x08, 0xF1, 0x55, 0x60, 0x00, 0x61, 0x09, 0xF0, 0x65])).after
          [.step 0, .step 0, .step 0]
      let s₂ := s.after [.step 0, .step 0, .step 0]
      let s₃ := s₂.next (.step 0)
      s.machine.v 0 = 0x2A ∧ s₂.machine.v 0 = 0x00 ∧ (s₂.proceed 0).ending = .done ∧
        s₃.machine.v 0 = s.machine.v 0 ∧ s₃.machine.v 1 = s₂.machine.v 1 := by
  have hc : Settings.check { memorySize := 0x110, entry := 0xF0 } = .ok () := rfl
  obtain ⟨m, hb⟩ := Machine.exists_build hc
  refine ⟨m, hb, ?_⟩
  intro s s₂ s₃
  have hs : s.Reachable { memorySize := 0x110, entry := 0xF0 } := .after _ (.next (.start hb) _)
  obtain ⟨h₁, h₂, h₃, h₄⟩ :
      (s.proceed 0).traced = some ⟨0xF6, 0xF155, .store 1⟩ ∧
      ((s.after [.step 0]).proceed 0).traced = some ⟨0xF8, 0x6000, .load 0 0⟩ ∧
      ((s.after [.step 0, .step 0]).proceed 0).traced = some ⟨0xFA, 0x6109, .load 1 9⟩ ∧
      (s₂.proceed 0).traced = some ⟨0xFC, 0xF065, .read 0⟩ := by
    cases hb
    decide +kernel
  obtain ⟨hi, hv, hv₂⟩ : s₂.machine.index = s.machine.index ∧ s.machine.v 0 = 0x2A ∧
      s₂.machine.v 0 = 0x00 := by
    cases hb
    decide +kernel
  have hparked : s₂.parked = none ∧ s₂.machine.Fetches 0xF065 := by
    cases hb
    decide +kernel
  have hsound := sound_of_reachable hs
  have hg₁ := h₁ ▸ goes_step s 0
  have hg₂ := h₂ ▸ goes_step (s.after [.step 0]) 0
  have hg₃ := h₃ ▸ goes_step (s.after [.step 0, .step 0]) 0
  have hsound₁ := hg₁.sound hsound
  have h : Along (SparesBytes s.machine.index.toNat 1) (s.next (.step 0)) s₂ :=
    (Along.here.goes hg₂ (hg₂.sparesBytes hsound₁ (by decide))).goes hg₃
      (hg₃.sparesBytes (hg₂.sound hsound₁) (by decide))
  obtain ⟨hstore, -⟩ := saved_registers_come_back hs hg₁
  obtain ⟨-, hdone, hback⟩ := hstore rfl
  have hr := hback s₂ 0 _ s₃ h hi (by decide) (h₄ ▸ goes_step s₂ 0) rfl
  exact ⟨hv, hv₂, hdone _ s₂ 0 0xF065 h hi (by decide)
      ((comesTo_iff_fetches hparked.1).mpr hparked.2) ⟨.read, ⟨rfl, trivial, rfl, rfl⟩, rfl⟩ 0,
    hr.restored 0 (by decide), hr.kept 1 (by decide) (by decide)⟩

end Session

end SuperChip
