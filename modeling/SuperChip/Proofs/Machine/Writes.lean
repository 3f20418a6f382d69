import Mathlib.Tactic.ByContra
import SuperChip.Proofs.Machine.Failure

/-!
# What a step writes

The frame of an instruction says which parts of a machine it leaves.  `Word.Confined` says
more, digit by digit of the word: where a part consists of bytes or registers, which of
these can change, and what stands in memory where it was written.  A word is confined in
what it changes when a step that executes it is done (`Session.done_step_confined`).

Three instructions reach several registers or bytes at once.  Of these the count is X + 1,
with VX the last one.
-/

namespace SuperChip

/-! ## Words that write -/

namespace Word

/-- A word is for `F_33` or `F_55`, and a byte is among those that it writes. -/
def Writes (w : UInt16) (m : Machine) (a : Nat) : Prop :=
  family w = 0xF ∧
    (kk w = 0x33 ∧ m.index.toNat ≤ a ∧ a ≤ m.index.toNat + 2 ∨
      kk w = 0x55 ∧ m.index.toNat ≤ a ∧ a ≤ m.index.toNat + (x w).toNat)

/-- A V register is among those that a word can write.  A wait for a key writes VX only
while the machine is not shut down. -/
def Sets (w : UInt16) (m : Machine) (k : UInt8) : Prop :=
  k = x w ∧ (family w ∈ [0x6, 0x7, 0x8, 0xC] ∨
      family w = 0xF ∧ (kk w = 0x07 ∨ kk w = 0x0A ∧ m.keypad.isShutdown = false)) ∨
    k ≤ x w ∧ family w = 0xF ∧ kk w ∈ [0x65, 0x85] ∨
    k = 0xF ∧ (family w = 0x8 ∧ n w ∈ [0x4, 0x5, 0x6, 0x7, 0xE] ∨ family w = 0xD)

/-- What a word can change from one machine to another. -/
structure Confined (w : UInt16) (m m' : Machine) : Prop where
  /-- Memory keeps its size. -/
  size : m'.ram.size = m.ram.size
  /-- Memory changes only where the word writes. -/
  ram : ∀ a, m'.ram.cell a ≠ m.ram.cell a → Writes w m a
  /-- `F_33` writes the decimal digits of VX, hundreds first. -/
  digits : family w = 0xF → kk w = 0x33 → m.index.toNat + 2 < m.ram.size ∧
    ∃ h t u : UInt8, h ≤ 9 ∧ t ≤ 9 ∧ u ≤ 9 ∧
      100 * h.toNat + 10 * t.toNat + u.toNat = (m.v (x w)).toNat ∧
      m'.ram.cell m.index.toNat = h ∧ m'.ram.cell (m.index.toNat + 1) = t ∧
      m'.ram.cell (m.index.toNat + 2) = u
  /-- `F_55` writes V0 to VX. -/
  stored : family w = 0xF → kk w = 0x55 → m.index.toNat + (x w).toNat < m.ram.size ∧
    ∀ k ≤ x w, m'.ram.cell (m.index.toNat + k.toNat) = m.v k
  /-- The surface changes only by `0_E0`, `0_CN`, `0_FB`, `0_FC`, `0_FE`, `0_FF` and `D___`. -/
  surface : m'.surface ≠ m.surface →
    family w = 0x0 ∧ (kk w ∈ [0xE0, 0xFB, 0xFC, 0xFE, 0xFF] ∨ y w = 0xC) ∨ family w = 0xD
  /-- The call stack changes only by `2___` and `0_EE`. -/
  stack : m'.registers.stack ≠ m.registers.stack →
    family w = 0x2 ∨ family w = 0x0 ∧ kk w = 0xEE
  /-- The address register changes only by `A___`, `F_1E`, `F_29` and `F_30`. -/
  index : m'.index ≠ m.index →
    family w = 0xA ∨ family w = 0xF ∧ kk w ∈ [0x1E, 0x29, 0x30]
  /-- The saved flags change only by `F_75`, and only up to the one with the number X. -/
  saved : ∀ k : UInt8, k.toNat < 16 →
    m'.registers.saved.read k ≠ m.registers.saved.read k →
    family w = 0xF ∧ kk w = 0x75 ∧ k ≤ x w
  /-- The delay changes only by `F_15`. -/
  delay : m'.clocks.delay ≠ m.clocks.delay → family w = 0xF ∧ kk w = 0x15
  /-- The sound changes only by `F_18`. -/
  sound : m'.clocks.sound ≠ m.clocks.sound → family w = 0xF ∧ kk w = 0x18
  /-- The keypad stays. -/
  keypad : m'.keypad = m.keypad
  /-- A V register changes only if the word can write it. -/
  v : ∀ k : UInt8, k.toNat < 16 → m'.v k ≠ m.v k → Sets w m k

namespace StandsFor

variable {w : UInt16} {i : Instruction}

/-! ## Words by footprint -/

theorem of_surface (h : StandsFor w i) (hp : .surface ∈ i.footprint) :
    family w = 0x0 ∧ (kk w ∈ [0xE0, 0xFB, 0xFC, 0xFE, 0xFF] ∨ y w = 0xC) ∨ family w = 0xD := by
  obtain ⟨f, hf, rfl⟩ := h
  cases f with
  | clear => exact .inl ⟨hf.family, .inl (by simp [hf.kk 0xE0 rfl rfl])⟩
  | scrollRight => exact .inl ⟨hf.family, .inl (by simp [hf.kk 0xFB rfl rfl])⟩
  | scrollLeft => exact .inl ⟨hf.family, .inl (by simp [hf.kk 0xFC rfl rfl])⟩
  | extend => exact .inl ⟨hf.family, .inl (by simp [hf.kk 0xFE rfl rfl])⟩
  | shrink => exact .inl ⟨hf.family, .inl (by simp [hf.kk 0xFF rfl rfl])⟩
  | scrollDown => exact .inl ⟨hf.family, .inr (UInt8.toNat_inj.mp hf.third)⟩
  | draw => exact .inr hf.family
  | _ => simp [Form.instruction, Instruction.footprint] at hp

theorem of_stack (h : StandsFor w i) (hp : .stack ∈ i.footprint) :
    family w = 0x2 ∨ family w = 0x0 ∧ kk w = 0xEE := by
  obtain ⟨f, hf, rfl⟩ := h
  cases f with
  | call => exact .inl hf.family
  | ret => exact .inr ⟨hf.family, hf.kk 0xEE rfl rfl⟩
  | _ => simp [Form.instruction, Instruction.footprint] at hp

theorem of_index (h : StandsFor w i) (hp : .index ∈ i.footprint) :
    family w = 0xA ∨ family w = 0xF ∧ kk w ∈ [0x1E, 0x29, 0x30] := by
  obtain ⟨f, hf, rfl⟩ := h
  cases f with
  | loadIndex => exact .inl hf.family
  | addIndex => exact .inr ⟨hf.family, by simp [hf.kk 0x1E rfl rfl]⟩
  | glyph => exact .inr ⟨hf.family, by simp [hf.kk 0x29 rfl rfl]⟩
  | largeGlyph => exact .inr ⟨hf.family, by simp [hf.kk 0x30 rfl rfl]⟩
  | _ => simp [Form.instruction, Instruction.footprint] at hp

theorem of_ram (h : StandsFor w i) (hp : .ram ∈ i.footprint) :
    family w = 0xF ∧ (kk w = 0x33 ∧ i = .bcd (x w) ∨ kk w = 0x55 ∧ i = .store (x w)) := by
  obtain ⟨f, hf, rfl⟩ := h
  cases f with
  | bcd => exact ⟨hf.family, .inl ⟨hf.kk 0x33 rfl rfl, rfl⟩⟩
  | store => exact ⟨hf.family, .inr ⟨hf.kk 0x55 rfl rfl, rfl⟩⟩
  | _ => simp [Form.instruction, Instruction.footprint] at hp

theorem of_saved (h : StandsFor w i) (hp : .saved ∈ i.footprint) :
    family w = 0xF ∧ kk w = 0x75 ∧ i = .saveFlags (x w) := by
  obtain ⟨f, hf, rfl⟩ := h
  cases f with
  | saveFlags => exact ⟨hf.family, hf.kk 0x75 rfl rfl, rfl⟩
  | _ => simp [Form.instruction, Instruction.footprint] at hp

theorem of_clocks (h : StandsFor w i) (hp : .clocks ∈ i.footprint) :
    family w = 0xF ∧ (kk w = 0x15 ∧ i = .setDelay (x w) ∨ kk w = 0x18 ∧ i = .setSound (x w)) := by
  obtain ⟨f, hf, rfl⟩ := h
  cases f with
  | setDelay => exact ⟨hf.family, .inl ⟨hf.kk 0x15 rfl rfl, rfl⟩⟩
  | setSound => exact ⟨hf.family, .inr ⟨hf.kk 0x18 rfl rfl, rfl⟩⟩
  | _ => simp [Form.instruction, Instruction.footprint] at hp

end StandsFor

end Word

namespace Machine

variable {m : Machine} {random : UInt8} {i : Instruction} {x k : UInt8}

/-! ## Registers -/

theorem eq_of_v_setV {value : UInt8} (h : (m.setV x value).v k ≠ m.v k) : k = x := by
  by_contra hne
  exact h (Bank.read_write_of_ne hne)

theorem eq_of_v_setResult {value : UInt8} {flag : Bool}
    (h : (m.setResult x value flag).v k ≠ m.v k) : k = x ∨ k = 0xF := by
  by_contra hne
  obtain ⟨hx, hf⟩ := not_or.mp hne
  exact h ((v_setFlag_of_ne flag hf).trans (Bank.read_write_of_ne hx))

/-- A register that is replaced has a byte in the list. -/
theorem lt_of_read_overlay {b : Bank} {bytes : List UInt8} (hk : k.toNat < 16)
    (h : (b.overlay bytes).read k ≠ b.read k) : k.toNat < bytes.length := by
  by_contra hl
  rw [Bank.read_overlay hk, List.getElem?_eq_none (Nat.le_of_not_lt hl)] at h
  exact h rfl

theorem le_of_read_overlay_upTo {b c : Bank} (hx : x.toNat < 16) (hk : k.toNat < 16)
    (h : (b.overlay (c.upTo x)).read k ≠ b.read k) : k ≤ x := by
  by_contra hl
  rw [Bank.read_overlay_upTo hx hk, if_neg hl] at h
  exact h rfl

/-- Drawing changes no register but the flag register, however it ends. -/
theorem eq_of_v_executeDraw {x y n : UInt8} (h : (m.executeDraw x y n).machine.v k ≠ m.v k) :
    k = 0xF := by
  by_contra hk
  apply h
  unfold executeDraw
  dsimp only
  split
  · exact (v_setFlag_of_ne _ hk).trans (v_setFlag_of_ne false hk)
  · exact v_setFlag_of_ne false hk

/-- A look for a key changes VX, and that only while the machine is not shut down. -/
theorem eq_of_v_executeWait (h : (m.executeWait x).machine.v k ≠ m.v k) :
    k = x ∧ m.keypad.isShutdown = false := by
  unfold executeWait at h
  split at h
  next label hw =>
    refine ⟨eq_of_v_setV h, ?_⟩
    by_contra hs
    rw [Keypad.wait, if_pos (Bool.of_not_eq_false hs)] at hw
    cases hw
  next => exact absurd rfl h
  next => exact absurd rfl h

theorem le_of_v_executeRead (hx : k.toNat < 16) (h : (m.executeRead x).machine.v k ≠ m.v k) :
    k ≤ x := by
  unfold executeRead at h
  split at h
  next bytes hs =>
    have hl := lt_of_read_overlay hx h
    rw [Ram.length_slice hs] at hl
    exact UInt8.le_iff_toNat_le.mpr (Nat.le_of_lt_succ hl)
  next => exact absurd rfl h

/-! ## Memory -/

/-- Bytes that are written stand where they were written, and all other memory stays. -/
theorem cell_executeWrite {bytes : List UInt8} (hd : (m.executeWrite bytes).ending = .done) :
    m.index.toNat + bytes.length ≤ m.ram.size ∧
      ∀ a, (m.executeWrite bytes).machine.ram.cell a =
        if m.index.toNat ≤ a ∧ a < m.index.toNat + bytes.length then
          bytes[a - m.index.toNat]?.getD 0
        else m.ram.cell a := by
  unfold executeWrite at hd ⊢
  split
  next ram hw =>
    obtain ⟨-, hs, -⟩ := Ram.write_eq_ok_iff.mp hw
    exact ⟨hs, fun a => Ram.cell_write hw a⟩
  next hw =>
    rw [hw] at hd
    cases hd

/-- Where something is written, it is written behind the address register. -/
theorem mem_of_cell_executeWrite {bytes : List UInt8} {a : Nat}
    (hd : (m.executeWrite bytes).ending = .done)
    (h : (m.executeWrite bytes).machine.ram.cell a ≠ m.ram.cell a) :
    m.index.toNat ≤ a ∧ a < m.index.toNat + bytes.length := by
  by_contra hn
  rw [(cell_executeWrite hd).2, if_neg hn] at h
  exact h rfl

theorem cell_executeWrite_add {bytes : List UInt8} {j : Nat} {b : UInt8}
    (hd : (m.executeWrite bytes).ending = .done) (hb : bytes[j]? = some b) :
    (m.executeWrite bytes).machine.ram.cell (m.index.toNat + j) = b := by
  have hj : j < bytes.length := (List.getElem?_eq_some_iff.mp hb).1
  rw [(cell_executeWrite hd).2, if_pos ⟨Nat.le_add_right _ _, Nat.add_lt_add_left hj _⟩,
    Nat.add_sub_cancel_left, hb]
  rfl

/-- The decimal digits of a byte make it up. -/
theorem toNat_decimalDigits (b : UInt8) : b / 100 ≤ 9 ∧ b / 10 % 10 ≤ 9 ∧ b % 10 ≤ 9 ∧
    100 * (b / 100).toNat + 10 * (b / 10 % 10).toNat + (b % 10).toNat = b.toNat := by
  have hb := b.toNat_lt
  simp only [UInt8.le_iff_toNat_le, UInt8.toNat_div, UInt8.toNat_mod, UInt8.reduceToNat]
  omega

/-! ## Instructions that are done -/

variable {w : UInt16}

/-- A part that has changed is in the footprint. -/
theorem mem_footprint {p : Part} (h : ¬p.Same m (m.execute random i).machine) :
    p ∈ i.footprint := by
  by_contra hp
  exact h (same_execute random hp)

/-- An instruction changes no V register but those that its word can write. -/
theorem sets_execute (h : Word.StandsFor w i) (hk : k.toNat < 16)
    (hv : (m.execute random i).machine.v k ≠ m.v k) : Word.Sets w m k := by
  have hp : .v ∈ i.footprint := mem_footprint fun hs => hv (congrArg (Bank.read · k) hs)
  have hx : (Word.x w).toNat < 16 := by
    rw [Word.toNat_x]
    omega
  obtain ⟨f, hf, rfl⟩ := h
  have hfamily := hf.family
  cases f with
  | load | add | random | move | or | and | xor =>
      exact .inl ⟨eq_of_v_setV hv, .inl (by simp [hfamily, Form.layout])⟩
  | loadDelay => exact .inl ⟨eq_of_v_setV hv, .inr ⟨hfamily, .inl (hf.kk 0x07 rfl rfl)⟩⟩
  | waitKey =>
      obtain ⟨rfl, hs⟩ := eq_of_v_executeWait hv
      exact .inl ⟨rfl, .inr ⟨hfamily, .inr ⟨hf.kk 0x0A rfl rfl, hs⟩⟩⟩
  | addReg | sub | subN | shr | shl =>
      have hn := hf.n rfl
      rcases eq_of_v_setResult hv with rfl | rfl
      · exact .inl ⟨rfl, .inl (by simp [hfamily, Form.layout])⟩
      · exact .inr (.inr ⟨rfl, .inl ⟨hfamily, by simp [hn]⟩⟩)
  | draw => exact .inr (.inr ⟨eq_of_v_executeDraw hv, .inr hfamily⟩)
  | read => exact .inr (.inl ⟨le_of_v_executeRead hk hv, hfamily, by simp [hf.kk 0x65 rfl rfl]⟩)
  | loadFlags =>
      exact .inr (.inl ⟨le_of_read_overlay_upTo hx hk hv, hfamily, by simp [hf.kk 0x85 rfl rfl]⟩)
  | _ => simp [Form.instruction, Instruction.footprint] at hp

/-- What an instruction that is done has changed is what its word can change. -/
theorem confined_execute (h : Word.StandsFor w i) (hd : (m.execute random i).ending = .done) :
    Word.Confined w m (m.execute random i).machine where
  size := size_execute m random i
  ram a ha := by
    have hp : .ram ∈ i.footprint := mem_footprint fun hs => ha (congrArg (Ram.cell · a) hs)
    obtain ⟨hf, ⟨hk, rfl⟩ | ⟨hk, rfl⟩⟩ := h.of_ram hp
    · obtain ⟨hl, hr⟩ := mem_of_cell_executeWrite hd ha
      exact ⟨hf, .inl ⟨hk, hl, Nat.le_of_lt_succ hr⟩⟩
    · obtain ⟨hl, hr⟩ := mem_of_cell_executeWrite hd ha
      rw [Bank.length_upTo (h.named _ List.mem_cons_self)] at hr
      exact ⟨hf, .inr ⟨hk, hl, Nat.le_of_lt_succ hr⟩⟩
  digits hf hk := by
    cases h.unique ⟨.bcd, .of_kk hf trivial hk rfl rfl, rfl⟩
    obtain ⟨hh, ht, hu, hsum⟩ := toNat_decimalDigits (m.v (Word.x w))
    exact ⟨(cell_executeWrite hd).1, _, _, _, hh, ht, hu, hsum,
      cell_executeWrite_add (j := 0) hd rfl, cell_executeWrite_add (j := 1) hd rfl,
      cell_executeWrite_add (j := 2) hd rfl⟩
  stored hf hk := by
    cases h.unique ⟨.store, .of_kk hf trivial hk rfl rfl, rfl⟩
    have hx : (Word.x w).toNat < 16 := h.named _ List.mem_cons_self
    have hl := (cell_executeWrite hd).1
    rw [Bank.length_upTo hx] at hl
    exact ⟨hl, fun k hkx => cell_executeWrite_add hd (Bank.getElem?_upTo hx hkx)⟩
  surface hs := h.of_surface (mem_footprint (p := .surface) hs)
  stack hs := h.of_stack (mem_footprint (p := .stack) hs)
  index hs := h.of_index (mem_footprint (p := .index) hs)
  saved k hk hs := by
    have hp : .saved ∈ i.footprint := mem_footprint fun he => hs (congrArg (Bank.read · k) he)
    obtain ⟨hf, hkk, rfl⟩ := h.of_saved hp
    exact ⟨hf, hkk, le_of_read_overlay_upTo (h.named _ List.mem_cons_self) hk hs⟩
  delay hs := by
    have hp : .clocks ∈ i.footprint := mem_footprint fun he => hs (congrArg Clocks.delay he)
    obtain ⟨hf, ⟨hk, rfl⟩ | ⟨hk, rfl⟩⟩ := h.of_clocks hp
    · exact ⟨hf, hk⟩
    · exact absurd rfl hs
  sound hs := by
    have hp : .clocks ∈ i.footprint := mem_footprint fun he => hs (congrArg Clocks.sound he)
    obtain ⟨hf, ⟨hk, rfl⟩ | ⟨hk, rfl⟩⟩ := h.of_clocks hp
    · exact absurd rfl hs
    · exact ⟨hf, hk⟩
  keypad := same_execute (p := .keypad) random (keypad_not_mem_footprint i)
  v k hk hv := sets_execute h hk hv

end Machine

/-! ## Steps that are done -/

/-- It does not matter whether the program counter is behind the word already. -/
theorem Word.Confined.of_advance {w : UInt16} {m m' : Machine} (h : Confined w m.advance m') :
    Confined w m m' :=
  ⟨h.size, h.ram, h.digits, h.stored, h.surface, h.stack, h.index, h.saved, h.delay, h.sound,
    h.keypad, h.v⟩

namespace Session

variable {settings : Settings} {s : Session} {random : UInt8} {t : Traced}

/-- The processor comes to a word: it fetches it next, or it waits in it. -/
def ComesTo (s : Session) (w : UInt16) : Prop :=
  match s.parked with
  | none => s.machine.Fetches w
  | some t => t.word = w

theorem comesTo_iff_fetches {w : UInt16} (h : s.parked = none) :
    s.ComesTo w ↔ s.machine.Fetches w := by
  rw [ComesTo, h]

/-- A step that is done has executed the word that the processor came to, and changed what
this word can change. -/
theorem Sound.confined_proceed (h : s.Sound settings)
    (hd : (s.proceed random).ending = .done) :
    ∃ t, (s.proceed random).traced = some t ∧ s.ComesTo t.word ∧
      Word.StandsFor t.word t.instruction ∧
      Word.Confined t.word s.machine (s.proceed random).machine := by
  obtain ⟨m, parked⟩ := s
  cases parked with
  | some t =>
      have hw := (h.ready t rfl).standsFor
      have ht : (m.perform random t).traced = some t :=
        Machine.Step.traced_eq_some_iff.mpr ⟨hd, rfl⟩
      exact ⟨t, ht, rfl, hw, Machine.confined_execute hw hd⟩
  | none =>
      change (m.step random).ending = .done at hd
      show ∃ t, (m.step random).traced = some t ∧ m.Fetches t.word ∧ _ ∧
        Word.Confined t.word m (m.step random).machine
      obtain ⟨w, i, hf, hw, he⟩ := Machine.step_of_done hd
      rw [he] at hd ⊢
      exact ⟨⟨m.pc, w, i⟩, Machine.Step.traced_eq_some_iff.mpr ⟨hd, rfl⟩, hf, hw,
        (Machine.confined_execute hw hd).of_advance⟩

/-- Every step of a session that is done, a wait for a key included that was taken up, has
executed a word and changed of the machine only what this word can change. -/
theorem done_step_confined (hs : s.Reachable settings)
    (hd : (s.proceed random).ending = .done) :
    ∃ w, s.ComesTo w ∧ Word.Confined w s.machine (s.proceed random).machine := by
  obtain ⟨t, -, hw, -, hc⟩ := (sound_of_reachable hs).confined_proceed hd
  exact ⟨t.word, hw, hc⟩

/-- A program puts the digits of 254 into the last three bytes of memory. -/
theorem done_step_confined_at_end_of_memory :
    ∃ m, Machine.build { memorySize := 0xF9, entry := 0xF0 } = .ok m ∧
      let s := (start m).after
        [.load 0xF0 [0x60, 0xFE, 0xA0, 0xF6, 0xF0, 0x33], .step 0, .step 0]
      let m' := (s.proceed 0).machine
      (s.proceed 0).ending = .done ∧ s.ComesTo 0xF033 ∧
        (∀ a, m'.ram.cell a ≠ s.machine.ram.cell a → 0xF6 ≤ a) ∧
        ∃ h t u : UInt8, h ≤ 9 ∧ t ≤ 9 ∧ u ≤ 9 ∧
          100 * h.toNat + 10 * t.toNat + u.toNat = 254 ∧
          m'.ram.cell 0xF6 = h ∧ m'.ram.cell 0xF7 = t ∧ m'.ram.cell 0xF8 = u := by
  have hc : Settings.check { memorySize := 0xF9, entry := 0xF0 } = .ok () := rfl
  obtain ⟨m, hb⟩ := Machine.exists_build hc
  refine ⟨m, hb, ?_⟩
  intro s m'
  have hs : s.Reachable { memorySize := 0xF9, entry := 0xF0 } := .after _ (.start hb)
  obtain ⟨hd, hi, hv⟩ :
      (s.proceed 0).ending = .done ∧ s.machine.index = 0xF6 ∧ s.machine.v 0 = 254 := by
    cases hb
    decide +kernel
  obtain ⟨hp, hf⟩ : s.parked = none ∧ s.machine.Fetches 0xF033 := by
    cases hb
    decide +kernel
  obtain ⟨w, hw, h⟩ := done_step_confined hs hd
  cases ((comesTo_iff_fetches hp).mp hw).unique hf
  obtain ⟨-, hdigits⟩ := h.digits rfl rfl
  rw [hi, show Word.x 0xF033 = 0 from rfl, hv] at hdigits
  refine ⟨hd, hw, fun a ha => ?_, hdigits⟩
  obtain ⟨-, ⟨-, hl, -⟩ | ⟨hk, -⟩⟩ := h.ram a ha
  · rw [hi] at hl
    exact hl
  · cases hk

end Session

end SuperChip
