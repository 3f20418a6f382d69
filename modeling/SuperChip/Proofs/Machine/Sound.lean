import SuperChip.Proofs.Machine.Effect
import SuperChip.Proofs.Words

/-!
# Sound machines

A machine is *sound* when it has the memory and the stack its settings ask for, the
settings are accepted, the address register and the return addresses of open calls
point into memory, and the surface is full.  A new machine is sound (`sound_build`),
and a sound machine stays sound through every step, failing ones included
(`Sound.step`).

The program counter is not part of it.  A new machine starts at any address, in
memory or not.  Once a word was fetched the program counter is in memory, whatever
then becomes of the step (`Sound.pc_step_lt`).
-/

namespace SuperChip

/-! ## Settings -/

namespace Settings

/-- Settings have no fault just when they pass every one of the looks at them. -/
theorem fault?_eq_none_iff {s : Settings} :
    s.fault? = none ↔
      leastMemory ≤ s.memorySize ∧ s.memorySize ≤ mostMemory ∧ s.stackDepth ≠ 0 ∧
        s.delayHz ≠ 0 ∧ s.soundHz ≠ 0 := by
  unfold fault?
  split
  next h1 =>
    constructor
    · intro h
      cases h
    · rintro ⟨hl, -⟩
      exact absurd h1 (Nat.not_lt_of_le hl)
  next h1 =>
    split
    next h2 =>
      constructor
      · intro h
        cases h
      · rintro ⟨-, hm, -⟩
        exact absurd h2 (Nat.not_lt_of_le hm)
    next h2 =>
      split
      next h3 =>
        constructor
        · intro h
          cases h
        · rintro ⟨-, -, hd, -⟩
          exact absurd h3 hd
      next h3 =>
        split
        next h4 =>
          constructor
          · intro h
            cases h
          · rintro ⟨-, -, -, hz⟩
            exact absurd h4 (not_or.mpr hz)
        next h4 =>
          constructor
          · intro _
            exact ⟨Nat.le_of_not_lt h1, Nat.le_of_not_lt h2, h3, not_or.mp h4⟩
          · intro _
            rfl

theorem check_eq_ok_iff {s : Settings} : s.check = .ok () ↔ s.fault? = none := by
  unfold check
  cases s.fault? with
  | none =>
      constructor
      · intro _
        rfl
      · intro _
        rfl
  | some cause =>
      constructor
      · intro h
        cases h
      · intro h
        cases h

end Settings

/-! ## Glyphs -/

namespace Glyphs

/-- Small glyphs stand one behind the other from the start of their sheet. -/
theorem toNat_smallAt (digit : UInt8) :
    (smallAt digit).toNat = smallStart + digit.toNat % 16 * smallStride := by
  have : digit.toNat % 16 < 16 := Nat.mod_lt _ (by decide)
  rw [smallAt, UInt16.toNat_ofNat']
  simp only [smallStart, smallStride]
  omega

/-- Large glyphs stand one behind the other from the start of their sheet. -/
theorem toNat_largeAt (digit : UInt8) :
    (largeAt digit).toNat = largeStart + digit.toNat % 16 * largeStride := by
  have : digit.toNat % 16 < 16 := Nat.mod_lt _ (by decide)
  rw [largeAt, UInt16.toNat_ofNat']
  simp only [largeStart, largeStride]
  omega

/-- Every small glyph begins in the reserved bytes. -/
theorem smallAt_lt_reservedEnd (digit : UInt8) : (smallAt digit).toNat < reservedEnd := by
  rw [toNat_smallAt]
  simp only [smallStart, smallStride, reservedEnd]
  omega

/-- Every large glyph begins in the reserved bytes. -/
theorem largeAt_lt_reservedEnd (digit : UInt8) : (largeAt digit).toNat < reservedEnd := by
  rw [toNat_largeAt]
  simp only [largeStart, largeStride, reservedEnd]
  omega

end Glyphs

/-! ## Call stacks -/

namespace CallStack

/-- A call stack has a number of slots, takes no more of them than there are, and its
open calls return into memory of a size. -/
structure Within (s : CallStack) (slots size : Nat) : Prop where
  /-- The number of slots. -/
  depth : s.depth = slots
  /-- No more slots are taken than there are. -/
  fits : s.Fits
  /-- Open calls return into memory. -/
  frames_lt : ∀ a ∈ s.frames, a.toNat < size

namespace Within

variable {s t : CallStack} {slots size : Nat} {address : UInt16}

/-- An empty stack holds nothing that could be outside of memory. -/
theorem ofDepth (slots size : Nat) : (CallStack.ofDepth slots).Within slots size where
  depth := depth_ofDepth slots
  fits := fits_ofDepth slots
  frames_lt := by
    intro a ha
    simp [CallStack.ofDepth, frames] at ha

/-- A stack stays within bounds when an address of memory is pushed. -/
theorem push (h : s.Within slots size) (ha : address.toNat < size)
    (e : s.push address = .ok t) : t.Within slots size where
  depth := (depth_push e).trans h.depth
  fits := fits_push e
  frames_lt := by
    intro a hm
    rw [frames_push e, List.mem_append, List.mem_singleton] at hm
    rcases hm with hm | rfl
    · exact h.frames_lt a hm
    · exact ha

/-- A stack stays within bounds when an address is popped. -/
theorem pop (h : s.Within slots size) (e : s.pop = .ok (address, t)) : t.Within slots size where
  depth := (depth_pop e).trans h.depth
  fits := fits_pop h.fits e
  frames_lt := by
    intro a hm
    apply h.frames_lt
    rw [frames_pop h.fits e]
    exact List.mem_append_left _ hm

/-- What is popped is an address of memory. -/
theorem popped_lt (h : s.Within slots size) (e : s.pop = .ok (address, t)) :
    address.toNat < size := by
  apply h.frames_lt
  rw [frames_pop h.fits e]
  exact List.mem_append_right _ (List.mem_singleton_self _)

end Within

end CallStack

/-! ## The invariant -/

namespace Machine

/-- A machine is as accepted settings ask, and what is kept in it points into memory. -/
structure Sound (m : Machine) (settings : Settings) : Prop where
  /-- The settings are accepted. -/
  checked : settings.check = .ok ()
  /-- They are those of the machine. -/
  settings_eq : m.settings = settings
  /-- Memory has the size that was asked for. -/
  size : m.ram.size = settings.memorySize
  /-- The call stack has the slots that were asked for, and open calls return into memory. -/
  stack : m.registers.stack.Within settings.stackDepth m.ram.size
  /-- The address register points into memory. -/
  index_lt : m.index.toNat < m.ram.size
  /-- The pixels fill the surface. -/
  full : m.surface.Full

variable {settings : Settings}

/-- Memory is as large as settings may ask for. -/
theorem Sound.size_bounds {m : Machine} (h : m.Sound settings) :
    Settings.leastMemory ≤ m.ram.size ∧ m.ram.size ≤ Settings.mostMemory := by
  obtain ⟨hl, hm, -⟩ :=
    Settings.fault?_eq_none_iff.mp (Settings.check_eq_ok_iff.mp h.checked)
  rw [h.size]
  exact ⟨hl, hm⟩

/-- Memory goes on behind the reserved bytes. -/
theorem Sound.reservedEnd_lt {m : Machine} (h : m.Sound settings) :
    Glyphs.reservedEnd < m.ram.size := by
  have := h.size_bounds.1
  unfold Settings.leastMemory at this
  omega

theorem Sound.size_pos {m : Machine} (h : m.Sound settings) : 0 < m.ram.size :=
  Nat.lt_of_le_of_lt (Nat.zero_le _) h.reservedEnd_lt

/-- In a sound machine a wrapped address is the remainder by the size of memory. -/
theorem Sound.toNat_wrap {m : Machine} (h : m.Sound settings) (n : Nat) :
    (m.ram.wrap n).toNat = n % m.ram.size :=
  Ram.toNat_wrap h.size_pos h.size_bounds.2 n

/-- What is wrapped is an address of memory. -/
theorem Sound.wrap_lt {m : Machine} (h : m.Sound settings) (n : Nat) :
    (m.ram.wrap n).toNat < m.ram.size := by
  rw [h.toNat_wrap]
  exact Nat.mod_lt n h.size_pos

/-- A machine is sound with another one that has the same settings, memory, call
stack, address register and surface. -/
theorem Sound.of_same {m m' : Machine} (h : m.Sound settings)
    (same : ∀ p : Part, p ∈ [.settings, .ram, .stack, .index, .surface] → p.Same m m') :
    m'.Sound settings := by
  have hs : m'.settings = m.settings := same .settings (by simp)
  have hr : m'.ram = m.ram := same .ram (by simp)
  have hc : m'.registers.stack = m.registers.stack := same .stack (by simp)
  have hi : m'.index = m.index := same .index (by simp)
  have hf : m'.surface = m.surface := same .surface (by simp)
  constructor
  · exact h.checked
  · rw [hs]; exact h.settings_eq
  · rw [hr]; exact h.size
  · rw [hc, hr]; exact h.stack
  · rw [hi, hr]; exact h.index_lt
  · rw [hf]; exact h.full

/-! ## A new machine -/

theorem build_eq_ok_iff {m : Machine} :
    build settings = .ok m ↔
      settings.check = .ok () ∧ ∃ ram, Ram.build settings.memorySize = .ok ram ∧
        m = ⟨settings, .start settings.entry settings.stackDepth, ram, .blank false,
          settings.keypad, .idle⟩ := by
  unfold build
  cases settings.check with
  | error fault => simp [bind, Except.bind]
  | ok u =>
      cases Ram.build settings.memorySize with
      | error fault => simp [bind, Except.bind]
      | ok ram => simp [bind, Except.bind, pure, Except.pure, eq_comm]

/-- From accepted settings a machine is built. -/
theorem exists_build (h : settings.check = .ok ()) :
    ∃ m, build settings = .ok m := by
  obtain ⟨hl, -⟩ := Settings.fault?_eq_none_iff.mp (Settings.check_eq_ok_iff.mp h)
  have hr : ¬settings.memorySize ≤ Glyphs.reservedEnd := by
    unfold Settings.leastMemory at hl
    omega
  exact ⟨_, build_eq_ok_iff.mpr ⟨h, _, if_neg hr, rfl⟩⟩

/-- A new machine is sound. -/
theorem sound_build {m : Machine} (h : build settings = .ok m) :
    m.Sound settings := by
  obtain ⟨hc, ram, hr, rfl⟩ := build_eq_ok_iff.mp h
  have hsize : ram.size = settings.memorySize := Ram.size_build hr
  obtain ⟨hl, -⟩ := Settings.fault?_eq_none_iff.mp (Settings.check_eq_ok_iff.mp hc)
  refine ⟨hc, rfl, hsize, .ofDepth _ _, ?_, Surface.full_blank false⟩
  show (0 : UInt16).toNat < ram.size
  rw [hsize]
  unfold Settings.leastMemory at hl
  exact Nat.lt_of_lt_of_le (by decide) hl

section

variable {m : Machine} (h : m.Sound settings)
include h

/-- The address register stays in memory. -/
theorem Sound.index_execute_lt (random : UInt8) (i : Instruction) :
    (m.execute random i).machine.index.toNat < m.ram.size := by
  cases i with
  | loadIndex address => exact h.wrap_lt _
  | addIndex x => exact h.wrap_lt _
  | glyph x => exact Nat.lt_trans (Glyphs.smallAt_lt_reservedEnd _) h.reservedEnd_lt
  | largeGlyph x => exact Nat.lt_trans (Glyphs.largeAt_lt_reservedEnd _) h.reservedEnd_lt
  | _ =>
      refine lt_of_eq_of_lt (congrArg UInt16.toNat (same_execute (p := .index) random ?_))
        h.index_lt
      simp [Instruction.footprint]

/-- The call stack keeps its slots, and open calls return into memory. -/
theorem Sound.stack_execute (hpc : m.pc.toNat < m.ram.size) (random : UInt8) (i : Instruction) :
    (m.execute random i).machine.registers.stack.Within settings.stackDepth m.ram.size := by
  cases i with
  | ret =>
      rw [execute]
      rcases m.stack_executeReturn with ⟨address, hs, -⟩ | he
      · exact h.stack.pop hs
      · rw [he]
        exact h.stack
  | call address =>
      rw [execute]
      rcases m.stack_executeCall address with ⟨hs, -⟩ | he
      · exact h.stack.push hpc hs
      · rw [he]
        exact h.stack
  | _ =>
      refine (congrArg (CallStack.Within · _ _) (same_execute (p := .stack) random ?_)).mpr h.stack
      simp [Instruction.footprint]

theorem Sound.pc_skipIf_lt (hpc : m.pc.toNat < m.ram.size) (condition : Bool) :
    (m.skipIf condition).pc.toNat < m.ram.size := by
  unfold skipIf
  split
  · exact h.wrap_lt _
  · exact hpc

/-- The program counter stays in memory. -/
theorem Sound.pc_execute_lt (hpc : m.pc.toNat < m.ram.size) (random : UInt8) (i : Instruction) :
    (m.execute random i).machine.pc.toNat < m.ram.size := by
  cases i with
  | ret =>
      rw [execute]
      rcases m.stack_executeReturn with ⟨address, hs, ha⟩ | he
      · rw [ha]
        exact h.stack.popped_lt hs
      · rw [he]
        exact hpc
  | call address =>
      rw [execute]
      rcases m.stack_executeCall address with ⟨-, ha⟩ | he
      · rw [ha]
        exact h.wrap_lt _
      · rw [he]
        exact hpc
  | jump | jumpIndexed => exact h.wrap_lt _
  | skipEq | skipNe | skipEqReg | skipNeReg | skipPressed | skipNotPressed =>
      exact h.pc_skipIf_lt hpc _
  | _ =>
      refine lt_of_eq_of_lt (congrArg UInt16.toNat (same_execute (p := .pc) random ?_)) hpc
      simp [Instruction.footprint]

/-- A sound machine stays sound, whatever it executes and however that ends. -/
theorem Sound.execute (hpc : m.pc.toNat < m.ram.size) (random : UInt8) (i : Instruction) :
    (m.execute random i).machine.Sound settings := by
  have hset : (m.execute random i).machine.settings = m.settings :=
    same_execute (p := .settings) random (settings_not_mem_footprint i)
  have hsize := m.size_execute random i
  constructor
  · exact h.checked
  · exact hset.trans h.settings_eq
  · exact hsize.trans h.size
  · rw [hsize]
    exact h.stack_execute hpc random i
  · rw [hsize]
    exact h.index_execute_lt random i
  · exact full_execute h.full random i

end

end Machine

end SuperChip
