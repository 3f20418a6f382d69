import SuperChip.Proofs.Lasting

/-!
# Glyphs stay where they are

Memory *holds the glyphs* when it begins with the two sheets.  New memory does.  A write
either writes nothing or begins behind the sheets, so it leaves them there
(`Ram.HoldsGlyphs.write`), and nothing but writes changes memory.  So the glyphs last,
whatever a program does and wherever a host puts one.

The address of a glyph is not wrapped.  It need not be: the sheets fit into the least
memory, and a glyph is read where it stands (`Ram.HoldsGlyphs.slice`).
-/

namespace SuperChip

/-! ## The sheets -/

namespace Glyphs

/-- What begins in the small sheet and ends in it is a part of it. -/
theorem take_drop_sheets {k n : Nat} (h : k + n ≤ small.length) :
    (sheets.drop k).take n = (small.drop k).take n := by
  have hk : k ≤ small.length := by omega
  have hn : n ≤ (small.drop k).length := by
    rw [List.length_drop]
    omega
  rw [sheets, List.drop_append_of_le_length hk, List.take_append_of_le_length hn]

/-- The large sheet is behind the small one. -/
theorem drop_sheets (k : Nat) : sheets.drop (small.length + k) = large.drop k :=
  List.drop_length_add_append ..

end Glyphs

/-! ## Memory -/

namespace Ram

/-- Memory begins with the glyphs. -/
def HoldsGlyphs (r : Ram) : Prop := Glyphs.sheets <+: r.bytes.toList

theorem holdsGlyphs_build {size : Nat} {r : Ram} (h : build size = .ok r) : r.HoldsGlyphs := by
  unfold build at h
  split at h
  · cases h
  · cases h
    exact List.prefix_append _ _

/-- Bytes that are put behind the first ones leave the first ones there. -/
theorem prefix_put {first : List UInt8} (data : List UInt8) :
    ∀ {bytes : Array UInt8} {start : Nat}, first <+: bytes.toList → first.length ≤ start →
      first <+: (put bytes start data).toList := by
  induction data with
  | nil => exact fun h _ => h
  | cons b data ih =>
      intro bytes start h hs
      have hset : first <+: (bytes.setIfInBounds start b).toList := by
        obtain ⟨rest, hr⟩ := h
        rw [Array.toList_setIfInBounds, ← hr, List.set_append_right _ _ hs]
        exact List.prefix_append _ _
      exact ih hset (Nat.le_succ_of_le hs)

namespace HoldsGlyphs

variable {r s : Ram} (h : r.HoldsGlyphs)
include h

/-- No write that is allowed reaches the glyphs. -/
theorem write {address : UInt16} {data : List UInt8} (hw : r.write address data = .ok s) :
    s.HoldsGlyphs := by
  obtain ⟨hd, -, rfl⟩ := write_eq_ok_iff.mp hw
  rcases hd with rfl | hd
  · exact h
  · exact prefix_put data h (le_of_eq_of_le Glyphs.length_sheets hd)

/-- What is read among the glyphs is a part of the sheets. -/
theorem slice {address : UInt16} {n : Nat} (hn : address.toNat + n ≤ Glyphs.reservedEnd) :
    r.slice address n = .ok ((Glyphs.sheets.drop address.toNat).take n) := by
  have hl : Glyphs.reservedEnd ≤ r.size := by
    rw [← Glyphs.length_sheets]
    exact h.length_le
  refine slice_eq_ok_iff.mpr ⟨Nat.le_trans hn hl, ?_⟩
  obtain ⟨rest, hr⟩ := h
  rw [← Glyphs.length_sheets] at hn
  have hd : address.toNat ≤ Glyphs.sheets.length := by omega
  have ht : n ≤ (Glyphs.sheets.drop address.toNat).length := by
    rw [List.length_drop]
    omega
  rw [Array.toList_extract, ← hr, List.extract_eq_take_drop, Nat.add_sub_cancel_left,
    List.drop_append_of_le_length hd, List.take_append_of_le_length ht]

/-- The small sheet. -/
theorem small : r.slice 0x00 0x50 = .ok Glyphs.small :=
  h.slice (by decide)

/-- The large sheet. -/
theorem large : r.slice 0x50 0xA0 = .ok Glyphs.large :=
  h.slice (by decide)

theorem smallAt (digit : UInt8) :
    r.slice (Glyphs.smallAt digit) 5 =
      .ok ((Glyphs.small.drop (5 * (digit.toNat % 16))).take 5) := by
  have hd : digit.toNat % 16 < 16 := Nat.mod_lt _ (by decide)
  have ha : (Glyphs.smallAt digit).toNat = 5 * (digit.toNat % 16) := by
    rw [Glyphs.toNat_smallAt, Glyphs.smallStart, Glyphs.smallStride]
    omega
  have hn : 5 * (digit.toNat % 16) + 5 ≤ Glyphs.small.length := by
    rw [Glyphs.length_small, Glyphs.smallStride]
    omega
  have hr : (Glyphs.smallAt digit).toNat + 5 ≤ Glyphs.reservedEnd := by
    rw [ha]
    exact Nat.le_trans hn (by decide)
  rw [h.slice hr, ha, Glyphs.take_drop_sheets hn]

theorem largeAt (digit : UInt8) :
    r.slice (Glyphs.largeAt digit) 10 =
      .ok ((Glyphs.large.drop (10 * (digit.toNat % 16))).take 10) := by
  have hd : digit.toNat % 16 < 16 := Nat.mod_lt _ (by decide)
  have ha : (Glyphs.largeAt digit).toNat = Glyphs.small.length + 10 * (digit.toNat % 16) := by
    rw [Glyphs.toNat_largeAt, Glyphs.largeStart, Glyphs.largeStride, Glyphs.length_small,
      Glyphs.smallStride]
    omega
  have hr : (Glyphs.largeAt digit).toNat + 10 ≤ Glyphs.reservedEnd := by
    rw [ha, Glyphs.length_small, Glyphs.smallStride, Glyphs.reservedEnd]
    omega
  rw [h.slice hr, ha, Glyphs.drop_sheets]

end HoldsGlyphs

end Ram

/-! ## Sessions -/

namespace Machine

/-- Whatever happens to a machine, its memory goes on holding the glyphs. -/
theorem lasting_holdsGlyphs : Lasting fun m => m.ram.HoldsGlyphs where
  execute := by
    intro m h random i
    have hw (bytes : List UInt8) : (m.executeWrite bytes).machine.ram.HoldsGlyphs := by
      unfold executeWrite
      split
      next ram hr => exact h.write hr
      next => exact h
    cases i with
    | bcd x => exact hw _
    | store x => exact hw _
    | _ =>
        refine (congrArg Ram.HoldsGlyphs (same_execute (p := .ram) random ?_)).mpr h
        simp [Instruction.footprint]
  setPc h _ := h
  write h _ _ _ hw := h.write hw
  change h _ := h
  act h _ := h
  setClocks h _ := h

theorem Reachable.holdsGlyphs {settings : Settings} {m : Machine}
    (h : Machine.Reachable settings m) : m.ram.HoldsGlyphs := by
  refine lasting_holdsGlyphs.reachable ?_ h
  intro m hb
  obtain ⟨-, ram, hr, rfl⟩ := build_eq_ok_iff.mp hb
  exact Ram.holdsGlyphs_build hr

variable {m : Machine} {x : UInt8}

/-- Pointing to a small glyph is a step that is done. -/
theorem step_of_glyph (hi : m.Issues (.glyph x)) (random : UInt8) :
    (m.step random).ending = .done ∧ (m.step random).machine.ram = m.ram ∧
      (m.step random).machine.index = Glyphs.smallAt (m.v x) := by
  obtain ⟨w, hw, hs⟩ := hi
  rw [step_of_standsFor hw hs]
  exact ⟨rfl, rfl, rfl⟩

theorem step_of_largeGlyph (hi : m.Issues (.largeGlyph x)) (random : UInt8) :
    (m.step random).ending = .done ∧ (m.step random).machine.ram = m.ram ∧
      (m.step random).machine.index = Glyphs.largeAt (m.v x) := by
  obtain ⟨w, hw, hs⟩ := hi
  rw [step_of_standsFor hw hs]
  exact ⟨rfl, rfl, rfl⟩

/-- In every session of a machine with accepted settings both sheets stand at the start of
memory.  Where the next instruction points to a glyph the step is done, and at the
address register there then stands the glyph of the low half of VX. -/
theorem glyphs_last {settings : Settings} (hc : settings.check = .ok ()) :
    ∃ m₀, build settings = .ok m₀ ∧ ∀ events : List Event,
      let m := ((Session.start m₀).after events).machine
      m.ram.slice 0x00 0x50 = .ok Glyphs.small ∧ m.ram.slice 0x50 0xA0 = .ok Glyphs.large ∧
        ∀ (x random : UInt8),
          let d := (m.v x).toNat % 16
          let s := m.step random
          (m.Issues (.glyph x) → s.ending = .done ∧
            s.machine.ram.slice s.machine.index 5 =
              .ok ((Glyphs.small.drop (5 * d)).take 5)) ∧
          (m.Issues (.largeGlyph x) → s.ending = .done ∧
            s.machine.ram.slice s.machine.index 10 =
              .ok ((Glyphs.large.drop (10 * d)).take 10)) := by
  obtain ⟨m₀, hb⟩ := exists_build hc
  refine ⟨m₀, hb, fun events => ?_⟩
  have hm : Machine.Reachable settings ((Session.start m₀).after events).machine :=
    ⟨_, Session.Reachable.after events (.start hb)⟩
  have hg := hm.holdsGlyphs
  refine ⟨hg.small, hg.large, fun x random => ⟨fun hi => ?_, fun hi => ?_⟩⟩
  · obtain ⟨he, hr, hx⟩ := step_of_glyph hi random
    refine ⟨he, ?_⟩
    rw [hr, hx]
    exact hg.smallAt _
  · obtain ⟨he, hr, hx⟩ := step_of_largeGlyph hi random
    refine ⟨he, ?_⟩
    rw [hr, hx]
    exact hg.largeAt _

/-- In the least memory, a program is refused among the glyphs and another one is put at
the last word, which points to the large glyph of zero. -/
theorem glyphs_last_in_least_memory :
    ∃ m₀, build { memorySize := 0xF2, entry := 0xF0 } = .ok m₀ ∧
      let m := ((Session.start m₀).after [.load 0x4F [1, 2], .load 0xF0 [0xF0, 0x30]]).machine
      m.Issues (.largeGlyph 0) ∧
        (m.step 0).machine.ram.slice (m.step 0).machine.index 10 =
          .ok [0x3C, 0x7E, 0xE7, 0xC3, 0xC3, 0xC3, 0xC3, 0xE7, 0x7E, 0x3C] := by
  have hc : Settings.check { memorySize := 0xF2, entry := 0xF0 } = .ok () := rfl
  obtain ⟨m₀, hb, h⟩ := glyphs_last hc
  obtain ⟨-, -, hg⟩ := h [.load 0x4F [1, 2], .load 0xF0 [0xF0, 0x30]]
  obtain ⟨-, hlarge⟩ := hg 0 0
  have hv : ((Session.start m₀).after
      [.load 0x4F [1, 2], .load 0xF0 [0xF0, 0x30]]).machine.v 0 = 0 := by
    cases hb
    decide +kernel
  rw [hv] at hlarge
  suffices hi : Issues _ (.largeGlyph 0) from ⟨m₀, hb, hi, (hlarge hi).2⟩
  cases hb
  refine ⟨0xF030, ?_, ⟨.largeGlyph, ⟨rfl, trivial, rfl, rfl⟩, rfl⟩⟩
  unfold Fetches
  decide +kernel

end Machine

end SuperChip
