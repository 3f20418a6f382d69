import SuperChip.Proofs.Machine.Sound
import SuperChip.Ram.Guarded

/-!
# Guarded memory has results

In a memory that is not empty no guard fails: every guarded operation has a result, the
one of its counterpart (`slice_eq`, `word_eq`, `write_eq`, `load_eq`, `wrap_eq`).  What is
asked of a request is only that its length is one that a host can keep in memory, below
`Guard.half`.
-/

namespace SuperChip

namespace Guard

/-! ## Numbers of 64 bits -/

/-- Half as many numbers as there are of 64 bits. -/
def half : Nat := UInt64.size / 2

/-- The end of a request of a length below the half is a number of 64 bits. -/
theorem held64_end {n : Nat} (address : UInt16) (h : n < half) :
    held64 (address.toNat + n) = some (address.toNat + n) := by
  have ha := address.toNat_lt
  unfold half UInt64.size at h
  exact held_of_lt (by unfold UInt64.size; omega)

/-- Copying into a slice puts the cells one after the other. -/
theorem copy_eq_put {bytes : Array UInt8} {start : Nat} {data : List UInt8}
    (h : start + data.length ≤ bytes.size) :
    copy bytes start (start + data.length) data.toArray = some (Ram.put bytes start data) := by
  rw [copy, if_pos ⟨Nat.le_add_right _ _, h, by simp⟩]
  refine congrArg some (Array.ext_getElem? fun i => ?_)
  rw [Ram.getElem?_put]
  simp only [Array.getElem?_append, Array.size_append, Array.size_extract, Array.getElem?_extract,
    List.size_toArray, List.getElem?_toArray]
  grind

end Guard

namespace Ram.Guarded

variable {r : Ram} {address : UInt16}

/-! ## New memory -/

/-- Two runs of bytes put one behind the other at the start of zeros. -/
theorem put_put_replicate {front back : List UInt8} {size : Nat}
    (h : front.length + back.length ≤ size) :
    put (put (Array.replicate size 0) 0 front) front.length back =
      (front ++ back ++ List.replicate (size - (front.length + back.length)) 0).toArray := by
  apply Array.ext_getElem?
  intro i
  simp only [getElem?_put, size_put, Array.size_replicate, Array.getElem?_replicate,
    List.getElem?_toArray, List.getElem?_append, List.getElem?_replicate, List.length_append]
  grind

theorem build_eq (size : Nat) : build size = some (Ram.build size) := by
  rw [build, Ram.build]
  split
  · rfl
  next h =>
    have hs : Glyphs.small.length = Glyphs.largeStart := Glyphs.length_small
    have hl : Glyphs.large.length = 0xA0 := Glyphs.length_large
    have hfit : Glyphs.small.length + Glyphs.large.length ≤ size := by
      rw [hs, hl]
      exact Nat.le_of_not_le h
    have hzeros : 0 + Glyphs.small.length ≤ (Array.replicate size (0 : UInt8)).size := by
      rw [Array.size_replicate]
      omega
    have hsmall := Guard.copy_eq_put hzeros
    rw [Nat.zero_add] at hsmall
    have hbehind : Glyphs.small.length + Glyphs.large.length ≤
        (put (Array.replicate size 0) 0 Glyphs.small).size := by
      rw [size_put, Array.size_replicate]
      exact hfit
    have hlarge := Guard.copy_eq_put hbehind
    rw [put_put_replicate hfit] at hlarge
    rw [← hs, Guard.held64, Guard.held_of_lt (by rw [hs, hl]; decide)]
    simp only [bind, Option.bind, hsmall, hlarge]
    rw [hs, hl]
    rfl

/-! ## Accesses -/

/-- A slice has a result where its end is a number of 64 bits. -/
theorem slice_of_held {length : Nat}
    (h : Guard.held64 (address.toNat + length) = some (address.toNat + length)) :
    slice r address length = some ((r.slice address length).map List.toArray) := by
  rw [slice, h, Ram.slice]
  by_cases hs : address.toNat + length ≤ r.size
  · rw [if_pos hs]
    simp only [bind, Option.bind, if_neg (Nat.not_lt_of_le hs)]
    rw [Guard.span_of_le (Nat.le_add_right _ _) hs]
    rfl
  · rw [if_neg hs]
    simp only [bind, Option.bind, if_pos (Nat.lt_of_not_le hs)]
    rfl

theorem slice_eq {length : Nat} (h : length < Guard.half) :
    slice r address length = some ((r.slice address length).map List.toArray) :=
  slice_of_held (Guard.held64_end address h)

theorem word_eq : word r address = some (r.word address) := by
  rw [word, slice_eq (by decide), Ram.slice, Ram.word, Ram.size]
  by_cases h : address.toNat + 2 ≤ r.bytes.size
  · have e0 : (r.bytes.extract address.toNat (address.toNat + 2))[0]? =
        some r.bytes[address.toNat] :=
      Array.getElem?_extract_of_lt (by omega)
    have e1 : (r.bytes.extract address.toNat (address.toNat + 2))[1]? =
        some r.bytes[address.toNat + 1] :=
      Array.getElem?_extract_of_lt (by omega)
    rw [if_pos h, dif_pos h]
    simp only [Except.map, bind, Option.bind, Guard.cell, Array.toArray_toList, e0, e1]
    rfl
  · rw [if_neg h, dif_neg h]
    rfl

theorem write_eq {data : List UInt8} (h : data.length < Guard.half) :
    write r address data = some (r.write address data) := by
  rw [write, Ram.write]
  by_cases hg : 0 < data.length ∧ address.toNat < Glyphs.reservedEnd
  · rw [if_pos hg, if_pos hg]
    rfl
  · rw [if_neg hg, if_neg hg, Guard.held64_end address h]
    by_cases hs : address.toNat + data.length ≤ r.size
    · simp only [bind, Option.bind, if_neg (Nat.not_lt_of_le hs), if_pos hs]
      rw [Guard.copy_eq_put hs]
      rfl
    · simp only [bind, Option.bind, if_pos (Nat.lt_of_not_le hs), if_neg hs]
      rfl

theorem load_eq {program : List UInt8} (h : program.length < Guard.half) :
    load r address program = some (r.load address program) := by
  rw [load, Guard.held64_end address h, Ram.load]
  simp only [bind, Option.bind]
  split
  · rfl
  · exact write_eq h

theorem wrap_eq (h : 0 < r.size) (n : Nat) : wrap r n = some (r.wrap n) := by
  rw [wrap, Guard.remainder_of_pos h]
  rfl

end Ram.Guarded

end SuperChip
