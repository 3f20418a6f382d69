import SuperChip.Proofs.Guarded.Ram
import SuperChip.Proofs.Ram.Map

/-!
# Where slices end

A slice may be read when it ends in memory, and may be written when moreover it holds no
byte or does not start among the glyphs.  Here its end is a whole number, however long the
slice is (`Ram.Readable`, `Ram.Writable`).  An answer is *due* to a request for a slice: the
bytes of the slice if it may be had, and a refusal at its address if not (`Ram.Due`).

Memory computes the end of a slice in 64 bits.  Where the end is a number of 64 bits, the
answer is the one that is due.  Where it is none, the request has no answer at all, although
a refusal is due (`Ram.refusals_missing_beyond_words`).  Only those who want to write among
the glyphs are refused in any case, since the start is looked at first.
-/

namespace SuperChip.Ram

/-! ## Due answers -/

/-- The slice ends in memory. -/
def Readable (r : Ram) (address : UInt16) (length : Nat) : Prop :=
  address.toNat + length ≤ r.size

/-- The slice ends in memory, and it is empty or does not start among the glyphs. -/
def Writable (r : Ram) (address : UInt16) (length : Nat) : Prop :=
  r.Readable address length ∧ (length = 0 ∨ 0xF0 ≤ address.toNat)

/-- The answer that is due to a request for a slice which may be had, or may not. -/
inductive Due (r : Ram) (address : UInt16) (length : Nat) (granted : Prop) :
    Except Fault (List UInt8) → Prop where
  /-- The bytes from the address on, as many as the length says. -/
  | bytes (h : granted) :
      Due r address length granted
        (.ok ((List.range length).map fun i => r.cell (address.toNat + i)))
  /-- A refusal that names the address. -/
  | refusal (h : ¬granted) : Due r address length granted (.error (.outOfBounds address))

variable {r : Ram} {address : UInt16} {answer : Except Fault (List UInt8)}

namespace Due

variable {length : Nat} {granted : Prop}

/-- Only one answer is due. -/
theorem unique {answer' : Except Fault (List UInt8)} (h : r.Due address length granted answer)
    (h' : r.Due address length granted answer') : answer = answer' := by
  cases h with
  | bytes h =>
      cases h' with
      | bytes => rfl
      | refusal h' => exact absurd h h'
  | refusal h =>
      cases h' with
      | bytes h' => exact absurd h' h
      | refusal => rfl

/-- What a function answers that always gives the due answer. -/
theorem eq_iff {answer' : Except Fault (List UInt8)}
    (h : r.Due address length granted answer') :
    answer' = answer ↔ r.Due address length granted answer := by
  constructor
  · rintro rfl
    exact h
  · exact h.unique

end Due

/-! ## Slices of whole numbers -/

theorem due_slice (r : Ram) (address : UInt16) (length : Nat) :
    r.Due address length (r.Readable address length) (r.slice address length) := by
  -- memory shows the byte map of its own cells
  have hshows : r.Shows ⟨r.size, r.cell⟩ := ⟨rfl, fun _ _ => rfl⟩
  by_cases h : r.Readable address length
  · rw [hshows.slice h]
    exact .bytes h
  · rw [hshows.slice_of_lt (Nat.lt_of_not_le h)]
    exact .refusal h

theorem due_writableSlice (r : Ram) (address : UInt16) (length : Nat) :
    r.Due address length (r.Writable address length) (r.writableSlice address length) := by
  unfold writableSlice
  split
  next hg =>
    refine .refusal fun hw => ?_
    rcases hw.2 with hl | ha
    · omega
    · exact absurd hg.2 (Nat.not_lt_of_le ha)
  next hg =>
    have hiff : r.Writable address length ↔ r.Readable address length := by
      refine ⟨And.left, fun hr => ⟨hr, ?_⟩⟩
      have ha : Glyphs.reservedEnd = 0xF0 := rfl
      omega
    rw [propext hiff]
    exact r.due_slice address length

/-! ## Requests of any length -/

variable {length : UInt64}

theorem view?_eq_some_iff :
    r.view? address length = some answer ↔ Spans address length ∧
      r.Due address length.toNat (r.Readable address length.toNat) answer := by
  rw [view?, ← (r.due_slice address length.toNat).eq_iff, Option.ite_none_right_eq_some,
    Option.some_inj]

/-- A writer gets the due answer where the slice has an end, and among the glyphs. -/
theorem writableView?_eq_some_iff :
    r.writableView? address length = some answer ↔
      (Spans address length ∨ 0 < length.toNat ∧ address.toNat < 0xF0) ∧
        r.Due address length.toNat (r.Writable address length.toNat) answer := by
  rw [← (r.due_writableSlice address length.toNat).eq_iff, writableView?, writableSlice]
  by_cases hg : 0 < length.toNat ∧ address.toNat < Glyphs.reservedEnd
  · rw [if_pos hg, if_pos hg, Option.some_inj]
    exact (and_iff_right (.inr hg)).symm
  · have hg' : ¬(0 < length.toNat ∧ address.toNat < 0xF0) := hg
    rw [if_neg hg, if_neg hg, or_iff_left hg', view?, Option.ite_none_right_eq_some,
      Option.some_inj]

/-! ## Guards -/

namespace Guarded

variable {k : Nat}

/-- Where a slice has no end of 64 bits, the guard of its end fails. -/
theorem slice_of_not_held (h : UInt64.size ≤ address.toNat + k) : slice r address k = none := by
  have hend : Guard.held64 (address.toNat + k) = none := if_neg (Nat.not_lt_of_le h)
  rw [slice, hend]
  rfl

/-- No other guard than that of the end can fail. -/
theorem slice_eq_view? :
    slice r address length.toNat = (r.view? address length).map (·.map List.toArray) := by
  unfold view?
  split
  next h => exact slice_of_held (Guard.held_of_lt h)
  next h => exact slice_of_not_held (Nat.le_of_not_lt h)

theorem writableSlice_eq_writableView? :
    writableSlice r address length.toNat =
      (r.writableView? address length).map (·.map List.toArray) := by
  unfold writableSlice writableView?
  split
  next => rfl
  next => exact slice_eq_view?

end Guarded

/-! ## All requests -/

/-- Whoever asks for a slice gets the answer that is due where the end of the slice is a number
of 64 bits: its bytes if it ends in memory, and a refusal at its address if not.  Elsewhere
there is no answer, but that writers are refused among the glyphs, whatever they ask for.
What fails there is the guard of the end, and no other guard does. -/
theorem slices_answered_where_end_fits (r : Ram) (address : UInt16) (length : UInt64) :
    (∀ answer, r.view? address length = some answer ↔
      address.toNat + length.toNat < UInt64.size ∧
        r.Due address length.toNat (r.Readable address length.toNat) answer) ∧
      (∀ answer, r.writableView? address length = some answer ↔
        (address.toNat + length.toNat < UInt64.size ∨ 0 < length.toNat ∧ address.toNat < 0xF0) ∧
          r.Due address length.toNat (r.Writable address length.toNat) answer) ∧
      Guarded.slice r address length.toNat =
        (r.view? address length).map (·.map List.toArray) ∧
      Guarded.writableSlice r address length.toNat =
        (r.writableView? address length).map (·.map List.toArray) :=
  ⟨fun _ => view?_eq_some_iff, fun _ => writableView?_eq_some_iff, Guarded.slice_eq_view?,
    Guarded.writableSlice_eq_writableView?⟩

/-- In the least memory a slice from address one and a writable slice from behind the glyphs,
both of the greatest length, end too far out for 64 bits.  Refusals are due, and neither is
given. -/
theorem refusals_missing_beyond_words :
    ∃ r, build 0xF1 = .ok r ∧
      r.Due 1 0xFFFFFFFFFFFFFFFF (r.Readable 1 0xFFFFFFFFFFFFFFFF)
        (.error (.outOfBounds 1)) ∧
      r.view? 1 0xFFFFFFFFFFFFFFFF = none ∧
      r.Due 0xF0 0xFFFFFFFFFFFFFFFF (r.Writable 0xF0 0xFFFFFFFFFFFFFFFF)
        (.error (.outOfBounds 0xF0)) ∧
      r.writableView? 0xF0 0xFFFFFFFFFFFFFFFF = none := by
  obtain ⟨r, hb⟩ : ∃ r, build 0xF1 = .ok r := ⟨_, if_neg (by decide)⟩
  have hsize : r.size = 0xF1 := size_build hb
  have hout (address : UInt16) : ¬r.Readable address 0xFFFFFFFFFFFFFFFF := by
    unfold Readable
    omega
  exact ⟨r, hb, .refusal (hout 1), rfl, .refusal fun hw => hout 0xF0 hw.1, rfl⟩

end SuperChip.Ram
