import SuperChip.Fault

/-!
# The call stack

A fixed number of slots for return addresses.  The slots below `used` are taken,
oldest first; the others keep whatever was last in them until a call takes them
again.

What a program sees of the slots are the *frames*, the return addresses of the
calls that are open.  A push adds one at the end of them, and a pop takes the last
one away (`frames_push`, `frames_pop`).
-/

namespace SuperChip

/-- The call stack of a machine. -/
structure CallStack where
  /-- All slots, taken or not. -/
  slots : Array UInt16
  /-- The number of slots taken. -/
  used : Nat
deriving DecidableEq

namespace CallStack

/-- A call stack with a number of slots, none of them taken. -/
def ofDepth (depth : Nat) : CallStack := ⟨Array.replicate depth 0, 0⟩

/-- The number of slots. -/
def depth (s : CallStack) : Nat := s.slots.size

/-- Takes the next slot for an address. -/
def push (s : CallStack) (address : UInt16) : Except Fault CallStack :=
  if s.used < s.slots.size then
    .ok ⟨s.slots.setIfInBounds s.used address, s.used + 1⟩
  else .error (.stackOverflow s.used)

/-- Gives up the slot taken last, and says which address is in it. -/
def pop (s : CallStack) : Except Fault (UInt16 × CallStack) :=
  if s.used = 0 then .error .stackUnderflow
  else .ok (s.slots[s.used - 1]?.getD 0, { s with used := s.used - 1 })

/-- The address pushed last, if any is left. -/
def top (s : CallStack) : Option UInt16 :=
  if s.used = 0 then none else some (s.slots[s.used - 1]?.getD 0)

/-- The return addresses of the open calls, oldest first. -/
def frames (s : CallStack) : List UInt16 := s.slots.toList.take s.used

/-! ## Slots are never gained or lost -/

theorem depth_ofDepth (n : Nat) : (ofDepth n).depth = n := Array.size_replicate

theorem push_eq_ok_iff {s t : CallStack} {address : UInt16} :
    s.push address = .ok t ↔
      s.used < s.depth ∧ t = ⟨s.slots.setIfInBounds s.used address, s.used + 1⟩ := by
  unfold push depth
  by_cases h : s.used < s.slots.size
  · simp [h, eq_comm]
  · simp [h]

theorem depth_push {s t : CallStack} {address : UInt16} (h : s.push address = .ok t) :
    t.depth = s.depth := by
  obtain ⟨_, rfl⟩ := push_eq_ok_iff.mp h
  exact Array.size_setIfInBounds

theorem pop_eq_ok_iff {s t : CallStack} {address : UInt16} :
    s.pop = .ok (address, t) ↔
      s.used ≠ 0 ∧ address = s.slots[s.used - 1]?.getD 0 ∧ t = ⟨s.slots, s.used - 1⟩ := by
  unfold pop
  by_cases h : s.used = 0
  · simp [h]
  · simp [h, eq_comm]

/-- A slot that was given up keeps its address. -/
example : ((ofDepth 2).push 0x300 >>= pop) = .ok (0x300, ⟨#[0x300, 0], 0⟩) := rfl

theorem depth_pop {s t : CallStack} {address : UInt16} (h : s.pop = .ok (address, t)) :
    t.depth = s.depth := by
  obtain ⟨_, _, rfl⟩ := pop_eq_ok_iff.mp h
  rfl

/-! ## The open calls -/

/-- No more slots are taken than there are. -/
def Fits (s : CallStack) : Prop := s.used ≤ s.depth

theorem fits_ofDepth (n : Nat) : (ofDepth n).Fits := Nat.zero_le _

theorem fits_push {s t : CallStack} {address : UInt16} (h : s.push address = .ok t) : t.Fits := by
  obtain ⟨hlt, rfl⟩ := push_eq_ok_iff.mp h
  simpa [Fits, depth, Nat.succ_le_iff] using hlt

theorem fits_pop {s t : CallStack} {address : UInt16} (hs : s.Fits)
    (h : s.pop = .ok (address, t)) : t.Fits := by
  obtain ⟨_, _, rfl⟩ := pop_eq_ok_iff.mp h
  exact Nat.le_trans (Nat.sub_le _ _) hs

theorem length_frames {s : CallStack} (h : s.Fits) : s.frames.length = s.used := by
  rw [frames, List.length_take, Array.length_toList]
  exact Nat.min_eq_left h

/-- A push opens one more call. -/
theorem frames_push {s t : CallStack} {address : UInt16} (h : s.push address = .ok t) :
    t.frames = s.frames ++ [address] := by
  obtain ⟨hlt, rfl⟩ := push_eq_ok_iff.mp h
  unfold depth at hlt
  have hl : s.used < (s.slots.toList.set s.used address).length := by
    rw [List.length_set, Array.length_toList]
    exact hlt
  simp only [frames, Array.toList_setIfInBounds]
  rw [← List.take_append_getElem hl, List.getElem_set_self,
    List.take_set_of_le (Nat.le_refl _)]

/-- A pop closes the call that was opened last. -/
theorem frames_pop {s t : CallStack} {address : UInt16} (hs : s.Fits)
    (h : s.pop = .ok (address, t)) : s.frames = t.frames ++ [address] := by
  obtain ⟨hne, rfl, rfl⟩ := pop_eq_ok_iff.mp h
  unfold Fits depth at hs
  have hl : s.used - 1 < s.slots.toList.length := by
    rw [Array.length_toList]
    omega
  have hl' : s.used - 1 < s.slots.size := by omega
  rw [Array.getElem?_eq_getElem hl', Option.getD_some, ← Array.getElem_toList hl', frames, frames,
    List.take_append_getElem hl, Nat.sub_add_cancel (Nat.pos_of_ne_zero hne)]

theorem top_eq_getLast? {s : CallStack} (h : s.Fits) : s.top = s.frames.getLast? := by
  rw [List.getLast?_eq_getElem?, length_frames h]
  unfold top
  by_cases h0 : s.used = 0
  · simp [frames, h0]
  · unfold Fits depth at h
    have hl : s.used - 1 < s.slots.size := by omega
    rw [if_neg h0, frames, List.getElem?_take_of_lt (by omega), Array.getElem?_toList,
      Array.getElem?_eq_getElem hl, Option.getD_some]

end CallStack

end SuperChip
