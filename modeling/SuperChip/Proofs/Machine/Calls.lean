import SuperChip.Proofs.Machine.Stage

/-!
# What a step does to the open calls

`Machine.Turns` says what becomes of the call stack when a machine executes something.  A
call that comes to its end keeps the program counter, which is behind the call.  A return
that comes to its end takes the address kept last and goes on there.  All else, and also a
call or a return that is refused, leaves the stack as it is.

From this follows how the open calls change, one at the end at a time (`Turns.frames`), and
that the number of open calls is a count of calls and returns (`Turns.used`).
-/

namespace SuperChip

/-! ## Calls and returns -/

/-- Whether an executed instruction was a call. -/
def Traced.isCall (t : Traced) : Bool :=
  match t.instruction with
  | .call _ => true
  | _ => false

/-- Whether an executed instruction was a return. -/
def Traced.isReturn (t : Traced) : Bool :=
  match t.instruction with
  | .ret => true
  | _ => false

namespace Machine

/-- What is executed turns the call stack of one machine into that of another one. -/
inductive Turns (m m' : Machine) : Option Traced → Prop where
  | call {t : Traced} : t.isCall = true → t.isReturn = false →
      m.registers.stack.push m.pc = .ok m'.registers.stack → Turns m m' (some t)
  | ret {t : Traced} : t.isCall = false → t.isReturn = true →
      m.registers.stack.pop = .ok (m'.pc, m'.registers.stack) → Turns m m' (some t)
  | keep {t? : Option Traced} : (∀ t, t? = some t → t.isCall = false ∧ t.isReturn = false) →
      m'.registers.stack = m.registers.stack → Turns m m' t?

variable {m m' : Machine} {t? : Option Traced}

/-- Where nothing was executed to its end the stack is kept. -/
theorem turns_none (h : m'.registers.stack = m.registers.stack) : Turns m m' none :=
  .keep (fun _ ht => by cases ht) h

/-! ## Steps -/

theorem turns_perform (m : Machine) (random : UInt8) (t : Traced) :
    Turns m (m.perform random t).machine (m.perform random t).traced := by
  obtain ⟨pc, word, i⟩ := t
  have hsame (h : .stack ∉ i.footprint) :
      (m.execute random i).machine.registers.stack = m.registers.stack :=
    same_execute (p := .stack) random h
  have hkeep (t : Traced) (ht : (m.perform random ⟨pc, word, i⟩).traced = some t) :
      t = ⟨pc, word, i⟩ := by
    unfold Step.traced at ht
    split at ht
    · exact (Option.some.inj ht).symm
    · cases ht
  cases i with
  | ret =>
      unfold perform Step.traced
      dsimp only [execute]
      unfold executeReturn
      cases hp : m.registers.stack.pop with
      | error fault => exact turns_none rfl
      | ok popped => exact .ret rfl rfl hp
  | call address =>
      unfold perform Step.traced
      dsimp only [execute]
      unfold executeCall
      cases hp : m.registers.stack.push m.pc with
      | error fault => exact turns_none rfl
      | ok stack => exact .call rfl rfl hp
  | _ =>
      refine .keep ?_ (hsame (by simp [Instruction.footprint]))
      intro t ht
      cases hkeep t ht
      exact ⟨rfl, rfl⟩

theorem turns_step (m : Machine) (random : UInt8) :
    Turns m.advance (m.step random).machine (m.step random).traced := by
  rcases stage_cases m with hf | ⟨w, hw, hi⟩ | ⟨w, i, hw, hi⟩
  · rw [step_of_not_fetches hf]
    exact turns_none rfl
  · rw [step_of_unsupported hw hi]
    exact turns_none rfl
  · rw [step_of_standsFor hw hi]
    exact turns_perform _ random _

/-! ## Open calls -/

namespace Turns

variable (h : Turns m m' t?)
include h

theorem fits (hf : m.registers.stack.Fits) : m'.registers.stack.Fits := by
  cases h with
  | call _ _ hp => exact CallStack.fits_push hp
  | ret _ _ hp => exact CallStack.fits_pop hf hp
  | keep _ hs =>
      rw [hs]
      exact hf

omit h in
theorem push {t : Traced} (h : Turns m m' (some t)) (hc : t.isCall = true) :
    m.registers.stack.push m.pc = .ok m'.registers.stack := by
  cases h with
  | call _ _ hp => exact hp
  | ret hn _ _ =>
      rw [hn] at hc
      cases hc
  | keep hn _ =>
      rw [(hn t rfl).1] at hc
      cases hc

omit h in
theorem pop {t : Traced} (h : Turns m m' (some t)) (hr : t.isReturn = true) :
    m.registers.stack.pop = .ok (m'.pc, m'.registers.stack) := by
  cases h with
  | ret _ _ hp => exact hp
  | call _ hn _ =>
      rw [hn] at hr
      cases hr
  | keep hn _ =>
      rw [(hn t rfl).2] at hr
      cases hr

/-- The open calls stay, or one more is open, or the last one is closed. -/
theorem frames (hf : m.registers.stack.Fits) :
    m'.registers.stack.frames = m.registers.stack.frames ∨
      (∃ a, m'.registers.stack.frames = m.registers.stack.frames ++ [a]) ∨
      ∃ a, m.registers.stack.frames = m'.registers.stack.frames ++ [a] := by
  cases h with
  | call _ _ hp => exact .inr (.inl ⟨_, CallStack.frames_push hp⟩)
  | ret _ _ hp => exact .inr (.inr ⟨_, CallStack.frames_pop hf hp⟩)
  | keep _ hs => exact .inl (congrArg CallStack.frames hs)

/-- A call takes a slot and a return gives one up. -/
theorem used :
    m'.registers.stack.used + t?.toList.countP Traced.isReturn =
      m.registers.stack.used + t?.toList.countP Traced.isCall := by
  cases h with
  | call hc hr hp =>
      obtain ⟨-, e⟩ := CallStack.push_eq_ok_iff.mp hp
      simp [e, hc, hr]
  | ret hc hr hp =>
      obtain ⟨hne, -, e⟩ := CallStack.pop_eq_ok_iff.mp hp
      simp only [e, hc, hr, Option.toList_some, List.countP_singleton, if_true]
      simp
      omega
  | keep hn hs =>
      cases t? with
      | none => simp [hs]
      | some t => simp [hs, hn t rfl]

end Turns

end Machine

end SuperChip
