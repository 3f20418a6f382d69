import SuperChip.Proofs.Run.Moves
import SuperChip.Proofs.Session

/-!
# What lasts in a session

A property of machines *lasts* when nothing that can happen to a machine in a session
ends it: no instruction, no program that is put into memory, no start of a run, and
nothing that is done to the surface, the keypad or the timers.

What lasts and holds of a new machine holds in every session (`Lasting.reachable`), also
in the middle of a run and while the processor waits.
-/

namespace SuperChip.Machine

/-- A property of machines that nothing ends. -/
structure Lasting (P : Machine → Prop) : Prop where
  execute {m : Machine} (h : P m) (random : UInt8) (i : Instruction) :
    P (m.execute random i).machine
  setPc {m : Machine} (h : P m) (address : UInt16) : P (m.setPc address)
  write {m : Machine} (h : P m) {address : UInt16} {data : List UInt8} {ram : Ram}
    (hw : m.ram.write address data = .ok ram) : P { m with ram }
  change {m : Machine} (h : P m) (c : Surface.Change) : P (m.change c)
  act {m : Machine} (h : P m) (a : Keypad.Action) : P (m.act a)
  setClocks {m : Machine} (h : P m) (clocks : Clocks) : P { m with clocks }

namespace Lasting

variable {P : Machine → Prop} (hP : Lasting P)
include hP

/-! ## Steps -/

/-- What lasts holds after an issued instruction. -/
theorem perform {m : Machine} (h : P m) (random : UInt8) (t : Traced) :
    P (m.perform random t).machine :=
  hP.execute h random t.instruction

/-- What lasts holds after a step, whatever it comes to. -/
theorem step {m : Machine} (h : P m) (random : UInt8) : P (m.step random).machine := by
  have ha : P m.advance := hP.setPc h _
  rcases stage_cases m with hf | ⟨w, hw, hi⟩ | ⟨w, i, hw, hi⟩
  · rw [step_of_not_fetches hf]
    exact h
  · rw [step_of_unsupported hw hi]
    exact ha
  · rw [step_of_standsFor hw hi]
    exact hP.perform ha random _

/-! ## Runs -/

/-- What lasts holds after any acts on the keypad. -/
theorem actAll (actions : List Keypad.Action) :
    ∀ {m : Machine}, P m → P (actions.foldl Machine.act m) := by
  induction actions with
  | nil => exact id
  | cons a actions ih => exact fun h => ih (hP.act h a)

/-- What lasts holds after what others do. -/
theorem stir {m : Machine} (h : P m) (speaker : Speaker) (x : Stir) : P (m.stir speaker x) := by
  cases x with
  | act a => exact hP.act h a
  | tickDelay => exact hP.setClocks h _
  | tickSound =>
      unfold Machine.stir
      dsimp only
      split
      · exact hP.actAll _ (hP.setClocks h _)
      · exact hP.setClocks h _

/-- What lasts holds when a run begins. -/
theorem start {m : Machine} (h : P m) (entry : UInt16) (speaker : Speaker)
    (observer : Observer) : P (Run.start m entry speaker observer).machine := by
  unfold Run.start
  dsimp only
  split
  · exact h
  · exact hP.actAll _ (hP.setPc (hP.setClocks h _) entry)

/-- What lasts holds wherever the processor goes. -/
theorem proceed {r : Run} (h : P r.machine) (random : UInt8) : P (r.proceed random).machine := by
  unfold Run.proceed
  split
  · exact h
  · rw [Run.machine_take]
    exact hP.step h random
  · rw [Run.machine_take]
    exact hP.perform h random _
  · exact hP.setClocks h _
  · exact h

theorem move {r : Run} (h : P r.machine) (mv : Run.Move) : P (r.move mv).machine := by
  rcases mv.cases with ⟨random, rfl⟩ | ⟨x, rfl⟩
  · exact hP.proceed h random
  · rw [Run.machine_stir]
    exact hP.stir h r.speaker x

/-- What lasts holds after any moves of a run. -/
theorem moves (ms : List Run.Move) :
    ∀ {r : Run}, P r.machine → P (r.moves ms).machine := by
  induction ms with
  | nil => exact id
  | cons mv ms ih => exact fun h => ih (hP.move h mv)

/-! ## Sessions -/

/-- What lasts holds after any event of a session. -/
theorem next {s : Session} (h : P s.machine) (e : Event) : P (s.next e).machine := by
  cases e with
  | load address program =>
      rcases s.next_load address program with ⟨ram, hr, he⟩ | he
      · rw [he]
        exact hP.write h hr
      · rw [he]
        exact h
  | step random =>
      obtain ⟨m, parked⟩ := s
      cases parked with
      | none => exact hP.step h random
      | some t => exact hP.perform h random t
  | run entry speaker observer moves => exact hP.moves moves (hP.start h entry speaker observer)
  | change c => exact hP.change h c
  | act a => exact hP.act h a
  | time clocks => exact hP.setClocks h clocks

/-- What lasts and holds of every new machine holds in every session. -/
theorem session {settings : Settings} (hb : ∀ m, build settings = .ok m → P m) {s : Session}
    (h : s.Reachable settings) : P s.machine := by
  induction h with
  | start hm => exact hb _ hm
  | next _ e ih => exact hP.next ih e

/-- What lasts and holds of a new machine holds of every machine in a session. -/
theorem reachable {settings : Settings} (hb : ∀ m, build settings = .ok m → P m) {m : Machine}
    (h : Machine.Reachable settings m) : P m := by
  obtain ⟨parked, hs⟩ := h
  exact hP.session hb hs

end Lasting

end SuperChip.Machine
