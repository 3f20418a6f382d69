import SuperChip.Proofs.Session
import SuperChip.Proofs.Waiting

/-!
# Entries and the program counter

All that an instruction puts into the program counter is in memory, but an *entry* is put
there as it is: that of the settings into a new machine, and that of a run where the run
begins.  Neither is compared with the size of memory.

So the program counter is in memory, or it is an entry (`pc_in_memory_or_entry`).  With
entries in memory it never leaves memory.  With one outside, the machine begins outside, and
since nothing can be fetched there it stays there (`entry_outside_memory`).
-/

namespace SuperChip

/-- The address that an event puts into the program counter as it is, if it does. -/
def Event.entry? : Event → Option UInt16
  | .run entry _ _ _ => some entry
  | _ => none

variable {settings : Settings}

/-! ## A machine between entries -/

/-- A step leads into memory or leaves the program counter where it is. -/
theorem Session.Sound.pc_proceed {s : Session} (h : s.Sound settings) (random : UInt8) :
    (s.proceed random).machine.pc.toNat < settings.memorySize ∨
      (s.proceed random).machine.pc = s.machine.pc := by
  by_cases hf : s.parked.isSome ∨ ∃ w, s.machine.Fetches w
  · exact .inl (h.pc_step_lt random hf)
  · obtain ⟨hp, hw⟩ := not_or.mp hf
    obtain ⟨m, parked⟩ := s
    cases parked with
    | some t => exact absurd rfl hp
    | none =>
        right
        have hlt := Nat.lt_of_not_le fun hle => hw (Machine.exists_fetches_iff.mpr hle)
        show (m.step random).machine.pc = m.pc
        rw [Machine.step_of_not_fetches hlt]

namespace Run

variable {r : Run}

theorem Sound.pc_move (h : r.Sound settings) (mv : Move) :
    (r.move mv).machine.pc.toNat < settings.memorySize ∨
      (r.move mv).machine.pc = r.machine.pc := by
  rcases r.move_cases mv with ⟨random, he⟩ | hq
  · rw [he, machine_take]
    exact (Session.sound_ofRun h).pc_proceed random
  · exact .inr (hq.same .pc (by decide) (by decide))

theorem Sound.pc_moves (ms : List Move) : ∀ {r : Run}, r.Sound settings →
    (r.moves ms).machine.pc.toNat < settings.memorySize ∨
      (r.moves ms).machine.pc = r.machine.pc := by
  induction ms with
  | nil => exact fun _ => .inr rfl
  | cons mv ms ih =>
      intro r h
      have hms : r.moves (mv :: ms) = (r.move mv).moves ms := rfl
      rw [hms]
      rcases ih (h.move mv) with hlt | he
      · exact .inl hlt
      · rw [he]
        exact h.pc_move mv

/-- A run of a sound machine begins at its entry. -/
theorem pc_start {m : Machine} (h : m.Sound settings) (entry : UInt16) (speaker : Speaker)
    (observer : Observer) : (start m entry speaker observer).machine.pc = entry := by
  obtain ⟨-, -, -, hd, hs⟩ := Settings.fault?_eq_none_iff.mp (Settings.check_eq_ok_iff.mp h.checked)
  rw [← h.settings_eq] at hd hs
  obtain ⟨-, hm⟩ := start_of_ticks hd hs entry speaker observer
  rw [hm]
  exact congrArg Registers.pc (Machine.registers_actAll _)

end Run

/-! ## Sessions -/

namespace Session

/-- An event leads into memory, leaves the program counter where it is, or puts its entry
there. -/
theorem Sound.pc_next {s : Session} (h : s.Sound settings) (e : Event) :
    (s.next e).machine.pc.toNat < settings.memorySize ∨
      (s.next e).machine.pc = s.machine.pc ∨ e.entry? = some (s.next e).machine.pc := by
  cases e with
  | load address program =>
      exact .inr (.inl (congrArg Registers.pc (s.registers_next_load address program)))
  | step random =>
      rcases h.pc_proceed random with hlt | he
      · exact .inl hlt
      · exact .inr (.inl he)
  | run entry speaker observer moves =>
      have hr := Run.sound_start h.machine entry speaker observer
      rcases hr.pc_moves moves with hlt | he
      · exact .inl hlt
      · rw [Run.pc_start h.machine] at he
        exact .inr (.inr (congrArg some he.symm))
  | change c => exact .inr (.inl rfl)
  | act a => exact .inr (.inl rfl)
  | time clocks => exact .inr (.inl rfl)

/-- The program counter is in memory, or it is the one from before or an entry since. -/
theorem Sound.pc_after (events : List Event) : ∀ {s : Session}, s.Sound settings →
    (s.after events).machine.pc.toNat < settings.memorySize ∨
      (s.after events).machine.pc ∈ s.machine.pc :: events.filterMap Event.entry? := by
  induction events with
  | nil => exact fun _ => .inr List.mem_cons_self
  | cons e events ih =>
      intro s h
      have hafter : s.after (e :: events) = (s.next e).after events := rfl
      rw [hafter]
      rcases ih (h.next e) with hlt | hm
      · exact .inl hlt
      · rcases List.mem_cons.mp hm with he | hm
        · rw [he]
          rcases h.pc_next e with hlt | hs | hentry
          · exact .inl hlt
          · rw [hs]
            exact .inr List.mem_cons_self
          · rw [List.filterMap_cons, hentry]
            exact .inr (List.mem_cons_of_mem _ List.mem_cons_self)
        · refine .inr (List.mem_cons_of_mem _ ?_)
          rw [List.filterMap_cons]
          split
          · exact hm
          · exact List.mem_cons_of_mem _ hm

/-- A new machine has its program counter in memory just when the entry of its settings is
there, and so has the beginning of a run with its own entry.  In every session the program
counter is in memory or it is one of the entries so far, so it is in memory if all of them
are. -/
theorem pc_in_memory_or_entry {settings : Settings} (hc : settings.check = .ok ()) :
    ∃ m, Machine.build settings = .ok m ∧ m.ram.size = settings.memorySize ∧
      (m.pc.toNat < m.ram.size ↔ settings.entry.toNat < settings.memorySize) ∧
      ∀ events : List Event,
        let s := (start m).after events
        let entries := settings.entry :: events.filterMap Event.entry?
        s.machine.ram.size = settings.memorySize ∧
          (s.machine.pc.toNat < s.machine.ram.size ∨ s.machine.pc ∈ entries) ∧
          ((∀ entry ∈ entries, entry.toNat < settings.memorySize) →
            s.machine.pc.toNat < s.machine.ram.size) ∧
          ∀ entry speaker observer,
            let r := Run.start s.machine entry speaker observer
            r.machine.ram.size = settings.memorySize ∧
              (r.machine.pc.toNat < r.machine.ram.size ↔ entry.toNat < settings.memorySize) := by
  obtain ⟨m, hb⟩ := Machine.exists_build hc
  have hm := Machine.sound_build hb
  have hpc : m.pc = settings.entry := by
    obtain ⟨-, ram, -, rfl⟩ := Machine.build_eq_ok_iff.mp hb
    rfl
  refine ⟨m, hb, hm.size, by rw [hpc, hm.size], fun events => ?_⟩
  intro s entries
  have h : s.Sound settings := sound_of_reachable (Reachable.after events (.start hb))
  have hor : s.machine.pc.toNat < s.machine.ram.size ∨ s.machine.pc ∈ entries := by
    rw [h.machine.size]
    have hafter := (sound_start hm).pc_after events
    rw [show (start m).machine.pc = settings.entry from hpc] at hafter
    exact hafter
  refine ⟨h.machine.size, hor, fun hin => ?_, fun entry speaker observer => ?_⟩
  · rcases hor with hlt | he
    · exact hlt
    · rw [h.machine.size]
      exact hin _ he
  · have hr := (Run.sound_start h.machine entry speaker observer).machine
    exact ⟨hr.size, by rw [Run.pc_start h.machine, hr.size]⟩

/-- In the least memory the last word is a jump to itself, and a run at it stays there. -/
theorem pc_in_memory_or_entry_of_least :
    ∃ m, Machine.build { memorySize := 0xF2, entry := 0xF0 } = .ok m ∧
      let events := [.load 0xF0 [0x10, 0xF0], .run 0xF1 .mute .nobody [.proceed 0, .proceed 0],
        .run 0xF0 .mute .nobody [.proceed 0, .proceed 0, .tickDelay, .proceed 0, .act .shutdown]]
      ((start m).after events).machine.pc.toNat < ((start m).after events).machine.ram.size := by
  have hc : Settings.check { memorySize := 0xF2, entry := 0xF0 } = .ok () := rfl
  obtain ⟨m, hb, -, -, h⟩ := pc_in_memory_or_entry hc
  refine ⟨m, hb, ?_⟩
  intro events
  have hentries : events.filterMap Event.entry? = [0xF1, 0xF0] := rfl
  refine (h events).2.2.1 fun entry he => ?_
  rw [hentries, List.mem_cons, List.mem_cons, List.mem_singleton] at he
  rcases he with rfl | rfl | rfl <;> decide

/-- A machine with the stock entry and less memory than that is accepted.  It begins outside
its memory, a run at the same entry does too, and no step leads back. -/
theorem entry_outside_memory :
    ∃ m, Machine.build { memorySize := 0x100 } = .ok m ∧ m.ram.size = 0x100 ∧
      m.pc = 0x200 ∧ ¬m.pc.toNat < m.ram.size ∧
      (∀ random, (m.step random).machine = m ∧
        (m.step random).ending = .failed (.outOfBounds 0x200)) ∧
      ¬(Run.start m 0x200 .mute .nobody).machine.pc.toNat < m.ram.size := by
  have hc : Settings.check { memorySize := 0x100 } = .ok () := rfl
  obtain ⟨m, hb⟩ := Machine.exists_build hc
  have hm := Machine.sound_build hb
  have hpc : m.pc = 0x200 := by
    obtain ⟨-, ram, -, rfl⟩ := Machine.build_eq_ok_iff.mp hb
    rfl
  have hout : ¬(0x200 : UInt16).toNat < m.ram.size := by
    rw [hm.size]
    decide
  have hfetch : m.ram.size < m.pc.toNat + 2 := by
    rw [hm.size, hpc]
    decide
  refine ⟨m, hb, hm.size, hpc, by rwa [hpc], fun random => ?_, ?_⟩
  · rw [Machine.step_of_not_fetches hfetch, hpc]
    exact ⟨rfl, rfl⟩
  · rw [Run.pc_start hm]
    exact hout

end Session

end SuperChip
