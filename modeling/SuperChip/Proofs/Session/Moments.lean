import SuperChip.Proofs.Machine.Writes
import SuperChip.Proofs.Session.Calls

/-!
# From one moment of a session to the next

Between two moments one thing happens.  If an instruction is executed to its end, then by
the machine that is ready for it (`Goes.executes`), and its word says what can change
(`Goes.confined`).  If none is, then nothing changes but V registers, the program counter
and what a host can change from outside, unless a program is loaded (`Goes.same_of_none`).

`Session.Along` is a stretch of a session on which something holds from each moment to the
next.
-/

namespace SuperChip

namespace Session

variable {settings : Settings} {s s' : Session} {t : Traced} {t? : Option Traced} {random : UInt8}
  {p : Part}

theorem same_proceed_of_untold (h : (s.proceed random).traced = none) (hv : p ≠ .v)
    (hp : p ≠ .pc) : p.Same s.machine (s.proceed random).machine := by
  obtain ⟨m, parked⟩ := s
  cases parked with
  | none => exact Machine.same_step_of_untold h hv hp
  | some t => exact Machine.same_perform_of_untold h hv

/-- The machine that is ready for an instruction has all parts but the program counter. -/
theorem same_ready (s : Session) (hp : p ≠ .pc) : p.Same s.machine s.ready := by
  rw [ready]
  split
  · exact Machine.same_advance hp
  · exact .refl _ p

/-- What the processor executes to its end is executed by the machine that is ready for it. -/
theorem proceed_of_told (h : (s.proceed random).traced = some t) :
    s.proceed random = s.ready.perform random t := by
  obtain ⟨hd, hi⟩ := Machine.Step.traced_eq_some_iff.mp h
  obtain ⟨m, parked⟩ := s
  cases parked with
  | none =>
      obtain ⟨w, i, -, -, he⟩ := Machine.step_of_done hd
      have he' : proceed ⟨m, none⟩ random = m.advance.perform random ⟨m.pc, w, i⟩ := he
      rw [he'] at hi ⊢
      cases hi
      rfl
  | some t' =>
      cases hi
      rfl

/-- What the processor comes to, if it is a word for an instruction, is executed by the
machine that is ready for it. -/
theorem Sound.proceed_of_comesTo (hs : s.Sound settings) {w : UInt16} {i : Instruction}
    (hc : s.ComesTo w) (hw : Word.StandsFor w i) (random : UInt8) :
    ∃ pc, s.proceed random = s.ready.perform random ⟨pc, w, i⟩ := by
  obtain ⟨m, parked⟩ := s
  cases parked with
  | none => exact ⟨m.pc, Machine.step_of_standsFor hc hw random⟩
  | some t =>
      obtain ⟨pc, w', i'⟩ := t
      cases (show w' = w from hc)
      cases hw.unique (hs.ready _ rfl).standsFor
      exact ⟨pc, rfl⟩

/-! ## What happens -/

theorem goes_step (s : Session) (random : UInt8) :
    Goes s (s.proceed random).traced (s.next (.step random)) :=
  .event (.step random) (fun _ _ _ _ he => by cases he)

/-- From one moment to the next the processor takes a step, or a program is loaded, or
all parts stay but the program counter and what a host changes from outside. -/
theorem Goes.cases (h : Goes s t? s') :
    (∃ random, s'.machine = (s.proceed random).machine ∧ (s.proceed random).traced = t?) ∨
      t? = none ∧ ((∃ address program, s' = s.next (.load address program)) ∨
        ∀ p : Part, p ∉ [.pc, .surface, .keypad, .clocks] → p.Same s.machine s'.machine) := by
  cases h with
  | event e h =>
      cases e with
      | load address program => exact .inr ⟨rfl, .inl ⟨address, program, rfl⟩⟩
      | step random => exact .inl ⟨random, rfl, rfl⟩
      | run entry speaker observer moves => exact absurd rfl (h entry speaker observer moves)
      | change c => exact .inr ⟨rfl, .inr fun p hp => Machine.same_change c (by grind)⟩
      | act a => exact .inr ⟨rfl, .inr fun p hp => Machine.same_act a (by grind)⟩
      | time clocks => exact .inr ⟨rfl, .inr fun p hp => Machine.same_setClocks clocks (by grind)⟩
  | enter entry speaker observer =>
      exact .inr ⟨rfl, .inr fun p hp => Run.same_start s.machine _ _ _ (by grind)⟩
  | @move r mv h =>
      subst h
      rcases r.move_cases mv with ⟨random, he⟩ | hq
      · refine .inl ⟨random, ?_, (Run.told_take he).symm⟩
        rw [he]
        exact Run.machine_take r _
      · exact .inr ⟨Run.told_quiet hq, .inr fun p hp => hq.same p (by grind) (by grind)⟩

/-- What is executed to its end from one moment to the next is executed by the machine that
is ready for it. -/
theorem Goes.executes (h : Goes s (some t) s') :
    ∃ random, s'.machine = (s.ready.execute random t.instruction).machine ∧
      (s.ready.execute random t.instruction).ending = .done := by
  rcases h.cases with ⟨random, hm, ht⟩ | ⟨hn, -⟩
  · refine ⟨random, ?_, ?_⟩
    · rw [hm, proceed_of_told ht]
      rfl
    · have hd := (Machine.Step.traced_eq_some_iff.mp ht).1
      rw [proceed_of_told ht] at hd
      exact hd
  · cases hn

/-- What is executed to its end leaves what is outside its footprint. -/
theorem Goes.same_of_some (h : Goes s (some t) s') (hp : p ≠ .pc)
    (hf : p ∉ t.instruction.footprint) : p.Same s.machine s'.machine := by
  obtain ⟨random, hm, -⟩ := h.executes
  rw [hm]
  exact (s.same_ready hp).trans (Machine.same_execute random hf)

/-- Where nothing is executed to its end, most of the machine stays unless a program is
loaded. -/
theorem Goes.same_of_none (h : Goes s none s') :
    (∃ address program, s' = s.next (.load address program)) ∨
      ∀ p : Part, p ∉ [.v, .pc, .surface, .keypad, .clocks] → p.Same s.machine s'.machine := by
  rcases h.cases with ⟨random, hm, ht⟩ | ⟨-, hl | hs⟩
  · refine .inr fun p hp => ?_
    rw [hm]
    exact same_proceed_of_untold ht (by grind) (by grind)
  · exact .inl hl
  · exact .inr fun p hp => hs p (by grind)

/-! ## Soundness -/

theorem Goes.sound (h : Goes s t? s') (hs : s.Sound settings) : s'.Sound settings := by
  cases h with
  | event e => exact hs.next e
  | enter entry speaker observer => exact sound_ofRun (Run.sound_start hs.machine _ _ _)
  | @move r mv h =>
      subst h
      refine sound_ofRun (Run.Sound.move ⟨hs.machine, fun t ht => hs.ready t ?_⟩ mv)
      rw [ofRun, ht]

/-- In a sound session a word stands for what is executed, and it says what has changed. -/
theorem Goes.confined (h : Goes s (some t) s') (hs : s.Sound settings) :
    Word.StandsFor t.word t.instruction ∧ Word.Confined t.word s.machine s'.machine := by
  rcases h.cases with ⟨random, hm, ht⟩ | ⟨hn, -⟩
  · obtain ⟨t', ht', -, hw, hc⟩ :=
      hs.confined_proceed (Machine.Step.traced_eq_some_iff.mp ht).1
    cases Option.some.inj (ht'.symm.trans ht)
    rw [hm]
    exact ⟨hw, hc⟩
  · cases hn

/-! ## Stretches -/

/-- A session goes on, and something holds from each moment to the next. -/
inductive Along (P : Session → Option Traced → Session → Prop) (s : Session) : Session → Prop where
  | here : Along P s s
  | goes {s' s'' : Session} {t? : Option Traced} : Along P s s' → Goes s' t? s'' → P s' t? s'' →
      Along P s s''

theorem Along.sound {P : Session → Option Traced → Session → Prop} (h : Along P s s')
    (hs : s.Sound settings) : s'.Sound settings := by
  induction h with
  | here => exact hs
  | goes _ hg _ ih => exact hg.sound ih

end Session

end SuperChip
