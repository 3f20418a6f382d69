import Mathlib.Data.List.Induction
import SuperChip.Proofs.Waiting

/-!
# Runs as rounds

A machine *takes* a step while others do what they do: the step is issued, and as long as
it waits it is taken up again.  In a *round* the processor looks whether the machine is
shut down, finds that it is not, and the machine takes a step that is done.  A run *ends*
behind some rounds, with a look that finds the machine shut down or with a step that fails.

A run *stands* somewhere after any moves, and the rounds it went through say where.
`stands_iff` says that it is there, and with this machine and this trace, and nowhere else.
-/

namespace SuperChip

/-! ## Steps, rounds and ends -/

/-- What a machine that takes a step comes to in some moves.  While the step waits, others do
something or it is taken up again. -/
inductive Machine.Taken (speaker : Speaker) (m : Machine) : List Run.Move → Step → Prop where
  | issue (random : UInt8) : Taken speaker m [.proceed random] (m.step random)
  | stir {ms : List Run.Move} {s : Step} (x : Stir) : Taken speaker m ms s → s.ending = .waiting →
      Taken speaker m (ms ++ [x.toMove]) { s with machine := s.machine.stir speaker x }
  | again {ms : List Run.Move} {s : Step} {t : Traced} (random : UInt8) : Taken speaker m ms s →
      s.ending = .waiting → s.issued = some t →
      Taken speaker m (ms ++ [.proceed random]) (s.machine.perform random t)

namespace Run

/-- The moves of a look for shutdown and of what others do behind it. -/
def lookThen (random : UInt8) (xs : List Stir) : List Move := .proceed random :: xs.map Stir.toMove

/-- The instructions executed and the machine behind some rounds, with the moves they are
made of.  What others do before the next look belongs to the round before. -/
inductive Rounds (speaker : Speaker) (m₀ : Machine) :
    List Move → List Traced → Machine → Prop where
  | start : Rounds speaker m₀ [] [] m₀
  | stir {ms : List Move} {ts : List Traced} {m : Machine} (x : Stir) : Rounds speaker m₀ ms ts m →
      Rounds speaker m₀ (ms ++ [x.toMove]) ts (m.stir speaker x)
  | round {ms ms' : List Move} {ts : List Traced} {m : Machine} {s : Machine.Step} {t : Traced}
      (random : UInt8) (xs : List Stir) : Rounds speaker m₀ ms ts m →
      m.keypad.isShutdown = false → (m.stirAll speaker xs).Taken speaker ms' s →
      s.traced = some t → Rounds speaker m₀ (ms ++ lookThen random xs ++ ms') (ts ++ [t]) s.machine

/-- The instructions executed, the machine and the result where a run has come to its end: at
a look that finds the machine shut down, or with a step that fails. -/
inductive Ends (speaker : Speaker) (m₀ : Machine) :
    List Move → List Traced → Machine → Option Fault → Prop where
  | shutdown {ms : List Move} {ts : List Traced} {m : Machine} (random : UInt8) :
      Rounds speaker m₀ ms ts m → m.keypad.isShutdown = true →
      Ends speaker m₀ (ms ++ [.proceed random]) ts m none
  | failure {ms ms' : List Move} {ts : List Traced} {m : Machine} {s : Machine.Step}
      {fault : Fault} (random : UInt8) (xs : List Stir) : Rounds speaker m₀ ms ts m →
      m.keypad.isShutdown = false → (m.stirAll speaker xs).Taken speaker ms' s →
      s.ending = .failed fault →
      Ends speaker m₀ (ms ++ lookThen random xs ++ ms') ts s.machine (some fault)

/-- The instructions executed, the machine and where the processor is after some moves: between
two rounds, in a round before the step or in a step that waits, at the end, or behind it with
the timers stopped. -/
inductive Stands (speaker : Speaker) (m₀ : Machine) :
    List Move → List Traced → Machine → Phase → Prop where
  | looking {ms : List Move} {ts : List Traced} {m : Machine} : Rounds speaker m₀ ms ts m →
      Stands speaker m₀ ms ts m .looking
  | issuing {ms : List Move} {ts : List Traced} {m : Machine} (random : UInt8) (xs : List Stir) :
      Rounds speaker m₀ ms ts m → m.keypad.isShutdown = false →
      Stands speaker m₀ (ms ++ lookThen random xs) ts (m.stirAll speaker xs) .issuing
  | waiting {ms ms' : List Move} {ts : List Traced} {m : Machine} {s : Machine.Step} {t : Traced}
      (random : UInt8) (xs : List Stir) : Rounds speaker m₀ ms ts m →
      m.keypad.isShutdown = false → (m.stirAll speaker xs).Taken speaker ms' s →
      s.ending = .waiting → s.issued = some t →
      Stands speaker m₀ (ms ++ lookThen random xs ++ ms') ts s.machine (.waiting t)
  | leaving {ms : List Move} {ts : List Traced} {m : Machine} {fault? : Option Fault}
      (xs : List Stir) : Ends speaker m₀ ms ts m fault? →
      Stands speaker m₀ (ms ++ xs.map Stir.toMove) ts (m.stirAll speaker xs) (.leaving fault?)
  | stopped {ms : List Move} {ts : List Traced} {m : Machine} {fault? : Option Fault}
      (random : UInt8) : Stands speaker m₀ ms ts m (.leaving fault?) →
      Stands speaker m₀ (ms ++ [.proceed random]) ts { m with clocks := m.clocks.stop.1 }
        (.over fault?)
  | rest {ms : List Move} {ts : List Traced} {m : Machine} {fault? : Option Fault}
      (random : UInt8) : Stands speaker m₀ ms ts m (.over fault?) →
      Stands speaker m₀ (ms ++ [.proceed random]) ts m (.over fault?)
  | stir {ms : List Move} {ts : List Traced} {m : Machine} {fault? : Option Fault}
      (x : Stir) : Stands speaker m₀ ms ts m (.over fault?) →
      Stands speaker m₀ (ms ++ [x.toMove]) ts (m.stir speaker x) (.over fault?)

/-- A run has executed these instructions, and its machine and its processor are here. -/
structure Shows (r : Run) (ts : List Traced) (m : Machine) (p : Phase) : Prop where
  trace : r.trace = ts
  machine : r.machine = m
  phase : r.phase = p

end Run

/-! ## A run stands where it shows -/

namespace Run

variable {r : Run} {ms ms' : List Move} {ts : List Traced} {m m₀ : Machine} {p : Phase}

/-- What others do is seen in the machine alone. -/
theorem Shows.stirs (h : r.Shows ts m p) (xs : List Stir) :
    (r.moves (xs.map Stir.toMove)).Shows ts (m.stirAll r.speaker xs) p := by
  obtain ⟨hm, hp, ht⟩ := moves_stirs xs (r := r)
  exact ⟨ht.trans h.trace, by rw [hm, h.machine], hp.trans h.phase⟩

theorem Shows.moves_stir (h : (r.moves ms).Shows ts m p) (x : Stir) :
    (r.moves (ms ++ [x.toMove])).Shows ts (m.stir r.speaker x) p := by
  have hs := h.stirs [x]
  rw [speaker_moves, ← moves_append] at hs
  exact hs

/-- What a run shows that takes over a step. -/
theorem Shows.take (h : r.Shows ts m p) (s : Machine.Step) :
    (r.take s).Shows (ts ++ s.traced.toList) s.machine s.phase where
  trace := by rw [trace_take, h.trace]
  machine := machine_take r s
  phase := phase_take s

/-- A run issues an instruction and takes over the step. -/
theorem Shows.issue (h : r.Shows ts m .issuing) (random : UInt8) :
    (r.proceed random).Shows (ts ++ (m.step random).traced.toList) (m.step random).machine
      (m.step random).phase := by
  rw [proceed_of_issuing h.phase, h.machine]
  exact h.take _

/-- A run takes up a wait again and takes over the step. -/
theorem Shows.again {t : Traced} (h : r.Shows ts m (.waiting t)) (random : UInt8) :
    (r.proceed random).Shows (ts ++ (m.perform random t).traced.toList)
      (m.perform random t).machine (m.perform random t).phase := by
  rw [proceed_of_waiting h.phase, h.machine]
  exact h.take _

/-- A look for shutdown decides where the processor goes. -/
theorem Shows.look (h : r.Shows ts m .looking) (random : UInt8) :
    (r.proceed random).Shows ts m (if m.keypad.isShutdown then .leaving none else .issuing) := by
  rw [proceed, h.phase]
  dsimp only
  rw [h.machine]
  exact ⟨h.trace, rfl, rfl⟩

/-- At the end the timers are stopped. -/
theorem Shows.leave {fault? : Option Fault} (h : r.Shows ts m (.leaving fault?))
    (random : UInt8) :
    (r.proceed random).Shows ts { m with clocks := m.clocks.stop.1 } (.over fault?) := by
  rw [proceed, h.phase]
  dsimp only
  refine ⟨(trace_leave fault?).trans h.trace, ?_, phase_leave fault?⟩
  rw [machine_leave, h.machine]

/-- Behind the end nothing moves. -/
theorem Shows.rest {fault? : Option Fault} (h : r.Shows ts m (.over fault?))
    (random : UInt8) : (r.proceed random).Shows ts m (.over fault?) := by
  rw [proceed, h.phase]
  exact h

/-- A step that waits tells nobody anything. -/
theorem Shows.of_waiting {s : Machine.Step} {t : Traced}
    (h : r.Shows (ts ++ s.traced.toList) s.machine s.phase) (hw : s.ending = .waiting)
    (hi : s.issued = some t) : r.Shows ts s.machine (.waiting t) := by
  rw [Machine.Step.traced, Machine.Step.phase, hw, hi] at h
  rw [← List.append_nil ts]
  exact h

/-- A run shows what a machine comes to as it takes a step. -/
theorem Shows.taken (h : r.Shows ts m .issuing) {s : Machine.Step}
    (ht : m.Taken r.speaker ms s) :
    (r.moves ms).Shows (ts ++ s.traced.toList) s.machine s.phase := by
  induction ht with
  | issue random => exact h.issue random
  | stir x _ hw ih => exact ih.moves_stir x
  | again random _ hw hi ih =>
      rw [moves_append_singleton]
      exact (ih.of_waiting hw hi).again random

/-- What a run shows behind a look that found the machine running. -/
theorem Shows.lookThen (h : r.Shows ts m .looking) (hk : m.keypad.isShutdown = false)
    (random : UInt8) (xs : List Stir) :
    (r.moves (lookThen random xs)).Shows ts (m.stirAll r.speaker xs) .issuing := by
  have hl := h.look random
  rw [hk] at hl
  have hs := hl.stirs xs
  rw [← speaker_move (r := r) (.proceed random)]
  exact hs

/-- What a run shows in the round behind some rounds. -/
theorem Shows.round {s : Machine.Step} (h : (r.moves ms).Shows ts m .looking)
    (hk : m.keypad.isShutdown = false) (random : UInt8) (xs : List Stir)
    (ht : (m.stirAll r.speaker xs).Taken r.speaker ms' s) :
    (r.moves (ms ++ Run.lookThen random xs ++ ms')).Shows (ts ++ s.traced.toList) s.machine
      s.phase := by
  have hl := h.lookThen hk random xs
  rw [speaker_moves, ← moves_append] at hl
  rw [moves_append]
  exact hl.taken (by rwa [speaker_moves])

/-- A run shows the rounds that it went through. -/
theorem Rounds.shows (h : r.Shows [] m₀ .looking) (hr : Rounds r.speaker m₀ ms ts m) :
    (r.moves ms).Shows ts m .looking := by
  induction hr with
  | start => exact h
  | stir x _ ih => exact ih.moves_stir x
  | @round ms ms' ts m s t random xs _ hk ht htr ih =>
      have hs := ih.round hk random xs ht
      rw [htr, Machine.Step.phase, (Machine.Step.traced_eq_some_iff.mp htr).1] at hs
      exact hs

/-- A run shows the end that it has come to. -/
theorem Ends.shows {fault? : Option Fault} (h : r.Shows [] m₀ .looking)
    (he : Ends r.speaker m₀ ms ts m fault?) : (r.moves ms).Shows ts m (.leaving fault?) := by
  cases he with
  | shutdown random hr hk =>
      have hl := (hr.shows h).look random
      rw [hk] at hl
      rw [moves_append_singleton]
      exact hl
  | failure random xs hr hk ht hf =>
      have hs := (hr.shows h).round hk random xs ht
      rw [Machine.Step.traced, Machine.Step.phase, hf, Option.toList_none, List.append_nil] at hs
      exact hs

/-- A run is where it stands. -/
theorem Stands.shows (h : r.Shows [] m₀ .looking) (hs : Stands r.speaker m₀ ms ts m p) :
    (r.moves ms).Shows ts m p := by
  induction hs with
  | looking hr => exact hr.shows h
  | issuing random xs hr hk =>
      have hl := (hr.shows h).lookThen hk random xs
      rw [speaker_moves, ← moves_append] at hl
      exact hl
  | waiting random xs hr hk ht hw hi => exact ((hr.shows h).round hk random xs ht).of_waiting hw hi
  | leaving xs he =>
      have hs := (he.shows h).stirs xs
      rw [speaker_moves, ← moves_append] at hs
      exact hs
  | stopped random _ ih =>
      rw [moves_append_singleton]
      exact ih.leave random
  | rest random _ ih =>
      rw [moves_append_singleton]
      exact ih.rest random
  | stir x _ ih => exact ih.moves_stir x

end Run

/-! ## A run stands somewhere after any moves -/

/-- A step that is taken and does not fail has come to an instruction. -/
theorem Machine.Taken.issued {speaker : Speaker} {m : Machine} {ms : List Run.Move} {s : Step}
    (h : m.Taken speaker ms s) : (∃ t, s.issued = some t) ∨ ∃ fault, s.ending = .failed fault := by
  induction h with
  | issue random => exact m.step_issued random
  | stir x _ hw ih => exact ih
  | again random _ hw hi ih => exact .inl ⟨_, rfl⟩

namespace Run

variable {speaker : Speaker} {ms ms' : List Move} {ts : List Traced} {m m₀ : Machine} {p : Phase}

theorem lookThen_append_singleton (random : UInt8) (xs : List Stir) (x : Stir) :
    lookThen random (xs ++ [x]) = lookThen random xs ++ [x.toMove] := by
  rw [lookThen, List.map_append]
  rfl

/-- In a round a step is done, waits, or fails. -/
theorem Rounds.stands_taken {s : Machine.Step} (h : Rounds speaker m₀ ms ts m)
    (hk : m.keypad.isShutdown = false) (random : UInt8) (xs : List Stir)
    (ht : (m.stirAll speaker xs).Taken speaker ms' s) :
    ∃ ts' m' p', Stands speaker m₀ (ms ++ lookThen random xs ++ ms') ts' m' p' := by
  cases he : s.ending with
  | failed fault =>
      have hs := Stands.leaving [] (.failure random xs h hk ht he)
      rw [List.map_nil, List.append_nil] at hs
      exact ⟨_, _, _, hs⟩
  | done =>
      rcases ht.issued with ⟨t, hi⟩ | ⟨fault, hf⟩
      · have htr := Machine.Step.traced_eq_some_iff.mpr ⟨he, hi⟩
        exact ⟨_, _, _, .looking (.round random xs h hk ht htr)⟩
      · rw [he] at hf
        cases hf
  | waiting =>
      rcases ht.issued with ⟨t, hi⟩ | ⟨fault, hf⟩
      · exact ⟨_, _, _, .waiting random xs h hk ht he hi⟩
      · rw [he] at hf
        cases hf

/-- Wherever a run stands, it stands somewhere after one more move. -/
theorem Stands.move (h : Stands speaker m₀ ms ts m p) (mv : Move) :
    ∃ ts' m' p', Stands speaker m₀ (ms ++ [mv]) ts' m' p' := by
  rcases mv.cases with ⟨random', rfl⟩ | ⟨x, rfl⟩
  · cases h with
    | looking hr =>
        cases hk : m.keypad.isShutdown with
        | true =>
            have hs := Stands.leaving [] (.shutdown random' hr hk)
            rw [List.map_nil, List.append_nil] at hs
            exact ⟨_, _, _, hs⟩
        | false => exact ⟨_, _, _, .issuing random' [] hr hk⟩
    | issuing random xs hr hk => exact hr.stands_taken hk random xs (.issue random')
    | waiting random xs hr hk ht hw hi =>
        rw [List.append_assoc _ _ [_]]
        exact hr.stands_taken hk random xs (ht.again random' hw hi)
    | leaving xs he => exact ⟨_, _, _, .stopped random' (.leaving xs he)⟩
    | stopped random hs => exact ⟨_, _, _, .rest random' (.stopped random hs)⟩
    | rest random hs => exact ⟨_, _, _, .rest random' (.rest random hs)⟩
    | stir y hs => exact ⟨_, _, _, .rest random' (.stir y hs)⟩
  · cases h with
    | looking hr => exact ⟨_, _, _, .looking (hr.stir x)⟩
    | issuing random xs hr hk =>
        rw [List.append_assoc, ← lookThen_append_singleton]
        exact ⟨_, _, _, .issuing random (xs ++ [x]) hr hk⟩
    | waiting random xs hr hk ht hw hi =>
        rw [List.append_assoc _ _ [_]]
        exact ⟨_, _, _, .waiting random xs hr hk (ht.stir x hw) hw hi⟩
    | @leaving ms ts m fault? xs he =>
        have hs := Stands.leaving (xs ++ [x]) he
        rw [List.map_append, ← List.append_assoc] at hs
        exact ⟨_, _, _, hs⟩
    | stopped random hs => exact ⟨_, _, _, .stir x (.stopped random hs)⟩
    | rest random hs => exact ⟨_, _, _, .stir x (.rest random hs)⟩
    | stir y hs => exact ⟨_, _, _, .stir x (.stir y hs)⟩

/-- After any moves a run stands somewhere. -/
theorem exists_stands (speaker : Speaker) (m₀ : Machine) (ms : List Move) :
    ∃ ts m p, Stands speaker m₀ ms ts m p := by
  induction ms using List.reverseRecOn with
  | nil => exact ⟨_, _, _, .looking .start⟩
  | append_singleton ms mv ih =>
      obtain ⟨ts, m, p, hs⟩ := ih
      exact hs.move mv

/-- A run that begins with a look stands where it shows, and nowhere else. -/
theorem stands_iff {r : Run} (h : r.Shows [] m₀ .looking) :
    Stands r.speaker m₀ ms ts m p ↔ (r.moves ms).Shows ts m p := by
  constructor
  · exact fun hs => hs.shows h
  · intro hs
    obtain ⟨ts', m', p', hs'⟩ := exists_stands r.speaker m₀ ms
    obtain ⟨rfl, rfl, rfl⟩ := hs
    obtain ⟨ht, hm, hp⟩ := hs'.shows h
    rw [ht, hm, hp]
    exact hs'

/-- What a run has come to where it leaves or is over: its end is somewhere before. -/
def Ended (speaker : Speaker) (m₀ : Machine) (ms : List Move) (ts : List Traced)
    (fault? : Option Fault) : Prop :=
  ∃ before after m, before ++ after = ms ∧ Ends speaker m₀ before ts m fault?

/-- A run that has ended has ended for good. -/
theorem Ended.append {fault? : Option Fault} (h : Ended speaker m₀ ms ts fault?)
    (ms' : List Move) : Ended speaker m₀ (ms ++ ms') ts fault? := by
  obtain ⟨before, after, m, rfl, he⟩ := h
  exact ⟨before, after ++ ms', m, (List.append_assoc _ _ _).symm, he⟩

theorem Stands.ended_of_leaving {fault? : Option Fault}
    (h : Stands speaker m₀ ms ts m (.leaving fault?)) : Ended speaker m₀ ms ts fault? := by
  cases h with
  | leaving xs he => exact ⟨_, _, _, rfl, he⟩

/-- A run stands behind its end only if it has come to one. -/
theorem Stands.ended {fault? : Option Fault} (h : Stands speaker m₀ ms ts m (.over fault?)) :
    Ended speaker m₀ ms ts fault? := by
  generalize hp : Phase.over fault? = p at h
  induction h with
  | looking | issuing | waiting | leaving => cases hp
  | stopped random hs _ =>
      cases hp
      exact hs.ended_of_leaving.append _
  | rest random _ ih => exact (ih hp).append _
  | stir x _ ih => exact (ih hp).append _

end Run

end SuperChip
