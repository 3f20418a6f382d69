import SuperChip.Proofs.Lasting
import SuperChip.Proofs.Machine.Calls
import SuperChip.Proofs.Waiting

/-!
# Calls and returns in a session

A session *goes* from one moment to the next when one thing happens: the host does
something, a run starts, or a run makes a move.  With it comes the instruction that was
executed to its end, if one was.  A session stays *above* a depth from one moment to
another if at least so many calls are open at every moment between.

While it stays above the depth of the open calls it began with, these stay open as they
are, at the start of all that are open (`Above.keeps`).  So a return that finds no others
closes the last one of them and goes on behind it.

From a new machine on, the number of open calls is the number of calls less the number of
returns (`Session.counts_after`).
-/

namespace SuperChip

namespace Session

/-- The call stack of the machine in a session. -/
def stack (s : Session) : CallStack := s.machine.registers.stack

/-- The machine that executes what the processor comes to next: with the program counter
behind the next word, or as it is if the processor waits. -/
def ready (s : Session) : Machine :=
  match s.parked with
  | none => s.machine.advance
  | some _ => s.machine

theorem stack_ready (s : Session) : s.ready.registers.stack = s.stack := by
  unfold ready
  split <;> rfl

theorem turns_proceed (s : Session) (random : UInt8) :
    Machine.Turns s.ready (s.proceed random).machine (s.proceed random).traced := by
  obtain ⟨m, parked⟩ := s
  cases parked with
  | none => exact Machine.turns_step m random
  | some t => exact Machine.turns_perform m random t

/-! ## Moments -/

/-- What the processor has executed to its end in an event, if the event is a step. -/
def stepped (s : Session) : Event → Option Traced
  | .step random => (s.proceed random).traced
  | _ => none

/-- A session goes on by one thing that happens, and an instruction is executed to its end
in it or none is. -/
inductive Goes (s : Session) : Option Traced → Session → Prop where
  /-- The host does something, but for a run. -/
  | event (e : Event) (h : ∀ entry speaker observer moves, e ≠ .run entry speaker observer moves) :
      Goes s (s.stepped e) (s.next e)
  /-- A run starts. -/
  | enter (entry : UInt16) (speaker : Speaker) (observer : Observer) :
      Goes s none (ofRun (Run.start s.machine entry speaker observer))
  /-- A run makes a move. -/
  | move {r : Run} (mv : Run.Move) (h : ofRun r = s) : Goes s (r.told mv) (ofRun (r.move mv))

/-- A session goes on with at least so many calls open at every moment, the first one and
the last one included. -/
inductive Above (depth : Nat) (s : Session) : Session → Prop where
  | here : depth ≤ s.stack.used → Above depth s s
  | goes {s' s'' : Session} {t? : Option Traced} : Above depth s s' → Goes s' t? s'' →
      depth ≤ s''.stack.used → Above depth s s''

end Session

/-! ## One moment to the next -/

namespace Run

variable {r : Run} {mv : Move}

theorem turns_move (r : Run) (mv : Move) :
    Machine.Turns (Session.ofRun r).ready (r.move mv).machine (r.told mv) := by
  rcases r.move_cases mv with ⟨random, he⟩ | hq
  · rw [told_take he, he, machine_take]
    exact Session.turns_proceed _ random
  · have hs : (r.move mv).machine.registers.stack = r.machine.registers.stack :=
      hq.same .stack (by decide) (by decide)
    rw [told_quiet hq]
    exact Machine.turns_none (hs.trans (Session.ofRun r).stack_ready.symm)

end Run

namespace Session

variable {s s' s'' : Session} {t? : Option Traced}

theorem stack_enter (m : Machine) (entry : UInt16) (speaker : Speaker) (observer : Observer) :
    (Run.start m entry speaker observer).machine.registers.stack = m.registers.stack :=
  Run.same_start m entry speaker observer (p := .stack) (by decide)

theorem turns_next (e : Event)
    (h : ∀ entry speaker observer moves, e ≠ .run entry speaker observer moves) :
    Machine.Turns s.ready (s.next e).machine (s.stepped e) := by
  cases e with
  | load address program =>
      refine Machine.turns_none ?_
      rw [stack_ready, registers_next_load]
      rfl
  | step random => exact turns_proceed s random
  | run entry speaker observer moves => exact absurd rfl (h entry speaker observer moves)
  | change | act | time => exact Machine.turns_none s.stack_ready.symm

/-- Whatever happens is a turn of the call stack. -/
theorem Goes.turns (h : Goes s t? s') : Machine.Turns s.ready s'.machine t? := by
  cases h with
  | event e h => exact turns_next e h
  | enter entry speaker observer =>
      refine Machine.turns_none ((stack_enter ..).trans ?_)
      exact s.stack_ready.symm
  | move mv h =>
      cases h
      exact Run.turns_move _ mv

theorem Goes.fits (h : Goes s t? s') (hf : s.stack.Fits) : s'.stack.Fits := by
  refine h.turns.fits ?_
  rw [stack_ready]
  exact hf

theorem Goes.frames (h : Goes s t? s') (hf : s.stack.Fits) :
    s'.stack.frames = s.stack.frames ∨ (∃ a, s'.stack.frames = s.stack.frames ++ [a]) ∨
      ∃ a, s.stack.frames = s'.stack.frames ++ [a] := by
  rw [← s.stack_ready] at hf ⊢
  exact h.turns.frames hf

/-! ## Open calls that stay open -/

/-- Calls that are open stay open as they are while a session stays above their number. -/
theorem Above.keeps {depth : Nat} {base : List UInt16} (h : Above depth s s')
    (hf : s.stack.Fits) (hb : base <+: s.stack.frames) (hd : base.length ≤ depth) :
    s'.stack.Fits ∧ base <+: s'.stack.frames := by
  induction h with
  | here => exact ⟨hf, hb⟩
  | goes _ hg hu ih =>
      obtain ⟨hf', hb'⟩ := ih
      have hf'' := hg.fits hf'
      refine ⟨hf'', ?_⟩
      rcases hg.frames hf' with he | ⟨a, he⟩ | ⟨a, he⟩
      · rw [he]
        exact hb'
      · rw [he]
        exact hb'.trans (List.prefix_append _ _)
      · -- the last call was closed, but enough are left to have all of them among them
        rw [he] at hb'
        refine List.prefix_of_prefix_length_le hb' (List.prefix_append _ _) ?_
        rw [CallStack.length_frames hf'']
        exact Nat.le_trans hd hu

/-- What the processor waits in is what it executes next. -/
theorem traced_proceed_of_parked {t t' : Traced} {random : UInt8} (hp : s.parked = some t)
    (ht : (s.proceed random).traced = some t') : t' = t := by
  unfold proceed at ht
  rw [hp] at ht
  unfold Machine.Step.traced at ht
  split at ht
  · exact (Option.some.inj ht).symm
  · cases ht

theorem Goes.eq_of_parked {t t' : Traced} (h : Goes s (some t') s') (hp : s.parked = some t) :
    t' = t := by
  generalize he : some t' = t? at h
  cases h with
  | event e h =>
      cases e with
      | step random => exact traced_proceed_of_parked hp he.symm
      | _ => cases he
  | enter => cases he
  | @move r mv h =>
      subst h
      rcases r.move_cases mv with ⟨random, hm⟩ | hq
      · rw [Run.told_take hm] at he
        exact traced_proceed_of_parked hp he.symm
      · rw [Run.told_quiet hq] at he
        cases he

/-- A call is not waited in, so it is executed with the program counter behind it. -/
theorem Goes.push {call : Traced} (h : Goes s (some call) s') (hw : Waits s.parked)
    (hc : call.isCall = true) : s.stack.push s.machine.advance.pc = .ok s'.stack := by
  have hready : s.ready = s.machine.advance := by
    unfold ready
    cases hp : s.parked with
    | none => rfl
    | some t =>
        obtain ⟨x, hx⟩ := hw t hp
        cases h.eq_of_parked hp
        rw [Traced.isCall, hx] at hc
        cases hc
  have hpush := h.turns.push hc
  rw [s.stack_ready, hready] at hpush
  exact hpush

theorem Goes.pop {back : Traced} (h : Goes s (some back) s') (hr : back.isReturn = true) :
    s.stack.pop = .ok (s'.machine.pc, s'.stack) := by
  rw [← s.stack_ready]
  exact h.turns.pop hr

/-- While a session stays above the calls that are open once a call was executed, a
return that finds no others goes on behind this call and leaves open what was open before. -/
theorem Above.resumes {call back : Traced} {s₁ s₂ s₃ : Session} (hf : s.stack.Fits)
    (hw : Waits s.parked) (hcall : Goes s (some call) s₁) (hc : call.isCall = true)
    (h : Above (s.stack.used + 1) s₁ s₂) (hback : Goes s₂ (some back) s₃)
    (hr : back.isReturn = true) (hu : s₂.stack.used = s.stack.used + 1) :
    s₃.machine.pc = s.machine.advance.pc ∧ s₃.stack.frames = s.stack.frames := by
  have hpush := hcall.push hw hc
  have hbase := CallStack.frames_push hpush
  have hlen : s₁.stack.frames.length = s.stack.used + 1 := by
    rw [hbase, List.length_append, CallStack.length_frames hf, List.length_singleton]
  obtain ⟨hf₂, hkept⟩ :=
    h.keeps (CallStack.fits_push hpush) (List.prefix_refl _) (Nat.le_of_eq hlen)
  have hall : s₁.stack.frames = s₂.stack.frames := by
    refine hkept.eq_of_length ?_
    rw [hlen, CallStack.length_frames hf₂, hu]
  have hpop := CallStack.frames_pop hf₂ (hback.pop hr)
  rw [← hall, hbase] at hpop
  obtain ⟨hframes, hpc⟩ := List.append_inj' hpop rfl
  exact ⟨(List.singleton_inj.mp hpc).symm, hframes.symm⟩

/-! ## Counting calls and returns -/

/-- What is executed to its end in an event. -/
def executed (s : Session) : Event → List Traced
  | .step random => (s.proceed random).traced.toList
  | .run entry speaker observer moves =>
      ((Run.start s.machine entry speaker observer).moves moves).trace
  | _ => []

/-- What is executed to its end in events, one after the other. -/
def trace (s : Session) : List Event → List Traced
  | [] => []
  | e :: events => s.executed e ++ (s.next e).trace events

end Session

/-- Open calls and executed returns are together as many as there were open calls before
and calls were executed since. -/
def CallStack.Counts (before after : CallStack) (ts : List Traced) : Prop :=
  after.used + ts.countP Traced.isReturn = before.used + ts.countP Traced.isCall

theorem CallStack.Counts.append {a b c : CallStack} {ts ts' : List Traced} (h : Counts a b ts)
    (h' : Counts b c ts') : Counts a c (ts ++ ts') := by
  unfold Counts at h h' ⊢
  rw [List.countP_append, List.countP_append]
  omega

theorem Session.counts_of_turns {s : Session} {m : Machine} {t? : Option Traced}
    (h : Machine.Turns s.ready m t?) : s.stack.Counts m.registers.stack t?.toList := by
  rw [← s.stack_ready]
  exact h.used

theorem Run.counts_moves (ms : List Move) {s : CallStack} :
    ∀ {r : Run}, s.Counts r.machine.registers.stack r.trace →
      s.Counts (r.moves ms).machine.registers.stack (r.moves ms).trace := by
  induction ms with
  | nil => exact id
  | cons mv ms ih =>
      intro r h
      apply ih
      rw [trace_move]
      exact h.append (Session.counts_of_turns (turns_move r mv))

namespace Session

theorem counts_next (s : Session) (e : Event) :
    s.stack.Counts (s.next e).stack (s.executed e) := by
  have hquiet (h : s.stepped e = none)
      (hr : ∀ entry speaker observer moves, e ≠ .run entry speaker observer moves) :
      s.stack.Counts (s.next e).stack [] := by
    have ht := turns_next (s := s) e hr
    rw [h] at ht
    exact counts_of_turns ht
  cases e with
  | step random => exact counts_of_turns (s.turns_proceed random)
  | run entry speaker observer moves =>
      refine Run.counts_moves moves ?_
      rw [Run.trace_start, stack_enter]
      rfl
  | load | change | act | time =>
      refine hquiet rfl ?_
      intro _ _ _ _ he
      cases he

theorem counts_after (events : List Event) :
    ∀ s : Session, s.stack.Counts (s.after events).stack (s.trace events) := by
  induction events with
  | nil => exact fun s => rfl
  | cons e events ih => exact fun s => (s.counts_next e).append (ih (s.next e))

/-- In every session of a machine with accepted settings, a return that finds no open call
above one that was executed before goes on behind this call, with the calls open again that
were open before, whatever happened between.  And from a new machine on the number of open
calls is the number of executed calls less the number of executed returns. -/
theorem return_resumes_call {settings : Settings} (hc : settings.check = .ok ()) :
    (∀ s : Session, s.Reachable settings →
      ∀ (call back : Traced) (s₁ s₂ s₃ : Session), Goes s (some call) s₁ → call.isCall = true →
        Above (s.stack.used + 1) s₁ s₂ → s₂.stack.used = s.stack.used + 1 →
        Goes s₂ (some back) s₃ → back.isReturn = true →
        s₃.machine.pc.toNat = (s.machine.pc.toNat + 2) % settings.memorySize ∧
          s₃.stack.used = s.stack.used ∧ s₃.stack.frames = s.stack.frames) ∧
      ∃ m, Machine.build settings = .ok m ∧ ∀ events : List Event,
        let ts := (start m).trace events
        ((start m).after events).stack.used + ts.countP Traced.isReturn =
          ts.countP Traced.isCall := by
  constructor
  · intro s hs call back s₁ s₂ s₃ hcall hcc habove hu hback hr
    have hsound := (sound_of_reachable hs).machine
    have hf : s.stack.Fits := hsound.stack.fits
    obtain ⟨hpc, hframes⟩ :=
      habove.resumes hf (waits_of_reachable hs) hcall hcc hback hr hu
    obtain ⟨hne, -, hpopped⟩ := CallStack.pop_eq_ok_iff.mp (hback.pop hr)
    refine ⟨?_, ?_, hframes⟩
    · rw [hpc, hsound.toNat_pc_advance, hsound.size]
    · rw [hpopped]
      exact Nat.sub_eq_of_eq_add hu
  · obtain ⟨m, hb⟩ := Machine.exists_build hc
    refine ⟨m, hb, fun events => ?_⟩
    have h := counts_after events (start m)
    obtain ⟨-, ram, -, rfl⟩ := Machine.build_eq_ok_iff.mp hb
    exact h.trans (Nat.zero_add _)

/-- A subroutine calls another one and returns behind the call that it was called with. -/
theorem return_resumes_call_of_nested :
    ∃ m, Machine.build { memorySize := 0xFA, entry := 0xF0 } = .ok m ∧
      let s := (start m).next (.load 0xF0 [0x20, 0xF4, 0, 0, 0x20, 0xF8, 0, 0xEE, 0, 0xEE])
      s.trace [.step 0, .step 0, .step 0, .step 0] =
          [⟨0xF0, 0x20F4, .call 0xF4⟩, ⟨0xF4, 0x20F8, .call 0xF8⟩, ⟨0xF8, 0x00EE, .ret⟩,
            ⟨0xF6, 0x00EE, .ret⟩] ∧
        (s.after [.step 0, .step 0, .step 0, .step 0]).machine.pc.toNat = (0xF0 + 2) % 0xFA := by
  have hc : Settings.check { memorySize := 0xFA, entry := 0xF0 } = .ok () := rfl
  obtain ⟨hresumes, m, hb, -⟩ := return_resumes_call hc
  refine ⟨m, hb, ?_⟩
  intro s
  have hreach : s.Reachable { memorySize := 0xFA, entry := 0xF0 } := .next (.start hb) _
  have hgoes (s : Session) : Goes s (s.stepped (.step 0)) (s.next (.step 0)) :=
    .event (.step 0) (fun _ _ _ _ he => by cases he)
  obtain ⟨hpc, ht⟩ : s.machine.pc.toNat = 0xF0 ∧
      s.trace [.step 0, .step 0, .step 0, .step 0] =
        [⟨0xF0, 0x20F4, .call 0xF4⟩, ⟨0xF4, 0x20F8, .call 0xF8⟩, ⟨0xF8, 0x00EE, .ret⟩,
          ⟨0xF6, 0x00EE, .ret⟩] := by
    cases hb
    decide +kernel
  have hcall : s.stepped (.step 0) = some ⟨0xF0, 0x20F4, .call 0xF4⟩ := by
    cases hb
    decide +kernel
  have hback : (s.after [.step 0, .step 0, .step 0]).stepped (.step 0) =
      some ⟨0xF6, 0x00EE, .ret⟩ := by
    cases hb
    decide +kernel
  obtain ⟨hu₀, hu₁, hu₂, hu₃⟩ : s.stack.used = 0 ∧ (s.after [.step 0]).stack.used = 1 ∧
      (s.after [.step 0, .step 0]).stack.used = 2 ∧
      (s.after [.step 0, .step 0, .step 0]).stack.used = 1 := by
    cases hb
    decide +kernel
  have habove : Above (s.stack.used + 1) (s.after [.step 0])
      (s.after [.step 0, .step 0, .step 0]) := by
    have hle : 1 ≤ (s.after [.step 0, .step 0]).stack.used := by
      rw [hu₂]
      decide
    rw [hu₀]
    exact ((Above.here (Nat.le_of_eq hu₁.symm)).goes (hgoes _) hle).goes (hgoes _)
      (Nat.le_of_eq hu₃.symm)
  have h := hresumes s hreach _ _ _ _ _ (hcall ▸ hgoes s) rfl habove (by rw [hu₀, hu₃])
    (hback ▸ hgoes _) rfl
  rw [hpc] at h
  exact ⟨ht, h.1⟩

end Session

end SuperChip
