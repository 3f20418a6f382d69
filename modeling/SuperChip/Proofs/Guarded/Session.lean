import SuperChip.Proofs.Guarded.Machine
import SuperChip.Proofs.Session

/-!
# Nothing senseless happens in a session

Runs and sessions once more, with the guarded machine in the place of the machine.  A
guarded session has a result just when no guard fails in any of its events: in no step,
no load and no change of the surface.

From accepted settings every guarded session has a result, the session itself
(`no_guard_fails`).  It goes through one event (`Session.Guarded.next_eq`), and through
one move where the event is a run (`Run.Guarded.move_eq`); both keep the session sound,
so that the next one goes through as well.
-/

namespace SuperChip

/-! ## Guarded runs -/

namespace Run.Guarded

/-- The next move of the processor. -/
def proceed (r : Run) (random : UInt8) : Option Run :=
  match r.phase with
  | .issuing => (Machine.Guarded.step r.machine random).map r.take
  | .waiting t => (Machine.Guarded.perform r.machine random t).map r.take
  | _ => some (r.proceed random)

/-- The run after a move.  Only the processor does what can be senseless. -/
def move (r : Run) : Move → Option Run
  | .proceed random => proceed r random
  | .act action => some (r.act action)
  | .tickDelay => some r.tickDelay
  | .tickSound => some r.tickSound

/-- The run after moves, one after the other. -/
def moves (r : Run) (ms : List Move) : Option Run := ms.foldlM move r

end Run.Guarded

/-! ## Guarded sessions -/

namespace Session.Guarded

/-- What a step event comes to. -/
def proceed (s : Session) (random : UInt8) : Option Machine.Step :=
  match s.parked with
  | none => Machine.Guarded.step s.machine random
  | some t => Machine.Guarded.perform s.machine random t

/-- The session behind an event. -/
def next (s : Session) : Event → Option Session
  | .load address program => do
      match ← Machine.Guarded.load s.machine address program with
      | .ok (machine, _) => return { s with machine }
      | .error _ => return s
  | .step random => (proceed s random).map ofStep
  | .run entry speaker observer moves =>
      (Run.Guarded.moves (Run.start s.machine entry speaker observer) moves).map ofRun
  | .change c => do return { s with machine := ← Machine.Guarded.change s.machine c }
  | .act a => some (s.next (.act a))
  | .time clocks => some (s.next (.time clocks))

/-- The session behind events, one after the other. -/
def after (s : Session) (events : List Event) : Option Session := events.foldlM next s

end Session.Guarded

/-- A program to be loaded is one that a host can keep in memory. -/
def Event.Kept : Event → Prop
  | .load _ program => program.length < Guard.half
  | _ => True

/-- Where each step of a fold has a result and keeps an invariant, the fold has one. -/
theorem Guard.foldlM_eq_foldl {α β : Type} {f : β → α → Option β} {g : β → α → β}
    (Inv : β → Prop) (Good : α → Prop)
    (step : ∀ b a, Inv b → Good a → f b a = some (g b a)) (keep : ∀ b a, Inv b → Inv (g b a))
    {l : List α} {b : β} (hb : Inv b) (hl : ∀ a ∈ l, Good a) :
    l.foldlM f b = some (l.foldl g b) := by
  induction l generalizing b with
  | nil => rfl
  | cons a l ih =>
      rw [List.foldlM_cons, step b a hb (hl a List.mem_cons_self)]
      exact ih (keep b a hb) fun c hc => hl c (List.mem_cons_of_mem _ hc)

variable {settings : Settings}

/-! ## Results of runs -/

namespace Run.Guarded

variable {r : Run}

theorem proceed_eq (h : r.Sound settings) (hd : settings.stackDepth < UInt64.size)
    (random : UInt8) : proceed r random = some (r.proceed random) := by
  unfold proceed Run.proceed
  cases hp : r.phase with
  | issuing =>
      dsimp only
      rw [Machine.Guarded.step_eq h.machine hd]
      rfl
  | waiting t =>
      dsimp only
      rw [Machine.Guarded.perform_eq h.machine hd (h.ready t hp).standsFor]
      rfl
  | _ => rfl

theorem move_eq (h : r.Sound settings) (hd : settings.stackDepth < UInt64.size) (m : Move) :
    move r m = some (r.move m) := by
  cases m with
  | proceed random => exact proceed_eq h hd random
  | act | tickDelay | tickSound => rfl

theorem moves_eq (h : r.Sound settings) (hd : settings.stackDepth < UInt64.size)
    (ms : List Move) : moves r ms = some (r.moves ms) :=
  Guard.foldlM_eq_foldl (Run.Sound · settings) (fun _ => True) (fun _ m hr _ => move_eq hr hd m)
    (fun _ m hr => hr.move m) h fun _ _ => trivial

end Run.Guarded

/-! ## Results of sessions -/

namespace Session.Guarded

variable {s : Session}

theorem proceed_eq (h : s.Sound settings) (hd : settings.stackDepth < UInt64.size)
    (random : UInt8) : proceed s random = some (s.proceed random) := by
  unfold proceed Session.proceed
  cases hp : s.parked with
  | none => exact Machine.Guarded.step_eq h.machine hd random
  | some t => exact Machine.Guarded.perform_eq h.machine hd (h.ready t hp).standsFor random

theorem next_eq (h : s.Sound settings) (hd : settings.stackDepth < UInt64.size) {e : Event}
    (he : e.Kept) : next s e = some (s.next e) := by
  cases e with
  | load address program =>
      rw [next, Session.next, Machine.Guarded.load_eq he]
      cases s.machine.load address program <;> rfl
  | step random =>
      rw [next, proceed_eq h hd]
      rfl
  | run entry speaker observer moves =>
      rw [next, Run.Guarded.moves_eq (Run.sound_start h.machine entry speaker observer) hd]
      rfl
  | change c =>
      rw [next, Machine.Guarded.change_eq h.machine.full]
      rfl
  | act | time => rfl

theorem after_eq (h : s.Sound settings) (hd : settings.stackDepth < UInt64.size)
    {events : List Event} (he : ∀ e ∈ events, e.Kept) :
    after s events = some (s.after events) :=
  Guard.foldlM_eq_foldl (Session.Sound · settings) Event.Kept (fun _ _ hs he => next_eq hs hd he)
    (fun _ e hs => hs.next e) h he

end Session.Guarded

/-! ## All sessions -/

namespace Session

/-- From accepted settings a machine is built, and whatever then happens to it, no guard
fails, neither in what happens nor in looking at the surface behind it.  In particular
the words that are fetched name registers that there are, no more slots of the call
stack are taken than there are, and nothing that is divided by is zero.  The depth that
the settings ask for is a number of 64 bits, as all their numbers are. -/
theorem no_guard_fails (hc : settings.check = .ok ()) (hd : settings.stackDepth < UInt64.size) :
    ∃ m, Machine.Guarded.build settings = some (.ok m) ∧
      ∀ events : List Event, (∀ e ∈ events, e.Kept) →
        let s := (start m).after events
        let surface := s.machine.surface
        Guarded.after (start m) events = some s ∧
          (∀ x y, Surface.Guarded.get surface x y = some (surface.get x y)) ∧
          Guard.pieces surface.width surface.pixels.toList = some surface.rows ∧
          (∀ i, s.machine.Issues i → i.Named) ∧
          s.machine.registers.stack.used ≤ s.machine.registers.stack.slots.size ∧
          0 < s.machine.ram.size ∧ 0 < surface.width ∧ 0 < surface.height ∧
          ∀ n, 0 < (s.machine.spriteShape n).2 := by
  obtain ⟨m, hb⟩ := Machine.exists_build hc
  refine ⟨m, (Machine.Guarded.build_eq settings).trans (congrArg some hb), fun events he => ?_⟩
  have hstart : (start m).Sound settings := sound_start (Machine.sound_build hb)
  have hs : ((start m).after events).Sound settings :=
    sound_of_reachable (Reachable.after events (.start hb))
  have hfull := hs.machine.full
  refine ⟨Guarded.after_eq hstart hd he, Surface.Guarded.get_eq hfull,
    Surface.Guarded.pieces_eq_rows hfull, ?_, hs.machine.stack.fits, hs.machine.size_pos,
    Surface.width_pos _, Surface.height_pos _,
    fun n => (Machine.Guarded.spriteShape_bounds _ n).1⟩
  rintro i ⟨w, -, hi⟩
  exact hi.named

/-- A call nested too deep, a scroll further than there are rows, a refused load, and a
run that is left in the middle. -/
theorem no_guard_fails_in_odd_memory :
    ∃ m, Machine.Guarded.build { memorySize := 0xF3, stackDepth := 1, entry := 0xF0 } =
        some (.ok m) ∧
      (Guarded.after (start m) [.load 0xF0 [0x20, 0xF0, 0xD0], .step 0, .step 0,
        .change (.down 99), .load 0 [1],
        .run 0xF1 .mute .nobody [.proceed 0, .proceed 0]]).isSome := by
  have hc : Settings.check { memorySize := 0xF3, stackDepth := 1, entry := 0xF0 } = .ok () := rfl
  obtain ⟨m, hb, h⟩ := no_guard_fails hc (by decide)
  refine ⟨m, hb, ?_⟩
  rw [(h _ ?_).1]
  · rfl
  · simp [Event.Kept, Guard.half, UInt64.size]

end Session

end SuperChip
