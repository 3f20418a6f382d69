import Mathlib.Data.List.Induction
import SuperChip.Proofs.Run.Delay

/-!
# The course of a run

Three things that a run does in one move take some time.  `Run.start` is all that comes
before the first look for shutdown, `Run.leave` is all that comes behind the last
instruction, and `Run.tickSound` is a tick of the sound timer with the beep it calls for.

The *course* of a run takes them apart.  The processor does one *deed* after the other, from
starting the delay timer to saying where it stopped.  What there is to be seen of a deed is
seen behind it, one thing after the other, and anything may happen in between.  A sound timer
that runs out *owes* a beep.  It gives it later, and until then it does not tick, and the
processor cannot join it.

What was seen is the *log*.  It is the history of the run (`Course.perm_history`), with the
moments in it when a timer is started or joined.  A beep may be seen before the instruction
that it follows.

Every run is one of its courses (`Course.exists_moves`).
-/

namespace SuperChip

/-! ## Deeds and sights -/

/-- What the processor does in a run. -/
inductive Deed where
  | startDelay
  | startSound
  /-- It goes to the entry. -/
  | enter (entry : UInt16)
  | boot
  /-- It says where it runs from. -/
  | announce (entry : UInt16)
  /-- It looks for shutdown and executes instructions, until there is a reason to leave. -/
  | work
  | joinDelay
  | joinSound
  /-- It says that the timers are stopped. -/
  | tell
  | off
  /-- It says where it stopped. -/
  | report
deriving DecidableEq

namespace Deed

/-- What comes before the first look for shutdown. -/
def opening (entry : UInt16) : List Deed :=
  [.startDelay, .startSound, .enter entry, .boot, .announce entry]

/-- What comes once both timers are joined. -/
def ending : List Deed := [.tell, .off, .report]

/-- What comes behind the last instruction. -/
def closing : List Deed := .joinDelay :: .joinSound :: ending

end Deed

/-- Something that can be seen of a run. -/
inductive Sight where
  /-- A timer was started at a count. -/
  | started (name : String) (count : UInt8)
  /-- A timer was joined: it is done with all it does. -/
  | joined (name : String)
  /-- Something happened. -/
  | happened (h : Happening)
deriving DecidableEq

namespace Sight

def happening? : Sight → Option Happening
  | .happened h => some h
  | _ => none

/-- An entry of the journal is seen. -/
def noted (entry : Journal.Entry) : Sight := .happened (.noted entry)

/-- The speaker is heard. -/
def beep : Sight := .happened .beep

end Sight

/-- Whether the processor is behind the last instruction. -/
def Phase.left : Phase → Bool
  | .leaving _ | .over _ => true
  | _ => false

/-- A phase behind the last instruction comes to an end. -/
def Phase.past : Phase → Phase
  | .leaving fault? => .over fault?
  | p => p

/-- A tick of a countdown without what it calls. -/
def Countdown.lowered (c : Countdown) : Countdown :=
  if c.worker = .ticking then { c with count := lower c.count } else c

/-- The run with other timers. -/
def Run.time (r : Run) (clocks : Clocks) : Run := { r with machine := { r.machine with clocks } }

/-- The run with one of its timers started, and over if that timer cannot be. -/
def Run.begin (r : Run) (part : Clocks.Part) : Run :=
  let begun := (r.time part.clocks).note part.entries
  match part.fault? with
  | some fault => { begun with phase := .over (some fault) }
  | none => begun

/-! ## What a deed does -/

namespace Deed

/-- The run behind a deed.  Of the work this is one move. -/
def does (r : Run) (random : UInt8) : Deed → Run
  | .startDelay => r.begin (r.machine.clocks.startDelay r.machine.settings.delayHz)
  | .startSound =>
      r.begin (r.machine.clocks.startSound r.machine.settings.soundHz r.speaker.callback)
  | .enter entry => { r with machine := r.machine.setPc entry }
  | .boot => ((r.add .boot).actAll r.speaker.onBoot).note r.speaker.bootEntries
  | .announce entry => r.note [.running entry]
  | .work => r.proceed random
  | .joinDelay =>
      let (delay, entries) := r.machine.clocks.delay.stop
      (r.time { r.machine.clocks with delay }).note entries
  | .joinSound =>
      let (sound, entries) := r.machine.clocks.sound.stop
      (r.time { r.machine.clocks with sound }).note entries
  | .tell => r.note [.timersStopped]
  | .off => (r.add .off).note r.speaker.offEntries
  | .report => Run.note { r with phase := r.phase.past } [.stoppedAt r.machine.pc]

/-- What is seen of a deed besides what happens in the run, which is there behind it. -/
def marks (r : Run) : Deed → List Sight
  | .startDelay =>
      if r.phase.left then []
      else [.started r.machine.clocks.delay.name r.machine.clocks.delay.count]
  | .startSound =>
      if r.phase.left then []
      else [.started r.machine.clocks.sound.name r.machine.clocks.sound.count]
  | .joinDelay => [.joined "delay"]
  | .joinSound => [.joined "sound"]
  | _ => []

/-- What is seen of a deed that leads from one run to another. -/
def sights (r r' : Run) (d : Deed) : List Sight :=
  d.marks r' ++ (r'.history.toList.drop r.history.size).map .happened

/-- What is ahead behind a deed.  The work goes on until the run has left, and a run that
cannot start its timers is given up. -/
def next (r : Run) (ahead : List Deed) : Deed → List Deed
  | .work => if r.phase.left then ahead else .work :: ahead
  | .startDelay | .startSound => if r.phase.left then [] else ahead
  | _ => ahead

end Deed

/-! ## Courses -/

/-- A run, taken apart. -/
structure Course where
  /-- The run. -/
  run : Run
  /-- What the processor has still to do. -/
  ahead : List Deed
  /-- What is still to be seen of what it did. -/
  unseen : List Sight
  /-- Whether the sound timer has run out and has not called the speaker yet. -/
  owes : Bool
  /-- What was seen, oldest first. -/
  log : List Sight
deriving DecidableEq

namespace Course

/-- The beginning, with nothing done. -/
def start (m : Machine) (entry : UInt16) (speaker : Speaker) (observer : Observer) : Course where
  run := ⟨{ m with clocks := .idle }, speaker, observer, .looking, #[]⟩
  ahead := Deed.opening entry ++ .work :: Deed.closing
  unseen := []
  owes := false
  log := []

/-- The processor goes on once all that it did is seen.  It waits to join a sound timer that
owes a beep. -/
def proceed (c : Course) (random : UInt8) : Course :=
  match c.unseen, c.ahead with
  | s :: unseen, _ => { c with unseen, log := c.log ++ [s] }
  | [], [] => c
  | [], d :: ahead =>
      if d = .joinSound ∧ c.owes then c
      else
        let r := d.does c.run random
        { c with run := r, ahead := d.next r ahead, unseen := d.sights c.run r }

/-- The sound timer ticks, unless it has still to call the speaker. -/
def tickSound (c : Course) : Course :=
  if c.owes then c
  else
    let clocks := c.run.machine.clocks
    { c with
      run := c.run.time { clocks with sound := clocks.sound.lowered }
      owes := clocks.sound.firesNext }

/-- The sound timer calls the speaker, if it has to. -/
def callSpeaker (c : Course) : Course :=
  if c.owes then
    let clocks := c.run.machine.clocks
    { c with
      run := ((c.run.time { clocks with sound := clocks.sound.fire }).add .beep).actAll
        c.run.speaker.onBeep
      owes := false
      log := c.log ++ [.beep] }
  else c

/-- A move. -/
inductive Move where
  /-- The processor goes on; if it needs a random byte it is this one. -/
  | proceed (random : UInt8)
  /-- Someone acts on the keypad. -/
  | act (action : Keypad.Action)
  | tickDelay
  | tickSound
  /-- The sound timer calls the speaker. -/
  | callSpeaker
deriving DecidableEq

def move (c : Course) : Move → Course
  | .proceed random => c.proceed random
  | .act action => { c with run := c.run.act action }
  | .tickDelay => { c with run := c.run.tickDelay }
  | .tickSound => c.tickSound
  | .callSpeaker => c.callSpeaker

def moves (c : Course) (ms : List Move) : Course := ms.foldl move c

/-- The processor has nothing to do any more, and all that it did is seen. -/
def Done (c : Course) : Prop := c.ahead = [] ∧ c.unseen = []

variable {c : Course} {d : Deed} {ahead : List Deed}

/-! ## What a move does -/

/-- Moves are made one after the other. -/
theorem moves_append (ms ms' : List Move) : c.moves (ms ++ ms') = (c.moves ms).moves ms' :=
  List.foldl_append

theorem moves_append_singleton (ms : List Move) (mv : Move) :
    c.moves (ms ++ [mv]) = (c.moves ms).move mv := by
  rw [moves_append]
  rfl

/-- Where the processor can go on it does the next deed. -/
theorem proceed_of_deed (hu : c.unseen = []) (h : c.ahead = d :: ahead)
    (hd : d = .joinSound → c.owes = false) (random : UInt8) :
    c.proceed random = { c with
      run := d.does c.run random
      ahead := d.next (d.does c.run random) ahead
      unseen := d.sights c.run (d.does c.run random) } := by
  have hn : ¬(d = .joinSound ∧ c.owes = true) := by
    rintro ⟨he, ho⟩
    rw [hd he] at ho
    cases ho
  unfold proceed
  rw [hu, h]
  exact if_neg hn

/-- As long as something is unseen it is seen next, and nothing else happens. -/
theorem proceed_of_unseen {s : Sight} {unseen : List Sight} (h : c.unseen = s :: unseen)
    (random : UInt8) : c.proceed random = { c with unseen, log := c.log ++ [s] } := by
  unfold proceed
  rw [h]

/-- The processor has nothing to do or has to wait, or something is seen of what it did, or it
does the next deed. -/
theorem proceed_cases (c : Course) (random : UInt8) :
    (c.proceed random = c ∧ c.unseen = [] ∧
        (c.ahead = [] ∨ ∃ ahead, c.ahead = .joinSound :: ahead ∧ c.owes = true)) ∨
      (∃ s unseen, c.unseen = s :: unseen ∧
        c.proceed random = { c with unseen, log := c.log ++ [s] }) ∨
      ∃ d ahead, c.unseen = [] ∧ c.ahead = d :: ahead ∧ (d = .joinSound → c.owes = false) ∧
        c.proceed random = { c with
          run := d.does c.run random
          ahead := d.next (d.does c.run random) ahead
          unseen := d.sights c.run (d.does c.run random) } := by
  cases hu : c.unseen with
  | cons s unseen => exact .inr (.inl ⟨s, unseen, rfl, proceed_of_unseen hu random⟩)
  | nil =>
      cases ha : c.ahead with
      | nil =>
          refine .inl ⟨?_, rfl, .inl rfl⟩
          unfold proceed
          rw [hu, ha]
      | cons d ahead =>
          by_cases hb : d = .joinSound ∧ c.owes = true
          · obtain ⟨rfl, ho⟩ := hb
            refine .inl ⟨?_, rfl, .inr ⟨ahead, rfl, ho⟩⟩
            unfold proceed
            rw [hu, ha]
            exact if_pos ⟨rfl, ho⟩
          · have hd : d = .joinSound → c.owes = false :=
              fun he => eq_false_of_ne_true fun ho => hb ⟨he, ho⟩
            exact .inr (.inr ⟨d, ahead, rfl, rfl, hd, proceed_of_deed hu ha hd random⟩)

/-- While a beep is owed the sound does not tick. -/
theorem tickSound_of_owes (h : c.owes = true) : c.tickSound = c := if_pos h

/-- A tick of the sound owes a beep if it runs out. -/
theorem tickSound_of_not_owes (h : c.owes = false) : c.tickSound = { c with
    run := c.run.time { c.run.machine.clocks with sound := c.run.machine.clocks.sound.lowered }
    owes := c.run.machine.clocks.sound.firesNext } :=
  if_neg (ne_true_of_eq_false h)

/-- An owed beep is given, and what the speaker does with it. -/
theorem callSpeaker_of_owes (h : c.owes = true) : c.callSpeaker = { c with
    run := ((c.run.time { c.run.machine.clocks with
      sound := c.run.machine.clocks.sound.fire }).add .beep).actAll c.run.speaker.onBeep
    owes := false
    log := c.log ++ [.beep] } :=
  if_pos h

/-- There is no beep that is not owed. -/
theorem callSpeaker_of_not_owes (h : c.owes = false) : c.callSpeaker = c :=
  if_neg (ne_true_of_eq_false h)

end Course

/-! ## What happens in a move -/

namespace Run

variable {r : Run}

@[simp] theorem machine_begin (part : Clocks.Part) :
    (r.begin part).machine = { r.machine with clocks := part.clocks } := by
  unfold begin
  cases part.fault? <;> rfl

@[simp] theorem speaker_begin (part : Clocks.Part) : (r.begin part).speaker = r.speaker := by
  unfold begin
  cases part.fault? <;> rfl

/-- Starting a timer leaves its entries in the history. -/
theorem history_begin (part : Clocks.Part) :
    (r.begin part).history = ((r.time part.clocks).note part.entries).history := by
  unfold begin
  cases part.fault? <;> rfl

theorem toList_history_note (entries : List Journal.Entry) :
    (r.note entries).history.toList = r.history.toList ++ entries.map .noted :=
  Array.toList_appendList

theorem toList_history_add (h : Happening) :
    (r.add h).history.toList = r.history.toList ++ [h] := Array.toList_push

/-- Taking over a step adds its notes, and the instruction with what the observer notes of it. -/
theorem toList_history_take (s : Machine.Step) : (r.take s).history.toList = r.history.toList ++
    (s.entries.map .noted ++
      s.traced.toList.flatMap fun t => .executed t :: (r.observer.entries t).map .noted) := by
  have hn : ({ r with machine := s.machine }.note s.entries).history.toList =
      r.history.toList ++ s.entries.map .noted := toList_history_note _
  unfold take Machine.Step.traced
  cases s.ending with
  | done =>
      cases s.issued with
      | none => simpa using hn
      | some t =>
          show ((({ r with machine := s.machine }.note s.entries).add (.executed t)).note
            (r.observer.entries t)).history.toList = _
          rw [toList_history_note, toList_history_add, hn]
          simp
  | failed fault => simpa using hn
  | waiting => cases s.issued <;> simpa using hn

/-- The end of a run adds what the timers note, and the speaker switched off. -/
theorem toList_history_leave (fault? : Option Fault) :
    (r.leave fault?).history.toList = r.history.toList ++ (r.machine.clocks.stop.2.map .noted ++
      .off :: (r.speaker.offEntries ++ [Journal.Entry.stoppedAt r.machine.pc]).map .noted) := by
  unfold leave
  dsimp only
  rw [toList_history_note, toList_history_add, toList_history_note, List.append_assoc,
    List.append_assoc]
  rfl

/-- A move of the processor takes nothing back, and the speaker does not beep in it. -/
theorem toList_history_proceed (r : Run) (random : UInt8) : ∃ hs,
    (r.proceed random).history.toList = r.history.toList ++ hs ∧ .beep ∉ hs := by
  have htake (s : Machine.Step) : ∃ hs,
      (r.take s).history.toList = r.history.toList ++ hs ∧ .beep ∉ hs :=
    ⟨_, toList_history_take s, by simp⟩
  unfold proceed
  split
  · exact ⟨[], (List.append_nil _).symm, List.not_mem_nil⟩
  · exact htake _
  · exact htake _
  · exact ⟨_, toList_history_leave _, by simp⟩
  · exact ⟨[], (List.append_nil _).symm, List.not_mem_nil⟩

end Run

theorem Sight.filterMap_happened (hs : List Happening) :
    (hs.map Sight.happened).filterMap Sight.happening? = hs := by
  rw [List.filterMap_map]
  exact List.filterMap_some

namespace Deed

variable {r r' : Run} {hs : List Happening}

/-- What is seen of a deed are its marks and what it adds to the history. -/
theorem sights_eq (h : r'.history.toList = r.history.toList ++ hs) (d : Deed) :
    d.sights r r' = d.marks r' ++ hs.map .happened := by
  rw [sights, h, ← Array.length_toList, List.drop_left]

/-- No mark is part of the history. -/
theorem filterMap_marks (r : Run) (d : Deed) : (d.marks r).filterMap Sight.happening? = [] := by
  cases d with
  | startDelay | startSound =>
      dsimp only [marks]
      split <;> rfl
  | _ => rfl

/-- Switching the speaker on adds the call and what the speaker notes. -/
theorem toList_history_boot (r : Run) (random : UInt8) :
    (boot.does r random).history.toList =
      r.history.toList ++ .boot :: r.speaker.bootEntries.map .noted := by
  refine (Run.toList_history_note _).trans ?_
  show (r.add .boot).history.toList ++ _ = _
  rw [Run.toList_history_add, List.append_assoc]
  rfl

/-- Switching the speaker off adds the call and what the speaker notes. -/
theorem toList_history_off (r : Run) (random : UInt8) :
    (off.does r random).history.toList =
      r.history.toList ++ .off :: r.speaker.offEntries.map .noted := by
  refine (Run.toList_history_note _).trans ?_
  rw [Run.toList_history_add, List.append_assoc]
  rfl

/-- Nor does it in any other deed. -/
theorem toList_history_does (r : Run) (random : UInt8) (d : Deed) : ∃ hs,
    (d.does r random).history.toList = r.history.toList ++ hs ∧ .beep ∉ hs := by
  have hnone : ∃ hs, r.history.toList = r.history.toList ++ hs ∧ Happening.beep ∉ hs :=
    ⟨[], (List.append_nil _).symm, List.not_mem_nil⟩
  have hnote (r' : Run) (entries : List Journal.Entry) : ∃ hs,
      (r'.note entries).history.toList = r'.history.toList ++ hs ∧ Happening.beep ∉ hs :=
    ⟨_, Run.toList_history_note entries, by simp⟩
  cases d with
  | startDelay | startSound =>
      dsimp only [does]
      rw [Run.history_begin]
      exact hnote _ _
  | enter entry => exact hnone
  | boot => exact ⟨_, toList_history_boot r random, by simp⟩
  | work => exact r.toList_history_proceed random
  | off => exact ⟨_, toList_history_off r random, by simp⟩
  | announce | joinDelay | joinSound | tell | report => exact hnote _ _

/-- What happens in a deed is seen of it. -/
theorem filterMap_sights (r : Run) (random : UInt8) (d : Deed) :
    r.history.toList ++ (d.sights r (d.does r random)).filterMap Sight.happening? =
      (d.does r random).history.toList := by
  obtain ⟨hs, hh, -⟩ := d.toList_history_does r random
  rw [sights_eq hh, List.filterMap_append, filterMap_marks, Sight.filterMap_happened, hh]
  rfl

/-- The speaker does not beep in a deed. -/
theorem beep_not_mem_sights (r : Run) (random : UInt8) (d : Deed) :
    Sight.beep ∉ d.sights r (d.does r random) := by
  obtain ⟨hs, hh, hb⟩ := d.toList_history_does r random
  intro hm
  have hmem : Happening.beep ∈ (d.sights r (d.does r random)).filterMap Sight.happening? :=
    List.mem_filterMap.mpr ⟨_, hm, rfl⟩
  rw [sights_eq hh, List.filterMap_append, filterMap_marks, Sight.filterMap_happened] at hmem
  exact hb hmem

end Deed

namespace Course

variable {c : Course}

/-- What was seen of a run, and is still to be seen, is what happened in it. -/
def Complete (c : Course) : Prop :=
  ((c.log ++ c.unseen).filterMap Sight.happening?).Perm c.run.history.toList

/-- What the processor adds to the history comes into the log. -/
theorem Complete.proceed (h : c.Complete) (random : UInt8) : (c.proceed random).Complete := by
  rcases c.proceed_cases random with
    ⟨he, -⟩ | ⟨s, unseen, hu, he⟩ | ⟨d, ahead, hu, -, -, he⟩
  · rw [he]
    exact h
  · rw [he, Complete, List.append_assoc]
    unfold Complete at h
    rw [hu] at h
    exact h
  · rw [he]
    unfold Complete at h
    rw [hu, List.append_nil] at h
    show ((c.log ++ d.sights c.run (d.does c.run random)).filterMap _).Perm _
    rw [List.filterMap_append, ← Deed.filterMap_sights]
    exact h.append_right _

/-- A beep comes into the history and into the log. -/
theorem Complete.callSpeaker (h : c.Complete) : c.callSpeaker.Complete := by
  cases ho : c.owes with
  | false =>
      rw [callSpeaker_of_not_owes ho]
      exact h
  | true =>
      unfold Complete at h
      rw [List.filterMap_append] at h
      rw [callSpeaker_of_owes ho, Complete]
      show ((c.log ++ [Sight.beep] ++ c.unseen).filterMap Sight.happening?).Perm
        ((c.run.time _).add .beep).history.toList
      rw [List.append_assoc, List.filterMap_append, Run.toList_history_add]
      -- the beep is seen before what the processor did and nobody has seen yet
      refine List.perm_middle.trans ((h.cons _).trans ?_)
      exact (List.perm_append_singleton _ _).symm

/-- The log stays complete, whoever moves. -/
theorem Complete.move (h : c.Complete) (mv : Move) : (c.move mv).Complete := by
  cases mv with
  | proceed random => exact h.proceed random
  | act a => exact h
  | tickDelay => exact h
  | tickSound =>
      show c.tickSound.Complete
      cases ho : c.owes with
      | true =>
          rw [tickSound_of_owes ho]
          exact h
      | false =>
          rw [tickSound_of_not_owes ho]
          exact h
  | callSpeaker => exact h.callSpeaker

/-- The log is the history, but for the order of the beeps. -/
theorem perm_history (m : Machine) (entry : UInt16) (speaker : Speaker) (observer : Observer)
    (ms : List Move) : ((start m entry speaker observer).moves ms).Complete := by
  induction ms using List.reverseRecOn with
  | nil => exact .refl _
  | append_singleton ms mv ih =>
      rw [moves_append_singleton]
      exact ih.move mv

end Course

/-! ## Deeds of the beginning and of the end -/

namespace Deed

variable {r : Run}

/-- With ticks the delay is started at zero. -/
theorem does_startDelay (h : r.machine.settings.delayHz ≠ 0) (random : UInt8) :
    startDelay.does r random = (r.time { r.machine.clocks with
        delay := ⟨"delay", r.machine.settings.delayHz, none, 0, .ticking, 0⟩ }).note
      [.timerStarted "delay" r.machine.settings.delayHz] := by
  rw [does, Clocks.startDelay_of_ne_zero _ h]
  rfl

/-- With ticks the sound is started at zero. -/
theorem does_startSound (h : r.machine.settings.soundHz ≠ 0) (random : UInt8) :
    startSound.does r random = (r.time { r.machine.clocks with
        sound := ⟨"sound", r.machine.settings.soundHz, some r.speaker.callback, 0, .ticking, 0⟩ }).note
      [.timerStarted "sound" r.machine.settings.soundHz] := by
  rw [does, Clocks.startSound_of_ne_zero _ h]
  rfl

/-- The deeds behind the last instruction come to what leaving a run does at once. -/
theorem does_closing {fault? : Option Fault} (h : r.phase = .leaving fault?) :
    closing.foldl (fun r d => d.does r 0) r = r.leave fault? := by
  obtain ⟨m, speaker, observer, phase, history⟩ := r
  cases h
  simp [closing, ending, does, Run.leave, Run.time, Run.note, Run.add, Clocks.stop, Phase.past,
    Machine.pc, ← Array.toList_inj]

/-- They come to what the start of a run does at once. -/
theorem does_opening {m : Machine} (hd : m.settings.delayHz ≠ 0) (hs : m.settings.soundHz ≠ 0)
    (entry : UInt16) (speaker : Speaker) (observer : Observer) :
    (opening entry).foldl (fun r d => d.does r 0) (Course.start m entry speaker observer).run =
      Run.start m entry speaker observer := by
  simp only [opening, List.foldl_cons, List.foldl_nil]
  rw [does_startDelay (r := (Course.start m entry speaker observer).run) hd, does_startSound hs]
  simp [does, Course.start, Run.start, Clocks.start, Clocks.attempt_of_ne_zero hd hs, Run.time,
    Run.note, Run.add, Run.actAll, Machine.setPc]

/-- Nothing of these deeds is left when they are done one after the other. -/
def Pass (r : Run) : List Deed → Prop
  | [] => True
  | d :: ds => (∀ ahead, d.next (d.does r 0) ahead = ahead) ∧ Pass (d.does r 0) ds

end Deed

/-! ## A course follows a run -/

/-- What is ahead of a run in a phase, from the first look for shutdown on. -/
def Phase.ahead : Phase → List Deed
  | .over _ => []
  | .leaving _ => Deed.closing
  | _ => .work :: Deed.closing

/-- A tick is what the count does and then what the callback does. -/
theorem Countdown.tick_eq_lowered (c : Countdown) :
    c.tick = if c.firesNext then c.lowered.fire else c.lowered := by
  unfold tick lowered firesNext
  by_cases hw : c.worker = .ticking
  · by_cases h1 : c.count = 1 <;> simp [hw, h1]
  · simp [hw]

/-- Work that is not left does not end a run. -/
theorem Run.not_isOver_proceed {r : Run} (h : r.phase.left = false) (random : UInt8) :
    ¬(r.proceed random).isOver := by
  have htake (s : Machine.Step) : ¬(r.take s).isOver := by
    rintro ⟨fault?, hp⟩
    rw [phase_take, Machine.Step.phase] at hp
    split at hp <;> cases hp
  unfold proceed
  split
  next =>
    rintro ⟨fault?, hp⟩
    dsimp only at hp
    split at hp <;> cases hp
  next => exact htake _
  next => exact htake _
  next hp => rw [hp] at h; cases h
  next hp => rw [hp] at h; cases h

namespace Course

variable {c : Course} {r : Run} {d : Deed} {ahead : List Deed}

/-- A course in which all that a run does in one move is done or none of it. -/
structure Follows (c : Course) (r : Run) : Prop where
  run : c.run = r
  owes : c.owes = false
  unseen : c.unseen = []
  ahead : c.ahead = r.phase.ahead

/-- All that the processor did can be seen at once. -/
theorem exists_seen (unseen : List Sight) : ∀ {c : Course}, c.unseen = unseen →
    ∃ ms log, c.moves ms = { c with unseen := [], log } := by
  induction unseen with
  | nil => exact fun {c} h => ⟨[], c.log, by rw [← h]; rfl⟩
  | cons s unseen ih =>
      intro c h
      have hp := proceed_of_unseen h 0
      obtain ⟨ms, log, he⟩ := ih (c := c.proceed 0) (by rw [hp])
      refine ⟨.proceed 0 :: ms, log, he.trans ?_⟩
      rw [hp]

/-- A deed is done and seen in some moves. -/
theorem exists_done (hu : c.unseen = []) (h : c.ahead = d :: ahead) (ho : c.owes = false)
    (random : UInt8) :
    ∃ ms log, c.moves ms = { c with
      run := d.does c.run random
      ahead := d.next (d.does c.run random) ahead
      log } := by
  have hp := proceed_of_deed hu h (fun _ => ho) random
  obtain ⟨ms, log, he⟩ := exists_seen _ (c := c.proceed random) rfl
  refine ⟨.proceed random :: ms, log, he.trans ?_⟩
  rw [hp, ← hu]

/-- Deeds of which nothing is left are done and seen in some moves. -/
theorem exists_done_all {rest : List Deed} (ds : List Deed) : ∀ {c : Course},
    c.unseen = [] → c.ahead = ds ++ rest → c.owes = false → Deed.Pass c.run ds →
      ∃ ms log, c.moves ms =
        { c with run := ds.foldl (fun r d => d.does r 0) c.run, ahead := rest, log } := by
  induction ds with
  | nil =>
      intro c _ h _ _
      obtain rfl : c.ahead = rest := h
      exact ⟨[], c.log, rfl⟩
  | cons d ds ih =>
      intro c hu h ho hp
      obtain ⟨ms, log, he⟩ := exists_done hu h ho 0
      rw [hp.1] at he
      obtain ⟨ms', log', he'⟩ := ih (c := c.moves ms) (by rw [he]; exact hu) (by rw [he]; rfl)
        (by rw [he]; exact ho) (by rw [he]; exact hp.2)
      refine ⟨ms ++ ms', log', ?_⟩
      rw [moves_append, he', he]
      rfl

/-- A course comes to the start of its run. -/
theorem follows_start {m : Machine} (hd : m.settings.delayHz ≠ 0) (hs : m.settings.soundHz ≠ 0)
    (entry : UInt16) (speaker : Speaker) (observer : Observer) :
    ∃ ms, ((start m entry speaker observer).moves ms).Follows
      (Run.start m entry speaker observer) := by
  have hpass : Deed.Pass (start m entry speaker observer).run (Deed.opening entry) := by
    refine ⟨fun _ => ?_, fun _ => ?_, fun _ => rfl, fun _ => rfl, fun _ => rfl, trivial⟩
    · rw [Deed.does_startDelay hd]
      rfl
    · rw [Deed.does_startDelay hd, Deed.does_startSound hs]
      rfl
  obtain ⟨ms, log, he⟩ := exists_done_all _ (c := start m entry speaker observer) rfl rfl rfl hpass
  rw [Deed.does_opening hd hs] at he
  refine ⟨ms, ?_⟩
  rw [he]
  refine ⟨rfl, rfl, rfl, ?_⟩
  rw [(Run.start_of_ticks hd hs entry speaker observer).1]
  rfl

/-- A course follows where the processor goes. -/
theorem Follows.proceed (h : c.Follows r) (random : UInt8) :
    ∃ ms, (c.moves ms).Follows (r.proceed random) := by
  obtain ⟨rfl, ho, hu, ha⟩ := h
  cases hp : c.run.phase with
  | leaving fault? =>
      rw [hp] at ha
      have hpass : Deed.Pass c.run Deed.closing :=
        ⟨fun _ => rfl, fun _ => rfl, fun _ => rfl, fun _ => rfl, fun _ => rfl, trivial⟩
      obtain ⟨ms, log, he⟩ :=
        exists_done_all Deed.closing hu (ha.trans (List.append_nil _).symm) ho hpass
      have hleave : c.run.proceed random = c.run.leave fault? := by rw [Run.proceed, hp]
      rw [Deed.does_closing hp] at he
      rw [hleave]
      refine ⟨ms, ?_⟩
      rw [he]
      exact ⟨rfl, ho, hu, rfl⟩
  | «over» fault? =>
      have hrest : c.run.proceed random = c.run := by rw [Run.proceed, hp]
      rw [hrest]
      exact ⟨[], rfl, ho, hu, ha⟩
  | looking | issuing | waiting t =>
      have hleft : c.run.phase.left = false := by rw [hp]; rfl
      have hover := Run.not_isOver_proceed hleft random
      rw [hp] at ha
      obtain ⟨ms, log, he⟩ := exists_done (d := .work) hu ha ho random
      refine ⟨ms, ?_⟩
      rw [he]
      refine ⟨rfl, ho, hu, ?_⟩
      show (if (c.run.proceed random).phase.left then _ else _) = (c.run.proceed random).phase.ahead
      cases he : (c.run.proceed random).phase with
      | «over» fault? => exact absurd ⟨fault?, he⟩ hover
      | _ => rfl

/-- What a run does in one move a course does in some. -/
theorem Follows.move (h : c.Follows r) (mv : Run.Move) :
    ∃ ms, (c.moves ms).Follows (r.move mv) := by
  cases mv with
  | proceed random => exact h.proceed random
  | act a =>
      obtain ⟨rfl, ho, hu, ha⟩ := h
      exact ⟨[.act a], rfl, ho, hu, ha⟩
  | tickDelay =>
      obtain ⟨rfl, ho, hu, ha⟩ := h
      exact ⟨[.tickDelay], rfl, ho, hu, ha⟩
  | tickSound =>
      obtain ⟨rfl, ho, hu, ha⟩ := h
      have hphase : (c.run.move .tickSound).phase = c.run.phase := Run.phase_stir .tickSound
      refine ⟨[.tickSound, .callSpeaker], ?_⟩
      show c.tickSound.callSpeaker.Follows (c.run.move .tickSound)
      have htick := c.run.machine.clocks.sound.tick_eq_lowered
      rw [tickSound_of_not_owes ho]
      cases hf : c.run.machine.clocks.sound.firesNext with
      | true =>
          rw [hf, if_pos rfl] at htick
          rw [callSpeaker_of_owes rfl]
          refine ⟨?_, rfl, hu, by rw [hphase]; exact ha⟩
          simp [hf, Run.move, Run.tickSound, Clocks.tickSound, htick, Run.time]
      | false =>
          rw [hf, if_neg Bool.false_ne_true] at htick
          rw [callSpeaker_of_not_owes rfl]
          refine ⟨?_, rfl, hu, by rw [hphase]; exact ha⟩
          simp [hf, Run.move, Run.tickSound, Clocks.tickSound, htick, Run.time]

/-- Every run is one of its courses, and once it is over the course is done. -/
theorem exists_moves {m : Machine} (hd : m.settings.delayHz ≠ 0) (hs : m.settings.soundHz ≠ 0)
    (entry : UInt16) (speaker : Speaker) (observer : Observer) (ms : List Run.Move) :
    ∃ ms', ((start m entry speaker observer).moves ms').run =
        (Run.start m entry speaker observer).moves ms ∧
      (((Run.start m entry speaker observer).moves ms).isOver →
        ((start m entry speaker observer).moves ms').Done) := by
  have hfollows : ∃ ms', ((start m entry speaker observer).moves ms').Follows
      ((Run.start m entry speaker observer).moves ms) := by
    induction ms using List.reverseRecOn with
    | nil => exact follows_start hd hs entry speaker observer
    | append_singleton ms mv ih =>
        obtain ⟨ms', hf⟩ := ih
        obtain ⟨ms'', hf'⟩ := hf.move mv
        rw [Run.moves_append_singleton]
        rw [← moves_append] at hf'
        exact ⟨_, hf'⟩
  obtain ⟨ms', hf⟩ := hfollows
  refine ⟨ms', hf.run, ?_⟩
  rintro ⟨fault?, hp⟩
  refine ⟨?_, hf.unseen⟩
  rw [hf.ahead, hp]
  rfl

end Course

end SuperChip
