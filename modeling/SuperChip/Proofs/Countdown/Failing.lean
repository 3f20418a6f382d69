import SuperChip.Proofs.Countdown

/-!
# Callbacks that fail

A countdown that began at zero *runs out* when a tick takes its count from one to zero, which is
decided by what it was set to last and by the ticks since then.  With a callback that fails it
counts like any other until it has run out (`Live.after`).  The tick at which it runs out calls
the callback and brings the worker down.  From then on the count is what it was set to since,
and the callback is not called any more (`Fallen.after`).

A countdown can be stopped or given up.  Either way it waits for its worker, and the journal
says once that the callback has failed, just if it has (`Live.uncalled`, `Live.calledOnce`).

If the sound cannot be started, the delay was started before it and is given up
(`Clocks.attempt`).
-/

namespace SuperChip

namespace Countdown

variable {c : Countdown} {ops : List Op} {op : Op}

/-! ## Running out -/

/-- What is left of what a countdown was set to last, if all ticks since then took one away. -/
def remaining (ops : List Op) : Nat := (latest ops).toNat - since ops

/-- A countdown has run out: one of the ticks has taken the last one away. -/
def HasRunOut (ops : List Op) : Prop :=
  ∃ before rest, ops = before ++ .tick :: rest ∧ remaining before = 1

/-- Setting the count starts anew. -/
theorem remaining_append_set (ops : List Op) (count : UInt8) :
    remaining (ops ++ [.set count]) = count.toNat := by
  rw [remaining, latest_append_singleton, since_append_set]
  rfl

/-- Looking at the count leaves it. -/
theorem remaining_append_get (ops : List Op) : remaining (ops ++ [.get]) = remaining ops := by
  rw [remaining, latest_append_singleton, since_append_of_ne_set rfl]
  rfl

/-- A tick takes one away, down to zero. -/
theorem remaining_append_tick (ops : List Op) :
    remaining (ops ++ [.tick]) = remaining ops - 1 := by
  rw [remaining, latest_append_singleton, since_append_of_ne_set rfl]
  exact (Nat.sub_sub _ _ 1).symm

theorem not_hasRunOut_nil : ¬HasRunOut [] := by
  rintro ⟨before, rest, he, -⟩
  cases before <;> cases he

/-- A count runs out with a tick at one. -/
theorem hasRunOut_append_singleton :
    HasRunOut (ops ++ [op]) ↔ HasRunOut ops ∨ op = .tick ∧ remaining ops = 1 := by
  constructor
  · rintro ⟨before, rest, he, hr⟩
    rcases List.eq_nil_or_concat rest with rfl | ⟨rest, op', rfl⟩
    · obtain ⟨rfl, ho⟩ := List.append_inj' he rfl
      exact .inr ⟨List.singleton_inj.mp ho, hr⟩
    · rw [List.concat_eq_append, ← List.cons_append, ← List.append_assoc] at he
      exact .inl ⟨before, rest, (List.append_inj' he rfl).1, hr⟩
  · rintro (⟨before, rest, rfl, hr⟩ | ⟨rfl, hr⟩)
    · exact ⟨before, rest ++ [op], by simp, hr⟩
    · exact ⟨ops, [], rfl, hr⟩

/-- What has run out has done so a first time. -/
theorem HasRunOut.exists_first (h : HasRunOut ops) :
    ∃ before rest, ops = before ++ .tick :: rest ∧ ¬HasRunOut before ∧ remaining before = 1 := by
  induction ops using List.reverseRecOn with
  | nil => exact absurd h not_hasRunOut_nil
  | append_singleton ops op ih =>
      by_cases ho : HasRunOut ops
      · obtain ⟨before, rest, rfl, hn, hr⟩ := ih ho
        exact ⟨before, rest ++ [op], by simp, hn, hr⟩
      · obtain ⟨rfl, hr⟩ := (hasRunOut_append_singleton.mp h).resolve_left ho
        exact ⟨ops, [], rfl, ho, hr⟩

/-! ## Before and after the call -/

/-- A countdown whose callback would fail and was not called yet. -/
structure Live (c : Countdown) : Prop where
  worker : c.worker = .ticking
  callback : c.callback = some .fails
  calls : c.calls = 0

/-- A countdown whose callback was called once, and has brought the worker down. -/
structure Fallen (c : Countdown) : Prop where
  worker : c.worker = .down
  calls : c.calls = 1

/-- A countdown stays live until its count runs out. -/
theorem Live.apply (h : c.Live) (hop : op = .tick → c.count ≠ 1) : (c.apply op).Live := by
  cases op with
  | set | get => exact ⟨h.worker, h.callback, h.calls⟩
  | tick =>
      show c.tick.Live
      rw [tick, if_pos h.worker, if_neg (hop rfl)]
      exact ⟨h.worker, h.callback, h.calls⟩

/-- The tick that runs out brings the worker down. -/
theorem Live.fallen_tick (h : c.Live) (hc : c.count = 1) : c.tick.Fallen := by
  rw [tick, if_pos h.worker, if_pos hc, fire, h.callback]
  exact ⟨rfl, congrArg (· + 1) h.calls⟩

/-- A worker that was brought down stays down. -/
theorem Fallen.apply (h : c.Fallen) (op : Op) : (c.apply op).Fallen := by
  cases op with
  | set | get => exact ⟨h.worker, h.calls⟩
  | tick =>
      show c.tick.Fallen
      rw [tick_of_not_ticking (by rw [h.worker]; decide)]
      exact h

/-- Without a worker the count changes only when it is set. -/
theorem Fallen.count_apply (h : c.Fallen) (op : Op) :
    (c.apply op).count = op.value?.getD c.count := by
  cases op with
  | set | get => rfl
  | tick => exact congrArg Countdown.count (tick_of_not_ticking (by rw [h.worker]; decide))

/-- Until it runs out, a countdown counts like any other. -/
theorem Live.after (h : c.Live) (h0 : c.count = 0) (hn : ¬HasRunOut ops) :
    (c.after ops).Live ∧ (c.after ops).count.toNat = remaining ops := by
  induction ops using List.reverseRecOn with
  | nil => exact ⟨h, congrArg UInt8.toNat h0⟩
  | append_singleton ops op ih =>
      obtain ⟨ho, hop⟩ := not_or.mp (hasRunOut_append_singleton.not.mp hn)
      obtain ⟨hl, hc⟩ := ih ho
      rw [after_append_singleton]
      refine ⟨hl.apply fun ht h1 => hop ⟨ht, ?_⟩, ?_⟩
      · rw [← hc, h1]
        rfl
      · cases op with
        | set count => exact (remaining_append_set ops count).symm
        | get => exact hc.trans (remaining_append_get ops).symm
        | tick =>
            show (c.after ops).tick.count.toNat = _
            rw [count_tick hl.worker, toNat_lower, hc, remaining_append_tick]

/-- The tick that takes the last one away calls the callback. -/
theorem Live.fallen_after (h : c.Live) (h0 : c.count = 0) (hn : ¬HasRunOut ops)
    (hr : remaining ops = 1) :
    (c.after ops).count = 1 ∧ (c.after (ops ++ [.tick])).Fallen ∧
      (c.after (ops ++ [.tick])).count = 0 := by
  obtain ⟨hl, hc⟩ := h.after h0 hn
  have h1 : (c.after ops).count = 1 := UInt8.toNat_inj.mp (hc.trans hr)
  rw [after_append_singleton]
  refine ⟨h1, hl.fallen_tick h1, ?_⟩
  show (c.after ops).tick.count = 0
  rw [count_tick hl.worker, h1]
  rfl

/-- From then on the callback is not called any more, and the count is what it was set to. -/
theorem Fallen.after (h : c.Fallen) (h0 : c.count = 0) (ops : List Op) :
    (c.after ops).Fallen ∧ (c.after ops).count = latest ops := by
  induction ops using List.reverseRecOn with
  | nil => exact ⟨h, h0⟩
  | append_singleton ops op ih =>
      obtain ⟨hf, hc⟩ := ih
      rw [after_append_singleton, latest_append_singleton, ← hc]
      exact ⟨hf.apply op, hf.count_apply op⟩

/-! ## The end -/

/-- Whether it is stopped or given up, a countdown waits for its worker, leaves the count and
the calls as they are, and puts entries into the journal. -/
structure EndsWith (c : Countdown) (entries : List Journal.Entry) : Prop where
  stop : c.stop = ({ c with worker := .ended }, entries)
  drop : c.drop = ({ c with worker := .ended }, entries)

theorem endsWith_of_finish {entries : List Journal.Entry}
    (h : c.finish = ({ c with worker := .ended }, entries)) : c.EndsWith entries :=
  ⟨c.stop_eq_finish.trans h, h⟩

theorem endsWith_of_ticking (h : c.worker = .ticking) : c.EndsWith [] :=
  endsWith_of_finish (by rw [finish, h])

/-- The end of a countdown that was brought down says so. -/
theorem Fallen.ends (h : c.Fallen) : c.EndsWith [.callbackFailed] :=
  endsWith_of_finish (by rw [finish, h.worker])

/-! ## The course of things -/

/-- A countdown whose callback fails was not called: it has not run out. -/
structure Uncalled (c : Countdown) (ops : List Op) : Prop where
  notRunOut : ¬HasRunOut ops
  calls : (c.after ops).calls = 0
  /-- The count is what it was set to last, less the ticks since then. -/
  count : (c.after ops).count.toNat = remaining ops
  /-- Nothing is told at the end. -/
  ends : (c.after ops).EndsWith []

/-- A countdown whose callback fails was called once, by the tick between these and those. -/
structure CalledOnce (c : Countdown) (before rest : List Op) : Prop where
  /-- It is the first tick that takes the count from one to zero. -/
  first : ¬HasRunOut before
  one : (c.after before).count = 1
  zero : (c.after (before ++ [.tick])).count = 0
  calls_before : (c.after before).calls = 0
  calls_tick : (c.after (before ++ [.tick])).calls = 1
  /-- No later tick calls it again. -/
  calls : (c.after (before ++ .tick :: rest)).calls = 1
  /-- What is read is what it was set to since the call, and zero if it was not set. -/
  answer : (c.after (before ++ .tick :: rest)).answer .get = some (latest rest)
  /-- The failure is told once at the end. -/
  ends : (c.after (before ++ .tick :: rest)).EndsWith [.callbackFailed]

/-- Nothing was called before the count runs out. -/
theorem Live.uncalled (h : c.Live) (h0 : c.count = 0) (hn : ¬HasRunOut ops) : c.Uncalled ops := by
  obtain ⟨hl, hc⟩ := h.after h0 hn
  exact ⟨hn, hl.calls, hc, endsWith_of_ticking hl.worker⟩

/-- The callback was called once when the count has run out. -/
theorem Live.calledOnce (h : c.Live) (h0 : c.count = 0) (hn : ¬HasRunOut ops)
    (hr : remaining ops = 1) (rest : List Op) : c.CalledOnce ops rest := by
  obtain ⟨hone, hf, hzero⟩ := h.fallen_after h0 hn hr
  have he : c.after (ops ++ .tick :: rest) = (c.after (ops ++ [.tick])).after rest := by
    rw [← after_append, List.append_assoc, List.singleton_append]
  obtain ⟨hf', hc⟩ := hf.after hzero rest
  rw [← he] at hf' hc
  exact ⟨hn, hone, hzero, (h.after h0 hn).1.calls, hf.calls, hf'.calls, congrArg some hc, hf'.ends⟩

/-- Either the count has not run out yet, or it has, at one of the ticks. -/
theorem Live.course (h : c.Live) (h0 : c.count = 0) (ops : List Op) :
    c.Uncalled ops ∨ ∃ before rest, ops = before ++ .tick :: rest ∧ c.CalledOnce before rest := by
  by_cases hr : HasRunOut ops
  · obtain ⟨before, rest, rfl, hn, h1⟩ := hr.exists_first
    exact .inr ⟨before, rest, rfl, h.calledOnce h0 hn h1 rest⟩
  · exact .inl (h.uncalled h0 hr)

end Countdown

/-! ## Two countdowns -/

namespace Clocks

/-- Counting down with a callback that fails whenever it is called, and starting two timers of
which one may not start.  After a countdown was started and then was set, read and has ticked in
any way, either nothing was called, or the first tick that took its count from one to zero has
called the callback, and no other one has.  Stopping it and giving it up tell of the failure
once, just if there was one.  Two timers are both started, the delay first; if only the sound
cannot be, the delay is over again, and no stop of the timers is told. -/
theorem failing_callback_lifecycle :
    (∀ (name : String) (hz : UInt32) (callback : Option Callback), hz ≠ 0 →
      ∃ c, Countdown.start name hz callback = .ok (c, [.timerStarted name hz]) ∧
        (callback ≠ some .fails → ∀ ops, (c.after ops).EndsWith []) ∧
        (callback = some .fails → ∀ ops, c.Uncalled ops ∨
          ∃ before rest, ops = before ++ .tick :: rest ∧ c.CalledOnce before rest)) ∧
    Journal.Entry.callbackFailed.line = "WARN timer callback panicked" ∧
    ∀ (delayHz soundHz : UInt32) (onSound : Callback),
      let started := attempt delayHz soundHz onSound
      started.1 = start delayHz soundHz onSound ∧
        (delayHz = 0 →
          started = (⟨.error (.badSettings (.timerWithoutTicks "delay")), []⟩, [])) ∧
        (delayHz ≠ 0 → ∃ delay,
          Countdown.start "delay" delayHz none = .ok (delay, [.timerStarted "delay" delayHz]) ∧
          (soundHz = 0 →
            started = (⟨.error (.badSettings (.timerWithoutTicks "sound")),
              [.timerStarted "delay" delayHz]⟩, [{ delay with worker := .ended }])) ∧
          (soundHz ≠ 0 → ∃ sound,
            Countdown.start "sound" soundHz (some onSound) =
              .ok (sound, [.timerStarted "sound" soundHz]) ∧
            started = (⟨.ok ⟨delay, sound⟩,
              [.timerStarted "delay" delayHz, .timerStarted "sound" soundHz]⟩,
              [delay, sound]))) := by
  refine ⟨?_, by decide, ?_⟩
  · intro name hz callback hz0
    refine ⟨_, Countdown.start_of_ne_zero hz0, fun hc ops => ?_, ?_⟩
    · exact Countdown.endsWith_of_ticking (Countdown.Steady.after ops ⟨rfl, hc⟩).worker
    · rintro rfl ops
      exact Countdown.Live.course ⟨rfl, rfl, rfl⟩ rfl ops
  · intro delayHz soundHz onSound started
    refine ⟨rfl, ?_,
      fun hd => ⟨_, Countdown.start_of_ne_zero hd, ?_, ?_⟩⟩
    · rintro rfl
      exact attempt_zero soundHz onSound
    · rintro rfl
      exact attempt_of_sound_zero hd onSound
    · exact fun hs => ⟨_, Countdown.start_of_ne_zero hs, attempt_of_ne_zero hd hs onSound⟩

/-- A countdown that is set to two has failed behind two ticks, and is told of once, also if it
is set and ticks again. -/
theorem failing_callback_lifecycle_of_two_ticks :
    ∃ c, Countdown.start "sound" 60 (some .fails) = .ok (c, [.timerStarted "sound" 60]) ∧
      (∃ before rest, [.set 2, .tick, .get, .tick, .set 1, .tick] = before ++ .tick :: rest ∧
        c.CalledOnce before rest) ∧
      (attempt 60 0 .fails).2 = [⟨"delay", 60, none, 0, .ended, 0⟩] := by
  obtain ⟨hcount, -, hclocks⟩ := failing_callback_lifecycle
  obtain ⟨c, hc, -, hf⟩ := hcount "sound" 60 (some .fails) (by decide)
  refine ⟨c, hc, ?_, ?_⟩
  · refine (hf rfl _).resolve_left fun h => h.notRunOut ?_
    exact ⟨[.set 2, .tick, .get], [.set 1, .tick], rfl, rfl⟩
  · obtain ⟨-, -, h⟩ := hclocks 60 0 .fails
    obtain ⟨delay, hd, hs, -⟩ := h (by decide)
    cases hd
    exact congrArg Prod.snd (hs rfl)

end Clocks

end SuperChip
