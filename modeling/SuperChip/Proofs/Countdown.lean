import Mathlib.Data.List.Induction
import SuperChip.Clocks

/-!
# Laws of countdowns

A countdown is set, read and ticks, in any order.  As long as its callback does not fail,
its count is what it was set to last, less the ticks since then (`Steady.count_after`).

With a callback that returns, a countdown *fires* when a tick takes its count from one to
zero and at no other time (`Steady.calls_apply`).  So it was set to something between two
such ticks (`Steady.winds_between`), it has fired at most as often as it was set to
something (`Steady.calls_after_le`), and a number that it is set to makes it fire once in as
many ticks (`Steady.calls_after_set`).

The two timers of a machine are two countdowns, and each one does what it would do without
the other (`Clocks.delay_after`, `Clocks.sound_after`).
-/

namespace SuperChip

namespace Countdown

/-! ## What is done with a countdown -/

inductive Op where
  | set (count : UInt8)
  | get
  | tick
deriving DecidableEq

/-- What a countdown is set to, if it is set. -/
def Op.value? : Op → Option UInt8
  | .set count => some count
  | _ => none

/-- Whether a countdown is set to something to count down. -/
def Op.winds (op : Op) : Bool := op.value?.any (· ≠ 0)

def apply (c : Countdown) : Op → Countdown
  | .set count => c.set count
  | .get => c
  | .tick => c.tick

/-- What is read, if a countdown is read. -/
def answer (c : Countdown) : Op → Option UInt8
  | .get => some c.count
  | _ => none

def after (c : Countdown) (ops : List Op) : Countdown := ops.foldl apply c

/-- What a countdown was set to last, and zero if it was never set. -/
def latest (ops : List Op) : UInt8 := (ops.filterMap Op.value?).getLast?.getD 0

/-- The ticks since then, and all ticks if it was never set. -/
def since (ops : List Op) : Nat := (ops.reverse.takeWhile (·.value?.isNone)).count .tick

/-- A countdown whose worker ticks and is never brought down. -/
structure Steady (c : Countdown) : Prop where
  worker : c.worker = .ticking
  callback : c.callback ≠ some .fails

variable {c : Countdown} {ops : List Op}

theorem after_append_singleton (c : Countdown) (ops : List Op) (op : Op) :
    c.after (ops ++ [op]) = (c.after ops).apply op := by
  rw [after, List.foldl_append]
  rfl

theorem after_append (c : Countdown) (ops ops' : List Op) :
    c.after (ops ++ ops') = (c.after ops).after ops' := List.foldl_append

/-! ## One thing -/

/-- A tick takes one away, and calls the callback if that was the last one. -/
theorem Steady.tick_eq (h : c.Steady) : c.tick = { c with
    count := lower c.count,
    calls := c.calls + if c.count = 1 ∧ c.callback.isSome then 1 else 0 } := by
  obtain ⟨hw, hc⟩ := h
  obtain ⟨name, hz, callback, count, worker, calls⟩ := c
  cases hw
  by_cases h1 : count = 1
  · rcases callback with _ | _ | _
    · simp [tick, fire, h1]
    · simp [tick, fire, h1]
    · exact absurd rfl hc
  · simp [tick, h1]

theorem Steady.toNat_count_tick (h : c.Steady) : c.tick.count.toNat = c.count.toNat - 1 := by
  rw [count_tick h.worker, toNat_lower]

theorem Steady.callback_apply (h : c.Steady) (op : Op) : (c.apply op).callback = c.callback := by
  cases op with
  | set => rfl
  | get => rfl
  | tick =>
      show c.tick.callback = c.callback
      rw [h.tick_eq]

theorem Steady.apply (h : c.Steady) (op : Op) : (c.apply op).Steady where
  worker := by
    cases op with
    | set => exact h.worker
    | get => exact h.worker
    | tick => exact (congrArg Countdown.worker h.tick_eq).trans h.worker
  callback := by
    rw [h.callback_apply]
    exact h.callback

theorem Steady.calls_tick (h : c.Steady) (hc : c.callback = some .returns) :
    c.tick.calls = c.calls + if c.count.toNat = 1 then 1 else 0 := by
  have h1 : c.count = 1 ↔ c.count.toNat = 1 := UInt8.toNat_inj.symm
  rw [h.tick_eq]
  simp only [hc, Option.isSome_some, and_true, h1]

/-- A callback that returns is called when a tick takes the count from one to zero. -/
theorem Steady.calls_apply (h : c.Steady) (hc : c.callback = some .returns) (op : Op) :
    (c.apply op).calls =
      c.calls + if op = .tick ∧ c.count = 1 ∧ (c.apply op).count = 0 then 1 else 0 := by
  cases op with
  | set => rfl
  | get => rfl
  | tick =>
      have hone : c.count = 1 ↔ c.count.toNat = 1 := UInt8.toNat_inj.symm
      refine (h.calls_tick hc).trans ?_
      by_cases h1 : c.count = 1
      · have h0 : (c.apply .tick).count = 0 := by
          show c.tick.count = 0
          rw [count_tick h.worker, h1]
          rfl
        rw [if_pos (hone.mp h1), if_pos ⟨rfl, h1, h0⟩]
      · rw [if_neg fun hn => h1 (hone.mpr hn), if_neg fun hn => h1 hn.2.1]

/-! ## One thing after the other -/

theorem Steady.after (ops : List Op) : ∀ {c : Countdown}, c.Steady → (c.after ops).Steady := by
  induction ops with
  | nil => exact id
  | cons op ops ih => exact fun h => ih (h.apply op)

theorem Steady.callback_after (ops : List Op) :
    ∀ {c : Countdown}, c.Steady → (c.after ops).callback = c.callback := by
  induction ops with
  | nil => exact fun _ => rfl
  | cons op ops ih => exact fun h => (ih (h.apply op)).trans (h.callback_apply op)

theorem latest_append_singleton (ops : List Op) (op : Op) :
    latest (ops ++ [op]) = op.value?.getD (latest ops) := by
  cases op <;> simp [latest, Op.value?]

theorem since_append_set (ops : List Op) (count : UInt8) : since (ops ++ [.set count]) = 0 := by
  unfold since
  rw [List.reverse_append]
  rfl

theorem since_append_of_ne_set {op : Op} (h : op.value? = none) (ops : List Op) :
    since (ops ++ [op]) = since ops + if op = .tick then 1 else 0 := by
  unfold since
  rw [List.reverse_append, List.reverse_singleton, List.singleton_append, List.takeWhile_cons, h]
  cases op <;> simp

/-- The count is what a countdown was set to last, less the ticks since then. -/
theorem Steady.count_after (h : c.Steady) (h0 : c.count = 0) (ops : List Op) :
    (c.after ops).count.toNat = (latest ops).toNat - since ops := by
  induction ops using List.reverseRecOn with
  | nil => exact congrArg UInt8.toNat h0
  | append_singleton ops op ih =>
      rw [after_append_singleton, latest_append_singleton]
      cases op with
      | set count =>
          rw [since_append_set]
          rfl
      | get =>
          rw [since_append_of_ne_set rfl]
          exact ih
      | tick =>
          rw [since_append_of_ne_set rfl]
          show (c.after ops).tick.count.toNat = (latest ops).toNat - (since ops + 1)
          rw [(h.after ops).toNat_count_tick, ih, Nat.sub_sub]

/-! ## Stretches without a set -/

/-- The next thing sets nothing, and neither does what comes after it. -/
theorem forall_set_not_mem_cons {op : Op} :
    (∀ count, .set count ∉ op :: ops) ↔ op.value? = none ∧ ∀ count, .set count ∉ ops := by
  cases op with
  | set count =>
      constructor
      · exact fun h => absurd List.mem_cons_self (h count)
      · rintro ⟨h, -⟩
        cases h
  | get | tick => simp [Op.value?]

/-- While it is not set, a countdown loses one with every tick. -/
theorem Steady.count_after_of_no_set (ops : List Op) : ∀ {c : Countdown}, c.Steady →
    (∀ count, .set count ∉ ops) →
    (c.after ops).count.toNat = c.count.toNat - ops.count .tick := by
  induction ops with
  | nil => exact fun _ _ => rfl
  | cons op ops ih =>
      intro c h hn
      obtain ⟨hop, hn⟩ := forall_set_not_mem_cons.mp hn
      have hi := ih (h.apply op) hn
      cases op with
      | set count => cases hop
      | get => exact hi
      | tick =>
          rw [List.count_cons_self, Nat.add_comm, ← Nat.sub_sub, ← h.toNat_count_tick]
          exact hi

/-- While it is not set, a countdown fires once it has come to zero, if it was not there. -/
theorem Steady.calls_after_of_no_set (ops : List Op) : ∀ {c : Countdown}, c.Steady →
    c.callback = some .returns → (∀ count, .set count ∉ ops) →
    (c.after ops).calls =
      c.calls + if 0 < c.count.toNat ∧ c.count.toNat ≤ ops.count .tick then 1 else 0 := by
  induction ops with
  | nil =>
      intro c _ _ _
      rw [if_neg fun hn => Nat.not_lt_of_le hn.2 hn.1]
      rfl
  | cons op ops ih =>
      intro c h hc hn
      obtain ⟨hop, hn⟩ := forall_set_not_mem_cons.mp hn
      have hi := ih (h.apply op) ((h.callback_apply op).trans hc) hn
      cases op with
      | set count => cases hop
      | get => exact hi
      | tick =>
          have hcalls : (c.apply .tick).calls = c.calls + if c.count.toNat = 1 then 1 else 0 :=
            h.calls_tick hc
          have hcount : (c.apply .tick).count.toNat = c.count.toNat - 1 := h.toNat_count_tick
          refine hi.trans ?_
          rw [hcalls, hcount, List.count_cons_self]
          -- the next tick is the one that fires, or a later one is, or none is
          split <;> split <;> split <;> omega

/-- Nothing to count down comes from nothing. -/
theorem Steady.count_after_of_zero (ops : List Op) : ∀ {c : Countdown}, c.Steady →
    c.count = 0 → (∀ op ∈ ops, op.winds = false) → (c.after ops).count = 0 := by
  induction ops with
  | nil => exact fun _ h0 _ => h0
  | cons op ops ih =>
      intro c h h0 hw
      refine ih (h.apply op) ?_ fun op' hm => hw op' (List.mem_cons_of_mem _ hm)
      have hop := hw op List.mem_cons_self
      cases op with
      | set count =>
          show count = 0
          simpa [Op.winds, Op.value?] using hop
      | get => exact h0
      | tick =>
          show c.tick.count = 0
          rw [count_tick h.worker, h0]
          rfl

/-! ## How often a countdown fires -/

/-- One for a count that is still to come to zero. -/
def pending (c : Countdown) : Nat := if c.count = 0 then 0 else 1

theorem Steady.calls_apply_le (h : c.Steady) (hc : c.callback = some .returns) (op : Op) :
    (c.apply op).calls + (c.apply op).pending ≤
      c.calls + c.pending + if op.winds then 1 else 0 := by
  cases op with
  | get => exact Nat.le_refl _
  | set count =>
      show c.calls + (if count = 0 then 0 else 1) ≤ _
      by_cases h0 : count = 0
      · rw [if_pos h0]
        omega
      · have hw : (Op.set count).winds = true := by simpa [Op.winds, Op.value?] using h0
        rw [if_neg h0, hw, if_pos rfl]
        omega
  | tick =>
      show c.tick.calls + c.tick.pending ≤ c.calls + c.pending
      have hp (c : Countdown) : c.pending = if c.count.toNat = 0 then 0 else 1 := by
        unfold pending
        simp only [← UInt8.toNat_inj]
        rfl
      rw [hp, hp, h.calls_tick hc, h.toNat_count_tick]
      split <;> split <;> split <;> omega

/-- What a countdown was set to has fired, is still to come, or was given up. -/
theorem Steady.calls_after_le (h : c.Steady) (hc : c.callback = some .returns) (ops : List Op) :
    (c.after ops).calls + (c.after ops).pending ≤ c.calls + c.pending + ops.countP Op.winds := by
  induction ops using List.reverseRecOn with
  | nil => exact Nat.le_refl _
  | append_singleton ops op ih =>
      rw [after_append_singleton, List.countP_append, List.countP_singleton, ← Nat.add_assoc]
      have hop := (h.after ops).calls_apply_le ((h.callback_after ops).trans hc) op
      exact Nat.le_trans hop (Nat.add_le_add_right ih _)

/-- The tick after these things calls the callback. -/
def Fires (c : Countdown) (ops : List Op) : Prop :=
  (c.after (ops ++ [.tick])).calls = (c.after ops).calls + 1

theorem Steady.count_of_fires (h : c.Steady) (hc : c.callback = some .returns)
    (hf : c.Fires ops) : (c.after ops).count = 1 ∧ (c.after (ops ++ [.tick])).count = 0 := by
  unfold Fires at hf
  rw [after_append_singleton] at hf ⊢
  rw [(h.after ops).calls_apply ((h.callback_after ops).trans hc)] at hf
  by_cases hn : Op.tick = .tick ∧ (c.after ops).count = 1 ∧ ((c.after ops).apply .tick).count = 0
  · exact hn.2
  · rw [if_neg hn] at hf
    omega

/-- Between two calls of its callback a countdown is set to something. -/
theorem Steady.winds_between {ops' : List Op} (h : c.Steady) (hc : c.callback = some .returns)
    (hf : c.Fires ops) (hf' : c.Fires (ops ++ .tick :: ops')) : ∃ op ∈ ops', op.winds = true := by
  by_contra hn
  have h0 := (h.count_of_fires hc hf).2
  have h1 := (h.count_of_fires hc hf').1
  have hzero := (h.after (ops ++ [.tick])).count_after_of_zero ops' h0 fun op hm =>
    Bool.eq_false_iff.mpr fun hw => hn ⟨op, hm, hw⟩
  rw [← after_append, List.append_assoc, List.singleton_append, h1] at hzero
  cases hzero

/-- What a countdown is set to is counted down to one call of its callback. -/
theorem Steady.calls_after_set {v : UInt8} (h : c.Steady) (hc : c.callback = some .returns)
    (hv : v ≠ 0) (hn : ∀ count, .set count ∉ ops) (hle : v.toNat ≤ ops.count .tick) :
    (c.after (.set v :: ops)).calls = c.calls + 1 := by
  have hpos : 0 < v.toNat := Nat.pos_of_ne_zero fun he => hv (UInt8.toNat_inj.mp he)
  have hset := (h.apply (.set v)).calls_after_of_no_set ops hc hn
  exact hset.trans (congrArg _ (if_pos ⟨hpos, hle⟩))

/-- A countdown begins at zero and ticks. -/
theorem steady_of_start {name : String} {hz : UInt32} {callback : Option Callback}
    {entries : List Journal.Entry} (h : start name hz callback = .ok (c, entries))
    (hc : callback ≠ some .fails) :
    c.Steady ∧ c.callback = callback ∧ c.count = 0 ∧ c.calls = 0 := by
  unfold start at h
  split at h
  · cases h
  · cases h
    exact ⟨⟨rfl, hc⟩, rfl, rfl, rfl⟩

end Countdown

/-! ## Two countdowns -/

namespace Clocks

/-- Something done with one of the two timers. -/
inductive Op where
  | delay (op : Countdown.Op)
  | sound (op : Countdown.Op)
deriving DecidableEq

def Op.delay? : Op → Option Countdown.Op
  | .delay op => some op
  | .sound _ => none

def Op.sound? : Op → Option Countdown.Op
  | .delay _ => none
  | .sound op => some op

def apply (c : Clocks) : Op → Clocks
  | .delay (.set count) => c.setDelay count
  | .delay .tick => c.tickDelay
  | .sound (.set count) => c.setSound count
  | .sound .tick => c.tickSound
  | .delay .get | .sound .get => c

def after (c : Clocks) (ops : List Op) : Clocks := ops.foldl apply c

/-- The delay does what it would do alone. -/
theorem delay_after (ops : List Op) :
    ∀ c : Clocks, (c.after ops).delay = c.delay.after (ops.filterMap Op.delay?) := by
  induction ops with
  | nil => exact fun c => rfl
  | cons op ops ih =>
      intro c
      refine (ih (c.apply op)).trans ?_
      cases op with
      | delay op => cases op <;> rfl
      | sound op => cases op <;> rfl

/-- So does the sound. -/
theorem sound_after (ops : List Op) :
    ∀ c : Clocks, (c.after ops).sound = c.sound.after (ops.filterMap Op.sound?) := by
  induction ops with
  | nil => exact fun c => rfl
  | cons op ops ih =>
      intro c
      refine (ih (c.apply op)).trans ?_
      cases op with
      | delay op => cases op <;> rfl
      | sound op => cases op <;> rfl

end Clocks

end SuperChip
