import SuperChip.Proofs.Keypad.Shared

/-!
# What becomes of a press

A key is pressed while a waiter is in its wait, asleep or roused and not yet back at the
keypad.  The hand that pressed it owes a call, so the waiter is *due*: it is roused already,
or that call will rouse it (`due_turns?`).  Nothing keeps it from its next look then.

That look decides, and it finds the keypad as it is by then.  A release that comes in between
takes the key away again and makes no call of its own.  So the press ends the wait unless the
key was let go, none was pressed since, and the machine is not shut down
(`press_ends_wait_iff`).  A waiter that misses a press this way sleeps until somebody presses
a key again or shuts the machine down (`press_missed`).
-/

namespace SuperChip.Keypad.Shared

variable {s s' : Shared} {t : Turn} {ts : List Turn} {w hand : Nat}

/-! ## On the way to the next look -/

/-- Until it looks, a waiter in its wait sleeps on or is roused, and it does not sleep through
a call. -/
theorem Takes.waiter (h : s.Takes t s') (hw : s.waiter w = .parked ∨ s.waiter w = .looking)
    (hl : t ≠ .look w) :
    s'.waiter w = .looking ∨
      s.waiter w = .parked ∧ s'.waiter w = .parked ∧ ∀ other, t ≠ .call other := by
  have stays (hn : s'.waiter w = s.waiter w) (hc : ∀ other, t ≠ .call other) :
      s'.waiter w = .looking ∨
        s.waiter w = .parked ∧ s'.waiter w = .parked ∧ ∀ other, t ≠ .call other := by
    rcases hw with hw | hw
    · exact .inr ⟨hw, hn.trans hw, hc⟩
    · exact .inl (hn.trans hw)
  cases h with
  | @enter v _ | @stir v _ =>
      by_cases hv : w = v
      · exact .inl (if_pos hv)
      · exact stays (if_neg hv) (by simp)
  | @park v _ _ | @answer v _ _ =>
      have hv : w ≠ v := fun e => hl (by rw [e])
      exact stays (if_neg hv) (by simp)
  | act => exact stays rfl (by simp)
  | call =>
      left
      show roused (s.waiter w) = .looking
      rcases hw with hw | hw <;> rw [hw] <;> rfl

/-- A hand owes a call until it makes it. -/
theorem Takes.owes (h : s.Takes t s') (ho : s.owes hand = true) (hc : t ≠ .call hand) :
    s'.owes hand = true := by
  cases h with
  | @act actor _ hn =>
      have hne : hand ≠ actor := by
        rintro rfl
        rw [hn] at ho
        cases ho
      exact (if_neg hne).trans ho
  | @call caller _ =>
      have hne : hand ≠ caller := fun e => hc (by rw [e])
      exact (if_neg hne).trans ho
  | _ => exact ho

/-- While a hand owes a call, a waiter in its wait is roused, or it sleeps, the call is still
owed, and no other was made. -/
theorem due_turns? {s₀ : Shared} (hw : s₀.waiter w = .parked ∨ s₀.waiter w = .looking)
    (ho : s₀.owes hand = true) : ∀ {s : Shared}, s₀.turns? ts = some s → .look w ∉ ts →
      s.waiter w = .looking ∨
        s.waiter w = .parked ∧ s.owes hand = true ∧ ∀ other, .call other ∉ ts := by
  induction ts using List.reverseRecOn with
  | nil =>
      intro s hs _
      cases hs
      rcases hw with hw | hw
      · exact .inr ⟨hw, ho, fun _ => List.not_mem_nil⟩
      · exact .inl hw
  | append_singleton ts t ih =>
      intro s hs hl
      rw [List.mem_append, List.mem_singleton, not_or] at hl
      obtain ⟨s₁, hs₁, ht⟩ := turns?_append_singleton.mp hs
      rcases ih hs₁ hl.1 with h₁ | ⟨h₁, howes, hnone⟩
      · rcases ht.waiter (.inr h₁) (Ne.symm hl.2) with h | ⟨h, -⟩
        · exact .inl h
        · rw [h₁] at h
          cases h
      · rcases ht.waiter (.inl h₁) (Ne.symm hl.2) with h | ⟨-, h, hcall⟩
        · exact .inl h
        · refine .inr ⟨h, ht.owes howes (hcall hand), fun other hm => ?_⟩
          rw [List.mem_append, List.mem_singleton] at hm
          rcases hm with hm | hm
          · exact hnone other hm
          · exact hcall other hm.symm

/-! ## The next look -/

/-- A roused waiter can always look, and sleeps again just when there is nothing to find. -/
theorem exists_look (h : s.waiter w = .looking) :
    ∃ s', s.turn? (.look w) = some s' ∧
      (s.keypad.wait ≠ .blocked → s'.waiter w = .answered s.keypad.wait) ∧
      (s.keypad.wait = .blocked → s'.waiter w = .parked) := by
  by_cases hb : s.keypad.wait = .blocked
  · exact ⟨_, turn?_of_takes (.park h hb), fun hn => absurd hb hn, fun _ => if_pos rfl⟩
  · exact ⟨_, turn?_of_takes (.answer h hb), fun _ => if_pos rfl, fun hn => absurd hn hb⟩

theorem held_press {k : Keypad} {position : Nat} (h : position < 16) :
    (k.act (.press position)).held ≠ none := by
  simp [act, press, h]

theorem isShutdown_press {k : Keypad} {position : Nat} :
    (k.act (.press position)).isShutdown = k.isShutdown := by
  simp only [act, press]
  split <;> rfl

/-- A key is pressed while a waiter is in its wait.  However things go on until the waiter
looks, the hand that pressed the key still owes the call that rouses it, or the waiter is
roused and can look.  The look ends its wait, unless the machine is not shut down and the
latest thing done to the keys since then is a release. -/
theorem press_ends_wait_iff {position : Nat} {s₀ s₁ : Shared}
    (hw : s₀.waiter w = .parked ∨ s₀.waiter w = .looking) (hp : position < 16)
    (h₁ : s₀.turn? (.act hand (.press position)) = some s₁) (h : s₁.turns? ts = some s)
    (hl : .look w ∉ ts) :
    (s.waiter w = .parked ∧ (∀ other, .call other ∉ ts) ∧
        ∃ s', s.turn? (.call hand) = some s' ∧ s'.waiter w = .looking) ∨
      s.waiter w = .looking ∧ ∃ s', s.turn? (.look w) = some s' ∧
        ((∃ found, s'.waiter w = .answered found) ↔
          s₀.keypad.isShutdown = true ∨ .shutdown ∈ actions ts ∨
            latest (actions ts) ≠ some .release) := by
  have ht := takes_of_turn? h₁
  have hwaits : s₁.waiter w = .parked ∨ s₁.waiter w = .looking := by
    cases ht with
    | act _ => exact hw
  have howes : s₁.owes hand = true := by
    cases ht with
    | act _ => exact (if_pos rfl).trans (decide_eq_true hp)
  rcases due_turns? hwaits howes h hl with hlook | ⟨hpark, ho, hnone⟩
  · refine .inr ⟨hlook, ?_⟩
    obtain ⟨s', hs', hanswered, hparked⟩ := exists_look hlook
    refine ⟨s', hs', ?_⟩
    have hkeypad : s.keypad = (s₀.keypad.act (.press position)).acts (actions ts) := by
      rw [keypad_turns? h, ht.keypad]
      rfl
    have hblocked : s.keypad.wait = .blocked ↔ s₀.keypad.isShutdown = false ∧
        .shutdown ∉ actions ts ∧ latest (actions ts) = some .release := by
      rw [hkeypad, wait_acts_eq_blocked_iff (held_press hp), isShutdown_press]
    have hends : (∃ found, s'.waiter w = .answered found) ↔ s.keypad.wait ≠ .blocked := by
      constructor
      · rintro ⟨found, hf⟩ hb
        rw [hparked hb] at hf
        cases hf
      · exact fun hb => ⟨_, hanswered hb⟩
    rw [hends, Ne, hblocked, not_and_or, not_and_or, Bool.not_eq_false, not_not]
  · have hcall := Takes.call (s := s) ho
    refine .inl ⟨hpark, hnone, _, turn?_of_takes hcall, ?_⟩
    show roused (s.waiter w) = .looking
    rw [hpark]
    rfl

/-- The key is let go and another one is pressed before the waiter is back. -/
theorem press_ends_wait_after_another :
    ∃ s₀ s₁ s s', (start (.untouched 0)).turns? [.enter 0, .look 0] = some s₀ ∧
      s₀.waiter 0 = .parked ∧ s₀.turn? (.act 1 (.press 5)) = some s₁ ∧
      s₁.turns? [.call 1, .act 2 .release, .act 1 (.press 13)] = some s ∧
      s.turn? (.look 0) = some s' ∧ ∃ found, s'.waiter 0 = .answered found := by
  obtain ⟨s₀, h₀⟩ : ∃ s₀, (start (.untouched 0)).turns? [.enter 0, .look 0] = some s₀ := ⟨_, rfl⟩
  obtain ⟨s₁, h₁⟩ : ∃ s₁, s₀.turn? (.act 1 (.press 5)) = some s₁ := by
    cases h₀
    exact ⟨_, rfl⟩
  obtain ⟨s, h⟩ : ∃ s, s₁.turns? [.call 1, .act 2 .release, .act 1 (.press 13)] = some s := by
    cases h₀
    cases h₁
    exact ⟨_, rfl⟩
  have hpark : s₀.waiter 0 = .parked := by
    cases h₀
    rfl
  refine ⟨s₀, s₁, s, ?_⟩
  rcases press_ends_wait_iff (.inl hpark) (by decide) h₁ h (by decide) with
    ⟨-, hnone, -⟩ | ⟨-, s', hs', hiff⟩
  · exact absurd List.mem_cons_self (hnone 1)
  · exact ⟨s', h₀, hpark, h₁, h, hs', hiff.mpr (.inr (.inr (by decide)))⟩

/-! ## A press that is missed -/

/-- While nobody does anything that ends waits, no wait ends. -/
theorem not_answered_turns? {s₀ : Shared} (hb : s₀.keypad.wait = .blocked)
    (hw : ∀ found, s₀.waiter w ≠ .answered found) : ∀ {s : Shared}, s₀.turns? ts = some s →
      (∀ a ∈ actions ts, a.wakes = false) →
      s.keypad.wait = .blocked ∧ ∀ found, s.waiter w ≠ .answered found := by
  induction ts using List.reverseRecOn with
  | nil =>
      intro s hs _
      cases hs
      exact ⟨hb, hw⟩
  | append_singleton ts t ih =>
      intro s hs ha
      obtain ⟨s₁, hs₁, ht⟩ := turns?_append_singleton.mp hs
      rw [actions, List.filterMap_append, ← actions, ← actions] at ha
      obtain ⟨hb₁, hw₁⟩ := ih hs₁ fun a hm => ha a (List.mem_append_left _ hm)
      refine ⟨?_, fun found hf => (ht.answered (hw₁ found) hf).2.1 hb₁⟩
      rw [ht.keypad]
      cases t with
      | act actor action =>
          have hwakes := ha action (List.mem_append_right _ List.mem_cons_self)
          by_contra hn
          exact wait_of_wait_act hwakes hn hb₁
      | _ => exact hb₁

/-- A waiter sleeps, a key is pressed and the call is made, and the key is let go before the
waiter is back.  It sleeps again, nobody owes a call, and until somebody presses a key or shuts
the machine down its wait does not end. -/
theorem press_missed :
    ∃ s₀ s₁ s, (start (.untouched 0)).turns? [.enter 0, .look 0] = some s₀ ∧
      s₀.waiter 0 = .parked ∧ s₀.turn? (.act 1 (.press 5)) = some s₁ ∧
      s₁.turns? [.call 1, .act 2 .release, .look 0] = some s ∧
      s.waiter 0 = .parked ∧ (∀ hand, s.owes hand = false) ∧
      ∀ ts s', s.turns? ts = some s' → (∀ a ∈ actions ts, a.wakes = false) →
        ∀ found, s'.waiter 0 ≠ .answered found := by
  refine ⟨_, _, _, rfl, rfl, rfl, rfl, rfl, ?_, ?_⟩
  · intro hand
    simp [setOwes, setWaiter, start, Action.wakes]
  · intro ts s' hs ha
    exact (not_answered_turns? rfl (by rintro found hf; cases hf) hs ha).2

end SuperChip.Keypad.Shared
