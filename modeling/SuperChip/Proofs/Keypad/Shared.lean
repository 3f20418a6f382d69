import SuperChip.Keypad.Shared
import SuperChip.Proofs.Keypad

/-!
# No wake-up is lost

`Shared.Takes` says what each turn around a shared keypad does, and when it can be taken.
Everything here is read off it.

A hand makes its call only after it let the keypad go, and a release makes none at all.  So
a waiter can be asleep although there is something to find.  It is not forgotten: whoever
brought that about still owes its call (`Attended`).  Once no hand owes a call, nobody sleeps
over a key that is held or over a shutdown.

A wait ends with what its last look found, in the very turn of that look
(`Takes.answered`).
-/

namespace SuperChip.Keypad

/-- What a turn does on the keypad, if anything. -/
def Turn.action? : Turn → Option Action
  | .act _ action => some action
  | _ => none

/-- What turns do on the keypad. -/
def actions (ts : List Turn) : List Action := ts.filterMap Turn.action?

theorem mem_actions_iff {ts : List Turn} {a : Action} :
    a ∈ actions ts ↔ ∃ hand, .act hand a ∈ ts := by
  unfold actions
  rw [List.mem_filterMap]
  constructor
  · rintro ⟨t, ht, ha⟩
    cases t with
    | act hand action =>
        cases ha
        exact ⟨hand, ht⟩
    | _ => cases ha
  · rintro ⟨hand, ht⟩
    exact ⟨_, ht, rfl⟩

namespace Shared

variable {s s' : Shared} {t : Turn} {ts : List Turn}

/-! ## What a turn does -/

/-- What a turn does, one rule for each way it can be taken. -/
inductive Takes (s : Shared) : Turn → Shared → Prop where
  | enter {w : Nat} : (s.waiter w = .away ∨ ∃ found, s.waiter w = .answered found) →
      Takes s (.enter w) (s.setWaiter w .looking)
  | park {w : Nat} : s.waiter w = .looking → s.keypad.wait = .blocked →
      Takes s (.look w) (s.setWaiter w .parked)
  | answer {w : Nat} : s.waiter w = .looking → s.keypad.wait ≠ .blocked →
      Takes s (.look w) (s.setWaiter w (.answered s.keypad.wait))
  | stir {w : Nat} : s.waiter w = .parked → Takes s (.stir w) (s.setWaiter w .looking)
  | act {hand : Nat} {action : Action} : s.owes hand = false →
      Takes s (.act hand action)
        ({ s with keypad := s.keypad.act action }.setOwes hand action.wakes)
  | call {hand : Nat} : s.owes hand = true →
      Takes s (.call hand) ({ s with waiter := fun i => roused (s.waiter i) }.setOwes hand false)

theorem takes_of_turn? (h : s.turn? t = some s') : s.Takes t s' := by
  cases t with
  | enter w =>
      simp only [turn?] at h
      split at h
      next hw =>
        cases h
        exact .enter (.inl hw)
      next found hw =>
        cases h
        exact .enter (.inr ⟨found, hw⟩)
      next => cases h
  | look w =>
      simp only [turn?] at h
      split at h
      next hw =>
        split at h
        next hb =>
          cases h
          exact .park hw hb
        next hb =>
          cases h
          exact .answer hw hb
      next => cases h
  | stir w =>
      simp only [turn?] at h
      split at h
      next hw =>
        cases h
        exact .stir hw
      next => cases h
  | act hand action =>
      simp only [turn?] at h
      split at h
      next => cases h
      next ho =>
        cases h
        exact .act (Bool.eq_false_iff.mpr ho)
  | call hand =>
      simp only [turn?] at h
      split at h
      next ho =>
        cases h
        exact .call ho
      next => cases h

theorem turn?_of_takes (h : s.Takes t s') : s.turn? t = some s' := by
  cases h with
  | enter hw =>
      rcases hw with hw | ⟨found, hw⟩
      · simp only [turn?, hw]
      · simp only [turn?, hw]
  | park hw hb => simp only [turn?, hw, hb]
  | answer hw hb => simp only [turn?, hw]
  | stir hw => simp only [turn?, hw]
  | act ho => simp [turn?, ho]
  | call ho => simp [turn?, ho]

theorem turn?_eq_some_iff : s.turn? t = some s' ↔ s.Takes t s' :=
  ⟨takes_of_turn?, turn?_of_takes⟩

namespace Takes

variable (h : s.Takes t s')
include h

theorem keypad : s'.keypad = s.keypad.acts t.action?.toList := by
  cases h <;> rfl

/-- A wait that is answered was answered by a look at the keypad as it is. -/
theorem answered {w : Nat} {found : Waited} (hw : s.waiter w ≠ .answered found)
    (hw' : s'.waiter w = .answered found) :
    t = .look w ∧ s.keypad.wait ≠ .blocked ∧ found = s.keypad.wait := by
  -- where the turn moves another waiter, this one is where it was
  have stays {v : Nat} {place : Waiter} (hp : place ≠ .answered found)
      (hs : (s.setWaiter v place).waiter w = .answered found) : False := by
    simp only [setWaiter] at hs
    split at hs
    · exact hp hs
    · exact hw hs
  cases h with
  | enter => exact (stays (by simp) hw').elim
  | park => exact (stays (by simp) hw').elim
  | stir => exact (stays (by simp) hw').elim
  | @answer v hv hb =>
      simp only [setWaiter] at hw'
      split at hw'
      next e =>
        cases hw'
        exact ⟨by rw [e], hb, rfl⟩
      next => exact absurd hw' hw
  | act => exact absurd hw' hw
  | call =>
      refine absurd ?_ hw
      have hr : roused (s.waiter w) = .answered found := hw'
      unfold roused at hr
      split at hr
      · cases hr
      · exact hr

end Takes

/-! ## Turns, one after the other -/

theorem turns?_append_singleton {s₀ : Shared} :
    s₀.turns? (ts ++ [t]) = some s' ↔ ∃ s, s₀.turns? ts = some s ∧ s.Takes t s' := by
  unfold turns?
  rw [List.foldlM_append]
  simp only [List.foldlM_cons, List.foldlM_nil, bind_pure]
  show Option.bind _ _ = _ ↔ _
  rw [Option.bind_eq_some_iff]
  simp only [turn?_eq_some_iff]

/-- What every turn keeps, turns keep. -/
theorem turns?_induction {P : Shared → Prop}
    (step : ∀ {s s' : Shared} {t : Turn}, P s → s.Takes t s' → P s') {s₀ : Shared} (h₀ : P s₀) :
    ∀ {ts : List Turn} {s : Shared}, s₀.turns? ts = some s → P s := by
  intro ts
  induction ts using List.reverseRecOn with
  | nil =>
      intro s h
      cases h
      exact h₀
  | append_singleton ts t ih =>
      intro s h
      obtain ⟨s₁, h₁, ht⟩ := turns?_append_singleton.mp h
      exact step (ih h₁) ht

/-- Only hands reach the keypad. -/
theorem keypad_turns? {s₀ : Shared} :
    ∀ {s : Shared}, s₀.turns? ts = some s → s.keypad = s₀.keypad.acts (actions ts) := by
  induction ts using List.reverseRecOn with
  | nil =>
      intro s h
      cases h
      rfl
  | append_singleton ts t ih =>
      intro s h
      obtain ⟨s₁, h₁, ht⟩ := turns?_append_singleton.mp h
      have ha : actions (ts ++ [t]) = actions ts ++ t.action?.toList := by
        unfold actions
        rw [List.filterMap_append]
        cases t <;> rfl
      rw [ht.keypad, ih h₁, ha, acts_append]

/-! ## Nobody is forgotten -/

/-- While somebody sleeps and there is something to find, a hand owes a call. -/
def Attended (s : Shared) : Prop :=
  ∀ w, s.waiter w = .parked → s.keypad.wait ≠ .blocked → ∃ hand, s.owes hand = true

/-- An action that ends no wait leaves nothing to find where there was nothing. -/
theorem wait_of_wait_act {k : Keypad} {a : Action} (ha : a.wakes = false)
    (h : (k.act a).wait ≠ .blocked) : k.wait ≠ .blocked := by
  cases a with
  | press position =>
      have hp : ¬position < 16 := by simpa [Action.wakes] using ha
      simpa [act, press, hp] using h
  | release =>
      intro hb
      obtain ⟨hs, -⟩ := wait_eq_blocked_iff.mp hb
      exact h (wait_eq_blocked_iff.mpr ⟨hs, rfl⟩)
  | shutdown => cases ha

theorem attended_start (k : Keypad) : (start k).Attended := by
  intro w hw
  cases hw

theorem Attended.takes (h : s.Attended) (ht : s.Takes t s') : s'.Attended := by
  -- a waiter that is moved elsewhere does not sleep, and all others sleep as before
  have moved {v : Nat} {place : Waiter} (hp : place ≠ .parked) :
      (s.setWaiter v place).Attended := by
    intro w hw hf
    simp only [setWaiter] at hw
    split at hw
    · exact absurd hw hp
    · exact h w hw hf
  cases ht with
  | enter => exact moved (by simp)
  | answer => exact moved (by simp)
  | stir => exact moved (by simp)
  | park hw hb =>
      intro _ _ hf
      exact absurd hb hf
  | @act hand action ho =>
      intro w hw hf
      cases ha : action.wakes with
      | true => exact ⟨hand, if_pos rfl⟩
      | false =>
          obtain ⟨other, hother⟩ := h w hw (wait_of_wait_act ha hf)
          have hne : other ≠ hand := by
            rintro rfl
            rw [ho] at hother
            cases hother
          exact ⟨other, (if_neg hne).trans hother⟩
  | call =>
      intro w hw
      have hr : roused (s.waiter w) = .parked := hw
      unfold roused at hr
      split at hr
      · cases hr
      next hp => exact absurd hr hp

/-- However waiters and hands take their turns: where a waiter sleeps although a key is held
or the machine is shut down, a hand still owes a call, and so once no hand does, none sleeps
there.  A wait ends with the label of a key that is held at that moment in a machine that is
not shut down, or without one in a machine that is, and once anybody has shut the machine
down no wait ends with a key. -/
theorem no_wake_up_lost {k : Keypad} (h : (start k).turns? ts = some s) :
    (∀ w, s.waiter w = .parked → (s.keypad.held ≠ none ∨ s.keypad.isShutdown = true) →
      ∃ hand, s.owes hand = true) ∧
    ((∀ hand, s.owes hand = false) → ∀ w, s.waiter w = .parked →
      s.keypad.held = none ∧ s.keypad.isShutdown = false) ∧
    ∀ t s', s.turn? t = some s' →
      ∀ w found, s.waiter w ≠ .answered found → s'.waiter w = .answered found →
        (∀ label, found = .key label →
          s.keypad.isShutdown = false ∧ s.keypad.peek label = true ∧ s'.keypad = s.keypad) ∧
        (found = .interrupted → s.keypad.isShutdown = true) ∧
        found ≠ .blocked ∧
        ((∃ hand, .act hand .shutdown ∈ ts) → found = .interrupted) := by
  have hattended : s.Attended := turns?_induction Attended.takes (attended_start k) h
  have hfound : s.keypad.held ≠ none ∨ s.keypad.isShutdown = true → s.keypad.wait ≠ .blocked := by
    rintro hf hb
    obtain ⟨hs, hn⟩ := wait_eq_blocked_iff.mp hb
    rcases hf with hf | hf
    · exact hf hn
    · rw [hs] at hf
      cases hf
  refine ⟨fun w hw hf => hattended w hw (hfound hf), ?_, ?_⟩
  · intro hnone w hw
    by_contra hn
    have hf : s.keypad.wait ≠ .blocked := fun hb =>
      hn ((wait_eq_blocked_iff.mp hb).symm)
    obtain ⟨hand, ho⟩ := hattended w hw hf
    rw [hnone hand] at ho
    cases ho
  · intro t s' ht w found hw hw'
    have htakes := takes_of_turn? ht
    obtain ⟨rfl, hb, rfl⟩ := htakes.answered hw hw'
    refine ⟨?_, wait_eq_interrupted_iff.mp, hb, ?_⟩
    · intro label hl
      obtain ⟨hs, position, hp, rfl⟩ := wait_eq_key_iff.mp hl
      exact ⟨hs, peek_of_held hp, htakes.keypad⟩
    · intro hdown
      rw [wait_eq_interrupted_iff, keypad_turns? h]
      exact isShutdown_acts_iff.mpr (.inr (mem_actions_iff.mpr hdown))

/-- Two waiters sleep, and a key is pressed.  One of them is roused by nothing, and before it
looks the machine is shut down.  The other one sleeps on, with both calls still owed. -/
theorem no_wake_up_lost_by_two :
    ∃ s s', (start (.untouched 0)).turns?
        [.enter 0, .look 0, .enter 1, .look 1, .act 2 (.press 5), .stir 0, .act 3 .shutdown] =
          some s ∧
      s.waiter 1 = .parked ∧ s.keypad.isShutdown = true ∧ (∃ hand, s.owes hand = true) ∧
      s.turn? (.look 0) = some s' ∧ s'.waiter 0 = .answered .interrupted := by
  obtain ⟨s, h⟩ : ∃ s, (start (.untouched 0)).turns?
      [.enter 0, .look 0, .enter 1, .look 1, .act 2 (.press 5), .stir 0, .act 3 .shutdown] =
        some s := ⟨_, rfl⟩
  obtain ⟨hattended, -, -⟩ := no_wake_up_lost h
  cases h
  exact ⟨_, _, rfl, rfl, rfl, hattended 1 rfl (.inr rfl), rfl, rfl⟩

end Shared

end SuperChip.Keypad
