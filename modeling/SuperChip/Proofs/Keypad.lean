import Mathlib.Data.List.Induction
import SuperChip.Keypad

/-!
# Laws of the keypad

Which key is held after some actions is decided by the *latest* of them that reaches the
sixteen keys, a press on the pad or a release (`held_acts`).  Whether the machine is shut
down is decided by all of them (`isShutdown_acts_iff`).

A wait looks at these two things and at nothing else.  It is interrupted just when the
machine is shut down, it finds a key just when it is not and the key is held, and it is
blocked otherwise.
-/

namespace SuperChip.Keypad

variable {k : Keypad}

/-! ## What a wait finds -/

/-- A wait is interrupted just by shutdown. -/
theorem wait_eq_interrupted_iff : k.wait = .interrupted ↔ k.isShutdown = true := by
  unfold wait
  cases k.isShutdown with
  | true => simp
  | false => cases k.held <;> simp

/-- A wait is blocked just while there is neither shutdown nor a key. -/
theorem wait_eq_blocked_iff : k.wait = .blocked ↔ k.isShutdown = false ∧ k.held = none := by
  unfold wait
  cases k.isShutdown with
  | true => simp
  | false => cases k.held <;> simp

/-- A wait is answered by the label of the key that is held, if there is no shutdown. -/
theorem wait_eq_key_iff {label : UInt8} :
    k.wait = .key label ↔
      k.isShutdown = false ∧ ∃ position, k.held = some position ∧ labels.get position = label := by
  unfold wait
  cases k.isShutdown with
  | true => simp
  | false => cases k.held <;> simp

/-! ## Positions and labels -/

/-- No two keys have the same label. -/
theorem position?_get (position : Fin 16) : position? (labels.get position) = some position.val := by
  revert position
  decide

theorem labels_get_lt (position : Fin 16) : labels.get position < 16 := by
  revert position
  decide

/-- The position that is found by a label is that of a key with this label. -/
theorem get_of_position? {label : UInt8} {n : Nat} (h : position? label = some n) :
    ∃ position : Fin 16, position.val = n ∧ labels.get position = label := by
  obtain ⟨hn, hl, -⟩ := List.findIdx?_eq_some_iff_getElem.mp h
  have hlt : n < 16 := hn
  exact ⟨⟨n, hlt⟩, rfl, eq_of_beq hl⟩

/-! ## Looks at the keys -/

/-- The key with a label is held. -/
def Holds (k : Keypad) (label : UInt8) : Prop :=
  ∃ position, k.held = some position ∧ labels.get position = label

theorem pressed_eq_true_iff {n : Nat} :
    k.pressed n = true ↔ ∃ position, k.held = some position ∧ position.val = n := by
  rw [pressed, beq_iff_eq, Option.map_eq_some_iff]

/-- The key that is held is the one whose label a program finds. -/
theorem peek_of_held {position : Fin 16} (h : k.held = some position) :
    k.peek (labels.get position) = true := by
  rw [peek, position?_get]
  exact pressed_eq_true_iff.mpr ⟨position, h, rfl⟩

/-- A program finds a key just when it is held. -/
theorem peek_eq_true_iff {label : UInt8} : k.peek label = true ↔ k.Holds label := by
  constructor
  · intro h
    unfold peek at h
    split at h
    next n hn =>
      obtain ⟨position, hp, hl⟩ := get_of_position? hn
      obtain ⟨position', hk, hp'⟩ := pressed_eq_true_iff.mp h
      cases Fin.ext (hp'.trans hp.symm)
      exact ⟨position, hk, hl⟩
    next => cases h
  · rintro ⟨position, hk, rfl⟩
    exact peek_of_held hk

/-- A look for a label finds nothing just when its key is not held. -/
theorem peek_eq_false_iff {label : UInt8} : k.peek label = false ↔ ¬k.Holds label := by
  rw [← Bool.not_eq_true, peek_eq_true_iff]

/-- Just one key is held. -/
theorem Holds.unique {label label' : UInt8} (h : k.Holds label) (h' : k.Holds label') :
    label = label' := by
  obtain ⟨position, hk, rfl⟩ := h
  obtain ⟨position', hk', rfl⟩ := h'
  cases hk.symm.trans hk'
  rfl

theorem Holds.lt {label : UInt8} (h : k.Holds label) : label < 16 := by
  obtain ⟨position, -, rfl⟩ := h
  exact labels_get_lt position

/-! ## Actions, one after the other -/

/-- The keypad after actions. -/
def acts (k : Keypad) (as : List Action) : Keypad := as.foldl act k

theorem acts_append (k : Keypad) (as as' : List Action) :
    k.acts (as ++ as') = (k.acts as).acts as' := List.foldl_append

theorem acts_append_singleton (k : Keypad) (as : List Action) (a : Action) :
    k.acts (as ++ [a]) = (k.acts as).act a := k.acts_append as [a]

/-- Whether an action does something to the sixteen keys. -/
def Action.reachesKeys : Action → Bool
  | .press position => position < 16
  | .release => true
  | .shutdown => false

/-- The key that is held because of an action, if one is. -/
def Action.held? : Action → Option (Fin 16)
  | .press position => if h : position < 16 then some ⟨position, h⟩ else none
  | .release | .shutdown => none

/-- The latest action that does something to the sixteen keys. -/
def latest (as : List Action) : Option Action := (as.filter Action.reachesKeys).getLast?

/-- The latest act that reaches the keys is the last one, if it does. -/
theorem latest_append_singleton (as : List Action) (a : Action) :
    latest (as ++ [a]) = if a.reachesKeys then some a else latest as := by
  unfold latest
  rw [List.filter_append]
  cases h : a.reachesKeys <;> simp [h]

theorem reachesKeys_of_latest {as : List Action} {a : Action} (h : latest as = some a) :
    a.reachesKeys = true :=
  (List.mem_filter.mp (List.mem_of_getLast? h)).2

/-- An act that reaches the keys says which one is held, and no other does. -/
theorem held_act (k : Keypad) (a : Action) :
    (k.act a).held = if a.reachesKeys then a.held? else k.held := by
  cases a with
  | press position => by_cases h : position < 16 <;> simp [act, press, Action.reachesKeys,
      Action.held?, h]
  | release => rfl
  | shutdown => rfl

/-- The key held is the one of the latest action, and the one from before if there is none. -/
theorem held_acts (k : Keypad) (as : List Action) :
    (k.acts as).held = ((latest as).map Action.held?).getD k.held := by
  induction as using List.reverseRecOn with
  | nil => rfl
  | append_singleton as a ih =>
      rw [acts_append_singleton, held_act, latest_append_singleton, ih]
      cases a.reachesKeys <;> rfl

/-- A key that is held stays held, or another one takes its place, unless the latest action
is a release. -/
theorem held_acts_eq_none_iff (h : k.held ≠ none) {as : List Action} :
    (k.acts as).held = none ↔ latest as = some .release := by
  rw [held_acts]
  cases hl : latest as with
  | none => simpa using h
  | some a =>
      cases a with
      | press position =>
          have hp : position < 16 := by simpa [Action.reachesKeys] using reachesKeys_of_latest hl
          simp [Action.held?, hp]
      | release => simp [Action.held?]
      | shutdown => cases reachesKeys_of_latest hl

/-- Only shutdown shuts down. -/
theorem isShutdown_act_iff (a : Action) :
    (k.act a).isShutdown = true ↔ k.isShutdown = true ∨ a = .shutdown := by
  cases a with
  | press position =>
      simp only [act, press]
      split <;> simp
  | release => simp [act, release]
  | shutdown => simp [act, shutdown]

/-- After any acts a keypad is shut down just if one of them was shutdown. -/
theorem isShutdown_acts_iff {as : List Action} :
    (k.acts as).isShutdown = true ↔ k.isShutdown = true ∨ .shutdown ∈ as := by
  induction as using List.reverseRecOn with
  | nil => simp [acts]
  | append_singleton as a ih =>
      rw [acts_append_singleton, isShutdown_act_iff, ih, List.mem_append, List.mem_singleton,
        or_assoc, eq_comm (a := a)]

/-- A wait that looks after a key was pressed, and after whatever came then, is blocked just
when the key went up, none was pressed since and nobody shut the machine down. -/
theorem wait_acts_eq_blocked_iff (h : k.held ≠ none) {as : List Action} :
    (k.acts as).wait = .blocked ↔
      k.isShutdown = false ∧ .shutdown ∉ as ∧ latest as = some .release := by
  rw [wait_eq_blocked_iff, held_acts_eq_none_iff h, ← Bool.not_eq_true, isShutdown_acts_iff,
    not_or, Bool.not_eq_true, and_assoc]

/-! ## A keypad by its history -/

/-- A keypad is as some actions have left it that nobody had touched before. -/
structure Recalls (k : Keypad) (as : List Action) : Prop where
  /-- The key that is held is the one of the latest press, unless a release came later. -/
  held : ∀ n : Nat, k.held.map Fin.val = some n ↔ latest as = some (.press n)
  /-- The machine is shut down if someone did it. -/
  isShutdown : k.isShutdown = true ↔ .shutdown ∈ as
  /-- Then it is shut down for good. -/
  lasts : .shutdown ∈ as → ∀ as', (k.acts as').isShutdown = true
  /-- A key is found by its position. -/
  pressed : ∀ n : Nat, k.pressed n = true ↔ k.held.map Fin.val = some n
  /-- No key is found off the pad. -/
  pressed_lt : ∀ n : Nat, k.pressed n = true → n < 16
  /-- A key is found by its label. -/
  peek : ∀ label, k.peek label = true ↔
    ∃ position, k.held = some position ∧ labels.get position = label
  /-- It is found by one label only. -/
  peek_unique : ∀ label label', k.peek label = true → k.peek label' = true → label = label'
  /-- No key is found by what is no label. -/
  peek_lt : ∀ label, k.peek label = true → label < 16
  /-- A wait is interrupted if the machine is shut down. -/
  interrupted : k.wait = .interrupted ↔ k.isShutdown = true
  /-- Else it finds the key that is held. -/
  key : ∀ label, k.wait = .key label ↔ k.isShutdown = false ∧
    ∃ position, k.held = some position ∧ labels.get position = label
  /-- Else it is blocked. -/
  blocked : k.wait = .blocked ↔ k.isShutdown = false ∧ k.held = none

/-- The key that is held on a keypad on which none was held before. -/
theorem held_acts_eq_some_iff (h : k.held = none) {as : List Action} {n : Nat} :
    (k.acts as).held.map Fin.val = some n ↔ latest as = some (.press n) := by
  rw [held_acts, h]
  cases hl : latest as with
  | none => simp
  | some a =>
      cases a with
      | press position =>
          have hp : position < 16 := by simpa [Action.reachesKeys] using reachesKeys_of_latest hl
          simp [Action.held?, hp]
      | release => simp [Action.held?]
      | shutdown => cases reachesKeys_of_latest hl

/-- After any acts a keypad recalls them. -/
theorem recalls_acts (peekDelay : UInt32) (as : List Action) :
    ((untouched peekDelay).acts as).Recalls as where
  held _ := held_acts_eq_some_iff rfl
  isShutdown := by simp [isShutdown_acts_iff, untouched]
  lasts h as' := isShutdown_acts_iff.mpr (.inl (isShutdown_acts_iff.mpr (.inr h)))
  pressed n := by rw [Keypad.pressed, beq_iff_eq]
  pressed_lt n h := by
    obtain ⟨position, -, rfl⟩ := pressed_eq_true_iff.mp h
    exact position.isLt
  peek _ := peek_eq_true_iff
  peek_unique _ _ h h' := (peek_eq_true_iff.mp h).unique (peek_eq_true_iff.mp h')
  peek_lt _ h := (peek_eq_true_iff.mp h).lt
  interrupted := wait_eq_interrupted_iff
  key _ := wait_eq_key_iff
  blocked := wait_eq_blocked_iff

end SuperChip.Keypad
