import SuperChip.CallStack

/-!
# The call stack as a pile

A *pile* is a list of addresses, the newest one first, that never gets longer than a limit.
Those who use a call stack make *requests* of it: they put an address on top, take the top
away, look at it, or count.  `Pile.serve` says what a pile answers, and which pile it is then.

A call stack *shows* a pile when it has as many slots as the pile has room for, and the slots
taken hold the addresses of the pile, the oldest one first (`CallStack.Shows`).  A request is
answered by the call stack as by the pile that it shows, and then it shows the one behind the
request (`CallStack.Shows.serve`).  So it goes on for any number of requests, failing ones
among them (`CallStack.serves_as_pile`).

The slots that are not taken are no part of the pile, but they can be told from the requests
too: each slot holds the address that was put there last (`CallStack.Shows.slots_after`).
-/

namespace SuperChip

/-! ## Requests -/

/-- What is asked of a call stack. -/
inductive CallStack.Request where
  /-- An address is put on top. -/
  | push (address : UInt16)
  /-- The top is taken away. -/
  | pop
  /-- The top is looked at. -/
  | top
  /-- The addresses are counted. -/
  | count
deriving DecidableEq

/-- What is answered to a request. -/
inductive CallStack.Answer where
  /-- It is done, and there is nothing to be shown. -/
  | done
  /-- The address that was taken away. -/
  | popped (address : UInt16)
  /-- The address on top, if there is one. -/
  | top (address? : Option UInt16)
  /-- A number of addresses. -/
  | count (n : Nat)
  /-- It is refused. -/
  | refused (fault : Fault)
deriving DecidableEq

namespace CallStack

/-- What a call stack answers to a request, and the call stack behind it. -/
def serve (s : CallStack) : Request → Answer × CallStack
  | .push address =>
      match s.push address with
      | .ok t => (.done, t)
      | .error fault => (.refused fault, s)
  | .pop =>
      match s.pop with
      | .ok (address, t) => (.popped address, t)
      | .error fault => (.refused fault, s)
  | .top => (.top s.top, s)
  | .count => (.count s.used, s)

/-- The answers of a call stack to requests, one after the other. -/
def answers (s : CallStack) : List Request → List Answer
  | [] => []
  | q :: qs => (s.serve q).1 :: (s.serve q).2.answers qs

/-- The call stack behind requests, one after the other. -/
def after (s : CallStack) (qs : List Request) : CallStack := qs.foldl (fun s q => (s.serve q).2) s

end CallStack

/-! ## Piles -/

/-- A list of addresses with a limit. -/
structure Pile where
  /-- How many addresses there is room for. -/
  limit : Nat
  /-- The addresses, the newest one first. -/
  addresses : List UInt16

namespace Pile

open CallStack (Request Answer)

/-- A pile with nothing on it. -/
def empty (limit : Nat) : Pile := ⟨limit, []⟩

/-- What a pile answers to a request, and the pile behind it. -/
def serve (p : Pile) : Request → Answer × Pile
  | .push address =>
      if p.addresses.length < p.limit then
        (.done, { p with addresses := address :: p.addresses })
      else (.refused (.stackOverflow p.limit), p)
  | .pop =>
      match p.addresses with
      | [] => (.refused .stackUnderflow, p)
      | address :: rest => (.popped address, { p with addresses := rest })
  | .top => (.top p.addresses.head?, p)
  | .count => (.count p.addresses.length, p)

/-- The answers of a pile to requests, one after the other. -/
def answers (p : Pile) : List Request → List Answer
  | [] => []
  | q :: qs => (p.serve q).1 :: (p.serve q).2.answers qs

/-- The pile behind requests, one after the other. -/
def after (p : Pile) (qs : List Request) : Pile := qs.foldl (fun p q => (p.serve q).2) p

/-- The address that a request puts on the pile, if it puts one there, with the number of
those below it. -/
def placed? (p : Pile) : Request → Option (Nat × UInt16)
  | .push address =>
      if p.addresses.length < p.limit then some (p.addresses.length, address) else none
  | _ => none

/-- What requests put on the pile, with the number of addresses below, the last one first. -/
def placed (p : Pile) : List Request → List (Nat × UInt16)
  | [] => []
  | q :: qs => (p.serve q).2.placed qs ++ (p.placed? q).toList

end Pile

/-! ## Showing -/

namespace CallStack

/-- A call stack has as many slots as a pile has room for, and the slots taken hold the
addresses of the pile, the oldest one first. -/
structure Shows (s : CallStack) (p : Pile) : Prop where
  depth : s.depth = p.limit
  fits : s.Fits
  frames : s.frames = p.addresses.reverse

theorem shows_ofDepth (n : Nat) : (ofDepth n).Shows (.empty n) where
  depth := depth_ofDepth n
  fits := fits_ofDepth n
  frames := rfl

/-- No request gains or loses a slot. -/
theorem depth_serve (s : CallStack) (q : Request) : (s.serve q).2.depth = s.depth := by
  cases q with
  | push address =>
      rw [serve]
      split
      next ht => exact depth_push ht
      next => rfl
  | pop =>
      rw [serve]
      split
      next ht => exact depth_pop ht
      next => rfl
  | top => rfl
  | count => rfl

theorem depth_after (qs : List Request) : ∀ s : CallStack, (s.after qs).depth = s.depth := by
  induction qs with
  | nil => exact fun _ => rfl
  | cons q qs ih => exact fun s => (ih _).trans (s.depth_serve q)

theorem push_of_full {s : CallStack} {address : UInt16} (h : ¬s.used < s.depth) :
    s.push address = .error (.stackOverflow s.used) := if_neg h

namespace Shows

variable {s t : CallStack} {p : Pile} (h : s.Shows p)
include h

theorem used : s.used = p.addresses.length := by
  rw [← length_frames h.fits, h.frames, List.length_reverse]

/-! ## Requests, one by one -/

theorem push (address : UInt16) :
    (s.serve (.push address)).1 = (p.serve (.push address)).1 ∧
      (s.serve (.push address)).2.Shows (p.serve (.push address)).2 := by
  simp only [CallStack.serve, Pile.serve]
  by_cases hl : p.addresses.length < p.limit
  · obtain ⟨t, ht⟩ : ∃ t, s.push address = .ok t :=
      ⟨_, push_eq_ok_iff.mpr ⟨by rwa [h.used, h.depth], rfl⟩⟩
    rw [if_pos hl, ht]
    refine ⟨rfl, (depth_push ht).trans h.depth, fits_push ht, ?_⟩
    rw [frames_push ht, h.frames, List.reverse_cons]
  · have hfull : ¬s.used < s.depth := by rwa [h.used, h.depth]
    -- a full call stack names the slots taken, and these are all there is room for
    have he : s.used = p.limit :=
      Nat.le_antisymm (h.depth ▸ h.fits) (h.depth ▸ Nat.le_of_not_lt hfull)
    rw [if_neg hl, push_of_full hfull, he]
    exact ⟨rfl, h⟩

theorem pop : (s.serve .pop).1 = (p.serve .pop).1 ∧
    (s.serve .pop).2.Shows (p.serve .pop).2 := by
  obtain ⟨limit, addresses⟩ := p
  simp only [CallStack.serve, Pile.serve]
  cases addresses with
  | nil =>
      have hn : s.pop = .error .stackUnderflow := if_pos h.used
      rw [hn]
      exact ⟨rfl, h⟩
  | cons address rest =>
      have hne : s.used ≠ 0 := by
        rw [h.used]
        exact Nat.succ_ne_zero _
      obtain ⟨a, t, ht⟩ : ∃ a t, s.pop = .ok (a, t) :=
        ⟨_, _, pop_eq_ok_iff.mpr ⟨hne, rfl, rfl⟩⟩
      have hf : t.frames ++ [a] = rest.reverse ++ [address] := by
        rw [← frames_pop h.fits ht, h.frames, List.reverse_cons]
      obtain ⟨hrest, ha⟩ := List.append_inj' hf rfl
      cases ha
      rw [ht]
      exact ⟨rfl, (depth_pop ht).trans h.depth, fits_pop h.fits ht, hrest⟩

theorem top : s.top = p.addresses.head? := by
  rw [top_eq_getLast? h.fits, h.frames, List.getLast?_reverse]

/-- A call stack answers like the pile that it shows, and shows the one behind the request. -/
theorem serve (q : Request) :
    (s.serve q).1 = (p.serve q).1 ∧ (s.serve q).2.Shows (p.serve q).2 := by
  cases q with
  | push address => exact h.push address
  | pop => exact h.pop
  | top => exact ⟨congrArg Answer.top h.top, h⟩
  | count => exact ⟨congrArg Answer.count h.used, h⟩

theorem answers (qs : List Request) :
    s.answers qs = p.answers qs ∧ (s.after qs).Shows (p.after qs) := by
  induction qs generalizing s p with
  | nil => exact ⟨rfl, h⟩
  | cons q qs ih =>
      obtain ⟨ha, hs⟩ := h.serve q
      obtain ⟨has, hafter⟩ := ih hs
      refine ⟨?_, hafter⟩
      rw [CallStack.answers, Pile.answers, ha, has]

/-! ## Slots -/

/-- A request changes the slot that it puts an address into, and no other slot. -/
theorem slots_serve (q : Request) (k : Nat) :
    (s.serve q).2.slots[k]? = ((p.placed? q).toList.lookup k).or s.slots[k]? := by
  cases q with
  | push address =>
      simp only [CallStack.serve, Pile.placed?, ← h.used, ← h.depth]
      by_cases hl : s.used < s.depth
      · obtain ⟨t, ht⟩ : ∃ t, s.push address = .ok t := ⟨_, push_eq_ok_iff.mpr ⟨hl, rfl⟩⟩
        have hslots : t.slots = s.slots.setIfInBounds s.used address := by
          rw [(push_eq_ok_iff.mp ht).2]
        rw [ht, if_pos hl]
        dsimp only
        rw [hslots]
        by_cases hk : k = s.used
        · subst hk
          have hin : s.used < s.slots.size := hl
          simp [hin]
        · have hb : (k == s.used) = false := beq_false_of_ne hk
          rw [Array.getElem?_setIfInBounds_ne (Ne.symm hk)]
          simp [List.lookup_cons, hb]
      · rw [push_of_full hl, if_neg hl]
        rfl
  | pop =>
      simp only [CallStack.serve]
      split
      next ht =>
        obtain ⟨-, -, rfl⟩ := pop_eq_ok_iff.mp ht
        rfl
      next => rfl
  | top => rfl
  | count => rfl

/-- Behind requests a slot holds what they have put there last, or else what it has held
before. -/
theorem slots_after (qs : List Request) (k : Nat) :
    (s.after qs).slots[k]? = ((p.placed qs).lookup k).or s.slots[k]? := by
  induction qs generalizing s p with
  | nil => rfl
  | cons q qs ih =>
      have hafter : s.after (q :: qs) = (s.serve q).2.after qs := rfl
      rw [hafter, ih (h.serve q).2, h.slots_serve, Pile.placed, List.lookup_append, Option.or_assoc]

/-- A slot that was given up keeps its address while nothing else is put there. -/
theorem slots_after_pop {address : UInt16} (ht : s.pop = .ok (address, t)) (qs : List Request)
    (hq : ∀ a, (t.used, a) ∉ (p.serve .pop).2.placed qs) :
    (t.after qs).slots[t.used]? = some address := by
  have hserve : (s.serve .pop).2 = t := by rw [CallStack.serve, ht]
  have hs : t.Shows (p.serve .pop).2 := hserve ▸ h.pop.2
  have hn : ((p.serve .pop).2.placed qs).lookup t.used = none := by
    rw [List.lookup_eq_none_iff]
    rintro ⟨k, a⟩ hm
    rw [bne_iff_ne]
    rintro rfl
    exact hq a hm
  have hheld : t.slots[t.used]? = some address := by
    obtain ⟨hne, ha, rfl⟩ := pop_eq_ok_iff.mp ht
    have hf : s.used ≤ s.slots.size := h.fits
    have hl : s.used - 1 < s.slots.size := by omega
    rw [ha, Array.getElem?_eq_getElem hl, Option.getD_some]
  rw [hs.slots_after, hn, Option.none_or, hheld]

end Shows

/-- A call stack of any depth answers any requests, one after the other, like a pile that
begins with nothing on it and has room for as many addresses.  Behind the requests the slots
taken hold the addresses of the pile, the oldest one first.  Each slot holds what was put there
last, and zero if nothing was.  So a slot that is given up keeps its address until another one
is put there. -/
theorem serves_as_pile (depth : Nat) (qs : List Request) :
    let s := (ofDepth depth).after qs
    let p := (Pile.empty depth).after qs
    (ofDepth depth).answers qs = (Pile.empty depth).answers qs ∧
      s.used = p.addresses.length ∧ s.slots.size = depth ∧
      s.slots.toList.take s.used = p.addresses.reverse ∧
      (∀ k < depth, s.slots[k]? = some ((((Pile.empty depth).placed qs).lookup k).getD 0)) ∧
      ∀ address t, s.pop = .ok (address, t) → ∀ qs',
        (∀ a, (t.used, a) ∉ (p.serve .pop).2.placed qs') →
          (t.after qs').slots[t.used]? = some address := by
  intro s p
  have h := shows_ofDepth depth
  obtain ⟨ha, hs⟩ : (ofDepth depth).answers qs = (Pile.empty depth).answers qs ∧ s.Shows p :=
    h.answers qs
  have hsize : s.slots.size = depth := (depth_after qs _).trans (depth_ofDepth depth)
  refine ⟨ha, hs.used, hsize, hs.frames, fun k hk => ?_, fun _ _ => hs.slots_after_pop⟩
  have hzero : (ofDepth depth).slots[k]? = some 0 := Array.getElem?_replicate.trans (if_pos hk)
  rw [h.slots_after, hzero]
  cases ((Pile.empty depth).placed qs).lookup k <;> rfl

/-- Two slots, of which the second one is given up, and then the first one is given up and
taken again. -/
theorem serves_as_pile_of_two :
    (ofDepth 2).answers [.push 0x300, .push 0x302, .push 0x304, .top] =
        [.done, .done, .refused (.stackOverflow 2), .top (some 0x302)] ∧
      ((ofDepth 2).after [.push 0x300, .push 0x302, .push 0x304, .top]).slots[0]? = some 0x300 ∧
      ∃ t, ((ofDepth 2).after [.push 0x300, .push 0x302, .push 0x304, .top]).pop = .ok (0x302, t) ∧
        (t.after [.pop, .pop, .push 0x306]).slots[1]? = some 0x302 := by
  obtain ⟨ha, -, -, -, hslots, hpop⟩ :=
    serves_as_pile 2 [.push 0x300, .push 0x302, .push 0x304, .top]
  refine ⟨ha.trans (by decide), hslots 0 (by decide), ⟨#[0x300, 0x302], 1⟩, rfl, ?_⟩
  refine hpop 0x302 ⟨#[0x300, 0x302], 1⟩ rfl [.pop, .pop, .push 0x306] fun a hm => ?_
  -- what is put there afterwards lies below
  have hplaced : ((Pile.mk 2 [0x300]).placed [.pop, .pop, .push 0x306]) = [(0, 0x306)] := rfl
  cases List.mem_singleton.mp (hplaced ▸ hm)

end CallStack

end SuperChip
