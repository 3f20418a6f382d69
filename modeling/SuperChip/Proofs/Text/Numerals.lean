import Mathlib.Data.List.Forall2
import Mathlib.Data.List.Induction
import Mathlib.Data.Nat.Digits.Defs
import SuperChip.Text.Numeral
import SuperChip.Text.Reading

/-!
# Numerals and their numbers

A numeral *spells* a number in a base when each of its characters is a digit of the base and
the digits, from the last one on, make up the number (`Reading.Spells`).  What is written as a
numeral spells its number, in both cases and with any number of zeros in front.

Reading stops at a position where a character is no digit, or where the characters up to it
spell a number above the limit (`Reading.Stops`).  The first such position decides: its fault
is the answer (`digits_eq_error_iff`).  Where there is none, the numeral spells a number that
is within the limit, and this number is the answer (`digits_eq_ok_iff`).
-/

namespace SuperChip.Reading

/-! ## Digits -/

/-- The digits in lower case, each at the position that is its value. -/
def lowerDigits : List Char := "0123456789abcdef".toList

/-- The digits in upper case, each at the position that is its value. -/
def upperDigits : List Char := "0123456789ABCDEF".toList

/-- A character is the digit of a value in a base, in either case. -/
def Digit (base : Nat) (c : Char) (d : Nat) : Prop :=
  d < base ∧ (lowerDigits[d]? = some c ∨ upperDigits[d]? = some c)

/-- A character of a range is told by how far behind the first one it stands. -/
theorem exists_ofNat_add {a b c : Char} (ha : a ≤ c) (hb : c ≤ b) :
    ∃ k, k ≤ b.toNat - a.toNat ∧ c.toNat - a.toNat = k ∧ c = Char.ofNat (a.toNat + k) := by
  have hac : a.toNat ≤ c.toNat := ha
  have hcb : c.toNat ≤ b.toNat := hb
  refine ⟨c.toNat - a.toNat, by omega, rfl, ?_⟩
  rw [Nat.add_sub_cancel' hac, Char.ofNat_toNat]

/-- The first ten lower-case digits are the decimal ones. -/
theorem lower_of_decimal : ∀ k ≤ 9, lowerDigits[k]? = some (Char.ofNat ('0'.toNat + k)) := by
  decide

/-- The last six lower-case digits are the letters from `a` on. -/
theorem lower_of_letter : ∀ k ≤ 5, lowerDigits[k + 10]? = some (Char.ofNat ('a'.toNat + k)) := by
  decide

/-- The last six upper-case digits are the letters from `A` on. -/
theorem upper_of_letter : ∀ k ≤ 5, upperDigits[k + 10]? = some (Char.ofNat ('A'.toNat + k)) := by
  decide

/-- A table is right when its characters have the values from zero to fifteen. -/
theorem digit?_of_table {table : List Char} {c : Char} {d : Nat}
    (ht : table.map (digit? 16) = (List.range 16).map some) (h : table[d]? = some c) :
    digit? 16 c = some d := by
  have hd : ((List.range 16).map some)[d]? = some (digit? 16 c) := by
    rw [← ht, List.getElem?_map, h, Option.map_some]
  rw [List.getElem?_map, Option.map_eq_some_iff] at hd
  obtain ⟨k, hk, he⟩ := hd
  obtain ⟨hlt, rfl⟩ := List.getElem?_eq_some_iff.mp hk
  rw [← he, List.getElem_range]

theorem digit?_of_lower {c : Char} {d : Nat} (h : lowerDigits[d]? = some c) :
    digit? 16 c = some d :=
  digit?_of_table (by decide) h

theorem digit?_of_upper {c : Char} {d : Nat} (h : upperDigits[d]? = some c) :
    digit? 16 c = some d :=
  digit?_of_table (by decide) h

/-- A character is read as the digit that it is. -/
theorem digit?_eq_some_iff {base d : Nat} {c : Char} :
    digit? base c = some d ↔ Digit base c d := by
  constructor
  · intro h
    obtain ⟨h, hd⟩ := Option.filter_eq_some_iff.mp h
    refine ⟨of_decide_eq_true hd, ?_⟩
    split at h
    next hc =>
      obtain ⟨k, hk, he, hck⟩ := exists_ofNat_add hc.1 hc.2
      rw [he] at h
      cases h
      exact .inl (hck ▸ lower_of_decimal _ hk)
    next =>
      split at h
      next hc =>
        obtain ⟨k, hk, he, hck⟩ := exists_ofNat_add hc.1 hc.2
        rw [he] at h
        cases h
        exact .inl (hck ▸ lower_of_letter k hk)
      next =>
        split at h
        next hc =>
          obtain ⟨k, hk, he, hck⟩ := exists_ofNat_add hc.1 hc.2
          rw [he] at h
          cases h
          exact .inr (hck ▸ upper_of_letter k hk)
        next => cases h
  · intro h
    -- a digit of any base is one of base sixteen, and there are few of these
    have h16 : digit? 16 c = some d :=
      h.2.elim digit?_of_lower digit?_of_upper
    exact Option.filter_eq_some_iff.mpr
      ⟨(Option.filter_eq_some_iff.mp h16).1, decide_eq_true h.1⟩

/-- A character is not read just when it is no digit. -/
theorem digit?_eq_none_iff {base : Nat} {c : Char} :
    digit? base c = none ↔ ∀ d, ¬Digit base c d := by
  simp only [← digit?_eq_some_iff, Option.eq_none_iff_forall_ne_some, ne_eq]

/-- A character is one digit at most. -/
theorem Digit.unique {base d d' : Nat} {c : Char} (h : Digit base c d) (h' : Digit base c d') :
    d = d' :=
  Option.some.inj ((digit?_eq_some_iff.mpr h).symm.trans (digit?_eq_some_iff.mpr h'))

theorem digit_zero {base : Nat} (h : 0 < base) : Digit base '0' 0 := ⟨h, .inl rfl⟩

/-- The character for a digit is that digit. -/
theorem digit_digitChar {base d : Nat} (hb : base ≤ 16) (hd : d < base) :
    Digit base d.digitChar d := by
  have htable : ∀ k < 16, lowerDigits[k]? = some k.digitChar := by decide
  exact ⟨hd, .inl (htable d (Nat.lt_of_lt_of_le hd hb))⟩

/-- Upper case is a digit of the same value. -/
theorem Digit.toUpper {base d : Nat} {c : Char} (h : Digit base c d) :
    Digit base c.toUpper d := by
  have hlower : lowerDigits.map Char.toUpper = upperDigits := by decide
  have hupper : upperDigits.map Char.toUpper = upperDigits := by decide
  refine ⟨h.1, .inr (h.2.elim (fun hc => ?_) fun hc => ?_)⟩
  · rw [← hlower, List.getElem?_map, hc, Option.map_some]
  · rw [← hupper, List.getElem?_map, hc, Option.map_some]

/-! ## Numerals -/

/-- The characters are digits which, from the last one on, make up a number. -/
def Spells (base : Nat) (cs : List Char) (n : Nat) : Prop :=
  ∃ ds, List.Forall₂ (Digit base) cs.reverse ds ∧ n = Nat.ofDigits base ds

variable {base limit n : Nat} {cs : List Char}

theorem spells_nil_iff : Spells base [] n ↔ n = 0 := by
  simp [Spells]

/-- One digit more makes the number base times as large and adds the digit. -/
theorem spells_concat_iff {c : Char} :
    Spells base (cs ++ [c]) n ↔ ∃ m d, Spells base cs m ∧ Digit base c d ∧ n = m * base + d := by
  simp only [Spells, List.reverse_append, List.reverse_singleton, List.singleton_append,
    List.forall₂_cons_left_iff]
  constructor
  · rintro ⟨-, ⟨d, ds, hd, hds, rfl⟩, rfl⟩
    refine ⟨_, d, ⟨ds, hds, rfl⟩, hd, ?_⟩
    rw [Nat.ofDigits_cons, Nat.mul_comm, Nat.add_comm]
  · rintro ⟨-, d, ⟨ds, hds, rfl⟩, hd, rfl⟩
    refine ⟨_, ⟨d, ds, hd, hds, rfl⟩, ?_⟩
    rw [Nat.ofDigits_cons, Nat.mul_comm, Nat.add_comm]

/-- One digit more multiplies by the base and adds the digit. -/
theorem Spells.concat {c : Char} {d : Nat} (h : Spells base cs n) (hd : Digit base c d) :
    Spells base (cs ++ [c]) (n * base + d) :=
  spells_concat_iff.mpr ⟨n, d, h, hd, rfl⟩

/-- Digits spell one number. -/
theorem Spells.unique {m : Nat} (h : Spells base cs m) (h' : Spells base cs n) : m = n := by
  induction cs using List.reverseRecOn generalizing m n with
  | nil => rw [spells_nil_iff.mp h, spells_nil_iff.mp h']
  | append_singleton cs c ih =>
      obtain ⟨m, d, hm, hd, rfl⟩ := spells_concat_iff.mp h
      obtain ⟨n, d', hn, hd', rfl⟩ := spells_concat_iff.mp h'
      rw [ih hm hn, hd.unique hd']

/-- What spells a number consists of digits. -/
theorem Spells.forall_digit (h : Spells base cs n) : ∀ c ∈ cs, ∃ d, Digit base c d := by
  induction cs using List.reverseRecOn generalizing n with
  | nil => simp
  | append_singleton cs c ih =>
      obtain ⟨m, d, hm, hd, -⟩ := spells_concat_iff.mp h
      intro a ha
      rcases List.mem_append.mp ha with ha | ha
      · exact ih hm a ha
      · cases List.mem_singleton.mp ha
        exact ⟨d, hd⟩

/-- A character that is no digit does not occur. -/
theorem Spells.notMem {c : Char} (h : Spells base cs n) (hc : c ∉ lowerDigits ++ upperDigits) :
    c ∉ cs := by
  intro hmem
  obtain ⟨d, hd⟩ := h.forall_digit c hmem
  exact hc (List.mem_append.mpr (hd.2.imp List.mem_of_getElem? List.mem_of_getElem?))

/-- Zeros in front do not count. -/
theorem Spells.zeros (h : Spells base cs n) (hb : 0 < base) (k : Nat) :
    Spells base (List.replicate k '0' ++ cs) n := by
  obtain ⟨ds, hds, rfl⟩ := h
  refine ⟨ds ++ List.replicate k 0, ?_, (Nat.ofDigits_append_replicate_zero ds).symm⟩
  have hzeros : List.Forall₂ (Digit base) (List.replicate k '0') (List.replicate k 0) := by
    induction k with
    | zero => exact .nil
    | succ k ih => exact .cons (digit_zero hb) ih
  rw [List.reverse_append, List.reverse_replicate]
  exact List.rel_append hds hzeros

/-- Digits spell the same number in upper case. -/
theorem Spells.toUpper (h : Spells base cs n) : Spells base (cs.map Char.toUpper) n := by
  obtain ⟨ds, hds, rfl⟩ := h
  refine ⟨ds, ?_, rfl⟩
  rw [← List.map_reverse, List.forall₂_map_left_iff]
  exact hds.imp fun _ _ => Digit.toUpper

/-- A number is spelled by its digits. -/
theorem spells_toDigits (hb : 1 < base) (hb' : base ≤ 16) (n : Nat) :
    Spells base (Nat.toDigits base n) n := by
  induction n using Nat.strongRecOn with
  | ind n ih =>
      by_cases hn : n < base
      · rw [Nat.toDigits_of_lt_base hn]
        have hnil : Spells base [] 0 := spells_nil_iff.mpr rfl
        have h := hnil.concat (digit_digitChar hb' hn)
        rwa [Nat.zero_mul, Nat.zero_add] at h
      · rw [Nat.toDigits_of_base_le hb (Nat.le_of_not_lt hn)]
        have hlt : n / base < n := Nat.div_lt_self (by omega) hb
        have hd : Digit base (n % base).digitChar (n % base) :=
          digit_digitChar hb' (Nat.mod_lt n (by omega))
        have h := (ih (n / base) hlt).concat hd
        rwa [Nat.mul_comm, Nat.div_add_mod] at h

/-- A numeral in base ten spells its number. -/
theorem spells_decimal (n : Nat) : Spells 10 (Numeral.decimal n).toList n := by
  rw [Numeral.decimal, String.toList_ofList]
  exact spells_toDigits (by decide) (by decide) n

/-- A lower-case numeral spells its number, whatever width it is padded to. -/
theorem spells_lowerHex (width n : Nat) : Spells 16 (Numeral.lowerHex width n).toList n := by
  rw [Numeral.lowerHex, String.toList_ofList]
  exact (spells_toDigits (by decide) (by decide) n).zeros (by decide) _

/-- A width does not cut. -/
example : Numeral.lowerHex 2 0x1234 = "1234" := by decide

/-- An upper-case numeral spells its number, whatever width it is padded to. -/
theorem spells_upperHex (width n : Nat) : Spells 16 (Numeral.upperHex width n).toList n := by
  rw [Numeral.upperHex, String.toList_ofList]
  exact (spells_toDigits (by decide) (by decide) n).toUpper.zeros (by decide) _

/-- The width does not hide the number. -/
theorem lowerHex_inj {width k : Nat} :
    Numeral.lowerHex width n = Numeral.lowerHex width k ↔ n = k := by
  constructor
  · intro h
    have hk : Spells 16 (Numeral.lowerHex width n).toList k := h ▸ spells_lowerHex width k
    exact (spells_lowerHex width n).unique hk
  · rintro rfl
    rfl

theorem decimal_ne_nil (n : Nat) : (Numeral.decimal n).toList ≠ [] := by
  rw [Numeral.decimal, String.toList_ofList]
  exact Nat.toDigits_ne_nil

theorem lowerHex_ne_nil (width n : Nat) : (Numeral.lowerHex width n).toList ≠ [] := by
  rw [Numeral.lowerHex, String.toList_ofList]
  exact List.append_ne_nil_of_right_ne_nil _ Nat.toDigits_ne_nil

theorem upperHex_ne_nil (width n : Nat) : (Numeral.upperHex width n).toList ≠ [] := by
  rw [Numeral.upperHex, String.toList_ofList]
  exact List.append_ne_nil_of_right_ne_nil _ (mt List.map_eq_nil_iff.mp Nat.toDigits_ne_nil)

/-! ## Where reading stops -/

/-- Reading stops at a position with a fault. -/
def Stops (base limit : Nat) (cs : List Char) (i : Nat) : NumberFault → Prop
  | .badDigit => ∃ c, cs[i]? = some c ∧ ∀ d, ¬Digit base c d
  | .tooLarge => i < cs.length ∧ ∃ n, Spells base (cs.take (i + 1)) n ∧ limit < n
  | _ => False

/-- The first position where reading stops has a fault. -/
def StopsFirst (base limit : Nat) (cs : List Char) (fault : NumberFault) : Prop :=
  ∃ i, Stops base limit cs i fault ∧ ∀ j < i, ∀ f, ¬Stops base limit cs j f

/-- Reading stops at a character that there is. -/
theorem Stops.lt_length {i : Nat} {fault : NumberFault} (h : Stops base limit cs i fault) :
    i < cs.length := by
  cases fault with
  | badDigit =>
      obtain ⟨c, hc, -⟩ := h
      exact (List.getElem?_eq_some_iff.mp hc).1
  | tooLarge => exact h.1
  | empty | tooSmall => cases h

/-- What stands before the first stop spells a number within the limit. -/
theorem spells_take {i : Nat} (h : ∀ j < i, ∀ f, ¬Stops base limit cs j f)
    (hi : i ≤ cs.length) : ∃ n ≤ limit, Spells base (cs.take i) n := by
  induction i with
  | zero => exact ⟨0, Nat.zero_le _, spells_nil_iff.mpr rfl⟩
  | succ i ih =>
      obtain ⟨m, -, hspells⟩ := ih (fun j hj => h j (by omega)) (by omega)
      have hget : cs[i]? = some cs[i] := List.getElem?_eq_getElem hi
      have hd : ∃ d, Digit base cs[i] d := by
        by_contra hn
        exact h i (by omega) .badDigit ⟨_, hget, not_exists.mp hn⟩
      obtain ⟨d, hd⟩ := hd
      have hnext : Spells base (cs.take (i + 1)) (m * base + d) := by
        rw [List.take_succ_eq_append_getElem hi]
        exact hspells.concat hd
      refine ⟨_, Nat.le_of_not_lt fun hlt => ?_, hnext⟩
      exact h i (by omega) .tooLarge ⟨hi, _, hnext, hlt⟩

/-- Digits that spell a number within the limit are behind the reader. -/
theorem digits_append {beyond : NumberFault} {as : List Char} (h : Spells base as n)
    (hn : n ≤ limit) (cs : List Char) :
    digits base limit beyond 0 (as ++ cs) = digits base limit beyond n cs := by
  induction as using List.reverseRecOn generalizing n cs with
  | nil =>
      cases spells_nil_iff.mp h
      rfl
  | append_singleton as c ih =>
      obtain ⟨m, d, hm, hd, rfl⟩ := spells_concat_iff.mp h
      have hpos : 0 < base := Nat.lt_of_le_of_lt (Nat.zero_le d) hd.1
      have hle : m ≤ m * base := Nat.le_mul_of_pos_right m hpos
      rw [List.append_assoc, ih hm (by omega), List.singleton_append, digits,
        digit?_eq_some_iff.mpr hd]
      exact if_neg (by omega)

/-- Digits of a number within the limit are read as that number. -/
theorem digits_of_spells {beyond : NumberFault} (h : Spells base cs n) (hn : n ≤ limit) :
    digits base limit beyond 0 cs = .ok n := by
  have he : digits base limit beyond 0 (cs ++ []) = .ok n := digits_append h hn []
  rwa [List.append_nil] at he

/-- Reading fails with the first reason to stop. -/
theorem digits_of_stopsFirst {fault : NumberFault} (h : StopsFirst base limit cs fault) :
    digits base limit .tooLarge 0 cs = .error fault := by
  obtain ⟨i, hs, hbefore⟩ := h
  have hi : i < cs.length := hs.lt_length
  obtain ⟨m, hm, hspells⟩ := spells_take hbefore (by omega)
  have hsplit : cs = cs.take i ++ cs[i] :: cs.drop (i + 1) := by
    rw [List.getElem_cons_drop, List.take_append_drop]
  have hread : digits base limit .tooLarge 0 cs =
      digits base limit .tooLarge m (cs[i] :: cs.drop (i + 1)) :=
    (congrArg _ hsplit).trans (digits_append hspells hm _)
  rw [hread, digits]
  cases fault with
  | badDigit =>
      obtain ⟨c, hc, hn⟩ := hs
      cases (List.getElem?_eq_getElem hi).symm.trans hc
      rw [digit?_eq_none_iff.mpr hn]
  | tooLarge =>
      obtain ⟨-, n, hn, hlt⟩ := hs
      rw [List.take_succ_eq_append_getElem hi] at hn
      obtain ⟨m', d, hm', hd, rfl⟩ := spells_concat_iff.mp hn
      cases hm'.unique hspells
      rw [digit?_eq_some_iff.mpr hd]
      exact if_pos hlt
  | empty | tooSmall => cases hs

/-- Where reading does not stop, the numeral spells a number within the limit. -/
theorem exists_spells_of_not_stops (h : ∀ i f, ¬Stops base limit cs i f) :
    ∃ n ≤ limit, Spells base cs n := by
  obtain ⟨n, hn, hspells⟩ := spells_take (i := cs.length) (fun j _ => h j) (Nat.le_refl _)
  rw [List.take_length] at hspells
  exact ⟨n, hn, hspells⟩

/-- Reading stops at a first position, or nowhere. -/
theorem stopsFirst_or_not_stops (base limit : Nat) (cs : List Char) :
    (∃ fault, StopsFirst base limit cs fault) ∨ ∀ i f, ¬Stops base limit cs i f := by
  classical
  by_cases h : ∃ i f, Stops base limit cs i f
  · obtain ⟨fault, hs⟩ := Nat.find_spec h
    exact .inl ⟨fault, _, hs, fun j hj f hf => Nat.find_min h hj ⟨f, hf⟩⟩
  · exact .inr fun i f hf => h ⟨i, f, hf⟩

/-- Reading comes to a number just when the digits spell it and it is within the limit. -/
theorem digits_eq_ok_iff :
    digits base limit .tooLarge 0 cs = .ok n ↔ Spells base cs n ∧ n ≤ limit := by
  constructor
  · intro h
    rcases stopsFirst_or_not_stops base limit cs with ⟨fault, hs⟩ | hs
    · cases h.symm.trans (digits_of_stopsFirst hs)
    · obtain ⟨m, hm, hspells⟩ := exists_spells_of_not_stops hs
      cases h.symm.trans (digits_of_spells hspells hm)
      exact ⟨hspells, hm⟩
  · rintro ⟨hspells, hn⟩
    exact digits_of_spells hspells hn

/-- Reading fails just where it stops first, and for that reason. -/
theorem digits_eq_error_iff {fault : NumberFault} :
    digits base limit .tooLarge 0 cs = .error fault ↔ StopsFirst base limit cs fault := by
  constructor
  · intro h
    rcases stopsFirst_or_not_stops base limit cs with ⟨f, hs⟩ | hs
    · cases h.symm.trans (digits_of_stopsFirst hs)
      exact hs
    · obtain ⟨m, hm, hspells⟩ := exists_spells_of_not_stops hs
      cases h.symm.trans (digits_of_spells hspells hm)
  · exact digits_of_stopsFirst

end SuperChip.Reading
