import SuperChip.Proofs.Text.Numerals

/-!
# Addresses as text

An address is a mark, a sign and digits.  The mark is `0x` or `0X` for digits of base sixteen,
and there is none for base ten.  The sign is a plus or none.  There is at least one digit, and
the number is one of sixteen bits (`Reading.IsAddress`).  These texts are read, each as its
number, and all others are refused with the fault of the place where reading stops
(`Reading.address_accepts_grammar`).

A mark and a sign are taken where they can be, so a text has only one of each
(`Marked`, `Unsigned`).  The texts that are refused at once are those with nothing behind the
mark and those with nothing behind the sign.
-/

namespace SuperChip.Reading

variable {base limit n : Nat} {text cs : List Char} {fault : NumberFault}

/-! ## The grammar -/

/-- The marks of an address, each with the base of the digits behind it. -/
def marks : List (List Char × Nat) := [([], 10), (['0', 'x'], 16), (['0', 'X'], 16)]

/-- The signs of a number that is not negative. -/
def signs : List (List Char) := [[], ['+']]

theorem mem_marks_iff {mark : List Char × Nat} :
    mark ∈ marks ↔ mark = ([], 10) ∨ mark = (['0', 'x'], 16) ∨ mark = (['0', 'X'], 16) := by
  simp [marks]

theorem mem_signs_iff {sign : List Char} : sign ∈ signs ↔ sign = [] ∨ sign = ['+'] := by
  simp [signs]

/-- A text is a number within a limit: a sign and at least one digit. -/
def IsNumber (base limit : Nat) (text : List Char) (n : Nat) : Prop :=
  ∃ sign ∈ signs, ∃ cs, text = sign ++ cs ∧ cs ≠ [] ∧ Spells base cs n ∧ n ≤ limit

/-- A text is an address: a mark and a number of sixteen bits. -/
def IsAddress (text : List Char) (n : Nat) : Prop :=
  ∃ mark ∈ marks, ∃ cs, text = mark.1 ++ cs ∧ IsNumber mark.2 0xFFFF cs n

/-- What stands behind the mark of a text, and the base of it. -/
inductive Marked : List Char → Nat → List Char → Prop where
  | lower (cs : List Char) : Marked ('0' :: 'x' :: cs) 16 cs
  | upper (cs : List Char) : Marked ('0' :: 'X' :: cs) 16 cs
  | none {cs : List Char} : (∀ r, cs ≠ '0' :: 'x' :: r) → (∀ r, cs ≠ '0' :: 'X' :: r) →
      Marked cs 10 cs

/-- What stands behind the sign of a text. -/
inductive Unsigned : List Char → List Char → Prop where
  | plus (cs : List Char) : Unsigned ('+' :: cs) cs
  | none {cs : List Char} : (∀ r, cs ≠ '+' :: r) → Unsigned cs cs

/-- A text is no number, and this is what is wrong with it. -/
inductive IsRefused (base limit : Nat) : List Char → NumberFault → Prop where
  /-- There is nothing. -/
  | empty : IsRefused base limit [] .empty
  /-- A sign alone is no digit. -/
  | alone : IsRefused base limit ['+'] .badDigit
  /-- Behind the sign there is a first place where reading stops. -/
  | stops {text cs : List Char} {fault : NumberFault} : Unsigned text cs →
      StopsFirst base limit cs fault → IsRefused base limit text fault

/-! ## Numbers -/

theorem exists_unsigned (text : List Char) : ∃ cs, Unsigned text cs := by
  by_cases h : ∃ r, text = '+' :: r
  · obtain ⟨r, rfl⟩ := h
    exact ⟨r, .plus r⟩
  · exact ⟨text, .none (not_exists.mp h)⟩

/-- The digits behind the sign are read. -/
theorem natural_of_unsigned (h : Unsigned text cs) (hne : cs ≠ []) :
    natural base limit text = digits base limit .tooLarge 0 cs := by
  cases h with
  | plus =>
      rw [natural, digitsFrom]
      exact if_neg (by simpa using hne)
  | none hp =>
      unfold natural
      split
      next => exact absurd rfl hne
      next r => exact absurd rfl (hp r)
      next => rfl

theorem StopsFirst.ne_nil (h : StopsFirst base limit cs fault) : cs ≠ [] := by
  obtain ⟨i, hs, -⟩ := h
  rintro rfl
  exact absurd hs.lt_length (Nat.not_lt_zero i)

/-- The sign is no digit. -/
theorem Spells.ne_plus {r : List Char} (h : Spells base cs n) : cs ≠ '+' :: r := by
  rintro rfl
  exact h.notMem (by decide) List.mem_cons_self

theorem natural_eq_ok_iff :
    natural base limit text = .ok n ↔ IsNumber base limit text n := by
  constructor
  · intro h
    obtain ⟨cs, hu⟩ := exists_unsigned text
    have hne : cs ≠ [] := by
      rintro rfl
      cases hu <;> cases h
    rw [natural_of_unsigned hu hne] at h
    obtain ⟨hspells, hn⟩ := digits_eq_ok_iff.mp h
    cases hu with
    | plus => exact ⟨['+'], mem_signs_iff.mpr (.inr rfl), cs, rfl, hne, hspells, hn⟩
    | none => exact ⟨[], mem_signs_iff.mpr (.inl rfl), text, rfl, hne, hspells, hn⟩
  · rintro ⟨sign, hsign, cs, rfl, hne, hspells, hn⟩
    have hu : Unsigned (sign ++ cs) cs := by
      rcases mem_signs_iff.mp hsign with rfl | rfl
      · exact .none fun r => hspells.ne_plus
      · exact .plus cs
    rw [natural_of_unsigned hu hne]
    exact digits_eq_ok_iff.mpr ⟨hspells, hn⟩

/-- A numeral is a number without a sign. -/
theorem natural_of_spells (h : Spells base cs n) (hne : cs ≠ []) (hn : n ≤ limit) :
    natural base limit cs = .ok n :=
  natural_eq_ok_iff.mpr ⟨[], mem_signs_iff.mpr (.inl rfl), cs, rfl, hne, h, hn⟩

theorem natural_eq_error_iff :
    natural base limit text = .error fault ↔ IsRefused base limit text fault := by
  constructor
  · intro h
    obtain ⟨cs, hu⟩ := exists_unsigned text
    by_cases hne : cs = []
    · subst hne
      cases hu with
      | plus =>
          cases h
          exact .alone
      | none =>
          cases h
          exact .empty
    · rw [natural_of_unsigned hu hne] at h
      exact .stops hu (digits_eq_error_iff.mp h)
  · intro h
    cases h with
    | empty => rfl
    | alone => rfl
    | stops hu hs =>
        rw [natural_of_unsigned hu hs.ne_nil]
        exact digits_eq_error_iff.mpr hs

/-! ## Addresses -/

theorem exists_marked (text : List Char) : ∃ base cs, Marked text base cs := by
  by_cases hl : ∃ r, text = '0' :: 'x' :: r
  · obtain ⟨r, rfl⟩ := hl
    exact ⟨16, r, .lower r⟩
  · by_cases hu : ∃ r, text = '0' :: 'X' :: r
    · obtain ⟨r, rfl⟩ := hu
      exact ⟨16, r, .upper r⟩
    · exact ⟨10, text, .none (not_exists.mp hl) (not_exists.mp hu)⟩

/-- What stands behind the mark is read as a number. -/
theorem address_of_marked (h : Marked text base cs) : address text = natural base 0xFFFF cs := by
  cases h with
  | lower => rfl
  | upper => rfl
  | none hl hu =>
      unfold address
      split
      next r => exact absurd rfl (hl r)
      next r => exact absurd rfl (hu r)
      next => rfl

/-- The letter of a mark is no digit, so a number has no mark. -/
theorem IsNumber.marked (h : IsNumber 10 limit text n) : Marked text 10 text := by
  have hne {x : Char} (hx : x ∉ lowerDigits ++ upperDigits) (r : List Char) :
      text ≠ '0' :: x :: r := by
    obtain ⟨sign, hsign, cs, rfl, -, hspells, -⟩ := h
    intro he
    rcases mem_signs_iff.mp hsign with rfl | rfl
    · have hcs : cs = '0' :: x :: r := he
      exact hspells.notMem hx (by simp [hcs])
    · cases he
  exact .none (hne (by decide)) (hne (by decide))

theorem address_eq_ok_iff : address text = .ok n ↔ IsAddress text n := by
  constructor
  · intro h
    obtain ⟨base, cs, hm⟩ := exists_marked text
    rw [address_of_marked hm, natural_eq_ok_iff] at h
    cases hm with
    | lower => exact ⟨(['0', 'x'], 16), mem_marks_iff.mpr (.inr (.inl rfl)), cs, rfl, h⟩
    | upper => exact ⟨(['0', 'X'], 16), mem_marks_iff.mpr (.inr (.inr rfl)), cs, rfl, h⟩
    | none => exact ⟨([], 10), mem_marks_iff.mpr (.inl rfl), text, rfl, h⟩
  · rintro ⟨mark, hmark, cs, rfl, h⟩
    have hm : Marked (mark.1 ++ cs) mark.2 cs := by
      rcases mem_marks_iff.mp hmark with rfl | rfl | rfl
      · exact h.marked
      · exact .lower cs
      · exact .upper cs
    rw [address_of_marked hm]
    exact natural_eq_ok_iff.mpr h

theorem address_eq_error_iff : address text = .error fault ↔
    ∃ base cs, Marked text base cs ∧ IsRefused base 0xFFFF cs fault := by
  constructor
  · intro h
    obtain ⟨base, cs, hm⟩ := exists_marked text
    rw [address_of_marked hm, natural_eq_error_iff] at h
    exact ⟨base, cs, hm, h⟩
  · rintro ⟨base, cs, hm, h⟩
    rw [address_of_marked hm]
    exact natural_eq_error_iff.mpr h

/-- The mark comes before the sign. -/
example : address "+0x5".toList = .error .badDigit := by rfl
/-- The number is too large before the last character is looked at. -/
example : address "65536x".toList = .error .tooLarge := by rfl

/-! ## Numerals of addresses -/

/-- A numeral is an address behind the mark of its base. -/
theorem address_of_spells {mark : List Char × Nat} (hm : mark ∈ marks) (h : Spells mark.2 cs n)
    (hne : cs ≠ []) (hn : n ≤ 0xFFFF) : address (mark.1 ++ cs) = .ok n :=
  address_eq_ok_iff.mpr
    ⟨mark, hm, cs, rfl, natural_eq_ok_iff.mp (natural_of_spells h hne hn)⟩

/-- Any number of zeros may stand between the mark and the numeral. -/
theorem address_of_padded {mark : List Char × Nat} (hm : mark ∈ marks) (h : Spells mark.2 cs n)
    (hne : cs ≠ []) (hn : n ≤ 0xFFFF) (zeros : Nat) :
    address (mark.1 ++ (List.replicate zeros '0' ++ cs)) = .ok n := by
  have hbase : 0 < mark.2 := by
    rcases mem_marks_iff.mp hm with rfl | rfl | rfl <;> decide
  exact address_of_spells hm (h.zeros hbase zeros)
    (List.append_ne_nil_of_right_ne_nil _ hne) hn

/-- A text is read as an address just when it is one by the grammar.  All other texts are
refused: with nothing behind the mark because of that, and else with the fault of the first
place behind the sign where reading stops.  Every number of sixteen bits is read from its
numeral in base ten and from its numerals in base sixteen behind either mark, in either case
and with any number of zeros in front. -/
theorem address_accepts_grammar :
    (∀ text n, address text = .ok n ↔ IsAddress text n) ∧
      (∀ text fault, address text = .error fault ↔
        ∃ base cs, Marked text base cs ∧ IsRefused base 0xFFFF cs fault) ∧
      ∀ (n : UInt16) (zeros width : Nat),
        address (List.replicate zeros '0' ++ (Numeral.decimal n.toNat).toList) = .ok n.toNat ∧
          ∀ x ∈ ['x', 'X'],
            ∀ numeral ∈ [Numeral.lowerHex width n.toNat, Numeral.upperHex width n.toNat],
              address ('0' :: x :: (List.replicate zeros '0' ++ numeral.toList)) =
                .ok n.toNat := by
  refine ⟨fun _ _ => address_eq_ok_iff, fun _ _ => address_eq_error_iff, ?_⟩
  intro n zeros width
  have hn : n.toNat ≤ 0xFFFF := Nat.le_of_lt_succ n.toNat_lt
  constructor
  · have hmark : (([], 10) : List Char × Nat) ∈ marks := mem_marks_iff.mpr (.inl rfl)
    exact address_of_padded hmark (spells_decimal _) (decimal_ne_nil _) hn zeros
  · intro x hx numeral hnumeral
    have hmark : (['0', x], 16) ∈ marks := by
      simp only [List.mem_cons, List.not_mem_nil, or_false] at hx
      rcases hx with rfl | rfl
      · exact mem_marks_iff.mpr (.inr (.inl rfl))
      · exact mem_marks_iff.mpr (.inr (.inr rfl))
    obtain ⟨hspells, hne⟩ : Spells 16 numeral.toList n.toNat ∧ numeral.toList ≠ [] := by
      simp only [List.mem_cons, List.not_mem_nil, or_false] at hnumeral
      rcases hnumeral with rfl | rfl
      · exact ⟨spells_lowerHex width _, lowerHex_ne_nil width _⟩
      · exact ⟨spells_upperHex width _, upperHex_ne_nil width _⟩
    exact address_of_padded hmark hspells hne hn zeros

/-- `0X00002a0` has more digits than a number of sixteen bits needs. -/
theorem address_accepts_padded_numeral :
    'X' ∈ ['x', 'X'] ∧ Numeral.lowerHex 0 0x2A0 ∈ [Numeral.lowerHex 0 0x2A0,
      Numeral.upperHex 0 0x2A0] ∧ address "0X00002a0".toList = .ok 0x2A0 := by
  have hx : 'X' ∈ ['x', 'X'] := by simp
  have hnumeral : Numeral.lowerHex 0 0x2A0 ∈ [Numeral.lowerHex 0 0x2A0,
      Numeral.upperHex 0 0x2A0] := List.mem_cons_self
  exact ⟨hx, hnumeral, (address_accepts_grammar.2.2 0x2A0 4 0).2 'X' hx _ hnumeral⟩

end SuperChip.Reading
