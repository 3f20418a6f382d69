import SuperChip.Instruction.Decode
import SuperChip.Instruction.Listing
import SuperChip.Proofs.Text.Address

/-!
# Reading a listing back

A line of a listing is assembled again in three steps.  It is cut into words at its blanks
(`Line.words`), each word behind the first one is read as an operand (`Operand.read?`), and
the name of the operation with the kinds of its operands says which instruction is meant
(`Instruction.ofParts?`).

A number does not show whether it is a byte, a count or an address.  So it is read as an
address, the widest of them (`Operand.widened`), and the operation makes it as narrow as its
own operand is.

What is listed is assembled to the same instruction, whatever its operands are
(`Instruction.ofListing?_listing`).  So a line of a listing is never ambiguous
(`Instruction.listing_unambiguous`).
-/

namespace SuperChip

/-! ## Operands -/

namespace Operand

/-- The operand with a number taken as an address. -/
def widened : Operand → Operand
  | .byte kk => .address kk.toUInt16
  | .count n => .address n.toUInt16
  | o => o

/-- The operands that have a name of their own. -/
def places : List Operand :=
  [.index, .atIndex, .delay, .sound, .key, .glyph, .largeGlyph, .digits, .flags]

/-- The operand of a text, with a number taken as an address. -/
def read? : List Char → Option Operand
  | 'V' :: cs => (Reading.natural 16 0xFF cs).toOption.map fun x => .register (.ofNat x)
  | '0' :: cs => (Reading.address ('0' :: cs)).toOption.map fun a => .address (.ofNat a)
  | cs => places.find? fun o => o.text.toList = cs

theorem read?_register (x : UInt8) : read? (register x).text.toList = some (.register x) := by
  have hn : x.toNat ≤ 0xFF := Nat.le_of_lt_succ x.toNat_lt
  have hread : Reading.natural 16 0xFF (Numeral.upperHex 1 x.toNat).toList = .ok x.toNat :=
    Reading.natural_of_spells (Reading.spells_upperHex 1 _) (Reading.upperHex_ne_nil 1 _) hn
  have htext : (register x).text.toList = 'V' :: (Numeral.upperHex 1 x.toNat).toList := by
    rw [text, String.toList_append]
    rfl
  rw [htext, read?, hread]
  exact congrArg (some ∘ register) UInt8.ofNat_toNat

/-- A number is read as an address, whatever its width is. -/
theorem read?_number (width : Nat) (a : UInt16) :
    read? (Numeral.lowerAddress width a.toNat).toList = some (.address a) := by
  have hn : a.toNat ≤ 0xFFFF := Nat.le_of_lt_succ a.toNat_lt
  have hmark : (['0', 'x'], 16) ∈ Reading.marks := Reading.mem_marks_iff.mpr (.inr (.inl rfl))
  have hread : Reading.address ('0' :: 'x' :: (Numeral.lowerHex width a.toNat).toList) =
      .ok a.toNat :=
    Reading.address_of_spells hmark (Reading.spells_lowerHex width _)
      (Reading.lowerHex_ne_nil width _) hn
  have hmarked : (Numeral.lowerAddress width a.toNat).toList =
      '0' :: 'x' :: (Numeral.lowerHex width a.toNat).toList := by
    rw [Numeral.lowerAddress, String.toList_append]
    rfl
  rw [hmarked, read?, hread]
  exact congrArg (some ∘ address) UInt16.ofNat_toNat

/-- What is written for an operand is read back. -/
theorem read?_text (o : Operand) : read? o.text.toList = some o.widened := by
  cases o with
  | register x => exact read?_register x
  | byte kk =>
      rw [text, ← UInt8.toNat_toUInt16]
      exact read?_number 2 kk.toUInt16
  | address a => exact read?_number 3 a
  | count n =>
      rw [text, ← UInt8.toNat_toUInt16]
      exact read?_number 1 n.toUInt16
  | index | atIndex | delay | sound | key | glyph | largeGlyph | digits | flags => rfl

end Operand

namespace Instruction

/-- The instruction of an operation and its operands, numbers taken as addresses. -/
def ofParts? : String → List Operand → Option Instruction
  | "NOP", [] => some .nop
  | "CLS", [] => some .clear
  | "RET", [] => some .ret
  | "SCD", [.address n] => some (.scrollDown n.toUInt8)
  | "SCR", [] => some .scrollRight
  | "SCL", [] => some .scrollLeft
  | "HIGH", [] => some .extend
  | "LOW", [] => some .shrink
  | "JP", [.address a] => some (.jump a)
  | "JP", [.register _, .address a] => some (.jumpIndexed a)
  | "CALL", [.address a] => some (.call a)
  | "SE", [.register x, .address kk] => some (.skipEq x kk.toUInt8)
  | "SE", [.register x, .register y] => some (.skipEqReg x y)
  | "SNE", [.register x, .address kk] => some (.skipNe x kk.toUInt8)
  | "SNE", [.register x, .register y] => some (.skipNeReg x y)
  | "ADD", [.register x, .address kk] => some (.add x kk.toUInt8)
  | "ADD", [.register x, .register y] => some (.addReg x y)
  | "ADD", [.index, .register x] => some (.addIndex x)
  | "OR", [.register x, .register y] => some (.or x y)
  | "AND", [.register x, .register y] => some (.and x y)
  | "XOR", [.register x, .register y] => some (.xor x y)
  | "SUB", [.register x, .register y] => some (.sub x y)
  | "SHR", [.register x] => some (.shr x)
  | "SUBN", [.register x, .register y] => some (.subN x y)
  | "SHL", [.register x] => some (.shl x)
  | "RND", [.register x, .address kk] => some (.random x kk.toUInt8)
  | "DRW", [.register x, .register y, .address n] => some (.draw x y n.toUInt8)
  | "SKP", [.register x] => some (.skipPressed x)
  | "SKNP", [.register x] => some (.skipNotPressed x)
  | "LD", [.register x, .address kk] => some (.load x kk.toUInt8)
  | "LD", [.register x, .register y] => some (.move x y)
  | "LD", [.index, .address a] => some (.loadIndex a)
  | "LD", [.register x, .delay] => some (.loadDelay x)
  | "LD", [.register x, .key] => some (.waitKey x)
  | "LD", [.delay, .register x] => some (.setDelay x)
  | "LD", [.sound, .register x] => some (.setSound x)
  | "LD", [.glyph, .register x] => some (.glyph x)
  | "LD", [.largeGlyph, .register x] => some (.largeGlyph x)
  | "LD", [.digits, .register x] => some (.bcd x)
  | "LD", [.atIndex, .register x] => some (.store x)
  | "LD", [.register x, .atIndex] => some (.read x)
  | "LD", [.flags, .register x] => some (.saveFlags x)
  | "LD", [.register x, .flags] => some (.loadFlags x)
  | _, _ => none

theorem ofParts?_widened (i : Instruction) :
    ofParts? i.operation (i.operands.map Operand.widened) = some i := by
  -- where a number was widened, the operation narrows it again
  cases i with
  | scrollDown n => exact congrArg (some ∘ scrollDown) n.toUInt8_toUInt16
  | skipEq x kk => exact congrArg (some ∘ skipEq x) kk.toUInt8_toUInt16
  | skipNe x kk => exact congrArg (some ∘ skipNe x) kk.toUInt8_toUInt16
  | load x kk => exact congrArg (some ∘ load x) kk.toUInt8_toUInt16
  | add x kk => exact congrArg (some ∘ add x) kk.toUInt8_toUInt16
  | random x kk => exact congrArg (some ∘ random x) kk.toUInt8_toUInt16
  | draw x y n => exact congrArg (some ∘ draw x y) n.toUInt8_toUInt16
  | _ => rfl

end Instruction

/-! ## Words -/

namespace Line

/-- A text that is cut nowhere. -/
def IsWord (text : String) : Prop := ' ' ∉ text.toList ∧ ',' ∉ text.toList

instance (text : String) : Decidable (IsWord text) :=
  inferInstanceAs (Decidable (' ' ∉ text.toList ∧ ',' ∉ text.toList))

theorem IsWord.append {s t : String} (hs : IsWord s) (ht : IsWord t) : IsWord (s ++ t) := by
  simp only [IsWord, String.toList_append, List.mem_append, not_or]
  exact ⟨⟨hs.1, ht.1⟩, hs.2, ht.2⟩

theorem isWord_of_spells {text : String} {base n : Nat} (h : Reading.Spells base text.toList n) :
    IsWord text :=
  ⟨h.notMem (by decide), h.notMem (by decide)⟩

/-- The words of a line are what stands between its blanks, without commas. -/
def words (line : String) : List (List Char) := (line.toList.filter (· ≠ ',')).splitOn ' '

theorem filter_of_isWord {text : String} (h : IsWord text) :
    text.toList.filter (· ≠ ',') = text.toList :=
  List.filter_eq_self.mpr fun c hc => decide_eq_true fun he : c = ',' => h.2 (he ▸ hc)

/-- Without its commas a sequence has only blanks in between. -/
theorem filter_separated {ts : List String} (h : ∀ t ∈ ts, IsWord t) :
    (Record.separated ts).toList.filter (· ≠ ',') = [' '].intercalate (ts.map String.toList) := by
  rw [Record.separated, String.toList_intercalate]
  induction ts with
  | nil => rfl
  | cons t ts ih =>
      have ht := filter_of_isWord (h t List.mem_cons_self)
      have ih := ih fun t' ht' => h t' (List.mem_cons_of_mem _ ht')
      cases ts with
      | nil => simpa using ht
      | cons t' ts =>
          simp only [List.map_cons, List.intercalate_cons_cons, List.filter_append] at ih ⊢
          rw [ht, ih]
          rfl

end Line

theorem Operand.isWord_text (o : Operand) : Line.IsWord o.text := by
  have hnumber (width n : Nat) : Line.IsWord (Numeral.lowerAddress width n) :=
    .append (by decide) (Line.isWord_of_spells (Reading.spells_lowerHex width n))
  cases o with
  | register x => exact .append (by decide) (Line.isWord_of_spells (Reading.spells_upperHex 1 _))
  | byte kk => exact hnumber 2 _
  | address a => exact hnumber 3 _
  | count n => exact hnumber 1 _
  | index | atIndex | delay | sound | key | glyph | largeGlyph | digits | flags => decide

theorem Instruction.isWord_operation (i : Instruction) : Line.IsWord i.operation := by
  cases i <;> simp only [operation] <;> decide

/-- The words of a listing are its operation and its operands. -/
theorem Instruction.words_listing (i : Instruction) :
    Line.words i.listing = (i.operation :: i.operands.map Operand.text).map String.toList := by
  have hwords : ∀ t ∈ i.operation :: i.operands.map Operand.text, Line.IsWord t := by
    simp only [List.forall_mem_cons, List.forall_mem_map]
    exact ⟨i.isWord_operation, fun o _ => o.isWord_text⟩
  have hblank : ∀ cs ∈ (i.operation :: i.operands.map Operand.text).map String.toList,
      ' ' ∉ cs := List.forall_mem_map.mpr fun t ht => (hwords t ht).1
  have hfilter : i.listing.toList.filter (· ≠ ',') =
      [' '].intercalate ((i.operation :: i.operands.map Operand.text).map String.toList) := by
    have hop := Line.filter_of_isWord i.isWord_operation
    unfold listing
    split
    next hnil => simpa [hnil] using hop
    next hcons =>
      have hops := Line.filter_separated (List.forall_mem_cons.mp hwords).2
      obtain ⟨o, os, hos⟩ := List.exists_cons_of_ne_nil hcons
      simp only [hos, List.map_cons, List.intercalate_cons_cons, String.toList_append,
        List.filter_append] at hops ⊢
      rw [hop, hops]
      rfl
  rw [Line.words, hfilter]
  exact List.splitOn_intercalate ' ' hblank (List.cons_ne_nil _ _)

/-! ## Lines -/

namespace Instruction

/-- The instruction of a line of a listing. -/
def ofListing? (line : String) : Option Instruction :=
  match Line.words line with
  | [] => none
  | name :: operands => (operands.mapM Operand.read?).bind (ofParts? (String.ofList name))

/-- What is listed is assembled to the same instruction, whatever its operands are. -/
theorem ofListing?_listing (i : Instruction) : ofListing? i.listing = some i := by
  have hread (os : List Operand) :
      ((os.map Operand.text).map String.toList).mapM Operand.read? =
        some (os.map Operand.widened) := by
    induction os with
    | nil => rfl
    | cons o os ih =>
        rw [List.map_cons, List.map_cons, List.mapM_cons, ih, Operand.read?_text]
        rfl
  rw [ofListing?, words_listing]
  simp only [List.map_cons, hread, Option.bind_some, String.ofList_toList]
  exact ofParts?_widened i

example : ofListing? "LD [I], V1F" = some (.store 0x1F) := by decide
example : ofListing? "JP V0, 0x020" = some (.jumpIndexed 0x20) := by decide

theorem listing_injective : Function.Injective listing := fun i j h =>
  Option.some.inj ((ofListing?_listing i).symm.trans (h ▸ ofListing?_listing j))

theorem mnemonic_injective : Function.Injective mnemonic := by
  intro i j h
  by_cases hi : i.mnemonic = none
  · have hj : j.mnemonic = none := h ▸ hi
    exact (mnemonic_eq_none_iff.mp hi).trans (mnemonic_eq_none_iff.mp hj).symm
  · have hj : j.mnemonic ≠ none := h ▸ hi
    have hsome : some i.listing = some j.listing :=
      (mnemonic_eq_listing hi).symm.trans (h.trans (mnemonic_eq_listing hj))
    exact listing_injective (Option.some.inj hsome)

/-- A line of a listing is never ambiguous.  Instructions with the same listing are the same,
whatever their operands are, and so are those that are told by the same mnemonic.  Words that
decode to instructions with the same listing decode to the same one, wherever they stand. -/
theorem listing_unambiguous :
    Function.Injective listing ∧ Function.Injective mnemonic ∧
      ∀ (w w' address address' : UInt16) (i j : Instruction), decode w address = .ok i →
        decode w' address' = .ok j → i.listing = j.listing → i = j :=
  ⟨listing_injective, mnemonic_injective, fun _ _ _ _ _ _ _ _ h => listing_injective h⟩

/-- `8126` and `81F6` differ in a digit that is free, so they are listed alike. -/
theorem listing_unambiguous_of_free_digit :
    ∃ i j, decode 0x8126 0x200 = .ok i ∧ decode 0x81F6 0x204 = .ok j ∧
      i.listing = "SHR V1" ∧ i.listing = j.listing ∧ i = j := by
  obtain ⟨i, j, hi, hj, ht, hl⟩ : ∃ i j, decode 0x8126 0x200 = .ok i ∧
      decode 0x81F6 0x204 = .ok j ∧ i.listing = "SHR V1" ∧ i.listing = j.listing :=
    ⟨.shr 1, .shr 1, by decide, by decide, by decide, rfl⟩
  exact ⟨i, j, hi, hj, ht, hl, listing_unambiguous.2.2 _ _ _ _ i j hi hj hl⟩

end Instruction

end SuperChip
