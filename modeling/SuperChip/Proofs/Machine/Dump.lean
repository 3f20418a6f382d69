import SuperChip.Machine.Dump
import SuperChip.Proofs.Guarded.Ram
import SuperChip.Proofs.Machine.Stage
import SuperChip.Proofs.Text.Numerals

/-!
# Reading a dump back

A dump is read back by cutting.  Each line is cut behind its closing brackets, what is left is
cut at the opening ones, and blanks do not count (`Dump.table`).  So every field becomes a
pair of cells, its name and its numeral.

Neither names nor numerals hold any of the characters at which is cut, so the cells are those
that were written (`Dump.table_text`), however long a numeral has become.  For the dump of a
machine these are what the machine dumped (`Machine.table_dump`).  A numeral determines its
number, so two machines with the same dump agree on all that is dumped (`Machine.dumped_inj`).
-/

namespace SuperChip

/-! ## Cutting -/

namespace Dump

/-- The lines of a text. -/
def lines (text : String) : List (List Char) := text.toList.splitOn '\n'

/-- The cells of a line, two for each field. -/
def cells (line : List Char) : List (List String) :=
  ((line.filter (· ≠ ' ')).splitOn ']').dropLast.map fun field =>
    (field.splitOn '[').map String.ofList

/-- The cells of a text, line by line. -/
def table (text : String) : List (List (List String)) := (lines text).map cells

/-- The characters that hold the parts of a dump apart. -/
def separators : List Char := [' ', '[', ']', '\n']

/-- A text that is cut nowhere. -/
def IsPlain (text : String) : Prop := ∀ c ∈ separators, c ∉ text.toList

instance (text : String) : Decidable (IsPlain text) :=
  List.decidableBAll (· ∉ text.toList) separators

theorem isPlain_of_spells {base n : Nat} {text : String} (h : Reading.Spells base text.toList n) :
    IsPlain text := by
  have hdigits : IsPlain (.ofList (Reading.lowerDigits ++ Reading.upperDigits)) := by decide
  intro c hc
  have hc' := hdigits c hc
  rw [String.toList_ofList] at hc'
  exact h.notMem hc'

theorem isPlain_lowerHex (width n : Nat) : IsPlain (Numeral.lowerHex width n) :=
  isPlain_of_spells (Reading.spells_lowerHex width n)

theorem isPlain_upperHex (width n : Nat) : IsPlain (Numeral.upperHex width n) :=
  isPlain_of_spells (Reading.spells_upperHex width n)

theorem IsPlain.append {text rest : String} (h : IsPlain text) (h' : IsPlain rest) :
    IsPlain (text ++ rest) := by
  intro c hc hmem
  rw [String.toList_append] at hmem
  exact (List.mem_append.mp hmem).elim (h c hc) (h' c hc)

theorem IsPlain.filter_eq {text : String} (h : IsPlain text) :
    text.toList.filter (· ≠ ' ') = text.toList := by
  refine List.filter_eq_self.mpr fun c hc => decide_eq_true ?_
  rintro rfl
  exact h ' ' (by decide) hc

/-- Without its blanks, a line is its parts without theirs. -/
theorem filter_intercalate (parts : List (List Char)) :
    ([' '].intercalate parts).filter (· ≠ ' ') = parts.flatMap (·.filter (· ≠ ' ')) := by
  induction parts with
  | nil => rfl
  | cons part parts ih =>
      cases parts with
      | nil => simp
      | cons next parts =>
          rw [List.intercalate_cons_cons, List.filter_append, List.filter_append, ih,
            List.flatMap_cons]
          simp

/-- Parts that all end in a bracket are cut behind it, and nothing is left over. -/
theorem splitOn_flatMap_append {parts : List (List Char)} (h : ∀ part ∈ parts, ']' ∉ part) :
    (parts.flatMap (· ++ [']'])).splitOn ']' = parts ++ [[]] := by
  induction parts with
  | nil => rfl
  | cons part parts ih =>
      rw [List.flatMap_cons, List.append_assoc, List.singleton_append,
        List.splitOn_append_cons_self_of_not_mem (h part List.mem_cons_self),
        ih fun p hp => h p (List.mem_cons_of_mem _ hp)]
      rfl

/-! ## Fields -/

/-- What a field is written from. -/
structure Field where
  /-- Its name. -/
  name : String
  /-- The least number of digits. -/
  width : Nat
  /-- The number in its brackets. -/
  number : Nat

namespace Field

/-- The field as it is written. -/
def text (f : Field) : String := Machine.dumpField f.name f.width f.number

/-- The cells of the field. -/
def pair (f : Field) : List String := [f.name, Numeral.lowerHex f.width f.number]

/-- The characters of the field without its blanks and its closing bracket. -/
def inner (f : Field) : List Char := ['['].intercalate (f.pair.map String.toList)

variable {f : Field} (h : IsPlain f.name)
include h

theorem isPlain_of_mem_pair {cell : String} (hc : cell ∈ f.pair) : IsPlain cell := by
  rcases List.mem_cons.mp hc with rfl | hc
  · exact h
  · rw [List.mem_singleton.mp hc]
    exact isPlain_lowerHex _ _

theorem filter_text : f.text.toList.filter (· ≠ ' ') = f.inner ++ [']'] := by
  have hname : f.name.toList.filter (· ≠ ' ') = f.name.toList := h.filter_eq
  have hnumeral : (Numeral.lowerHex f.width f.number).toList.filter (· ≠ ' ') =
      (Numeral.lowerHex f.width f.number).toList :=
    (isPlain_lowerHex _ _).filter_eq
  simp only [text, inner, pair, Machine.dumpField, String.toList_append, List.filter_append,
    hname, hnumeral, String.toList_ofList, List.filter_replicate]
  simp

theorem notMem_inner {c : Char} (hc : c ∈ separators) (hne : c ≠ '[') : c ∉ f.inner := by
  have hname : c ∉ f.name.toList := h c hc
  have hnumeral : c ∉ (Numeral.lowerHex f.width f.number).toList := isPlain_lowerHex _ _ c hc
  simp [inner, pair, hname, hnumeral, hne]

theorem splitOn_inner : (f.inner.splitOn '[').map String.ofList = f.pair := by
  have hplain : ∀ cs ∈ f.pair.map String.toList, '[' ∉ cs := by
    intro cs hcs
    obtain ⟨cell, hcell, rfl⟩ := List.mem_map.mp hcs
    exact isPlain_of_mem_pair h hcell _ (by decide)
  have hne : f.pair.map String.toList ≠ [] := by
    simp [pair]
  rw [inner, List.splitOn_intercalate '[' hplain hne, List.map_map]
  simp [Function.comp_def]

end Field

/-! ## Lines -/

/-- The fields as a line. -/
def line (fields : List Field) : String := " ".intercalate (fields.map Field.text)

section

variable {fields : List Field} (h : ∀ f ∈ fields, IsPlain f.name)
include h

theorem filter_line : (line fields).toList.filter (· ≠ ' ') =
    (fields.map Field.inner).flatMap (· ++ [']']) := by
  rw [line, String.toList_intercalate, List.map_map]
  refine (filter_intercalate _).trans ?_
  rw [List.flatMap_map, List.flatMap_map]
  exact List.flatMap_congr fun f hf => Field.filter_text (h f hf)

/-- A line is cut into the names and the numerals of its fields. -/
theorem cells_line : cells (line fields).toList = fields.map Field.pair := by
  have hinner : ∀ part ∈ fields.map Field.inner, ']' ∉ part := by
    intro part hpart
    obtain ⟨f, hf, rfl⟩ := List.mem_map.mp hpart
    exact Field.notMem_inner (h f hf) (by decide) (by decide)
  rw [cells, filter_line h, splitOn_flatMap_append hinner, List.dropLast_concat, List.map_map]
  exact List.map_congr_left fun f hf => Field.splitOn_inner (h f hf)

theorem newline_notMem_line : '\n' ∉ (line fields).toList := by
  intro hc
  have hfilter : '\n' ∈ (line fields).toList.filter (· ≠ ' ') :=
    List.mem_filter.mpr ⟨hc, by decide⟩
  rw [filter_line h, List.flatMap_map, List.mem_flatMap] at hfilter
  obtain ⟨f, hf, hin⟩ := hfilter
  rcases List.mem_append.mp hin with hin | hin
  · exact Field.notMem_inner (h f hf) (by decide) (by decide) hin
  · simp at hin

end

/-- A text of lines is cut into what the lines were written from. -/
theorem table_text {rows : List (List Field)} (hne : rows ≠ [])
    (h : ∀ fields ∈ rows, ∀ f ∈ fields, IsPlain f.name) :
    table ("\n".intercalate (rows.map line)) = rows.map (·.map Field.pair) := by
  have hlines : lines ("\n".intercalate (rows.map line)) = (rows.map line).map String.toList := by
    rw [lines, String.toList_intercalate]
    refine List.splitOn_intercalate '\n' ?_ (by simpa using hne)
    intro cs hcs
    rw [List.map_map] at hcs
    obtain ⟨fields, hf, rfl⟩ := List.mem_map.mp hcs
    exact newline_notMem_line (h fields hf)
  rw [table, hlines, List.map_map, List.map_map]
  exact List.map_congr_left fun fields hf => cells_line (h fields hf)

/-- A numeral of five digits is a cell like any other. -/
example : table "PC  [0200] SP  [10000]\nVF  [2a]" =
    [[["PC", "0200"], ["SP", "10000"]], [["VF", "2a"]]] := by
  decide

/-- The cells of a line of bytes, each byte behind its name. -/
def byteCells (names : List String) (bytes : List UInt8) : List (List String) :=
  names.zipWith (fun name byte => [name, Numeral.lowerHex 2 byte.toNat]) bytes

theorem byteCells_inj {names : List String} {as bs : List UInt8}
    (ha : as.length = names.length) (hb : bs.length = names.length) :
    byteCells names as = byteCells names bs ↔ as = bs := by
  refine ⟨fun h => ?_, congrArg _⟩
  induction names generalizing as bs with
  | nil => rw [List.length_eq_zero_iff.mp ha, List.length_eq_zero_iff.mp hb]
  | cons name names ih =>
      obtain ⟨a, as, rfl⟩ := List.exists_cons_of_length_eq_add_one ha
      obtain ⟨b, bs, rfl⟩ := List.exists_cons_of_length_eq_add_one hb
      simp only [byteCells, List.zipWith_cons_cons, List.cons.injEq, true_and, and_true,
        Reading.lowerHex_inj, UInt8.toNat_inj] at h
      rw [h.1, ih (Nat.succ.inj ha) (Nat.succ.inj hb) h.2]

end Dump

/-! ## What a machine dumps -/

theorem Bank.toList_eq_map (b : Bank) :
    b.toList = (List.range 16).map fun x => b.read (UInt8.ofNat x) := by
  refine List.ext_getElem (by simp [Bank.toList]) fun i hi _ => ?_
  rw [Bank.length_toList] at hi
  have hx : (UInt8.ofNat i).toNat = i := by
    rw [UInt8.toNat_ofNat']
    omega
  rw [List.getElem_map, List.getElem_range, Bank.read, hx, Vector.getElem?_eq_getElem hi]
  rfl

/-- A bank is told by the two halves of its bytes. -/
theorem Bank.halves_inj {a b : Bank} :
    a.toList.take 8 = b.toList.take 8 ∧ a.toList.drop 8 = b.toList.drop 8 ↔ a = b := by
  constructor
  · rintro ⟨hlow, hhigh⟩
    have hbytes : a.toList = b.toList := by
      rw [← List.take_append_drop 8 a.toList, hlow, hhigh, List.take_append_drop]
    obtain ⟨a⟩ := a
    obtain ⟨b⟩ := b
    exact congrArg Bank.mk (Vector.toList_inj.mp hbytes)
  · rintro rfl
    exact ⟨rfl, rfl⟩

namespace Machine

/-- The fields of the first line. -/
def headFields (m : Machine) : List Dump.Field :=
  [⟨"PC", 4, m.pc.toNat⟩, ⟨"OP", 4, m.nextWord.toNat⟩, ⟨"I", 4, m.index.toNat⟩,
   ⟨"SP", 4, m.registers.stack.used⟩]

/-- The fields of eight V registers, from one on. -/
def vFields (m : Machine) (first : Nat) : List Dump.Field :=
  (List.range' first 8).map fun x =>
    ⟨"V" ++ Numeral.upperHex 1 x, 2, (m.v (UInt8.ofNat x)).toNat⟩

theorem dump_eq (m : Machine) :
    m.dump = "\n".intercalate ([m.headFields, m.vFields 0, m.vFields 8].map Dump.line) := by
  simp only [dump, dumpLines, dumpHead, dumpV, headFields, vFields, Dump.line, Dump.Field.text,
    List.map_cons, List.map_nil, List.map_map, Function.comp_def]

/-- The cells of a dump. -/
def dumped (m : Machine) : List (List (List String)) :=
  [[["PC", Numeral.lowerHex 4 m.pc.toNat],
    ["OP", Numeral.lowerHex 4 m.nextWord.toNat],
    ["I", Numeral.lowerHex 4 m.index.toNat],
    ["SP", Numeral.lowerHex 4 m.registers.stack.used]],
   Dump.byteCells ["V0", "V1", "V2", "V3", "V4", "V5", "V6", "V7"]
     (m.registers.v.toList.take 8),
   Dump.byteCells ["V8", "V9", "VA", "VB", "VC", "VD", "VE", "VF"]
     (m.registers.v.toList.drop 8)]

/-- Where the names of eight registers are right, their fields are cut into their bytes. -/
theorem map_pair_vFields (m : Machine) (first : Nat) :
    (m.vFields first).map Dump.Field.pair =
      Dump.byteCells ((List.range' first 8).map fun x => "V" ++ Numeral.upperHex 1 x)
        ((List.range' first 8).map fun x => m.v (UInt8.ofNat x)) := by
  rw [Dump.byteCells, List.zipWith_map, List.zipWith_self, vFields, List.map_map]
  rfl

/-- A dump is cut into what the machine dumped. -/
theorem table_dump (m : Machine) : Dump.table m.dump = m.dumped := by
  have hhead : ∀ f ∈ m.headFields, Dump.IsPlain f.name := by
    simp only [headFields, List.forall_mem_cons]
    decide
  have hv : ∀ first, ∀ f ∈ m.vFields first, Dump.IsPlain f.name := by
    intro first f hf
    obtain ⟨x, -, rfl⟩ := List.mem_map.mp hf
    exact Dump.IsPlain.append (by decide) (Dump.isPlain_upperHex 1 x)
  have hplain : ∀ fields ∈ [m.headFields, m.vFields 0, m.vFields 8], ∀ f ∈ fields,
      Dump.IsPlain f.name := by
    simp only [List.forall_mem_cons]
    exact ⟨hhead, hv 0, hv 8, List.forall_mem_nil _⟩
  rw [dump_eq, Dump.table_text (List.cons_ne_nil _ _) hplain, dumped, Bank.toList_eq_map]
  simp only [List.map_cons, List.map_nil, map_pair_vFields]
  rfl

/-- The word shown is the one that can be fetched, and zero where none can. -/
theorem nextWord_eq_iff {m : Machine} {w : UInt16} :
    m.nextWord = w ↔ m.Fetches w ∨ w = 0 ∧ ∀ w', ¬m.Fetches w' := by
  simp only [← word_eq_ok_iff_fetches, nextWord]
  cases m.ram.word m.pc with
  | ok word => simp
  | error fault => simp [eq_comm]

/-- The cells of a dump are the same just for machines that agree on what is dumped. -/
theorem dumped_inj {m m' : Machine} :
    m.dumped = m'.dumped ↔ m.pc = m'.pc ∧ m.index = m'.index ∧
      m.registers.stack.used = m'.registers.stack.used ∧
      m.registers.v = m'.registers.v ∧ m.nextWord = m'.nextWord := by
  have hlow : ∀ m : Machine, (m.registers.v.toList.take 8).length = 8 := by
    simp [Bank.length_toList]
  have hhigh : ∀ m : Machine, (m.registers.v.toList.drop 8).length = 8 := by
    simp [Bank.length_toList]
  simp only [dumped, ← Bank.halves_inj, List.cons.injEq, Reading.lowerHex_inj,
    UInt16.toNat_inj, true_and, and_true, Dump.byteCells_inj, hlow, hhigh, List.length_cons,
    List.length_nil]
  tauto

/-- A dump is three lines and shows the registers and the word to be fetched, and no two
machines that differ in one of these have the same one. -/
theorem dump_determines_registers (m : Machine) :
    (Dump.lines m.dump).length = 3 ∧ Dump.table m.dump = m.dumped ∧
      (∀ w, m.nextWord = w ↔ m.Fetches w ∨ w = 0 ∧ ∀ w', ¬m.Fetches w') ∧
      Ram.Guarded.word m.ram m.pc = some (m.ram.word m.pc) ∧
      ∀ m' : Machine, m.dump = m'.dump ↔
        m.pc = m'.pc ∧ m.index = m'.index ∧
          m.registers.stack.used = m'.registers.stack.used ∧
          m.registers.v = m'.registers.v ∧ m.nextWord = m'.nextWord := by
  have htable : Dump.table m.dump = m.dumped := table_dump m
  refine ⟨?_, htable, fun w => nextWord_eq_iff, Ram.Guarded.word_eq, fun m' => ?_⟩
  · have hlength : (Dump.table m.dump).length = 3 := by rw [htable]; rfl
    rwa [Dump.table, List.length_map] at hlength
  · rw [← dumped_inj]
    constructor
    · intro h
      rw [← htable, h, table_dump]
    · intro h
      obtain ⟨hpc, hindex, hstack, hv, hword⟩ := dumped_inj.mp h
      simp only [dump_eq, headFields, vFields, v, hpc, hindex, hstack, hv, hword]

end Machine

end SuperChip
