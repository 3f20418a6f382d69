import Mathlib.Data.List.TakeWhile
import SuperChip.CommandLine
import SuperChip.Proofs.Text.Address

/-!
# Command lines that are written out

A command line is a list of *items*, in any order: the name of the file, `--trace` or `-t`, and
options with their values, each of which stands behind `=` or is an argument of its own.  Items
*give* a file and values when they name the file once and have nothing twice (`Gives`).  They
*write out* settings when moreover they ask for a trace just if the settings have one, the values
are those of the settings, and an option that is left out is at its default (`WritesOut`).

A reader of arguments *binds* when it finds just what items give (`Binds`).  Nothing else is
asked of it, so `reads_back` takes the reader as an argument: whichever it is, what writes out
settings is read back as these settings.

`read` is such a reader (`binds_read`).  Behind some of the items all that it knows, once it was
looked at, is `Draft.behind` these items, and taking one item more comes to the next of these
drafts (`Draft.Settles.take_item`).
-/

namespace SuperChip

/-! ## Numbers with a sign -/

namespace Reading

variable {base limit n : Nat} {text : List Char}

/-- There is no minus sign in a number. -/
theorem IsNumber.minus_notMem (h : IsNumber base limit text n) : '-' ∉ text := by
  obtain ⟨sign, hsign, cs, rfl, -, hs, -⟩ := h
  have hcs : '-' ∉ cs := hs.notMem (by decide)
  rcases mem_signs_iff.mp hsign with rfl | rfl <;> simpa using hcs

/-- There is no minus sign in an address. -/
theorem IsAddress.minus_notMem (h : IsAddress text n) : '-' ∉ text := by
  obtain ⟨mark, hmark, cs, rfl, hn⟩ := h
  have hcs : '-' ∉ cs := hn.minus_notMem
  rcases mem_marks_iff.mp hmark with rfl | rfl | rfl <;> simpa using hcs

/-- A number that is not too large is read where there could be a minus sign. -/
theorem signed_of_isNumber (h : IsNumber 10 limit text n) (hl : limit ≤ mostSigned) :
    signed text = .ok (n : Int) := by
  have hm := h.minus_notMem
  obtain ⟨sign, hsign, cs, rfl, hne, hs, hn⟩ := h
  have hd : digits 10 mostSigned .tooLarge 0 cs = .ok n := digits_of_spells hs (hn.trans hl)
  rcases mem_signs_iff.mp hsign with rfl | rfl
  · rw [List.nil_append] at hm ⊢
    unfold signed
    split
    next => exact absurd rfl hne
    next r => exact absurd rfl (hs.ne_plus (r := r))
    next => exact absurd List.mem_cons_self hm
    next => rw [hd]; rfl
  · rw [List.singleton_append, signed, digitsFrom, if_neg (by simpa using hne), hd]
    rfl

end Reading

namespace CommandLine

/-! ## Values as text -/

/-- What the settings have for an option. -/
def Field.of (f : Field) (s : Settings) : Nat :=
  match f with
  | .delayHz => s.delayHz.toNat
  | .soundHz => s.soundHz.toNat
  | .fetchDelay => s.fetchDelay.toNat
  | .peekDelay => s.peekDelay.toNat
  | .stack => s.stackDepth
  | .entry => s.entry.toNat
  | .load => s.loadAddress.toNat

/-- The largest number for an option. -/
def Field.most : Field → Nat
  | .delayHz | .soundHz | .fetchDelay | .peekDelay => 0xFFFFFFFF
  | .stack => 0xFFFFFFFFFFFFFFFF
  | .entry | .load => 0xFFFF

/-- A text is a number for an option: in base ten, and an address also in base sixteen. -/
def Field.Spells (f : Field) (text : String) (n : Nat) : Prop :=
  match f with
  | .entry | .load => Reading.IsAddress text.toList n
  | f => Reading.IsNumber 10 f.most text.toList n

namespace Field

variable {f : Field} {text : String} {n : Nat}

/-- There is no minus sign in what is written for an option. -/
theorem Spells.minus_notMem (h : f.Spells text n) : '-' ∉ text.toList := by
  cases f with
  | entry | load => exact Reading.IsAddress.minus_notMem h
  | _ => exact Reading.IsNumber.minus_notMem h

/-- A number of 32 bits is in range where it is read as a count. -/
theorem readCount_of_isNumber (h : Reading.IsNumber 10 0xFFFFFFFF text.toList n) :
    readCount text = .ok n := by
  have hn : n ≤ 0xFFFFFFFF := by
    obtain ⟨-, -, -, -, -, -, hn⟩ := h
    exact hn
  rw [readCount, Reading.signed_of_isNumber h (by decide)]
  exact if_pos ⟨Int.natCast_nonneg n, Int.ofNat_le.mpr hn⟩

/-- What is written for an option is what is read for it. -/
theorem Spells.read (h : f.Spells text n) : f.read text = .ok n := by
  cases f with
  | delayHz | soundHz | fetchDelay | peekDelay => exact readCount_of_isNumber h
  | stack => exact congrArg (Except.mapError _) (Reading.natural_eq_ok_iff.mpr h)
  | entry | load => exact congrArg (Except.mapError _) (Reading.address_eq_ok_iff.mpr h)

/-- Settings have no number for an option that is too large for it. -/
theorem of_le {s : Settings} (hs : s.stackDepth ≤ 0xFFFFFFFFFFFFFFFF) (f : Field) :
    f.of s ≤ f.most := by
  cases f with
  | delayHz | soundHz | fetchDelay | peekDelay => exact Nat.le_of_lt_succ (UInt32.toNat_lt _)
  | stack => exact hs
  | entry | load => exact Nat.le_of_lt_succ (UInt16.toNat_lt _)

/-- A number for an option may be written in base ten. -/
theorem spells_decimal (h : n ≤ f.most) : f.Spells (Numeral.decimal n) n := by
  have hn : Reading.IsNumber 10 f.most (Numeral.decimal n).toList n :=
    Reading.natural_eq_ok_iff.mp
      (Reading.natural_of_spells (Reading.spells_decimal n) (Reading.decimal_ne_nil n) h)
  cases f with
  | entry | load => exact ⟨([], 10), Reading.mem_marks_iff.mpr (.inl rfl), _, rfl, hn⟩
  | _ => exact hn

/-- An address is also written in base sixteen behind its mark. -/
theorem spells_marked {digits : List Char} (hf : f = .entry ∨ f = .load)
    (hd : Reading.Spells 16 digits n) (hne : digits ≠ []) (hn : n ≤ 0xFFFF)
    (ht : text.toList = '0' :: 'x' :: digits) : f.Spells text n := by
  have ha : Reading.IsAddress text.toList n :=
    ⟨(['0', 'x'], 16), Reading.mem_marks_iff.mpr (.inr (.inl rfl)), digits, ht,
      Reading.natural_eq_ok_iff.mp (Reading.natural_of_spells hd hne hn)⟩
  rcases hf with rfl | rfl <;> exact ha

/-- An option is found by its name. -/
theorem ofName?_name (f : Field) : ofName? f.name = some f := by
  cases f <;> rfl

theorem name_ne_nil (f : Field) : f.name.toList ≠ [] := by
  cases f <;> decide

/-- The name of an option goes up to the first `=`. -/
theorem equals_notMem_name (f : Field) : ∀ c ∈ f.name.toList, (c != '=') = true := by
  have h : f.name.toList.all (· != '=') = true := by
    cases f <;> rfl
  exact List.all_eq_true.mp h

end Field

/-! ## Items -/

/-- What a command line consists of. -/
inductive Item where
  /-- The name of the file. -/
  | rom (name : String)
  /-- The wish for a trace, by its short name or by its long one. -/
  | trace (short : Bool)
  /-- An option with the text of its value, behind `=` or as an argument of its own. -/
  | option (field : Field) (text : String) (joined : Bool)
deriving DecidableEq

namespace Item

/-- The arguments that an item is written with. -/
def arguments : Item → List String
  | .rom name => [name]
  | .trace short => [if short then "-t" else "--trace"]
  | .option f text true => ["--" ++ f.name ++ "=" ++ text]
  | .option f text false => ["--" ++ f.name, text]

/-- The file that an item names. -/
def rom? : Item → Option String
  | .rom name => some name
  | _ => none

/-- The option that an item is for. -/
def field? : Item → Option Field
  | .option f _ _ => some f
  | _ => none

/-- Whether an item wishes for a trace. -/
def isTrace : Item → Bool
  | .trace _ => true
  | _ => false

end Item

/-- A text is not empty and could not be taken for an option. -/
def IsName (text : String) : Prop := text ≠ "" ∧ text.toList.head? ≠ some '-'

instance (text : String) : Decidable (IsName text) := inferInstanceAs (Decidable (_ ∧ _))

/-- Items give the name of a file and values for options, and none of them twice. -/
structure Gives (items : List Item) (rom : String) (value : Field → Nat) : Prop where
  /-- The file is named, and none is named again. -/
  named : items.filterMap Item.rom? = [rom]
  name : IsName rom
  /-- A trace is wished for once at most. -/
  trace : items.countP Item.isTrace ≤ 1
  /-- No option is there twice. -/
  once : (items.filterMap Item.field?).Nodup
  /-- The text of an option does not look like an option, and the option reads its value off it. -/
  given : ∀ f text joined, .option f text joined ∈ items →
    text.toList.head? ≠ some '-' ∧ f.read text = .ok (value f)

/-- A reader of arguments finds what items give, and nothing else. -/
def Binds (reader : List String → Except Refusal Request) : Prop :=
  ∀ items rom value, Gives items rom value →
    ∃ r, reader (items.flatMap Item.arguments) = .ok r ∧ r.rom = rom ∧
      r.trace = items.any Item.isTrace ∧
      ∀ f, r.values.lookup f = if f ∈ items.filterMap Item.field? then some (value f) else none

/-- Items write out settings and the name of a file. -/
structure WritesOut (items : List Item) (rom : String) (s : Settings) : Prop where
  /-- The file is named, and none is named again. -/
  named : items.filterMap Item.rom? = [rom]
  name : IsName rom
  /-- A trace is wished for once if there is to be one, and never if not. -/
  trace : items.countP Item.isTrace = if s.trace then 1 else 0
  /-- No option is there twice. -/
  once : (items.filterMap Item.field?).Nodup
  /-- An option that is there has the value from the settings. -/
  given : ∀ f text joined, .option f text joined ∈ items → f.Spells text (f.of s)
  /-- An option that is not there is at its default. -/
  omitted : ∀ f ∉ items.filterMap Item.field?, f.of s = f.default

/-! ## Taking one argument -/

namespace Draft

variable {d e : Draft} {f : Field} {text name : String} {n : Nat}

/-- What does not begin with a hyphen is no option. -/
theorem take_plain (ho : d.onlyRom = false) (ht : text.toList.head? ≠ some '-') :
    d.take text = d.takePlain text := by
  rw [take, if_neg (by simp [ho])]
  split
  next h => exact absurd (by rw [h]; rfl) ht
  next h => exact absurd (by rw [h]; rfl) ht
  next h => exact absurd (by rw [h]; rfl) ht
  next => rfl

/-- The name of a long option goes up to the first `=`, and the value stands behind it. -/
theorem take_long (ho : d.onlyRom = false) (c : Char) (cs : List Char) :
    d.take (String.ofList ('-' :: '-' :: c :: cs)) =
      match (c :: cs).dropWhile (· != '=') with
      | _ :: value =>
          d.takeLong (String.ofList ((c :: cs).takeWhile (· != '='))) (some (String.ofList value))
      | [] => d.takeLong (String.ofList ((c :: cs).takeWhile (· != '='))) none := by
  rw [take, if_neg (by simp [ho]), String.toList_ofList]
  rfl

/-- An option and its value are found on the two sides of the `=`. -/
theorem take_joined (ho : d.onlyRom = false) (f : Field) (text : String) :
    d.take ("--" ++ f.name ++ "=" ++ text) = d.takeLong f.name (some text) := by
  have hl : "--" ++ f.name ++ "=" ++ text =
      String.ofList ('-' :: '-' :: (f.name.toList ++ '=' :: text.toList)) := by
    apply String.toList_inj.mp
    simp
  obtain ⟨c, cs, hc⟩ := List.exists_cons_of_ne_nil f.name_ne_nil
  rw [hl, hc, List.cons_append, take_long ho, ← List.cons_append, ← hc,
    List.takeWhile_append_of_pos f.equals_notMem_name,
    List.dropWhile_append_of_pos f.equals_notMem_name]
  simp

/-- An option without `=` is found by its whole name. -/
theorem take_separate (ho : d.onlyRom = false) (f : Field) :
    d.take ("--" ++ f.name) = d.takeLong f.name none := by
  have hl : "--" ++ f.name = String.ofList ('-' :: '-' :: f.name.toList) := by
    apply String.toList_inj.mp
    simp
  obtain ⟨c, cs, hc⟩ := List.exists_cons_of_ne_nil f.name_ne_nil
  have hd : f.name.toList.dropWhile (· != '=') = [] :=
    List.dropWhile_eq_nil_iff.mpr f.equals_notMem_name
  rw [hl, hc, take_long ho, ← hc, hd, List.takeWhile_eq_self_iff.mpr f.equals_notMem_name]
  simp

/-- Both names of the trace ask for it. -/
theorem take_trace (ho : d.onlyRom = false) (short : Bool) :
    d.take (if short then "-t" else "--trace") = d.takeTrace := by
  rw [take, if_neg (by simp [ho])]
  cases short with
  | true =>
      show (d.takeTrace >>= fun d => d.takeShorts []) = d.takeTrace
      cases d.takeTrace <;> rfl
  | false => rfl

/-- Behind an option that waits for its value stands the value. -/
theorem take_value (hp : d.pending = .awaiting f) (ho : d.onlyRom = false)
    (ht : text.toList.head? ≠ some '-') :
    d.take text = .ok { d with pending := .value f text } := by
  rw [take_plain ho ht]
  unfold takePlain
  rw [hp, ho]

/-- What no option waits for is the name of the file. -/
theorem takePlain_rom (hp : ∀ f, d.pending ≠ .awaiting f) (hr : d.hasRom = false) :
    d.takePlain name = d.settle.map ({ · with pending := .rom name, hasRom := true }) := by
  unfold takePlain
  split
  next f ha _ => exact absurd ha (hp f)
  next =>
    rw [if_neg (by simp [hr])]
    rfl

/-- A value behind `=` is looked at at once. -/
theorem takeLong_joined (d : Draft) (f : Field) (text : String) :
    d.takeLong f.name (some text) = d.settle.bind (setValue · f text) := by
  unfold takeLong
  rw [f.ofName?_name]
  rfl

/-- An option without `=` waits for its value. -/
theorem takeLong_separate (d : Draft) (f : Field) :
    d.takeLong f.name none = d.settle.map ({ · with pending := .awaiting f }) := by
  unfold takeLong
  rw [f.ofName?_name]
  rfl

/-- A value that can be read is taken if the option has none so far. -/
theorem setValue_of_read (hv : e.values.lookup f = none) (hr : f.read text = .ok n) :
    e.setValue f text = .ok { e with values := (f, n) :: e.values } := by
  rw [setValue, hv, hr]
  rfl

/-! ## Taking one item -/

/-- What a draft comes to when all that it was told was looked at. -/
structure Settles (d e : Draft) : Prop where
  settles : d.settle = .ok e
  pending : e.pending = .nothing
  onlyRom : d.onlyRom = false
  onlyRom' : e.onlyRom = false
  hasRom : e.hasRom = d.hasRom

namespace Settles

theorem refl (hp : e.pending = .nothing) (ho : e.onlyRom = false) : e.Settles e := by
  refine ⟨?_, hp, ho, ho, rfl⟩
  rw [Draft.settle, hp]

variable (h : d.Settles e)
include h

/-- No option waits for its value. -/
theorem not_awaiting (f : Field) : d.pending ≠ .awaiting f := by
  intro hp
  have hs := h.settles
  rw [Draft.settle, hp] at hs
  cases hs

theorem take_rom (hr : e.hasRom = false) (hn : IsName name) :
    ∃ d', d.take name = .ok d' ∧ d'.Settles { e with rom := some name, hasRom := true } := by
  refine ⟨{ e with pending := .rom name, hasRom := true }, ?_, ?_, h.pending, h.onlyRom',
    h.onlyRom', rfl⟩
  · rw [take_plain h.onlyRom hn.2, takePlain_rom h.not_awaiting (h.hasRom.symm.trans hr),
      h.settles]
    rfl
  · show (if name.isEmpty then _ else _) = _
    rw [if_neg (by simpa using hn.1), ← h.pending]

theorem take_trace (ht : e.trace = false) (short : Bool) :
    ∃ d', d.take (if short then "-t" else "--trace") = .ok d' ∧
      d'.Settles { e with trace := true } := by
  refine ⟨_, ?_, .refl h.pending h.onlyRom'⟩
  rw [Draft.take_trace h.onlyRom, takeTrace, h.settles]
  show (if e.trace = true then _ else _) = _
  rw [if_neg (by simp [ht])]
  rfl

theorem take_joined (hv : e.values.lookup f = none) (hr : f.read text = .ok n) :
    ∃ d', d.take ("--" ++ f.name ++ "=" ++ text) = .ok d' ∧
      d'.Settles { e with values := (f, n) :: e.values } := by
  refine ⟨_, ?_, .refl h.pending h.onlyRom'⟩
  rw [Draft.take_joined h.onlyRom, takeLong_joined, h.settles]
  exact setValue_of_read hv hr

/-- A value that is an argument of its own is looked at later. -/
theorem take_separate (hv : e.values.lookup f = none) (ht : text.toList.head? ≠ some '-')
    (hr : f.read text = .ok n) :
    ∃ d', ["--" ++ f.name, text].foldlM take d = .ok d' ∧
      d'.Settles { e with values := (f, n) :: e.values } := by
  have hfirst : d.take ("--" ++ f.name) = .ok { e with pending := .awaiting f } := by
    rw [Draft.take_separate h.onlyRom, takeLong_separate, h.settles]
    rfl
  have hsecond : ({ e with pending := .awaiting f } : Draft).take text =
      .ok { e with pending := .value f text } :=
    take_value (d := { e with pending := .awaiting f }) rfl h.onlyRom' ht
  refine ⟨{ e with pending := .value f text }, ?_, ?_, h.pending, h.onlyRom', h.onlyRom', rfl⟩
  · rw [List.foldlM_cons, hfirst]
    show ([text].foldlM take _) = _
    rw [List.foldlM_cons, hsecond]
    rfl
  · show ({ e with pending := .nothing } : Draft).setValue f text = _
    rw [← h.pending]
    exact setValue_of_read hv hr

end Settles

/-! ## Taking all items -/

/-- What is known behind items, if they give these values. -/
def behind (value : Field → Nat) (items : List Item) : Draft where
  rom := (items.filterMap Item.rom?).head?
  trace := items.any Item.isTrace
  values := (items.filterMap Item.field?).reverse.map fun f => (f, value f)
  pending := .nothing
  hasRom := (items.filterMap Item.rom?).head?.isSome
  onlyRom := false

end Draft

/-- An item can come behind others: it is not another one of them, and what it gives can be
read. -/
def Item.Fits (value : Field → Nat) (done : List Item) : Item → Prop
  | .rom name => done.filterMap Item.rom? = [] ∧ IsName name
  | .trace _ => done.any Item.isTrace = false
  | .option f text _ =>
      f ∉ done.filterMap Item.field? ∧ text.toList.head? ≠ some '-' ∧ f.read text = .ok (value f)

/-- What is looked up in a table of values is in the table or is not. -/
theorem lookup_values (value : Field → Nat) (f : Field) (fields : List Field) :
    (fields.map fun f => (f, value f)).lookup f = if f ∈ fields then some (value f) else none := by
  induction fields with
  | nil => rfl
  | cons g fields ih =>
      rw [List.map_cons, List.lookup_cons, ih]
      by_cases h : f = g
      · subst h
        simp
      · rw [beq_eq_false_iff_ne.mpr h]
        simp [h]

/-- Each of the items that give a file and values fits behind those in front of it. -/
theorem Gives.fits {done rest : List Item} {item : Item} {rom : String} {value : Field → Nat}
    (h : Gives (done ++ item :: rest) rom value) : item.Fits value done := by
  cases item with
  | rom name =>
      have hn : done.filterMap Item.rom? ++ name :: rest.filterMap Item.rom? = [rom] := by
        rw [← h.named, List.filterMap_append]
        rfl
      rcases List.append_eq_singleton_iff.mp hn with ⟨hd, hr⟩ | ⟨-, hr⟩
      · obtain ⟨rfl, -⟩ := List.cons.inj hr
        exact ⟨hd, h.name⟩
      · cases hr
  | trace short =>
      have ht := h.trace
      rw [List.countP_append, List.countP_cons_of_pos rfl] at ht
      have hd : done.countP Item.isTrace = 0 := by omega
      exact List.any_eq_false.mpr (List.countP_eq_zero.mp hd)
  | option f text joined =>
      have ho : (done.filterMap Item.field? ++ f :: rest.filterMap Item.field?).Nodup := by
        have he := h.once
        rwa [List.filterMap_append] at he
      refine ⟨fun hf => ?_, h.given f text joined (by simp)⟩
      exact (List.nodup_append.mp ho).2.2 f hf f List.mem_cons_self rfl

namespace Draft.Settles

variable {d : Draft} {value : Field → Nat} {done rest : List Item} {item : Item}
  {rom : String}

theorem foldlM_singleton (d : Draft) (argument : String) :
    [argument].foldlM take d = d.take argument := by
  simp

/-- An item is taken, and what is known then is what is known behind it. -/
theorem take_item (h : d.Settles (behind value done)) (hi : item.Fits value done) :
    ∃ d', item.arguments.foldlM take d = .ok d' ∧ d'.Settles (behind value (done ++ [item])) := by
  cases item with
  | rom name =>
      obtain ⟨hnone, hn⟩ := hi
      obtain ⟨d', ht, hd⟩ := h.take_rom (by simp [behind, hnone]) hn
      have hb : behind value (done ++ [.rom name]) =
          { behind value done with rom := some name, hasRom := true } := by
        simp [behind, hnone, Item.rom?, Item.field?, Item.isTrace]
      exact ⟨d', (foldlM_singleton d _).trans ht, hb ▸ hd⟩
  | trace short =>
      obtain ⟨d', ht, hd⟩ := h.take_trace hi short
      have hb : behind value (done ++ [.trace short]) =
          { behind value done with trace := true } := by
        simp [behind, Item.rom?, Item.field?, Item.isTrace]
      exact ⟨d', (foldlM_singleton d _).trans ht, hb ▸ hd⟩
  | option f text joined =>
      obtain ⟨hf, ht, hr⟩ := hi
      have hv : (behind value done).values.lookup f = none := by
        rw [behind, lookup_values, if_neg (by simpa using hf)]
      have hb : behind value (done ++ [.option f text joined]) =
          { behind value done with values := (f, value f) :: (behind value done).values } := by
        simp [behind, Item.rom?, Item.field?, Item.isTrace]
      rw [hb]
      cases joined with
      | true =>
          obtain ⟨d', htake, hd⟩ := h.take_joined hv hr
          exact ⟨d', (foldlM_singleton d _).trans htake, hd⟩
      | false => exact h.take_separate hv ht hr

/-- Items that give a file and values are taken, one after the other. -/
theorem take_items (hw : Gives (done ++ rest) rom value) (h : d.Settles (behind value done)) :
    ∃ d', (rest.flatMap Item.arguments).foldlM take d = .ok d' ∧
      d'.Settles (behind value (done ++ rest)) := by
  induction rest generalizing d done with
  | nil => exact ⟨d, rfl, by rwa [List.append_nil]⟩
  | cons item rest ih =>
      obtain ⟨d₁, h₁, hd₁⟩ := h.take_item hw.fits
      have he : done ++ item :: rest = done ++ [item] ++ rest := by simp
      rw [he] at hw ⊢
      obtain ⟨d₂, h₂, hd₂⟩ := ih hw hd₁
      refine ⟨d₂, ?_, hd₂⟩
      rw [List.flatMap_cons, List.foldlM_append, h₁]
      exact h₂

/-- What is known once all was looked at is what is asked for. -/
theorem finish {e : Draft} (h : d.Settles e) (hr : e.rom = some rom) :
    d.finish = .ok ⟨rom, e.trace, e.values⟩ := by
  rw [Draft.finish, h.settles]
  dsimp only [bind, Except.bind]
  rw [hr]
  rfl

end Draft.Settles

/-! ## Reading -/

variable {items : List Item} {rom : String} {s : Settings}

/-- `read` finds just what items give. -/
theorem binds_read : Binds read := by
  intro items rom value hg
  have hb : Draft.empty.Settles (Draft.behind value []) := .refl rfl rfl
  have hall : Gives ([] ++ items) rom value := hg
  obtain ⟨d, hd, hs⟩ := hb.take_items hall
  have hr : (Draft.behind value items).rom = some rom := by
    rw [Draft.behind, hg.named]
    rfl
  refine ⟨⟨rom, items.any Item.isTrace, (Draft.behind value items).values⟩, ?_, rfl, rfl,
    fun f => ?_⟩
  · exact (congrArg (· >>= Draft.finish) hd).trans (hs.finish hr)
  · simp only [Draft.behind, lookup_values, List.mem_reverse]

/-- A trace is wished for just if the settings have one. -/
theorem WritesOut.trace_eq (h : WritesOut items rom s) : items.any Item.isTrace = s.trace := by
  rw [Bool.eq_iff_iff, List.any_eq_true, ← List.countP_pos_iff, h.trace]
  cases s.trace <;> simp

/-- Items that write out settings give the values of the settings. -/
theorem WritesOut.gives (h : WritesOut items rom s) : Gives items rom (·.of s) where
  named := h.named
  name := h.name
  trace := by
    rw [h.trace]
    split <;> omega
  once := h.once
  given f text joined hm := by
    have hs := h.given f text joined hm
    exact ⟨fun he => hs.minus_notMem (List.mem_of_head? he), hs.read⟩

/-- A request with the trace and the values of settings asks for these settings. -/
theorem Request.settings_eq {r : Request} (hm : s.memorySize = 4096) (ht : r.trace = s.trace)
    (hv : ∀ f, r.value f = f.of s) : r.settings = s := by
  simp only [Request.settings, hv, Field.of, UInt16.ofNat_toNat, UInt32.ofNat_toNat, ht]
  rw [← hm]

/-- Whoever binds reads back what was written out. -/
theorem WritesOut.read_back (h : WritesOut items rom s) (hm : s.memorySize = 4096)
    {reader : List String → Except Refusal Request} (hb : Binds reader) :
    ∃ r, reader (items.flatMap Item.arguments) = .ok r ∧ r.rom = rom ∧ r.settings = s := by
  obtain ⟨r, hread, hrom, htrace, hvalues⟩ := hb _ _ _ h.gives
  refine ⟨r, hread, hrom, Request.settings_eq hm (htrace.trans h.trace_eq) fun f => ?_⟩
  rw [Request.value, hvalues f]
  by_cases hf : f ∈ items.filterMap Item.field?
  · rw [if_pos hf]
    rfl
  · rw [if_neg hf, h.omitted f hf]
    rfl

/-- Any reader that binds finds in a command line that writes out settings just these settings
and the file that it names, and `read` is a reader that binds.  Numbers may be written in base
ten, and addresses also in base sixteen. -/
theorem reads_back (s : Settings) (hm : s.memorySize = 4096)
    (hs : s.stackDepth ≤ 0xFFFFFFFFFFFFFFFF) :
    (∀ reader, Binds reader → ∀ rom items, WritesOut items rom s →
      ∃ r, reader (items.flatMap Item.arguments) = .ok r ∧ r.rom = rom ∧ r.settings = s) ∧
    Binds read ∧
    (∀ f : Field, f.Spells (Numeral.decimal (f.of s)) (f.of s)) ∧
    (∀ f : Field, f = .entry ∨ f = .load → ∀ width,
      f.Spells (Numeral.lowerAddress width (f.of s)) (f.of s) ∧
        f.Spells (Numeral.upperAddress width (f.of s)) (f.of s)) ∧
    Field.default .fetchDelay = 5000 ∧ ∀ f ≠ .fetchDelay, Field.default f = f.of {} := by
  refine ⟨fun _ hb _ _ h => h.read_back hm hb, binds_read, ?_, ?_, rfl, ?_⟩
  · exact fun f => Field.spells_decimal (f.of_le hs)
  · intro f hf width
    have hn : f.of s ≤ 0xFFFF := by
      have h := f.of_le hs
      rcases hf with rfl | rfl <;> exact h
    exact ⟨Field.spells_marked hf (Reading.spells_lowerHex width _)
        (Reading.lowerHex_ne_nil width _) hn (by simp [Numeral.lowerAddress]),
      Field.spells_marked hf (Reading.spells_upperHex width _)
        (Reading.upperHex_ne_nil width _) hn (by simp [Numeral.upperAddress])⟩
  · intro f hf
    cases f with
    | fetchDelay => exact absurd rfl hf
    | _ => rfl

/-- `-t --entry 0x300 game.ch8 --load=768 --stack 16 --sound-hz=30`. -/
theorem reads_back_mixed :
    let s : Settings :=
      { stackDepth := 16, entry := 0x300, loadAddress := 768, soundHz := 30, fetchDelay := 5000,
        trace := true }
    ∃ r, read ["-t", "--entry", "0x300", "game.ch8", "--load=768", "--stack", "16",
        "--sound-hz=30"] = .ok r ∧ r.rom = "game.ch8" ∧ r.settings = s := by
  intro s
  obtain ⟨hread, hbinds, hdecimal, hhex, -⟩ := reads_back s rfl (by decide)
  have hentry : Numeral.lowerAddress 3 (Field.entry.of s) = "0x300" := by decide
  have hload : Numeral.decimal (Field.load.of s) = "768" := by decide
  have hstack : Numeral.decimal (Field.stack.of s) = "16" := by decide
  have hsound : Numeral.decimal (Field.soundHz.of s) = "30" := by decide
  have hw : WritesOut [.trace true, .option .entry "0x300" false, .rom "game.ch8",
      .option .load "768" true, .option .stack "16" false, .option .soundHz "30" true]
      "game.ch8" s := by
    refine ⟨rfl, by decide, rfl, by decide, ?_, fun f hf => ?_⟩
    · intro f text joined hm
      simp only [List.mem_cons, Item.option.injEq, reduceCtorEq, List.not_mem_nil, false_or,
        or_false] at hm
      rcases hm with ⟨rfl, rfl, -⟩ | ⟨rfl, rfl, -⟩ | ⟨rfl, rfl, -⟩ | ⟨rfl, rfl, -⟩
      · exact hentry ▸ (hhex .entry (.inl rfl) 3).1
      · exact hload ▸ hdecimal .load
      · exact hstack ▸ hdecimal .stack
      · exact hsound ▸ hdecimal .soundHz
    · cases f with
      | delayHz | fetchDelay | peekDelay => rfl
      | _ => exact absurd (by decide) hf
  exact hread read hbinds _ _ hw

end CommandLine

end SuperChip
