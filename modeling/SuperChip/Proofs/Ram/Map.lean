import SuperChip.Ram

/-!
# Memory as a map

A *byte map* gives each address below its size a byte.  Those who use memory make *requests*
of it: they put programs into it, look at single bytes, at words and at slices, and overwrite
slices.  `ByteMap.serve` says what a byte map answers, and which byte map it is then.

Memory *shows* a byte map when it has as many bytes and the same ones (`Ram.Shows`).  New
memory shows the two sheets of glyphs with zeros behind them.  A request is answered by
memory as by the byte map that it shows, and then it shows the one behind the request
(`Ram.Shows.serve`).  So it goes on for any number of requests (`Ram.serves_as_map`).

The end of a slice is computed in 64 bits.  For slices that a host can have, whose length is a
signed number of 64 bits, there is always such an end.
-/

namespace SuperChip

/-! ## Requests -/

/-- What is asked of memory. -/
inductive Ram.Request where
  /-- A program is put at an address. -/
  | load (address : UInt16) (program : List UInt8)
  /-- The byte at an address. -/
  | byte (address : UInt16)
  /-- The word at an address. -/
  | word (address : UInt16)
  /-- A slice. -/
  | view (address : UInt16) (length : UInt64)
  /-- A slice as long as the data, which then overwrite it. -/
  | overwrite (address : UInt16) (data : List UInt8)
deriving DecidableEq

/-- What is answered to a request. -/
inductive Ram.Answer where
  /-- It is done, and there is nothing to be shown. -/
  | done
  /-- A byte. -/
  | byte (b : UInt8)
  /-- A word. -/
  | word (w : UInt16)
  /-- The bytes of a slice, from before they were overwritten if they were. -/
  | bytes (bs : List UInt8)
  /-- It is refused. -/
  | refused (fault : Fault)
deriving DecidableEq

/-- The length of the slice that is asked for, if one is, is a signed number of 64 bits. -/
def Ram.Request.Fits : Request → Prop
  | .view _ length => length.toNat ≤ 0x7FFFFFFFFFFFFFFF
  | .overwrite _ data => data.length ≤ 0x7FFFFFFFFFFFFFFF
  | _ => True

namespace Ram

/-- What memory answers to a request, if it can, and the memory behind it. -/
def serve (r : Ram) : Request → Option Answer × Ram
  | .load address program =>
      match r.load address program with
      | .ok ram => (some .done, ram)
      | .error fault => (some (.refused fault), r)
  | .byte address =>
      match r.byte address with
      | .ok b => (some (.byte b), r)
      | .error fault => (some (.refused fault), r)
  | .word address =>
      match r.word address with
      | .ok w => (some (.word w), r)
      | .error fault => (some (.refused fault), r)
  | .view address length =>
      match r.view? address length with
      | some (.ok bytes) => (some (.bytes bytes), r)
      | some (.error fault) => (some (.refused fault), r)
      | none => (none, r)
  | .overwrite address data =>
      match r.writableView? address (UInt64.ofNat data.length), r.write address data with
      | some (.ok bytes), .ok ram => (some (.bytes bytes), ram)
      | some (.ok _), .error fault | some (.error fault), _ => (some (.refused fault), r)
      | none, _ => (none, r)

/-- The answers of memory to requests, one after the other. -/
def answers (r : Ram) : List Request → List (Option Answer)
  | [] => []
  | q :: qs => (r.serve q).1 :: (r.serve q).2.answers qs

/-- The memory behind requests, one after the other. -/
def after (r : Ram) (qs : List Request) : Ram := qs.foldl (fun r q => (r.serve q).2) r

end Ram

/-! ## Byte maps -/

/-- A byte for each address below a size. -/
structure ByteMap where
  /-- The first address that has no byte. -/
  size : Nat
  /-- The bytes.  Behind the size nobody looks. -/
  get : Nat → UInt8

namespace ByteMap

open Ram (Request Answer)

/-- The two sheets of glyphs, and zeros behind them. -/
def initial (size : Nat) : ByteMap := ⟨size, fun a => Glyphs.sheets[a]?.getD 0⟩

/-- The bytes from an address on. -/
def range (m : ByteMap) (start length : Nat) : List UInt8 :=
  (List.range length).map fun i => m.get (start + i)

/-- The byte map with data from an address on. -/
def replace (m : ByteMap) (start : Nat) (data : List UInt8) : ByteMap :=
  { m with get := fun a =>
      if start ≤ a ∧ a < start + data.length then data[a - start]?.getD 0 else m.get a }

/-- What a byte map answers to a request, and the byte map behind it. -/
def serve (m : ByteMap) : Request → Answer × ByteMap
  | .load address program =>
      if m.size < address.toNat + program.length then
        (.refused (.programTooLong address program.length m.size), m)
      else if program ≠ [] ∧ address.toNat < 0xF0 then (.refused (.outOfBounds address), m)
      else (.done, m.replace address.toNat program)
  | .byte address =>
      if address.toNat < m.size then (.byte (m.get address.toNat), m)
      else (.refused (.outOfBounds address), m)
  | .word address =>
      if address.toNat + 2 ≤ m.size then
        (.word (256 * (m.get address.toNat).toUInt16 + (m.get (address.toNat + 1)).toUInt16), m)
      else (.refused (.outOfBounds address), m)
  | .view address length =>
      if address.toNat + length.toNat ≤ m.size then
        (.bytes (m.range address.toNat length.toNat), m)
      else (.refused (.outOfBounds address), m)
  | .overwrite address data =>
      if m.size < address.toNat + data.length ∨ data ≠ [] ∧ address.toNat < 0xF0 then
        (.refused (.outOfBounds address), m)
      else (.bytes (m.range address.toNat data.length), m.replace address.toNat data)

/-- The answers of a byte map to requests, one after the other. -/
def answers (m : ByteMap) : List Request → List Answer
  | [] => []
  | q :: qs => (m.serve q).1 :: (m.serve q).2.answers qs

/-- The byte map behind requests, one after the other. -/
def after (m : ByteMap) (qs : List Request) : ByteMap := qs.foldl (fun m q => (m.serve q).2) m

end ByteMap

/-! ## Showing -/

namespace Ram

/-- Memory has as many bytes as a byte map, and the same ones. -/
structure Shows (r : Ram) (m : ByteMap) : Prop where
  size : r.size = m.size
  cell : ∀ a < m.size, r.cell a = m.get a

theorem shows_build {size : Nat} {r : Ram} (h : build size = .ok r) :
    r.Shows (.initial size) where
  size := size_build h
  cell a ha := by
    unfold build at h
    split at h
    next => cases h
    next hs =>
      cases h
      have hl : Glyphs.sheets.length = Glyphs.reservedEnd := Glyphs.length_sheets
      simp only [ByteMap.initial, cell, List.getElem?_toArray]
      by_cases hg : a < Glyphs.reservedEnd
      · rw [List.getElem?_append_left (hl ▸ hg)]
      · have hle : Glyphs.sheets.length ≤ a := hl ▸ Nat.le_of_not_lt hg
        rw [List.getElem?_append_right hle, List.getElem?_eq_none hle, List.getElem?_replicate]
        split <;> rfl

namespace Shows

variable {r : Ram} {m : ByteMap} (h : r.Shows m) {address : UInt16}
include h

theorem slice {length : Nat} (hl : address.toNat + length ≤ m.size) :
    r.slice address length = .ok (m.range address.toNat length) := by
  obtain ⟨bytes, hs⟩ : ∃ bytes, r.slice address length = .ok bytes :=
    ⟨_, slice_eq_ok_iff.mpr ⟨h.size ▸ hl, rfl⟩⟩
  rw [hs]
  congr 1
  apply List.ext_getElem?
  intro i
  by_cases hi : i < length
  · rw [getElem?_slice hs hi, ByteMap.range, List.getElem?_map, List.getElem?_range hi,
      h.cell _ (by omega)]
    rfl
  · rw [List.getElem?_eq_none (length_slice hs ▸ Nat.le_of_not_lt hi), List.getElem?_eq_none]
    simpa [ByteMap.range] using hi

theorem slice_of_lt {length : Nat} (hl : m.size < address.toNat + length) :
    r.slice address length = .error (.outOfBounds address) := by
  rw [Ram.slice, if_neg (by rw [h.size]; omega)]

/-- Data that fit, and are not put among the glyphs, are written. -/
theorem exists_write {data : List UInt8} (hl : address.toNat + data.length ≤ m.size)
    (hg : ¬(data ≠ [] ∧ address.toNat < 0xF0)) :
    ∃ s, r.write address data = .ok s ∧ s.Shows (m.replace address.toNat data) := by
  have hd : data = [] ∨ Glyphs.reservedEnd ≤ address.toNat := by
    by_cases hd : data = []
    · exact .inl hd
    · exact .inr (Nat.le_of_not_lt fun hlt => hg ⟨hd, hlt⟩)
  obtain ⟨s, hw⟩ : ∃ s, r.write address data = .ok s :=
    ⟨_, write_eq_ok_iff.mpr ⟨hd, h.size ▸ hl, rfl⟩⟩
  refine ⟨s, hw, (size_write hw).trans h.size, fun a ha => ?_⟩
  rw [cell_write hw, h.cell a ha]
  rfl

omit h in
theorem write_of_reserved {data : List UInt8} (hg : data ≠ [] ∧ address.toNat < 0xF0) :
    r.write address data = .error (.outOfBounds address) := by
  rw [Ram.write, if_pos ⟨List.length_pos_iff.mpr hg.1, hg.2⟩]

/-! ## Requests, one by one -/

theorem load (program : List UInt8) :
    (r.serve (.load address program)).1 = some (m.serve (.load address program)).1 ∧
      (r.serve (.load address program)).2.Shows (m.serve (.load address program)).2 := by
  simp only [Ram.serve, ByteMap.serve, Ram.load, h.size]
  by_cases hl : m.size < address.toNat + program.length
  · rw [if_pos hl, if_pos hl]
    exact ⟨rfl, h⟩
  · rw [if_neg hl, if_neg hl]
    by_cases hg : program ≠ [] ∧ address.toNat < 0xF0
    · rw [if_pos hg, write_of_reserved hg]
      exact ⟨rfl, h⟩
    · obtain ⟨s, hw, hs⟩ := h.exists_write (Nat.le_of_not_lt hl) hg
      rw [if_neg hg, hw]
      exact ⟨rfl, hs⟩

theorem byte : (r.serve (.byte address)).1 = some (m.serve (.byte address)).1 ∧
    (r.serve (.byte address)).2.Shows (m.serve (.byte address)).2 := by
  simp only [Ram.serve, ByteMap.serve]
  by_cases hl : address.toNat < m.size
  · rw [if_pos hl, byte_eq_ok_iff.mpr ⟨h.size ▸ hl, rfl⟩, h.cell _ hl]
    exact ⟨rfl, h⟩
  · have hn : r.bytes[address.toNat]? = none :=
      Array.getElem?_eq_none (Nat.le_of_not_lt fun hlt => hl (lt_of_lt_of_eq hlt h.size))
    rw [if_neg hl, Ram.byte, hn]
    exact ⟨rfl, h⟩

theorem word : (r.serve (.word address)).1 = some (m.serve (.word address)).1 ∧
    (r.serve (.word address)).2.Shows (m.serve (.word address)).2 := by
  simp only [Ram.serve, ByteMap.serve]
  by_cases hl : address.toNat + 2 ≤ m.size
  · have hw : UInt16.ofNat (256 * (m.get address.toNat).toNat +
          (m.get (address.toNat + 1)).toNat) =
        256 * (m.get address.toNat).toUInt16 + (m.get (address.toNat + 1)).toUInt16 := by
      apply UInt16.toNat_inj.mp
      simp
    rw [if_pos hl, word_eq_ok_iff.mpr ⟨h.size ▸ hl, rfl⟩, h.cell _ (by omega),
      h.cell _ (by omega), hw]
    exact ⟨rfl, h⟩
  · have hl' : ¬address.toNat + 2 ≤ r.bytes.size := fun hle => hl (le_of_le_of_eq hle h.size)
    rw [if_neg hl, Ram.word, dif_neg hl']
    exact ⟨rfl, h⟩

omit h in
/-- Where the length is a signed number of 64 bits, the end is one of 64 bits. -/
theorem spans {length : UInt64} (hl : length.toNat ≤ 0x7FFFFFFFFFFFFFFF) : Spans address length := by
  have ha := address.toNat_lt
  unfold Spans UInt64.size
  omega

theorem view {length : UInt64} (hf : length.toNat ≤ 0x7FFFFFFFFFFFFFFF) :
    (r.serve (.view address length)).1 = some (m.serve (.view address length)).1 ∧
      (r.serve (.view address length)).2.Shows (m.serve (.view address length)).2 := by
  simp only [Ram.serve, ByteMap.serve, Ram.view?, if_pos (spans hf)]
  by_cases hl : address.toNat + length.toNat ≤ m.size
  · rw [if_pos hl, h.slice hl]
    exact ⟨rfl, h⟩
  · rw [if_neg hl, h.slice_of_lt (Nat.lt_of_not_le hl)]
    exact ⟨rfl, h⟩

theorem overwrite {data : List UInt8} (hf : data.length ≤ 0x7FFFFFFFFFFFFFFF) :
    (r.serve (.overwrite address data)).1 = some (m.serve (.overwrite address data)).1 ∧
      (r.serve (.overwrite address data)).2.Shows (m.serve (.overwrite address data)).2 := by
  have hlen : (UInt64.ofNat data.length).toNat = data.length :=
    UInt64.toNat_ofNat_of_lt (by unfold UInt64.size; omega)
  have hspans : Spans address (UInt64.ofNat data.length) := spans (hlen.symm ▸ hf)
  simp only [Ram.serve, ByteMap.serve, Ram.writableView?, Ram.view?, if_pos hspans, hlen]
  by_cases hg : data ≠ [] ∧ address.toNat < 0xF0
  · have hg' : 0 < data.length ∧ address.toNat < Glyphs.reservedEnd :=
      ⟨List.length_pos_iff.mpr hg.1, hg.2⟩
    rw [if_pos hg', if_pos (.inr hg)]
    exact ⟨rfl, h⟩
  · have hg' : ¬(0 < data.length ∧ address.toNat < Glyphs.reservedEnd) :=
      fun ⟨hd, ha⟩ => hg ⟨List.length_pos_iff.mp hd, ha⟩
    rw [if_neg hg']
    by_cases hl : m.size < address.toNat + data.length
    · rw [if_pos (.inl hl), h.slice_of_lt hl]
      exact ⟨rfl, h⟩
    · obtain ⟨s, hw, hs⟩ := h.exists_write (Nat.le_of_not_lt hl) hg
      rw [if_neg (not_or.mpr ⟨hl, hg⟩), h.slice (Nat.le_of_not_lt hl), hw]
      exact ⟨rfl, hs⟩

/-- Memory answers like the byte map that it shows, and shows the one behind the request. -/
theorem serve {q : Request} (hf : q.Fits) :
    (r.serve q).1 = some (m.serve q).1 ∧ (r.serve q).2.Shows (m.serve q).2 := by
  cases q with
  | load address program => exact h.load program
  | byte address => exact h.byte
  | word address => exact h.word
  | view address length => exact h.view hf
  | overwrite address data => exact h.overwrite hf

theorem answers (qs : List Request) (hf : ∀ q ∈ qs, q.Fits) :
    r.answers qs = (m.answers qs).map some ∧ (r.after qs).Shows (m.after qs) := by
  induction qs generalizing r m with
  | nil => exact ⟨rfl, h⟩
  | cons q qs ih =>
      obtain ⟨ha, hs⟩ := h.serve (hf q List.mem_cons_self)
      obtain ⟨has, hafter⟩ := ih hs fun q' hq' => hf q' (List.mem_cons_of_mem _ hq')
      refine ⟨?_, hafter⟩
      rw [Ram.answers, ByteMap.answers, List.map_cons, ha, has]

end Shows

/-- A request that is refused leaves memory as it is. -/
theorem serve_of_refused {r : Ram} {q : Request} {fault : Fault}
    (h : (r.serve q).1 = some (.refused fault)) : (r.serve q).2 = r := by
  cases q with
  | load address program =>
      simp only [serve] at h ⊢
      split
      next hl =>
        rw [hl] at h
        cases h
      next => rfl
  | byte | word | view =>
      simp only [serve]
      split <;> rfl
  | overwrite address data =>
      simp only [serve] at h ⊢
      split
      next hv hw =>
        rw [hv, hw] at h
        cases h
      next => rfl
      next => rfl
      next => rfl

/-- Memory of any size that can be built answers any requests, one after the other, like the
byte map that begins with the two sheets of glyphs and zeros behind them.  Behind the requests
it has as many bytes as the byte map and the same ones, and what is refused leaves it as it
is. -/
theorem serves_as_map {size : Nat} {r : Ram} (hb : build size = .ok r) (qs : List Request)
    (hf : ∀ q ∈ qs, q.Fits) :
    r.answers qs = ((ByteMap.initial size).answers qs).map some ∧
      (r.after qs).Shows ((ByteMap.initial size).after qs) ∧
      ∀ q fault, ((r.after qs).serve q).1 = some (.refused fault) →
        ((r.after qs).serve q).2 = r.after qs := by
  obtain ⟨ha, hs⟩ := (shows_build hb).answers qs hf
  exact ⟨ha, hs, fun _ _ => serve_of_refused⟩

/-- The least memory that can be built has one byte behind the glyphs. -/
theorem serves_as_map_of_least_size :
    ∃ r, build 0xF1 = .ok r ∧
      r.answers [.load 0xF0 [7], .word 0xEF, .byte 0xF1, .load 0xF1 [], .load 0xF0 [1, 2],
          .load 0xEF [1], .overwrite 0xF0 [9], .view 0xF0 1] =
        [some .done, some (.word 0xC007), some (.refused (.outOfBounds 0xF1)), some .done,
          some (.refused (.programTooLong 0xF0 2 0xF1)), some (.refused (.outOfBounds 0xEF)),
          some (.bytes [7]), some (.bytes [9])] := by
  obtain ⟨r, hb⟩ : ∃ r, build 0xF1 = .ok r := ⟨_, if_neg (by decide)⟩
  refine ⟨r, hb, ?_⟩
  obtain ⟨ha, -⟩ := serves_as_map hb [.load 0xF0 [7], .word 0xEF, .byte 0xF1, .load 0xF1 [],
    .load 0xF0 [1, 2], .load 0xEF [1], .overwrite 0xF0 [9], .view 0xF0 1]
      (by simp [Request.Fits])
  rw [ha]
  decide +kernel

end Ram

end SuperChip
