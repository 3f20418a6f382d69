import SuperChip.CallStack
import SuperChip.Text.Numeral
import SuperChip.Text.Record

/-!
# Registers

Sixteen byte registers V0 to VF, of which VF also serves as the flag of
arithmetic and drawing; the address register I; the program counter; the call
stack; and sixteen *saved flags*, bytes that two instructions copy V registers to
and from.

A row of sixteen bytes is a `Bank`.  It is read and written by the number of a
register.  A number above fifteen names none: it reads as zero and writing it
changes nothing.
-/

namespace SuperChip

/-! ## Banks -/

/-- Sixteen bytes, numbered from zero. -/
structure Bank where
  /-- The bytes. -/
  cells : Vector UInt8 16
deriving DecidableEq

namespace Bank

/-- Sixteen zeros. -/
def zero : Bank := ⟨Vector.replicate 16 0⟩

/-- The byte of a number. -/
def read (b : Bank) (x : UInt8) : UInt8 := b.cells[x.toNat]?.getD 0

/-- Replaces the byte of a number. -/
def write (b : Bank) (x value : UInt8) : Bank := ⟨b.cells.setIfInBounds x.toNat value⟩

/-- All bytes in order. -/
def toList (b : Bank) : List UInt8 := b.cells.toList

/-- The bytes from number zero to a number, both included. -/
def upTo (b : Bank) (x : UInt8) : List UInt8 := b.toList.take (x.toNat + 1)

/-- Replaces the first bytes by those of a list. -/
def overlay (b : Bank) (bytes : List UInt8) : Bank :=
  ⟨Vector.ofFn fun i => bytes[i.val]?.getD b.cells[i]⟩

theorem read_write {b : Bank} {x y value : UInt8} (h : x.toNat < 16) :
    (b.write x value).read y = if x = y then value else b.read y := by
  unfold read write
  by_cases e : x = y
  · subst e
    simp [h]
  · have hne : x.toNat ≠ y.toNat := fun he => e (UInt8.toNat_inj.mp he)
    simp [e, hne]

theorem read_write_of_ne {b : Bank} {x y value : UInt8} (h : y ≠ x) :
    (b.write x value).read y = b.read y := by
  have hne : x.toNat ≠ y.toNat := fun he => h (UInt8.toNat_inj.mp he).symm
  simp [read, write, hne]

theorem read_overlay {b : Bank} {bytes : List UInt8} {x : UInt8} (h : x.toNat < 16) :
    (b.overlay bytes).read x = bytes[x.toNat]?.getD (b.read x) := by
  simp [read, overlay, h]

theorem length_toList (b : Bank) : b.toList.length = 16 := by
  simp [toList]

theorem length_upTo {b : Bank} {x : UInt8} (h : x.toNat < 16) :
    (b.upTo x).length = x.toNat + 1 := by
  rw [upTo, List.length_take, length_toList]
  omega

theorem getElem?_upTo {b : Bank} {x y : UInt8} (hx : x.toNat < 16) (h : y ≤ x) :
    (b.upTo x)[y.toNat]? = some (b.read y) := by
  rw [UInt8.le_iff_toNat_le] at h
  have hy : y.toNat < 16 := by omega
  have hl : y.toNat < x.toNat + 1 := by omega
  simp [upTo, toList, read, hl, hy]

/-- The first bytes of one bank laid over another one. -/
theorem read_overlay_upTo {b c : Bank} {x y : UInt8} (hx : x.toNat < 16) (hy : y.toNat < 16) :
    (b.overlay (c.upTo x)).read y = if y ≤ x then c.read y else b.read y := by
  rw [read_overlay hy]
  split
  next h => rw [getElem?_upTo hx h, Option.getD_some]
  next h =>
    rw [UInt8.le_iff_toNat_le] at h
    rw [List.getElem?_eq_none (by rw [length_upTo hx]; omega), Option.getD_none]

/-- Banks with the same bytes are the same. -/
theorem ext_read {a b : Bank} (h : ∀ x : UInt8, x.toNat < 16 → a.read x = b.read x) : a = b := by
  obtain ⟨a⟩ := a
  obtain ⟨b⟩ := b
  refine congrArg Bank.mk (Vector.ext fun i hi => ?_)
  have hx : (UInt8.ofNat i).toNat = i := by
    rw [UInt8.toNat_ofNat']
    omega
  have hi' : (UInt8.ofNat i).toNat < 16 := by omega
  have e := h (UInt8.ofNat i) hi'
  unfold read at e
  rw [hx, Vector.getElem?_eq_getElem hi, Vector.getElem?_eq_getElem hi] at e
  exact e

end Bank

/-! ## The register file -/

/-- The number of the flag register VF. -/
def flagRegister : UInt8 := 0xF

/-- The registers of a machine. -/
structure Registers where
  /-- V0 to VF. -/
  v : Bank
  /-- The address register I. -/
  index : UInt16
  /-- The program counter. -/
  pc : UInt16
  /-- The call stack. -/
  stack : CallStack
  /-- The saved flags. -/
  saved : Bank
deriving DecidableEq

namespace Registers

/-- The registers before the first instruction: all zero but the program counter. -/
def start (entry : UInt16) (stackDepth : Nat) : Registers :=
  ⟨.zero, 0, entry, .ofDepth stackDepth, .zero⟩

/-- Writes one or zero into the flag register. -/
def setFlag (r : Registers) (on : Bool) : Registers :=
  { r with v := r.v.write flagRegister (if on then 1 else 0) }

/-- The registers written as a record, with all slots of the call stack. -/
def describe (r : Registers) : String :=
  let bytes (b : Bank) : String :=
    Record.sequence (b.toList.map fun byte => Numeral.decimal byte.toNat)
  let slots : String :=
    Record.sequence (r.stack.slots.toList.map fun address => Numeral.decimal address.toNat)
  Record.named "State"
    [("v", bytes r.v),
     ("i", Numeral.decimal r.index.toNat),
     ("pc", Numeral.decimal r.pc.toNat),
     ("stack",
       Record.named "Stack" [("addresses", slots), ("sp", Numeral.decimal r.stack.used)]),
     ("rpl", bytes r.saved)]

end Registers

end SuperChip
