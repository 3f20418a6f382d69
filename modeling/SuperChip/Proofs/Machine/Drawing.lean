import SuperChip.Proofs.Machine.Failure
import SuperChip.Proofs.Surface.Stamp

/-!
# Drawing

A draw puts a stamp on the surface: the sprite that memory holds behind the address
register, at the place that two V registers hold.  The sprite fits on a surface of either
size (`fits_sprite`).  VF is one behind a draw if the stamp collides, and else zero
(`step_draw`).

`Machine.Draws` relates two machines by the stamps that are drawn from one to the other.
Anything may happen between the draws that leaves the surface.  So a picture is what the
stamps make of the picture before (`Draws.surface_eq`), and what is known of stamps one
after the other is known of draws.
-/

namespace SuperChip.Machine

variable {m m' : Machine} {x y n random : UInt8} {ps : List Stamp}

/-! ## One draw -/

/-- The sprite that is drawn for a count. -/
def sprite (m : Machine) (n : UInt8) : Sprite where
  rowBytes := (m.spriteShape n).2
  bytes := (List.range ((m.spriteShape n).1 * (m.spriteShape n).2)).map fun k =>
    m.ram.cell (m.index.toNat + k)

/-- The stamp that a draw puts on the surface. -/
def stamp (m : Machine) (x y n : UInt8) : Stamp := ⟨(m.v x).toNat, (m.v y).toNat, m.sprite n⟩

theorem fits_sprite (h : n.toNat < 16) : (m.sprite n).Fits m.surface.extended := by
  simp only [sprite, spriteShape]
  split
  next he =>
    rw [he.1]
    constructor <;> simp [Surface.columns, Surface.lines]
  next =>
    cases m.surface.extended <;> constructor <;>
      simp only [Surface.columns, Surface.lines, List.length_map, List.length_range] <;>
      simp <;> omega

theorem bytes_eq_of_slice {bytes : List UInt8} {k : Nat}
    (h : m.ram.slice m.index k = .ok bytes) :
    bytes = (List.range k).map fun i => m.ram.cell (m.index.toNat + i) := by
  refine List.ext_getElem? fun i => ?_
  by_cases hi : i < k
  · simp [Ram.getElem?_slice h hi, hi]
  · simp [Ram.length_slice h, Nat.le_of_not_lt hi]

/-- A draw that is done has put its stamp on the surface and says in VF whether the stamp
collides. -/
theorem executeDraw_of_done (hd : (m.executeDraw x y n).ending = .done) :
    (m.executeDraw x y n).machine.surface = (m.surface.stamp (m.stamp x y n)).1 ∧
      (m.executeDraw x y n).machine.v flagRegister =
        if (m.surface.stamp (m.stamp x y n)).2 then 1 else 0 := by
  rw [executeDraw] at hd ⊢
  dsimp only at hd ⊢
  split at hd
  next bytes hb =>
    cases bytes_eq_of_slice hb
    exact ⟨rfl, v_setFlag _⟩
  next => cases hd

/-- A step that draws, and is done. -/
theorem step_draw (hi : m.Issues (.draw x y n)) (hd : (m.step random).ending = .done) :
    (m.step random).machine.surface = (m.surface.stamp (m.stamp x y n)).1 ∧
      (m.step random).machine.v flagRegister =
        if (m.surface.stamp (m.stamp x y n)).2 then 1 else 0 := by
  obtain ⟨w, hw, hs⟩ := hi
  rw [step_of_standsFor hw hs] at hd ⊢
  exact executeDraw_of_done hd

/-- The count of a draw is a digit. -/
theorem Issues.count_lt (hi : m.Issues (.draw x y n)) : n.toNat < 16 := by
  obtain ⟨w, -, f, -, hs⟩ := hi
  cases f with
  | draw =>
      cases hs
      rw [Word.toNat_n]
      omega
  | _ => cases hs

theorem flag_eq_one_iff {hit : Bool} : (if hit then 1 else 0 : UInt8) = 1 ↔ hit = true := by
  cases hit <;> decide

/-! ## Draws one after the other -/

/-- Draws turn a machine into another one.  With them come their stamps, the first one
first.  Between them all may change but the surface. -/
inductive Draws (m : Machine) : List Stamp → Machine → Prop where
  | here : Draws m [] m
  | between {ps : List Stamp} {m' m'' : Machine} : Draws m ps m' →
      m''.surface = m'.surface → Draws m ps m''
  | draw {ps : List Stamp} {m' : Machine} {x y n random : UInt8} : Draws m ps m' →
      m'.Issues (.draw x y n) → (m'.step random).ending = .done →
      Draws m (ps ++ [m'.stamp x y n]) (m'.step random).machine

namespace Draws

/-- What draws make of a picture is what their stamps make of it. -/
theorem surface_eq (h : Draws m ps m') : m'.surface = m.surface.stamps ps := by
  induction h with
  | here => rfl
  | between _ he ih => rw [he, ih]
  | draw _ hi hd ih => rw [(step_draw hi hd).1, ih, Surface.stamps_append_singleton]

/-- The sprites that are drawn fit on the surface. -/
theorem fits (h : Draws m ps m') : ∀ p ∈ ps, p.sprite.Fits m.surface.extended := by
  induction h with
  | here => simp
  | between _ _ ih => exact ih
  | @draw ps m' x y n random h hi _ ih =>
      intro p hp
      rcases List.mem_append.mp hp with hp | hp
      · exact ih p hp
      · cases List.mem_singleton.mp hp
        rw [← Surface.extended_stamps ps m.surface, ← h.surface_eq]
        exact fits_sprite hi.count_lt

end Draws

/-- However many draws are done, and whatever happens between them that leaves the surface,
a pixel is in the end turned over if an odd number of draws had a set bit on it.  So the
picture does not depend on the order of the draws.  And a draw that is repeated brings back
the picture as it was; it then collides if it had a set bit on a pixel that was not lit. -/
theorem draws_are_exclusive_or (hs : m.surface.Full) :
    (∀ ps m', Draws m ps m' →
      m'.surface.extended = m.surface.extended ∧
        ∀ a b, m.surface.Covers a b →
          m'.surface.get a b = (m.surface.get a b ^^
            decide (ps.countP (fun p => p.Marks m.surface.extended a b) % 2 = 1))) ∧
      (∀ ps₁ ps₂ m₁ m₂, ps₁.Perm ps₂ → Draws m ps₁ m₁ → Draws m ps₂ m₂ →
        m₁.surface = m₂.surface) ∧
      ∀ p m₁ x y n random, Draws m [p] m₁ → m₁.Issues (.draw x y n) → m₁.stamp x y n = p →
        (m₁.step random).ending = .done →
          let m₂ := (m₁.step random).machine
          m₂.surface = m.surface ∧
            (m₂.v flagRegister = 1 ↔
              ∃ a b, p.Marks m.surface.extended a b ∧ m.surface.get a b = false) := by
  refine ⟨fun ps m' h => ⟨?_, fun a b _ => ?_⟩, fun ps₁ ps₂ m₁ m₂ hp h₁ h₂ => ?_, ?_⟩
  · rw [h.surface_eq, Surface.extended_stamps]
  · rw [h.surface_eq, Surface.get_stamps hs h.fits]
  · rw [h₁.surface_eq, h₂.surface_eq, Surface.stamps_perm hs h₁.fits hp]
  · rintro p m₁ x y n random h hi rfl hd
    have hf := h.fits _ List.mem_cons_self
    have he : m₁.surface = (m.surface.stamp (m₁.stamp x y n)).1 := h.surface_eq
    obtain ⟨hsurface, hv⟩ := step_draw hi hd
    rw [he] at hsurface hv
    refine ⟨hsurface.trans (Surface.stamp_stamp hs hf), ?_⟩
    rw [← Surface.collides_stamp_stamp hs hf, hv]
    exact flag_eq_one_iff

/-- A program draws a zero into the corner, sets V1, and draws the zero once more. -/
theorem draws_are_exclusive_or_of_repeated :
    ∃ m, Machine.build { memorySize := 0xF6, entry := 0xF0 } = .ok m ∧
      let m₀ := ((Session.start m).next (.load 0xF0 [0xD0, 0x05, 0x61, 0x07, 0xD0, 0x05])).machine
      let m₁ := ((m₀.step 0).machine.step 0).machine
      let m₂ := (m₁.step 0).machine
      m₀.surface.Full ∧ m₁.v 1 = 7 ∧ m₁.surface.get 0 0 = true ∧ (m₁.step 0).ending = .done ∧
        m₂.surface = m₀.surface ∧ m₂.v flagRegister = 1 := by
  have hc : Settings.check { memorySize := 0xF6, entry := 0xF0 } = .ok () := rfl
  obtain ⟨m, hb⟩ := exists_build hc
  refine ⟨m, hb, ?_⟩
  intro m₀ m₁ m₂
  have hs : m₀.surface.Full :=
    (Session.sound_of_reachable (.next (.start hb) _)).machine.full
  obtain ⟨hd₀, hv, hd, hlit⟩ : (m₀.step 0).ending = .done ∧ m₁.v 1 = 7 ∧
      (m₁.step 0).ending = .done ∧ m₁.surface.get 0 0 = true := by
    cases hb
    decide +kernel
  obtain ⟨hf₀, hload, hf⟩ : m₀.Fetches 0xD005 ∧ (m₀.step 0).machine.Fetches 0x6107 ∧
      m₁.Fetches 0xD005 := by
    cases hb
    decide +kernel
  obtain ⟨hp, hunlit, hmarks⟩ : m₁.stamp 0 0 5 = m₀.stamp 0 0 5 ∧
      m₀.surface.get 0 0 = false ∧ (m₀.stamp 0 0 5).Marks m₀.surface.extended 0 0 := by
    cases hb
    decide +kernel
  have hsame : m₁.surface = (m₀.step 0).machine.surface := by
    show ((m₀.step 0).machine.step 0).machine.surface = _
    rw [step_of_standsFor hload ⟨.load, ⟨rfl, trivial, trivial, trivial⟩, rfl⟩]
    rfl
  have h : Draws m₀ [m₀.stamp 0 0 5] m₁ :=
    .between (.draw .here ⟨_, hf₀, ⟨.draw, ⟨rfl, trivial, trivial, trivial⟩, rfl⟩⟩ hd₀) hsame
  obtain ⟨-, -, hrepeat⟩ := draws_are_exclusive_or hs
  have hissues : m₁.Issues (.draw 0 0 5) :=
    ⟨_, hf, ⟨.draw, ⟨rfl, trivial, trivial, trivial⟩, rfl⟩⟩
  obtain ⟨hsurface, hflag⟩ := hrepeat _ m₁ 0 0 5 0 h hissues hp hd
  exact ⟨hs, hv, hlit, hd, hsurface, hflag.mpr ⟨0, 0, hmarks, hunlit⟩⟩

end SuperChip.Machine
