import SuperChip.Proofs.Guarded.Surface
import SuperChip.Proofs.Surface.History
import SuperChip.Surface.Rgb

/-!
# Frames show surfaces

The frame of a full surface has three bytes for each pixel, and the bytes of a pixel stand
three times as far into the frame as the pixel stands into the surface
(`Surface.getElem?_frame`).  All three of them tell whether the pixel is lit, and the two
sizes of a surface have frames of different lengths.  So a frame determines its surface
(`Surface.frame_inj`), whatever changes have led to it.
-/

namespace SuperChip.Surface

variable {s t : Surface}

/-! ## Pixels in a frame -/

theorem shade_inj {a b : Bool} : shade a = shade b ↔ a = b := by
  cases a <;> cases b <;> simp [shade]

/-- The rows of a full surface are its pixels, so the frame has three bytes for each of them. -/
theorem frame_eq (hs : s.Full) :
    s.frame = (s.pixels.toList.map fun on => List.replicate 3 (shade on)).flatten := by
  rw [frame, flatten_rows hs, List.flatMap_def]

theorem length_frame (hs : s.Full) : s.frame.length = 3 * s.width * s.height := by
  have hthree : s.frame.length = s.pixels.size * 3 := by
    simp only [frame, flatten_rows hs, List.length_flatMap, List.length_replicate,
      List.map_const', List.sum_replicate_nat, Array.length_toList]
  rw [hthree, hs, Nat.mul_comm, Nat.mul_assoc]

/-- The three bytes of a pixel are its shade. -/
theorem getElem?_frame (hs : s.Full) {x y c : Nat} (h : s.Covers x y) (hc : c < 3) :
    s.frame[3 * (y * s.width + x) + c]? = some (shade (s.get x y)) := by
  have hi : y * s.width + x < s.pixels.size := hs ▸ index_lt h
  have hthree : ∀ bytes ∈ s.pixels.toList.map (fun on => List.replicate 3 (shade on)),
      bytes.length = 3 :=
    List.forall_mem_map.mpr fun _ _ => List.length_replicate
  have hpixel : s.pixels[y * s.width + x]? = some (s.get x y) := by
    rw [get_of_covers h, Array.getElem?_eq_getElem hi, Option.getD_some]
  rw [frame_eq hs, Nat.mul_comm 3, getElem?_flatten hthree hc, List.getElem?_map,
    Array.getElem?_toList, hpixel, Option.map_some, Option.bind_some, List.getElem?_replicate,
    if_pos hc]

/-! ## Frames and surfaces -/

/-- Frames of the same length are frames of surfaces of the same size. -/
theorem extended_eq_of_length (hs : s.Full) (ht : t.Full)
    (h : s.frame.length = t.frame.length) : s.extended = t.extended := by
  rw [length_frame hs, length_frame ht] at h
  simp only [width, height, columns, lines] at h
  cases hse : s.extended <;> cases hte : t.extended <;> simp [hse, hte] at h ⊢

/-- A frame determines its surface. -/
theorem frame_inj (hs : s.Full) (ht : t.Full) : s.frame = t.frame ↔ s = t := by
  constructor
  · intro h
    have he : s.extended = t.extended := extended_eq_of_length hs ht (congrArg List.length h)
    refine ext_get hs ht he fun x y hc => ?_
    have hw : t.width = s.width := congrArg columns he.symm
    have hc' : t.Covers x y := by
      rw [Covers, hw, height, ← he]
      exact hc
    have hbyte := getElem?_frame ht hc' (c := 0) (by decide)
    rw [hw, ← h, getElem?_frame hs hc (by decide)] at hbyte
    exact shade_inj.mp (Option.some.inj hbyte)
  · rintro rfl
    rfl

/-- After any changes the frame of a surface has three bytes for each pixel, at full strength
if the pixel is lit and at zero if not, and no other bytes.  So two surfaces, each with a
history of its own, have the same frame just when they are the same. -/
theorem frame_shows_surface (cs : List Change) :
    let s := (blank false).after cs
    s.frame.length = 3 * s.width * s.height ∧
      (∀ x y c, x < s.width → y < s.height → c < 3 →
        s.frame[3 * (y * s.width + x) + c]? = some (if s.get x y then 255 else 0)) ∧
      ∀ cs', s.frame = ((blank false).after cs').frame ↔ s = (blank false).after cs' := by
  intro s
  have hfull (cs : List Change) : ((blank false).after cs).Full :=
    ((shows_blank false).after cs).full
  exact ⟨length_frame (hfull cs), fun x y c hx hy hc => getElem?_frame (hfull cs) ⟨hx, hy⟩ hc,
    fun cs' => frame_inj (hfull cs) (hfull cs')⟩

/-- The last byte of a large frame belongs to the pixel in the lower right corner. -/
theorem frame_shows_corner :
    let s := (blank false).after [.set 1 0 true, .extend true, .set 127 63 true]
    (127 < s.width ∧ 63 < s.height) ∧ s.frame[3 * (63 * s.width + 127) + 2]? = some 255 := by
  intro s
  obtain ⟨-, hbytes, -⟩ := frame_shows_surface [.set 1 0 true, .extend true, .set 127 63 true]
  have hx : 127 < s.width := by decide
  have hy : 63 < s.height := by decide
  have hlit : s.get 127 63 = true := by
    show ((blank true).set 127 63 true).get 127 63 = true
    rw [get_set (full_blank true) (by decide), if_pos ⟨rfl, rfl⟩]
  have hbyte := hbytes 127 63 2 hx hy (by decide)
  rw [if_pos hlit] at hbyte
  exact ⟨⟨hx, hy⟩, hbyte⟩

end SuperChip.Surface
