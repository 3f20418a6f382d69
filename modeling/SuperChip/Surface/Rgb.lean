import SuperChip.Surface

/-!
# Frames

A *frame* is a surface as a colour screen takes it: three bytes for each pixel,
row after row from the top, all at full strength for a lit pixel and at zero for
an unlit one.
-/

namespace SuperChip.Surface

/-- The strength of the colours of a pixel. -/
def shade (on : Bool) : UInt8 := if on then 255 else 0

/-- The frame of a surface. -/
def frame (s : Surface) : List UInt8 :=
  s.rows.flatten.flatMap fun on => List.replicate 3 (shade on)

end SuperChip.Surface
