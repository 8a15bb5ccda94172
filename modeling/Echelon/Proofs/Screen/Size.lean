import Echelon.Screen

/-!
# The size of the screen

Boxes are cut or filled up to the size that they are given, and the boxes side by side or one above
the other share out the size of the screen. So wherever there is room for the edges of all boxes,
the drawing has exactly the size of the screen, whatever the workbench holds.
-/

namespace Echelon

namespace Strip

@[simp]
theorem length_fitWith (glyph : Glyph) (width : Nat) (strip : Strip) :
    (strip.fitWith glyph width).length = width := by
  simp only [fitWith, fill, List.length_append, List.length_take, List.length_replicate]
  omega

@[simp]
theorem length_fit (width : Nat) (strip : Strip) : (strip.fit width).length = width :=
  length_fitWith _ _ _

/-- A row between two edges is two places longer. -/
theorem length_edged (left right : Glyph) (strip : Strip) :
    (left :: strip ++ [right]).length = strip.length + 2 := by
  rw [List.length_append, List.length_cons, List.length_singleton]

end Strip

namespace Picture

/-- A picture has as many rows as its height says, all of them as long as its width says. -/
structure HasSize (picture : Picture) (width height : Nat) : Prop where
  rows : picture.length = height
  columns : ∀ strip ∈ picture, strip.length = width

namespace HasSize

variable {picture other : Picture} {width height x y : Nat}

theorem fit (picture : Picture) (width height : Nat) :
    (picture.fit width height).HasSize width height where
  rows := by
    simp only [Picture.fit, List.length_map, List.length_append, List.length_take,
      List.length_replicate]
    omega
  columns := by
    intro strip hstrip
    obtain ⟨row, _, rfl⟩ := List.mem_map.mp hstrip
    exact Strip.length_fit width row

theorem framed (color : Color) (title : String) (inside : Picture) (hwidth : 2 ≤ width)
    (hheight : 2 ≤ height) : (framed color title width height inside).HasSize width height where
  rows := by
    have hinside := (fit inside (width - 2) (height - 2)).rows
    simp only [Picture.framed, List.length_cons, List.length_append, List.length_map, hinside,
      List.length_nil]
    omega
  columns := by
    have hinside := (fit inside (width - 2) (height - 2)).columns
    have hedges : width - 2 + 2 = width := Nat.sub_add_cancel hwidth
    intro strip hstrip
    rcases List.mem_cons.mp hstrip with rfl | hbelow
    · rw [Strip.length_edged, Strip.length_fitWith, hedges]
    · rcases List.mem_append.mp hbelow with hmiddle | hbottom
      · obtain ⟨row, hrow, rfl⟩ := List.mem_map.mp hmiddle
        rw [Strip.length_edged, hinside row hrow, hedges]
      · rw [List.mem_singleton.mp hbottom, Strip.length_edged, Strip.length_fitWith, hedges]

theorem beside {otherWidth : Nat} (h : picture.HasSize width height)
    (hother : other.HasSize otherWidth height) :
    (picture.beside other).HasSize (width + otherWidth) height where
  rows := by rw [Picture.beside, List.length_zipWith, h.rows, hother.rows, Nat.min_self]
  columns := by
    intro strip hstrip
    rw [Picture.beside, ← List.map_uncurry_zip_eq_zipWith] at hstrip
    obtain ⟨⟨left, right⟩, hpair, rfl⟩ := List.mem_map.mp hstrip
    obtain ⟨hleft, hright⟩ := List.of_mem_zip hpair
    rw [Function.uncurry_apply_pair, List.length_append, h.columns left hleft,
      hother.columns right hright]

theorem above {otherHeight : Nat} (h : picture.HasSize width height)
    (hother : other.HasSize width otherHeight) :
    HasSize (picture ++ other) width (height + otherHeight) where
  rows := by rw [List.length_append, h.rows, hother.rows]
  columns := by
    intro strip hstrip
    rcases List.mem_append.mp hstrip with hmem | hmem
    · exact h.columns strip hmem
    · exact hother.columns strip hmem

/-- A picture on top of another one changes no size where it fits in. -/
theorem cover {otherWidth otherHeight : Nat} (h : picture.HasSize width height)
    (hother : other.HasSize otherWidth otherHeight) (hfits : x + otherWidth ≤ width) :
    (picture.cover other x y).HasSize width height where
  rows := by rw [Picture.cover, List.length_map, List.length_zipIdx, h.rows]
  columns := by
    intro strip hstrip
    obtain ⟨⟨row, i⟩, hrow, rfl⟩ := List.mem_map.mp hstrip
    have hlength := h.columns row (List.fst_mem_of_mem_zipIdx hrow)
    dsimp only
    split
    · exact hlength
    · split
      · rename_i patch hpatch
        have hpatchlength := hother.columns patch (List.mem_of_getElem? hpatch)
        simp only [List.length_append, List.length_take, List.length_drop]
        omega
      · exact hlength

end HasSize

end Picture

namespace Workbench

open Picture

variable {w : Workbench} {width height : Nat}

theorem inputBox_hasSize (e : Editor) (focused : Bool) (title : String) (hwidth : 2 ≤ width)
    (hheight : 2 ≤ height) : (inputBox e focused title width height).HasSize width height :=
  .framed _ _ _ hwidth hheight

theorem matrixBox_hasSize (hwidth : 2 ≤ width) (hheight : 2 ≤ height) :
    (w.matrixBox width height).HasSize width height :=
  .framed _ _ _ hwidth hheight

theorem logBox_hasSize (hheight : 2 ≤ height) : (w.logBox height).HasSize logWidth height :=
  .framed _ _ _ (by decide) hheight

/-- The help box fits in the screen. -/
theorem coverWithHelp_hasSize {drawn : Picture} (scroll : Nat) (h : drawn.HasSize width height)
    (hwidth : 54 ≤ width) (hheight : 6 ≤ height) :
    (coverWithHelp scroll width height drawn).HasSize width height := by
  refine h.cover (.framed _ _ _ ?_ ?_) ?_
  all_goals
    simp only [atPercent]
    omega

/-- **The drawing fills the screen.** Where there is room for the edges of all boxes, the workbench
is drawn to as many rows as the screen has, each as long as the screen is wide. -/
theorem screen_hasSize (w : Workbench) (hwidth : 54 ≤ width) (hheight : 6 ≤ height) :
    (w.screen width height).HasSize width height := by
  have hbody : 2 ≤ height - operationHeight - 1 := by
    unfold operationHeight
    omega
  have hmiddle : 2 ≤ width - inputWidth - logWidth := by
    unfold inputWidth logWidth
    omega
  have hacross : inputWidth + (width - inputWidth - logWidth) + logWidth = width := by
    unfold inputWidth logWidth
    omega
  have hdown : height - operationHeight - 1 + operationHeight + 1 = height := by
    unfold operationHeight
    omega
  have hinput := inputBox_hasSize w.matrixInput (w.focus = .matrix) " Matrix "
    (by decide : 2 ≤ inputWidth) hbody
  have hboxes := (hinput.beside (w.matrixBox_hasSize hmiddle hbody)).beside (w.logBox_hasSize hbody)
  rw [hacross] at hboxes
  have hoperation := inputBox_hasSize w.operationInput (w.focus = .operation) " Operation "
    (by omega : 2 ≤ width) (by decide : 2 ≤ operationHeight)
  have hstatus : HasSize [w.statusLine.fit width] width 1 :=
    ⟨rfl, by simp⟩
  have hwhole := (hboxes.above hoperation).above hstatus
  rw [hdown] at hwhole
  rw [screen]
  split
  · exact coverWithHelp_hasSize w.helpScroll hwhole hwidth hheight
  · exact hwhole

end Workbench

end Echelon
