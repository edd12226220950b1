import ChipEight.Proofs.Screen.Enlarging
import ChipEight.Proofs.Screen.Text

/-!
The text of a bitmap read back. Both cells have the same length, so a line is cut into its
cells wherever it has that many characters, and if they differ each cell tells its pixel.
The text tells as much of a bitmap as its image in two colours does.
-/

namespace ChipEight

def lineCells (size : Nat) (line : String) : List String :=
  (Blocks.cut size line.toList).map String.ofList

def textCell? (size : Nat) (text : String) (x y : Nat) : Option String :=
  ((printedLines text)[y]?).bind fun line => (lineCells size line)[x]?

/-- The rows of a text: which of their cells are the one for a pixel that is on. -/
def readRows (on text : String) : List (List Bool) :=
  (printedLines text).map fun line => (lineCells on.length line).map fun cell => cell == on

namespace Bitmap

variable {width height : Nat} (b : Bitmap width height) {on off : String}

theorem lineCells_rowLine (hlength : on.length = off.length) (hon : 0 < on.length)
    (y : Fin height) : lineCells on.length (b.rowLine on off y) =
      (b.row y).map fun p => if p then on else off := by
  have hline : (b.rowLine on off y).toList =
      (((b.row y).map fun p => if p then on else off).map String.toList).flatten := by
    rw [rowLine, String.toList_join, List.flatMap_def]
  have hsized : Blocks.Sized on.length
      (((b.row y).map fun p => if p then on else off).map String.toList) := by
    intro cell hcell
    rw [List.map_map] at hcell
    obtain ⟨p, -, rfl⟩ := List.mem_map.1 hcell
    cases p with
    | true => exact String.length_toList
    | false => exact String.length_toList.trans hlength.symm
  rw [lineCells, hline, Blocks.cut_flatten hsized hon, List.map_map, String.ofList_comp_toList,
    List.map_id]

section Read

variable (hheight : 0 < height) (hlength : on.length = off.length) (hpos : 0 < on.length)
  (hdiffer : on ≠ off) (hon : '\n' ∉ on.toList) (hoff : '\n' ∉ off.toList)
include hheight hlength hpos hon hoff

theorem textCell?_text (x : Fin width) (y : Fin height) :
    textCell? on.length (b.text on off) x.val y.val =
      some (if b.pixel x y then on else off) := by
  rw [textCell?, b.printedLines_text hon hoff hheight, List.getElem?_ofFn, dif_pos y.isLt,
    Option.bind_some, b.lineCells_rowLine hlength hpos, List.getElem?_map, b.getElem?_row,
    Option.map_some]

include hdiffer

theorem textCell?_text_eq_on_iff (x : Fin width) (y : Fin height) :
    textCell? on.length (b.text on off) x.val y.val = some on ↔ b.pixel x y = true := by
  rw [b.textCell?_text hheight hlength hpos hon hoff x y]
  cases b.pixel x y with
  | true => exact iff_of_true rfl rfl
  | false => exact iff_of_false (fun h => hdiffer (Option.some.inj h).symm) Bool.false_ne_true

theorem readRows_text : readRows on (b.text on off) = b.rows := by
  have hcell (p : Bool) : ((if p then on else off) == on) = p := by
    cases p with
    | true => exact beq_self_eq_true on
    | false => exact beq_false_of_ne hdiffer.symm
  have hrow (y : Fin height) :
      ((b.row y).map fun p => if p then on else off).map (fun cell => cell == on) = b.row y := by
    rw [List.map_map]
    exact List.map_id'' hcell (b.row y)
  rw [readRows, b.printedLines_text hon hoff hheight, List.map_ofFn, rows]
  apply congrArg List.ofFn
  funext y
  rw [Function.comp_apply, b.lineCells_rowLine hlength hpos, hrow]

end Read

/-- The text of a bitmap loses nothing. It has a line for each row, each put together from
the cells of the pixels of the row, so reading it gives the bitmap back, and its cells are
lit where the image in two colours is. -/
theorem text_lossless (on off : String) (hheight : 0 < height) (hlength : on.length = off.length)
    (hpos : 0 < on.length) (hdiffer : on ≠ off) (hon : '\n' ∉ on.toList)
    (hoff : '\n' ∉ off.toList) :
    printedLines (b.text on off) = List.ofFn (b.rowLine on off) ∧
    (∀ y, lineCells on.length (b.rowLine on off y) =
      (b.row y).map fun p => if p then on else off) ∧
    (∀ (x : Fin width) (y : Fin height),
      textCell? on.length (b.text on off) x.val y.val = some on ↔ b.pixel x y = true) ∧
    readRows on (b.text on off) = b.rows ∧
    ofRows width height (readRows on (b.text on off)) = b ∧
    ∀ palette : Palette, palette.on ≠ palette.off →
      (∀ image, Image.render b 1 palette = .ok image ↔
        Image.Fits width height 1 ∧ image = Image.ofBitmap b 1 palette) ∧
      ∀ (x : Fin width) (y : Fin height),
        textCell? on.length (b.text on off) x.val y.val = some on ↔
          (Image.ofBitmap b 1 palette).pixel? x.val y.val = some palette.on := by
  have hcell := b.textCell?_text_eq_on_iff hheight hlength hpos hdiffer hon hoff
  have hrows := b.readRows_text hheight hlength hpos hdiffer hon hoff
  refine ⟨b.printedLines_text hon hoff hheight, b.lineCells_rowLine hlength hpos, hcell, hrows,
    ?_, ?_⟩
  · rw [hrows, ofRows_rows]
  · intro palette hcolours
    refine ⟨Image.render_eq_ok_iff b 1 palette, ?_⟩
    intro x y
    have hside : Image.side 1 = 1 := rfl
    have hlit := (Image.enlarges_ofBitmap b 1 palette).pixel?_eq_on_iff Nat.one_pos hcolours x y
    rw [hside, Nat.one_mul, Nat.one_mul] at hlit
    exact (hcell x y).trans hlit.symm

/-- Cells of two characters keep the columns of a picture apart from its rows. -/
theorem text_lossless_slanted :
    printedLines (Image.slanted.text "[]" "--") = ["--[][]", "[]----"] ∧
      textCell? 2 (Image.slanted.text "[]" "--") 2 0 = some "[]" ∧
      ofRows 3 2 (readRows "[]" (Image.slanted.text "[]" "--")) = Image.slanted ∧
      (Image.ofBitmap Image.slanted 1 Image.redOnBlue).pixel? 2 0 = some Image.redOnBlue.on := by
  obtain ⟨hlines, -, hcell, -, hread, himage⟩ :=
    Image.slanted.text_lossless "[]" "--" (by decide) (by decide) (by decide) (by decide)
      (by decide) (by decide)
  obtain ⟨-, hlit⟩ := himage Image.redOnBlue (by decide)
  have hsecond := (hcell 2 0).2 rfl
  exact ⟨hlines.trans (by decide +kernel), hsecond, hread, (hlit 2 0).1 hsecond⟩

end Bitmap

end ChipEight
