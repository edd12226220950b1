import ChipEight.Bitmap
import Mathlib.Data.List.OfFn

/-!
Text in lines. What is printed is cut at its line breaks. The text of a bitmap has one
line for each of its rows, and the line has one cell for each pixel of the row. If the
cells are single characters, the line has a character for each pixel.
-/

namespace ChipEight

/-- The lines of a text that is printed with a line break behind it. -/
def printedLines (text : String) : List String := (text.toList.splitOn '\n').map String.ofList

namespace Bitmap

variable {width height : Nat} (b : Bitmap width height)

def rowLine (on off : String) (y : Fin height) : String :=
  String.join ((b.row y).map fun p => if p then on else off)

section Cells

variable {on off : String}

theorem not_mem_rowLine {c : Char} (hon : c ∉ on.toList) (hoff : c ∉ off.toList)
    (y : Fin height) : c ∉ (b.rowLine on off y).toList := by
  rw [rowLine, String.toList_join, List.flatMap_map]
  intro hmem
  obtain ⟨p, -, hp⟩ := List.mem_flatMap.1 hmem
  cases p with
  | true => exact hon hp
  | false => exact hoff hp

/-- The text of a bitmap with rows has a line for each of them. -/
theorem printedLines_text (hon : '\n' ∉ on.toList) (hoff : '\n' ∉ off.toList)
    (hheight : 0 < height) : printedLines (b.text on off) = List.ofFn (b.rowLine on off) := by
  have hrows : (b.rows.map fun row => String.join (row.map fun p => if p then on else off)) =
      List.ofFn (b.rowLine on off) := List.map_ofFn ..
  have hbreak : ∀ l ∈ (List.ofFn (b.rowLine on off)).map String.toList, '\n' ∉ l := by
    rw [List.map_ofFn]
    intro l hl
    obtain ⟨y, rfl⟩ := List.mem_ofFn.1 hl
    exact b.not_mem_rowLine hon hoff y
  have hsome : (List.ofFn (b.rowLine on off)).map String.toList ≠ [] := by
    rw [Ne, List.map_eq_nil_iff, List.ofFn_eq_nil_iff]
    omega
  have hseparator : "\n".toList = ['\n'] := rfl
  rw [printedLines, text, hrows, String.toList_intercalate, hseparator,
    List.splitOn_intercalate '\n' hbreak hsome, List.map_map, String.ofList_comp_toList,
    List.map_id]

end Cells

def rowText (on off : Char) (y : Fin height) : String :=
  String.ofList ((b.row y).map fun p => if p then on else off)

theorem rowLine_singleton (on off : Char) (y : Fin height) :
    b.rowLine (String.singleton on) (String.singleton off) y = b.rowText on off y := by
  have hcell (p : Bool) : (if p then String.singleton on else String.singleton off).toList =
      [if p then on else off] := by
    cases p
    · exact String.toList_singleton off
    · exact String.toList_singleton on
  rw [← String.toList_inj, rowLine, String.toList_join, rowText, String.toList_ofList,
    List.flatMap_map]
  simp only [hcell]
  exact List.map_eq_flatMap.symm

end Bitmap

end ChipEight
