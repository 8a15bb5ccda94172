/-!
# Column widths

The columns of a table stand next to each other with one space between. Each wishes for a width.
Where the room is too small for all of them, it is shared out: the columns that wish for more than
some width are cut down to it, and the others get what they wish for. A share need not be whole, so
the borders of the columns are rounded.
-/

namespace Echelon.Columns

/-- A width that need not be whole. -/
structure Share where
  numerator : Nat
  denominator : Nat
  deriving DecidableEq, Repr

/-- The width that columns are cut down to, given the room for them and their wishes in ascending
order; none if they all fit. -/
def cut? (room : Nat) : List Nat → Option Share
  | [] => none
  | wish :: wishes =>
    if wish * (wishes.length + 1) ≤ room then cut? (room - wish) wishes
    else some ⟨room, wishes.length + 1⟩

/-- A number of parts, of which `denominator` make a place, to the nearest hundredth of a place and
then to the nearest place. Halves go up. -/
def wholePlaces (denominator parts : Nat) : Nat :=
  let hundredths := (200 * parts + denominator) / (2 * denominator)
  (hundredths + 50) / 100

/-- The widths of columns in whole places, given their widths in parts of a place and the start of
the first one. -/
def rounded (denominator start : Nat) : List Nat → List Nat
  | [] => []
  | width :: widths =>
    let finish := start + width
    (wholePlaces denominator finish - wholePlaces denominator start) ::
      rounded denominator (finish + denominator) widths

/-- The widths of columns with the given wishes in some room. -/
def widths (room : Nat) (wishes : List Nat) : List Nat :=
  match cut? (room - (wishes.length - 1)) (wishes.mergeSort Nat.ble) with
  | none => wishes
  | some share =>
    rounded share.denominator 0
      (wishes.map fun wish => min (wish * share.denominator) share.numerator)

end Echelon.Columns
