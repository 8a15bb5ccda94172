import Echelon.Proofs.Matrix.Effect

/-!
# When an operation is refused

An operation can have several faults at once: `Objects` lists them all, each by what is wrong with
the rows and numbers of the matrix and not by how that is found out. The one it is refused with is
the first in the order of `Fault.rank`, and an operation without any is accepted.
-/

namespace Echelon

/-- How early the fault of an operation counts. -/
def Fault.rank : Fault → Nat
  | rowOutOfRange _ _ => 0
  | divisionByZero _ => 1
  | fractionOperand _ _ _ => 2
  | _ => 3

theorem Fault.rank_le (fault : Fault) : fault.rank ≤ 3 := by
  unfold Fault.rank
  split <;> omega

/-- The operation is a division by a zero of either sign. -/
def Operation.DividesByZero (op : Operation) : Prop :=
  ∃ row divisor, op = .divide row divisor ∧ divisor.isZero = true

namespace Matrix

open Result

/-- The number is calculated for one column. A quotient is, even where a fraction is kept. -/
def Calculates (m : Matrix) (x : Binary64) : Operation → Prop
  | .swap _ _ => False
  | .scale row factor => ∃ column y, m.at? row column = some (.number y) ∧ y * factor = x
  | .divide row divisor => ∃ column y, m.at? row column = some (.number y) ∧ y / divisor = x
  | .combine _ left joiner factor right => ∃ column y z, m.at? left column = some (.number y) ∧
      m.at? right column = some (.number z) ∧ joiner.join y (factor * z) = x

/-- There is a fraction in the row. -/
def HasFraction (m : Matrix) (row : RowName) : Prop := ∃ cell ∈ m.cells row, cell.isFraction = true

instance (m : Matrix) (row : RowName) : Decidable (m.HasFraction row) :=
  inferInstanceAs (Decidable (∃ cell ∈ m.cells row, cell.isFraction = true))

/-- The fraction is the leftmost one of the row. -/
structure Leftmost (m : Matrix) (row : RowName) (column : Nat) (n d : Binary64) : Prop where
  at?_eq : m.at? row column = some (.fraction n d)
  number_of_lt : ∀ c < column, ∃ x, m.at? row c = some (.number x)

/-- Something is wrong with the operation. Neither its target nor a row that is only moved has to
hold numbers. -/
def Faulty (m : Matrix) (op : Operation) : Prop :=
  (∃ row ∈ op.rows, ¬ m.Has row) ∨ op.DividesByZero ∨
    (∃ row ∈ op.operands, m.HasFraction row) ∨ ∃ x, m.Calculates x op ∧ x.isFinite = false

/-- The fault is one that an operation has on a matrix. -/
inductive Objects (m : Matrix) (op : Operation) : Fault → Prop where
  | rowOutOfRange {row : RowName} : op.rows.find? (¬ m.Has ·) = some row →
      Objects m op (.rowOutOfRange row.number m.height)
  | divisionByZero : op.DividesByZero → Objects m op (.divisionByZero op.text)
  | fractionOperand {row : RowName} {column : Nat} {n d : Binary64} :
      op.operands.find? (m.HasFraction ·) = some row → m.Leftmost row column n d →
      Objects m op (.fractionOperand row.number (column + 1) (Cell.fraction n d).text)
  | overflow {x : Binary64} : m.Calculates x op → x.isFinite = false →
      Objects m op (.overflow op.text)

/-- The fault counts before all others that the operation has. -/
structure First (m : Matrix) (op : Operation) (fault : Fault) : Prop where
  objects : m.Objects op fault
  rank_le : ∀ other, m.Objects op other → fault.rank ≤ other.rank

variable {m n : Matrix} {op : Operation} {fault other : Fault} {row : RowName}
  {xs ys : List Binary64} {x : Binary64}

/-! ## The checks -/

theorem checkRows_eq_error {rows : List RowName} :
    (rows.forM fun row => do discard (row.index m.height)) = .error fault ↔
      ∃ row, rows.find? (¬ m.Has ·) = some row ∧ fault = .rowOutOfRange row.number m.height := by
  simp only [forM_eq_error, discard_eq_ok, discard_eq_error, index_eq_ok, index_eq_error,
    List.find?_eq_some_iff_append, decide_eq_true_eq, Bool.not_eq_true', decide_eq_false_iff_not,
    not_not]
  constructor
  · rintro ⟨before, row, after, hrows, hbefore, hrow, hfault⟩
    refine ⟨row, ⟨hrow, before, after, hrows, fun other hother => ?_⟩, hfault⟩
    obtain ⟨_, hhas, _⟩ := hbefore other hother
    exact hhas
  · rintro ⟨row, ⟨hrow, before, after, hrows, hbefore⟩, hfault⟩
    exact ⟨before, row, after, hrows, fun other hother => ⟨_, hbefore other hother, rfl⟩,
      hrow, hfault⟩

theorem operand_eq_error {place : Cell × Nat} :
    operand row place = .error fault ↔ ∃ n d, place.1 = .fraction n d ∧
      fault = .fractionOperand row.number place.2 (Cell.fraction n d).text := by
  obtain ⟨cell, column⟩ := place
  cases cell with
  | number value => simp [operand]
  | fraction n d => simp [operand, eq_comm]

/-- Reading a row stops at its leftmost fraction. -/
theorem exists_leftmost (hrow : m.Has row) (h : m.numbers row = .error fault) :
    ∃ column n d, m.Leftmost row column n d ∧
      fault = .fractionOperand row.number (column + 1) (Cell.fraction n d).text := by
  rw [numbers_eq, index_eq_ok.mpr ⟨hrow, rfl⟩, ok_bind] at h
  obtain ⟨before, place, after, hplaces, hbefore, hplace⟩ := exists_of_mapM_error h
  obtain ⟨n, d, hcell, hfault⟩ := operand_eq_error.mp hplace
  have hat (c : Nat) : (before ++ place :: after)[c]? = (m.at? row c).map (·, 1 + c) := by
    rw [← hplaces, at?_eq, List.getElem?_zipIdx]
    rfl
  have hcolumn := hat before.length
  rw [List.getElem?_append_right (Nat.le_refl _), Nat.sub_self, List.getElem?_cons_zero] at hcolumn
  obtain ⟨cell, hfraction, rfl⟩ := Option.map_eq_some_iff.mp hcolumn.symm
  refine ⟨before.length, n, d, ⟨by rw [hfraction, ← hcell], fun c hc => ?_⟩, ?_⟩
  · have hearlier := hat c
    rw [List.getElem?_append_left hc, List.getElem?_eq_getElem hc] at hearlier
    obtain ⟨cell, hcell, hearlier⟩ := Option.map_eq_some_iff.mp hearlier.symm
    obtain ⟨x, hx⟩ := hbefore _ (List.getElem_mem hc)
    rw [← hearlier, operand_eq_ok] at hx
    exact ⟨x, by rw [hcell, ← hx]⟩
  · rw [hfault, Nat.add_comm]

/-! ## What is calculated -/

theorem Holds.at?_eq (h : m.Holds row xs) (column : Nat) :
    m.at? row column = xs[column]?.map .number := by
  rw [Matrix.at?_eq, h.2, List.getElem?_map]

theorem Holds.at?_eq_number {column : Nat} (h : m.Holds row xs) :
    m.at? row column = some (.number x) ↔ xs[column]? = some x := by
  simp [h.at?_eq]

theorem Holds.not_hasFraction (h : m.Holds row xs) : ¬ m.HasFraction row := by
  rintro ⟨cell, hcell, hfraction⟩
  rw [h.isFraction_eq_false cell hcell] at hfraction
  cases hfraction

theorem Leftmost.hasFraction {column : Nat} {n d : Binary64} (h : m.Leftmost row column n d) :
    m.HasFraction row := by
  have hat := h.at?_eq
  rw [Matrix.at?_eq] at hat
  exact ⟨_, List.mem_of_getElem? hat, rfl⟩

theorem Holds.mem_map_iff {f : Binary64 → Binary64} (h : m.Holds row xs) :
    x ∈ xs.map f ↔ ∃ column y, m.at? row column = some (.number y) ∧ f y = x := by
  simp only [List.mem_iff_getElem?, List.getElem?_map, Option.map_eq_some_iff, h.at?_eq_number]

theorem Holds.mem_combined_iff {left right : RowName} {joiner : Joiner} {factor : Binary64}
    (hxs : m.Holds left xs) (hys : m.Holds right ys) :
    x ∈ combined joiner factor xs ys ↔ ∃ column y z, m.at? left column = some (.number y) ∧
      m.at? right column = some (.number z) ∧ joiner.join y (factor * z) = x := by
  simp only [List.mem_iff_getElem?, combined, List.getElem?_zipWith_eq_some, hxs.at?_eq_number,
    hys.at?_eq_number]

theorem guardFinite_eq_error :
    guardFinite op xs = .error fault ↔
      (∃ x ∈ xs, x.isFinite = false) ∧ fault = .overflow op.text := by
  unfold guardFinite
  split
  · rename_i h
    simp only [List.all_eq_true] at h
    constructor
    · intro he
      cases he
    · rintro ⟨⟨x, hx, hinfinite⟩, _⟩
      rw [h x hx] at hinfinite
      cases hinfinite
  · rename_i h
    simp only [List.all_eq_true, not_forall, Bool.not_eq_true] at h
    obtain ⟨x, hx, hinfinite⟩ := h
    constructor
    · intro he
      cases he
      exact ⟨⟨x, hx, hinfinite⟩, rfl⟩
    · rintro ⟨_, rfl⟩
      rfl

/-! ## The order of the faults -/

theorem Objects.cause (h : m.Objects op fault) :
    (fault.rank = 0 ∧ ∃ row ∈ op.rows, ¬ m.Has row) ∨ (fault.rank = 1 ∧ op.DividesByZero) ∨
      (fault.rank = 2 ∧ ∃ row ∈ op.operands, m.HasFraction row) ∨
      (fault.rank = 3 ∧ ∃ x, m.Calculates x op ∧ x.isFinite = false) := by
  cases h with
  | rowOutOfRange hfind =>
    exact Or.inl ⟨rfl, _, List.mem_of_find?_eq_some hfind, by simpa using List.find?_some hfind⟩
  | divisionByZero hz => exact Or.inr (Or.inl ⟨rfl, hz⟩)
  | fractionOperand hfind hleftmost =>
    exact Or.inr (Or.inr (Or.inl ⟨rfl, _, List.mem_of_find?_eq_some hfind, hleftmost.hasFraction⟩))
  | overflow hx hinfinite => exact Or.inr (Or.inr (Or.inr ⟨rfl, _, hx, hinfinite⟩))

/-- A fault counts first when nothing is wrong that counts before it. -/
theorem Objects.first (h : m.Objects op fault)
    (hrows : 0 < fault.rank → ∀ row ∈ op.rows, m.Has row)
    (hz : 1 < fault.rank → ¬ op.DividesByZero)
    (hoperands : 2 < fault.rank → ∀ row ∈ op.operands, ¬ m.HasFraction row) : m.First op fault := by
  refine ⟨h, fun other hother => Nat.le_of_not_lt fun hlt => ?_⟩
  have hle := fault.rank_le
  rcases hother.cause with ⟨_, row, hrow, hno⟩ | ⟨_, hzero⟩ | ⟨_, row, hrow, hfraction⟩ | ⟨_, _⟩
  · exact hno (hrows (by omega) row hrow)
  · exact hz (by omega) hzero
  · exact hoperands (by omega) row hrow hfraction
  · omega

theorem first_of_rows
    (h : (op.rows.forM fun row => do discard (row.index m.height)) = .error fault) :
    m.First op fault := by
  obtain ⟨row, hfind, rfl⟩ := checkRows_eq_error.mp h
  exact ⟨.rowOutOfRange hfind, fun other _ => Nat.zero_le _⟩

section

variable (hrows : ∀ row ∈ op.rows, m.Has row)

include hrows

theorem first_of_divisor (hz : op.DividesByZero) : m.First op (.divisionByZero op.text) :=
  (Objects.divisionByZero hz).first (fun _ => hrows) (by simp [Fault.rank]) (by simp [Fault.rank])

variable (hz : ¬ op.DividesByZero)

include hz

theorem first_of_operand (before : List RowName) {after : List RowName}
    (hoperands : op.operands = before ++ row :: after)
    (hbefore : ∀ other ∈ before, ¬ m.HasFraction other) (h : m.numbers row = .error fault) :
    m.First op fault := by
  have hrow := hrows row (Operation.mem_rows_of_mem_operands (by simp [hoperands]))
  obtain ⟨column, n, d, hleftmost, rfl⟩ := exists_leftmost hrow h
  have hfind : op.operands.find? (m.HasFraction ·) = some row := by
    rw [List.find?_eq_some_iff_append]
    exact ⟨by simpa using hleftmost.hasFraction, before, after, hoperands, by simpa using hbefore⟩
  exact (Objects.fractionOperand hfind hleftmost).first (fun _ => hrows) (fun _ => hz)
    (by simp [Fault.rank])

theorem first_of_guard (hoperands : ∀ row ∈ op.operands, ¬ m.HasFraction row)
    (hcalculated : ∀ x ∈ xs, m.Calculates x op) (h : guardFinite op xs = .error fault) :
    m.First op fault := by
  obtain ⟨⟨x, hx, hinfinite⟩, rfl⟩ := guardFinite_eq_error.mp h
  exact (Objects.overflow (hcalculated x hx) hinfinite).first (fun _ => hrows) (fun _ => hz)
    fun _ => hoperands

/-- A row is read, and what is calculated from it is checked. -/
theorem first_of_row {f : Binary64 → Binary64} {g : List Binary64 → Matrix}
    (hoperands : op.operands = [row])
    (hcalculated : ∀ xs, m.Holds row xs → ∀ x ∈ xs.map f, m.Calculates x op)
    (h : (do
      let xs ← m.numbers row
      guardFinite op (xs.map f)
      return g xs) = .error fault) : m.First op fault := by
  rcases bind_eq_error.mp h with hnumbers | ⟨xs, hxs, h⟩
  · exact first_of_operand hrows hz [] hoperands (by simp) hnumbers
  rw [numbers_eq_ok] at hxs
  rcases bind_eq_error.mp h with hguard | ⟨_, _, hdone⟩
  · refine first_of_guard hrows hz ?_ (hcalculated xs hxs) hguard
    simpa [hoperands] using hxs.not_hasFraction
  · cases hdone

end

/-- An operation is refused with a fault that counts first. -/
theorem first_of_apply (h : m.apply op = .error fault) : m.First op fault := by
  rcases bind_eq_error.mp h with hrows | ⟨_, hrows, h⟩
  · exact first_of_rows hrows
  rw [checkRows_eq_ok] at hrows
  cases op with
  | swap first second => cases h
  | scale row factor =>
    have hz : ¬ (Operation.scale row factor).DividesByZero := by
      rintro ⟨_, _, hdivide, _⟩
      cases hdivide
    exact first_of_row hrows hz rfl (fun xs hxs x hx => hxs.mem_map_iff.mp hx) h
  | divide row divisor =>
    cases hzero : divisor.isZero with
    | true =>
      simp only [hzero, if_true] at h
      cases h
      exact first_of_divisor hrows ⟨row, divisor, rfl, hzero⟩
    | false =>
      simp only [hzero, Bool.false_eq_true, if_false] at h
      have hz : ¬ (Operation.divide row divisor).DividesByZero := by
        rintro ⟨_, _, hdivide, htrue⟩
        cases hdivide
        rw [hzero] at htrue
        cases htrue
      exact first_of_row hrows hz rfl (fun xs hxs x hx => hxs.mem_map_iff.mp hx) h
  | combine target left joiner factor right =>
    have hz : ¬ (Operation.combine target left joiner factor right).DividesByZero := by
      rintro ⟨_, _, hdivide, _⟩
      cases hdivide
    rcases bind_eq_error.mp h with hleft | ⟨xs, hxs, h⟩
    · exact first_of_operand hrows hz [] rfl (by simp) hleft
    rw [numbers_eq_ok] at hxs
    rcases bind_eq_error.mp h with hright | ⟨ys, hys, h⟩
    · exact first_of_operand hrows hz [left] rfl (by simpa using hxs.not_hasFraction)
        hright
    rw [numbers_eq_ok] at hys
    rcases bind_eq_error.mp h with hguard | ⟨_, _, hdone⟩
    · refine first_of_guard hrows hz ?_ (fun x hx => (hxs.mem_combined_iff hys).mp hx) hguard
      simpa [Operation.operands] using ⟨hxs.not_hasFraction, hys.not_hasFraction⟩
    · cases hdone

/-- Where a later fault counts first, all rows exist. -/
theorem First.has (h : m.First op fault) (hrank : 0 < fault.rank) : ∀ row ∈ op.rows, m.Has row := by
  by_contra hno
  have hsome : (op.rows.find? (¬ m.Has ·)).isSome = true := by
    simpa [List.find?_isSome] using hno
  obtain ⟨row, hfind⟩ := Option.isSome_iff_exists.mp hsome
  have hle : fault.rank ≤ 0 := h.rank_le _ (.rowOutOfRange hfind)
  omega

theorem Applies.isFinite (h : Applies m op n) (hx : m.Calculates x op) : x.isFinite = true := by
  cases h with
  | swap _ _ => cases hx
  | scale hxs hfinite => exact hfinite x (hxs.mem_map_iff.mpr hx)
  | divide _ hxs hfinite => exact hfinite x (hxs.mem_map_iff.mpr hx)
  | combine _ hxs hys hfinite => exact hfinite x ((hxs.mem_combined_iff hys).mpr hx)

/-- Nothing is wrong with an operation that leads on. -/
theorem Applies.not_faulty (h : Applies m op n) : ¬ m.Faulty op := by
  rintro (⟨row, hrow, hno⟩ | ⟨row, divisor, rfl, hzero⟩ | ⟨row, hrow, hfraction⟩ |
    ⟨x, hx, hinfinite⟩)
  · exact hno (h.has row hrow)
  · cases h with
    | divide hnonzero _ _ =>
      rw [hnonzero] at hzero
      cases hzero
  · obtain ⟨xs, hxs⟩ := h.operands_hold row hrow
    exact hxs.not_hasFraction hfraction
  · rw [h.isFinite hx] at hinfinite
    cases hinfinite

theorem Leftmost.unique {c k : Nat} {n d a b : Binary64} (h : m.Leftmost row c n d)
    (h' : m.Leftmost row k a b) : c = k ∧ n = a ∧ d = b := by
  have hnot {i j : Nat} {p q r s : Binary64} (hi : m.Leftmost row i p q)
      (hj : m.Leftmost row j r s) : ¬ i < j := by
    intro hlt
    obtain ⟨x, hx⟩ := hj.number_of_lt i hlt
    rw [hi.at?_eq] at hx
    cases hx
  obtain rfl : c = k :=
    Nat.le_antisymm (Nat.le_of_not_lt (hnot h' h)) (Nat.le_of_not_lt (hnot h h'))
  have hcell := h.at?_eq.symm.trans h'.at?_eq
  cases hcell
  exact ⟨rfl, rfl, rfl⟩

/-- Faults that count as early are of one kind. -/
theorem Objects.kind_eq {k : Matrix} {op' : Operation} (h : m.Objects op fault)
    (h' : k.Objects op' other) (hrank : fault.rank = other.rank) : fault.kind = other.kind := by
  cases h with
  | rowOutOfRange _ =>
    cases h' with
    | rowOutOfRange _ => rfl
    | _ => cases hrank
  | divisionByZero _ =>
    cases h' with
    | divisionByZero _ => rfl
    | _ => cases hrank
  | fractionOperand _ _ =>
    cases h' with
    | fractionOperand _ _ => rfl
    | _ => cases hrank
  | overflow _ _ =>
    cases h' with
    | overflow _ _ => rfl
    | _ => cases hrank

/-- Only one fault counts first. -/
theorem First.unique (h : m.First op fault) (h' : m.First op other) : fault = other := by
  have hrank := Nat.le_antisymm (h.rank_le other h'.objects) (h'.rank_le fault h.objects)
  cases h.objects with
  | rowOutOfRange hfind =>
    cases h'.objects with
    | rowOutOfRange hfind' =>
      rw [hfind] at hfind'
      cases hfind'
      rfl
    | _ => cases hrank
  | divisionByZero _ =>
    cases h'.objects with
    | divisionByZero _ => rfl
    | _ => cases hrank
  | fractionOperand hfind hleftmost =>
    cases h'.objects with
    | fractionOperand hfind' hleftmost' =>
      rw [hfind] at hfind'
      cases hfind'
      obtain ⟨rfl, rfl, rfl⟩ := hleftmost.unique hleftmost'
      rfl
    | _ => cases hrank
  | overflow _ _ =>
    cases h'.objects with
    | overflow _ _ => rfl
    | _ => cases hrank

theorem Objects.faulty (h : m.Objects op fault) : m.Faulty op :=
  h.cause.imp And.right (Or.imp And.right (Or.imp And.right And.right))

theorem apply_eq_error : m.apply op = .error fault ↔ m.First op fault := by
  refine ⟨first_of_apply, fun h => ?_⟩
  cases happly : m.apply op with
  | ok n => exact absurd h.objects.faulty (apply_eq_ok.mp happly).not_faulty
  | error other => rw [h.unique (first_of_apply happly)]

theorem exists_apply_eq_error : (∃ fault, m.apply op = .error fault) ↔ m.Faulty op := by
  constructor
  · rintro ⟨fault, h⟩
    exact (first_of_apply h).objects.faulty
  · intro h
    cases happly : m.apply op with
    | ok n => exact absurd h (apply_eq_ok.mp happly).not_faulty
    | error fault => exact ⟨fault, rfl⟩

/-- **When and how an operation is refused.** It is refused exactly when it names a row that does
not exist, divides by zero, reads a fraction or calculates a number that is not finite. The fault is
that of the first of these that holds: the first row in written order that does not exist, the
division, the leftmost fraction of the first row read that has one, the overflow. -/
theorem refused_with_first_fault (m : Matrix) (op : Operation) :
    ((∃ fault, m.apply op = .error fault) ↔ m.Faulty op) ∧
    ∀ fault, m.apply op = .error fault ↔ m.First op fault :=
  ⟨exists_apply_eq_error, fun _ => apply_eq_error⟩

/-- A divisor of zero counts before the fraction in the row that it divides. -/
example : (Matrix.mk [[.fraction .one (.ofNat 3)]] 1).apply (.divide ⟨1⟩ (.zero true)) =
    .error (.divisionByZero "R1 = R1 / 0") := by decide +kernel

/-- A quotient may be too large although a fraction would be kept in its place. -/
example : ((Matrix.mk [[.number (.ofNat 7)]] 1).apply
    (.divide ⟨1⟩ (.rounded false 3 1))).mapError Fault.kind = .error .overflow := by decide +kernel

end Matrix

end Echelon
