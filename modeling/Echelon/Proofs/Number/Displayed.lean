import Echelon.Proofs.Number.Written

/-!
# Shown digits

The positional form of a decimal is what an operation writes after the minus of a number: digits,
and optionally a point and more digits. `Spells` keeps the value of a text beside its form.
-/

namespace Echelon

-- Powers of naturals are those of core.
attribute [local instance (high)] instPowNat

namespace WrittenNumber

/-- The text is the digits of a number, so many of them after its point. -/
def Spells (text : List Char) (digits places : Nat) : Prop :=
  ∀ negative, ∃ w : WrittenNumber, w.negative = negative ∧ w.whole ++ w.decimals = text ∧
    w.digits = digits ∧ w.fraction.length = places

/-- After an optional minus such a text is a written number. -/
theorem Spells.exists_chars {text : List Char} {digits places : Nat} (h : Spells text digits places)
    (negative : Bool) :
    ∃ w : WrittenNumber, (if negative then ['-'] else []) ++ text = w.chars ∧
      w.value = .rounded negative (digits * quantaPerUnit) (10 ^ places) := by
  obtain ⟨w, hsign, hw, hdigits, hplaces⟩ := h negative
  refine ⟨w, ?_, ?_⟩
  · rw [chars, List.append_assoc, hw, sign, hsign]
  · rw [value, hsign, hdigits, hplaces]

theorem spells_of_digits {whole : List Char} (hne : whole ≠ [])
    (hw : ∀ c ∈ whole, c.isDigit = true) : Spells whole (Nat.ofDigitChars 10 whole 0) 0 := by
  intro negative
  exact ⟨⟨negative, whole, [], hne, hw, by simp⟩, rfl, by simp [decimals], by simp [digits], rfl⟩

theorem spells_of_point {whole fraction : List Char} (hne : whole ≠ [])
    (hw : ∀ c ∈ whole, c.isDigit = true) (hfne : fraction ≠ [])
    (hf : ∀ c ∈ fraction, c.isDigit = true) :
    Spells (whole ++ '.' :: fraction) (Nat.ofDigitChars 10 (whole ++ fraction) 0)
      fraction.length := by
  intro negative
  exact ⟨⟨negative, whole, fraction, hne, hw, hf⟩, rfl, by simp [decimals, hfne], rfl, rfl⟩

end WrittenNumber

/-! ## Digits and zeros -/

open WrittenNumber

theorem isDigit_of_mem_toDigits {n : Nat} : ∀ c ∈ Nat.toDigits 10 n, c.isDigit = true :=
  fun _ hc => Nat.isDigit_of_mem_toDigits (by decide) (by decide) hc

theorem isDigit_of_mem_repr {n : Nat} {c : Char} (h : c ∈ n.repr.toList) : c.isDigit = true := by
  rw [Nat.repr_eq_ofList_toDigits, String.toList_ofList] at h
  exact isDigit_of_mem_toDigits c h

theorem not_mem_repr {c : Char} (h : c.isDigit = false) (n : Nat) : c ∉ n.repr.toList := by
  intro hc
  rw [isDigit_of_mem_repr hc] at h
  cases h

theorem isDigit_of_mem_zeros {n : Nat} : ∀ c ∈ List.replicate n '0', c.isDigit = true := by
  intro c hc
  rw [List.eq_of_mem_replicate hc]
  rfl

theorem spells_toDigits (n : Nat) : Spells (Nat.toDigits 10 n) n 0 := by
  have h := spells_of_digits (Nat.toDigits_ne_nil (n := n)) isDigit_of_mem_toDigits
  rwa [Nat.ofDigitChars_ten_toDigits] at h

theorem spells_zeros (n zeros : Nat) :
    Spells (Nat.toDigits 10 n ++ List.replicate zeros '0') (n * 10 ^ zeros) 0 := by
  have h := spells_of_digits
    (List.append_ne_nil_of_left_ne_nil Nat.toDigits_ne_nil (List.replicate zeros '0'))
    (List.forall_mem_append.mpr ⟨isDigit_of_mem_toDigits (n := n), isDigit_of_mem_zeros⟩)
  rwa [Nat.ofDigitChars_append, Nat.ofDigitChars_ten_toDigits, Nat.ofDigitChars_replicate_zero,
    Nat.mul_comm] at h

/-- The digits with a point among them. -/
theorem spells_cut {n places : Nat} (hne : places ≠ 0)
    (hlt : places < (Nat.toDigits 10 n).length) :
    Spells ((Nat.toDigits 10 n).take ((Nat.toDigits 10 n).length - places) ++
      '.' :: (Nat.toDigits 10 n).drop ((Nat.toDigits 10 n).length - places)) n places := by
  have hdigits : Nat.toDigits 10 n ≠ [] := Nat.toDigits_ne_nil
  have hwhole : (Nat.toDigits 10 n).take ((Nat.toDigits 10 n).length - places) ≠ [] := by
    simp only [ne_eq, List.take_eq_nil_iff, hdigits, or_false]
    omega
  have hfraction : (Nat.toDigits 10 n).drop ((Nat.toDigits 10 n).length - places) ≠ [] := by
    rw [ne_eq, List.drop_eq_nil_iff]
    omega
  have h := spells_of_point hwhole
    (fun c hc => isDigit_of_mem_toDigits c (List.mem_of_mem_take hc)) hfraction
    (fun c hc => isDigit_of_mem_toDigits c (List.mem_of_mem_drop hc))
  have hlength : (Nat.toDigits 10 n).length - ((Nat.toDigits 10 n).length - places) = places := by
    omega
  rwa [List.take_append_drop, Nat.ofDigitChars_ten_toDigits, List.length_drop, hlength] at h

/-- The digits with zeros between them and the point before them. -/
theorem spells_padded {n places : Nat} (hle : (Nat.toDigits 10 n).length ≤ places) :
    Spells ('0' :: '.' :: (List.replicate (places - (Nat.toDigits 10 n).length) '0' ++
      Nat.toDigits 10 n)) n places := by
  have h := spells_of_point (List.cons_ne_nil '0' []) (by simp)
    (List.append_ne_nil_of_right_ne_nil
      (List.replicate (places - (Nat.toDigits 10 n).length) '0') (Nat.toDigits_ne_nil (n := n)))
    (List.forall_mem_append.mpr ⟨isDigit_of_mem_zeros, isDigit_of_mem_toDigits⟩)
  have hdigits : Nat.ofDigitChars 10
      (['0'] ++ (List.replicate (places - (Nat.toDigits 10 n).length) '0' ++ Nat.toDigits 10 n)) 0 =
        n := by
    rw [Nat.ofDigitChars_append, Nat.ofDigitChars_append, Nat.ofDigitChars_replicate_zero]
    exact Nat.ofDigitChars_ten_toDigits
  have hlength : (List.replicate (places - (Nat.toDigits 10 n).length) '0' ++
      Nat.toDigits 10 n).length = places := by
    rw [List.length_append, List.length_replicate]
    omega
  rwa [hdigits, hlength] at h

/-- The positional form has all digits of the decimal, with zeros where there are none. -/
theorem Decimal.spells_positional (d : Decimal) :
    Spells d.positional (d.digits * 10 ^ d.exponent.toNat) (-d.exponent).toNat := by
  simp only [positional]
  split
  · rename_i hplaces
    rw [hplaces]
    exact spells_zeros _ _
  · rename_i hplaces
    have hup : d.exponent.toNat = 0 := by omega
    rw [hup, Nat.pow_zero, Nat.mul_one]
    split
    · rename_i hlt
      exact spells_cut hplaces hlt
    · rename_i hle
      exact spells_padded (Nat.le_of_not_lt hle)

end Echelon
