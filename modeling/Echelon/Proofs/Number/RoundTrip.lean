import Echelon.Proofs.Number.Whole
import Echelon.Proofs.Number.Word
import Echelon.Proofs.Number.ZeroSign

/-!
# Numbers survive being written

What is written for a finite number has the form that operations use, and reads as the number again,
bit for bit; only a negative zero comes back as the positive one. It makes no difference whether a
small whole number is written by its own digits or searched for as any other number is, and no
decimal that reads as the number has fewer digits than the one written.
-/

namespace Echelon.Binary64

-- Powers of naturals are those of core.
attribute [local instance (high)] instPowNat

open Number

/-! ## Reading what is written -/

theorem parse?_text {x : Binary64} (h : x.isFinite = true) :
    Literal.parse? x.text.toList = some x.plain := by
  rw [text, String.toList_ofList, parse?_chars h]

/-- Among finite words only that of the negative zero changes when the sign of a zero is lost. -/
theorem toWord?_plain_ofWord {word : Nat} (hlt : word < 2 * signUnit)
    (h : (ofWord word).isFinite = true) :
    (ofWord word).plain.toWord? = some (if word = signUnit then 0 else word) := by
  have hself := toWord?_ofWord hlt h
  by_cases hword : word = signUnit
  · subst hword
    decide +kernel
  · rw [if_neg hword, ← hself]
    unfold plain
    split
    · rename_i hz
      obtain ⟨s, hs⟩ := exists_eq_zero hz
      cases s with
      | false => rw [hs]
      | true =>
        have hminus : (zero true).toWord? = some signUnit := by decide +kernel
        rw [hs, hminus] at hself
        exact absurd (Option.some.inj hself).symm hword
    · rfl

theorem plain_eq_iff {x y : Binary64} : x.plain = y.plain ↔ x.Alike y := by
  refine ⟨fun h => ?_, Alike.plain_eq⟩
  unfold plain at h
  split at h
  · rename_i hx
    split at h
    · rename_i hy
      exact Or.inr ⟨hx, hy⟩
    · exact Or.inr ⟨hx, by rw [← h]; rfl⟩
  · split at h
    · rename_i hy
      exact Or.inr ⟨by rw [h]; rfl, hy⟩
    · exact Or.inl h

/-- Finite numbers are written alike when they differ in the sign of a zero at most. -/
theorem text_eq_iff_alike {x y : Binary64} (hx : x.isFinite = true) (hy : y.isFinite = true) :
    x.text = y.text ↔ x.Alike y := by
  rw [text_eq_iff hx hy, sameValue_iff hx hy, plain_eq_iff]

/-! ## One decimal for both ways of writing -/

theorem toDigits_smallWhole {m : Magnitude} {units : Nat} (hm : m.quanta ≠ 0)
    (h : smallWhole? m.quanta = some units) :
    Nat.toDigits 10 units = (Decimal.shortest m.quanta).positional := by
  obtain ⟨hwhole, hlt⟩ := eq_of_smallWhole? h
  exact (Decimal.positional_shortest_whole hm hwhole hlt).symm

theorem magnitudeChars_eq {m : Magnitude} (hm : m.quanta ≠ 0) :
    magnitudeChars m.quanta = (Decimal.shortest m.quanta).positional := by
  unfold magnitudeChars
  split
  · rename_i units hunits
    exact toDigits_smallWhole hm hunits
  · rfl

/-- A number other than zero is written as a decimal that reads as it, with the fewest digits. -/
theorem exists_fewest_digits (negative : Bool) {m : Magnitude} (hm : m.quanta ≠ 0) :
    ∃ d : Decimal, (finite negative m).chars = (if negative then ['-'] else []) ++ d.positional ∧
      d.toBinary64 negative = finite negative m ∧
      ∀ other : Decimal, other.toBinary64 negative = finite negative m →
        (Nat.toDigits 10 d.digits).length ≤ (Nat.toDigits 10 other.digits).length := by
  refine ⟨Decimal.shortest m.quanta, ?_, ?_, fun other hother => ?_⟩
  · rw [chars_finite, if_neg hm, magnitudeChars_eq hm]
  · exact (Decimal.toBinary64_eq_finite_iff negative).mpr (Decimal.quanta_shortest m.short)
  · exact Decimal.length_shortest_le hm ((Decimal.toBinary64_eq_finite_iff negative).mp hother)

/-- **Numbers survive being written.** A finite number is written as operations write numbers, and
what is written reads as the number with the sign of a zero left out. The words of both are equal,
but that of the negative zero, so finite numbers that are written alike differ in the sign of a zero
at most. A small whole number has the digits that the search would find. -/
theorem numeral_reads_back :
    (∀ x : Binary64, x.isFinite = true →
      (∃ w : WrittenNumber, x.text.toList = w.chars) ∧
        Literal.parse? x.text.toList = some x.plain) ∧
    (∀ word, word < 2 ^ (64 : Nat) → (ofWord word).isFinite = true →
      (Literal.parse? (ofWord word).text.toList).bind toWord? =
        some (if word = signUnit then 0 else word)) ∧
    (∀ x y : Binary64, x.isFinite = true → y.isFinite = true →
      (x.text = y.text ↔ x.Alike y)) ∧
    (∀ (m : Magnitude) (units : Nat), m.quanta ≠ 0 → smallWhole? m.quanta = some units →
      Nat.toDigits 10 units = (Decimal.shortest m.quanta).positional) ∧
    ∀ (negative : Bool) (m : Magnitude), m.quanta ≠ 0 →
      ∃ d : Decimal, (finite negative m).chars = (if negative then ['-'] else []) ++ d.positional ∧
        d.toBinary64 negative = finite negative m ∧
        ∀ other : Decimal, other.toBinary64 negative = finite negative m →
          (Nat.toDigits 10 d.digits).length ≤ (Nat.toDigits 10 other.digits).length := by
  refine ⟨fun x hx => ⟨?_, parse?_text hx⟩, fun word hlt hfinite => ?_,
    fun x y => text_eq_iff_alike, fun m units => toDigits_smallWhole,
    fun negative m => exists_fewest_digits negative⟩
  · obtain ⟨w, hchars, _⟩ := exists_chars_value hx
    exact ⟨w, by rw [text, String.toList_ofList, hchars]⟩
  · have hlimit : word < 2 * signUnit := by
      unfold signUnit
      omega
    rw [parse?_text hfinite, Option.bind_some, toWord?_plain_ofWord hlimit hfinite]

/-- The least positive number, the negative zero, and a whole number with many zeros. -/
theorem numeral_reads_back_extremes :
    (Literal.parse? (ofWord 1).text.toList).bind toWord? = some 1 ∧
    (Literal.parse? (ofWord signUnit).text.toList).bind toWord? = some 0 ∧
    (zero true).text = (zero false).text ∧
    Nat.toDigits 10 (10 ^ (14 : Nat)) =
      (Decimal.shortest (10 ^ (14 : Nat) * quantaPerUnit)).positional ∧
    ∃ (m : Magnitude) (d : Decimal), m.quanta = 1 ∧ (finite true m).chars = '-' :: d.positional ∧
      d.toBinary64 true = finite true m := by
  obtain ⟨_, hwords, hinjective, hwhole, hfewest⟩ := numeral_reads_back
  have hone : (ofWord 1).isFinite = true := by decide +kernel
  have hminus : (ofWord signUnit).isFinite = true := by decide +kernel
  let least : Magnitude := ⟨1, by decide, by decide +kernel⟩
  let round : Magnitude := ⟨10 ^ (14 : Nat) * quantaPerUnit, by decide +kernel, by decide +kernel⟩
  obtain ⟨d, hchars, hreads, _⟩ := hfewest true (m := least) (by decide)
  refine ⟨?_, ?_, ?_, ?_, least, d, rfl, hchars, hreads⟩
  · rw [hwords 1 (by decide) hone]
    decide +kernel
  · rw [hwords signUnit (by decide +kernel) hminus]
    decide +kernel
  · exact (hinjective (zero true) (zero false) rfl rfl).mpr (alike_zeros true false)
  · exact hwhole round (10 ^ (14 : Nat)) (by decide +kernel) (by decide +kernel)

end Echelon.Binary64
