import Echelon.Fault
import Mathlib.Data.List.Induction
import Mathlib.Data.List.Infix

/-!
# Words of effects

Steps leave a word of effects: operations applied, operations undone, and refusals. Applying opens a
bracket and undoing closes one. In a word that applies more operations than it undoes, the last
operation that no later part takes back stands before a grounded rest, so the brackets that belong
together are found by counting.
-/

namespace Echelon.Document

/-- The effect of a step. -/
inductive Effect where
  | applied (text : String)
  | undone (text : String)
  | refused (fault : Fault)
  deriving DecidableEq

namespace Effect

@[simp] def isApplied : Effect → Bool
  | applied _ => true
  | _ => false

@[simp] def isUndone : Effect → Bool
  | undone _ => true
  | _ => false

end Effect

/-- How many operations a word applies. -/
def applies (effects : List Effect) : Nat := effects.countP Effect.isApplied

/-- How many operations a word undoes. -/
def undos (effects : List Effect) : Nat := effects.countP Effect.isUndone

/-- No beginning of the word undoes more operations than it applies. -/
def Grounded (effects : List Effect) : Prop :=
  ∀ first, first <+: effects → undos first ≤ applies first

/-- The word is grounded and undoes as many operations as it applies. -/
structure Balanced (effects : List Effect) : Prop where
  grounded : Grounded effects
  total : undos effects = applies effects

instance (effects : List Effect) : Decidable (Grounded effects) :=
  decidable_of_iff (∀ first ∈ effects.inits, undos first ≤ applies first)
    (by simp only [List.mem_inits, Grounded])

instance (effects : List Effect) : Decidable (Balanced effects) :=
  decidable_of_iff (Grounded effects ∧ undos effects = applies effects)
    ⟨fun h => ⟨h.1, h.2⟩, fun h => ⟨h.grounded, h.total⟩⟩

/-! ## Words of effects -/

@[simp] theorem applies_nil : applies [] = 0 := rfl

@[simp] theorem undos_nil : undos [] = 0 := rfl

@[simp] theorem applies_append (effects more : List Effect) :
    applies (effects ++ more) = applies effects + applies more := List.countP_append

@[simp] theorem undos_append (effects more : List Effect) :
    undos (effects ++ more) = undos effects + undos more := List.countP_append

@[simp] theorem applies_cons (effect : Effect) (effects : List Effect) :
    applies (effect :: effects) = applies effects + if effect.isApplied then 1 else 0 :=
  List.countP_cons

@[simp] theorem undos_cons (effect : Effect) (effects : List Effect) :
    undos (effect :: effects) = undos effects + if effect.isUndone then 1 else 0 :=
  List.countP_cons

theorem grounded_nil : Grounded [] := by
  intro first h
  rw [List.prefix_nil.mp h]
  exact Nat.le_refl 0

theorem Grounded.total_le {effects : List Effect} (h : Grounded effects) :
    undos effects ≤ applies effects := h effects List.prefix_rfl

theorem Grounded.left {effects more : List Effect} (h : Grounded (effects ++ more)) :
    Grounded effects :=
  fun first hf => h first (hf.trans (List.prefix_append effects more))

theorem Grounded.concat {effects : List Effect} {effect : Effect} (h : Grounded effects)
    (ht : undos (effects ++ [effect]) ≤ applies (effects ++ [effect])) :
    Grounded (effects ++ [effect]) := by
  intro first hf
  rcases List.prefix_concat_iff.mp hf with rfl | hp
  · exact ht
  · exact h first hp

/-- Some operation starts at each level below the last one and is not taken back any more. -/
theorem exists_applied_at (effects : List Effect) (level : Nat)
    (h : undos effects + level < applies effects) :
    ∃ earlier given between, effects = earlier ++ .applied given :: between ∧
      applies earlier = undos earlier + level ∧ Grounded between := by
  induction effects using List.reverseRecOn with
  | nil => exact absurd h (Nat.not_lt_zero _)
  | append_singleton effects effect ih =>
    by_cases hbefore : undos effects + level < applies effects
    · obtain ⟨earlier, given, between, rfl, hlevel, hgrounded⟩ := ih hbefore
      refine ⟨earlier, given, between ++ [effect], by simp, hlevel, hgrounded.concat ?_⟩
      simp at h ⊢
      omega
    · cases effect with
      | applied given =>
        refine ⟨effects, given, [], rfl, ?_, grounded_nil⟩
        simp at h
        omega
      | undone text =>
        simp at h
        omega
      | refused fault =>
        simp at h
        omega

/-- The rest of a word after an operation is balanced when it is grounded and no other operation
is left open by then. -/
theorem balanced_of_applied {earlier between : List Effect} (given : String) {level : Nat}
    (hearlier : applies earlier = undos earlier + level) (hbetween : Grounded between)
    (h : applies (earlier ++ .applied given :: between) =
      undos (earlier ++ .applied given :: between) + level + 1) : Balanced between := by
  refine ⟨hbetween, ?_⟩
  simp at h
  omega

/-- A balanced word ends in a refusal, or in an undo that takes back the operation between two
balanced parts. -/
theorem Balanced.concat_cases {effects : List Effect} {effect : Effect}
    (h : Balanced (effects ++ [effect])) :
    (∃ fault, effect = .refused fault ∧ Balanced effects) ∨
      ∃ text earlier given between, effect = .undone text ∧
        effects = earlier ++ .applied given :: between ∧ Balanced earlier ∧ Balanced between := by
  have hgrounded : Grounded effects := h.grounded.left
  have hle := hgrounded.total_le
  have htotal := h.total
  cases effect with
  | applied given =>
    simp at htotal
    omega
  | refused fault =>
    simp at htotal
    exact Or.inl ⟨fault, rfl, hgrounded, htotal⟩
  | undone text =>
    simp at htotal
    obtain ⟨earlier, given, between, rfl, hearlier, hbetween⟩ :=
      exists_applied_at effects 0 (by omega)
    refine Or.inr ⟨text, earlier, given, between, rfl, rfl, ⟨hgrounded.left, ?_⟩, ?_⟩
    · omega
    · exact balanced_of_applied given hearlier hbetween (by omega)

end Echelon.Document
