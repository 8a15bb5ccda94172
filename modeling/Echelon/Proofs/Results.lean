import Echelon.Fault
import Mathlib.Data.List.Forall2

/-!
# Results that may be faults

How a chain of results comes apart: a fault ends it, and it succeeds when every link does.
-/

namespace Echelon.Result

variable {α β ε : Type}

@[simp] theorem ok_bind (a : α) (f : α → Except ε β) : (Except.ok a >>= f) = f a := rfl

@[simp] theorem pure_eq_ok (a : α) : (pure a : Except ε α) = .ok a := rfl

@[simp] theorem error_bind (fault : ε) (f : α → Except ε β) :
    ((Except.error fault : Except ε α) >>= f) = .error fault := rfl

theorem bind_eq_ok {x : Except ε α} {f : α → Except ε β} {b : β} :
    (x >>= f) = .ok b ↔ ∃ a, x = .ok a ∧ f a = .ok b := by
  cases x with
  | ok a => simp
  | error fault => simp

theorem bind_eq_error {x : Except ε α} {f : α → Except ε β} {fault : ε} :
    (x >>= f) = .error fault ↔ x = .error fault ∨ ∃ a, x = .ok a ∧ f a = .error fault := by
  cases x with
  | ok a => simp
  | error other => simp

theorem map_eq_ok {x : Except ε α} {f : α → β} {b : β} :
    x.map f = .ok b ↔ ∃ a, x = .ok a ∧ f a = b := by
  cases x with
  | ok a => simp [Except.map]
  | error fault => simp [Except.map]

theorem discard_eq_ok {x : Except Fault α} : discard x = .ok () ↔ ∃ a, x = .ok a := by
  cases x with
  | ok a => exact ⟨fun _ => ⟨a, rfl⟩, fun _ => rfl⟩
  | error fault =>
    constructor
    · intro h
      cases h
    · rintro ⟨_, h⟩
      cases h

theorem discard_eq_error {x : Except Fault α} {fault : Fault} :
    discard x = .error fault ↔ x = .error fault := by
  cases x with
  | ok a => exact ⟨fun h => (nomatch h), fun h => (nomatch h)⟩
  | error other =>
    constructor
    · intro h
      cases h
      rfl
    · intro h
      cases h
      rfl

/-- A traversal succeeds when every step does. -/
theorem mapM_eq_ok {f : α → Except Fault β} {as : List α} {bs : List β} :
    as.mapM f = .ok bs ↔ List.Forall₂ (fun a b => f a = .ok b) as bs := by
  induction as generalizing bs with
  | nil =>
    rw [List.mapM_nil, List.forall₂_nil_left_iff]
    constructor
    · intro h
      cases h
      rfl
    · rintro rfl
      rfl
  | cons a as ih =>
    simp only [List.mapM_cons, bind_eq_ok, ih, List.forall₂_cons_left_iff]
    constructor
    · rintro ⟨b, hb, rest, hrest, h⟩
      cases h
      exact ⟨b, rest, hb, hrest, rfl⟩
    · rintro ⟨b, rest, hb, hrest, rfl⟩
      exact ⟨b, hb, rest, hrest, rfl⟩

theorem exists_of_mapM {f : α → Except Fault β} {as : List α} {bs : List β}
    (h : as.mapM f = .ok bs) : ∀ b ∈ bs, ∃ a ∈ as, f a = .ok b := by
  have hall := mapM_eq_ok.mp h
  clear h
  intro b hb
  induction hall with
  | nil => cases hb
  | @cons a found as bs hf _ ih =>
    rcases List.mem_cons.mp hb with rfl | hrest
    · exact ⟨a, List.mem_cons_self, hf⟩
    · obtain ⟨other, hmem, hother⟩ := ih hrest
      exact ⟨other, List.mem_cons_of_mem a hmem, hother⟩

theorem exists_mapM_iff {f : α → Except Fault β} {as : List α} :
    (∃ bs, as.mapM f = .ok bs) ↔ ∀ a ∈ as, ∃ b, f a = .ok b := by
  induction as with
  | nil => exact ⟨fun _ _ ha => (nomatch ha), fun _ => ⟨[], rfl⟩⟩
  | cons a as ih =>
    rw [List.forall_mem_cons, ← ih]
    simp only [List.mapM_cons, bind_eq_ok, pure_eq_ok]
    constructor
    · rintro ⟨_, b, hb, bs, hbs, _⟩
      exact ⟨⟨b, hb⟩, bs, hbs⟩
    · rintro ⟨⟨b, hb⟩, bs, hbs⟩
      exact ⟨b :: bs, b, hb, bs, hbs, rfl⟩

/-- A traversal ends with the first fault that it meets. -/
theorem mapM_eq_error {f : α → Except Fault β} {before after : List α} {a : α} {fault : Fault}
    (hbefore : ∀ b ∈ before, ∃ c, f b = .ok c) (ha : f a = .error fault) :
    (before ++ a :: after).mapM f = .error fault := by
  induction before with
  | nil =>
    rw [List.nil_append, List.mapM_cons, ha, error_bind]
  | cons b before ih =>
    obtain ⟨⟨c, hc⟩, hrest⟩ := List.forall_mem_cons.mp hbefore
    rw [List.cons_append, List.mapM_cons, hc, ok_bind, ih hrest, error_bind]

/-- A traversal that fails has met a fault after members without one. -/
theorem exists_of_mapM_error {f : α → Except Fault β} {as : List α} {fault : Fault}
    (h : as.mapM f = .error fault) : ∃ before a after, as = before ++ a :: after ∧
      (∀ b ∈ before, ∃ c, f b = .ok c) ∧ f a = .error fault := by
  induction as with
  | nil => cases h
  | cons a as ih =>
    rw [List.mapM_cons, bind_eq_error] at h
    rcases h with ha | ⟨b, hb, hrest⟩
    · exact ⟨[], a, as, rfl, by simp, ha⟩
    · rcases bind_eq_error.mp hrest with has | ⟨_, _, hdone⟩
      · obtain ⟨before, a', after, rfl, hbefore, ha'⟩ := ih has
        exact ⟨a :: before, a', after, rfl, List.forall_mem_cons.mpr ⟨⟨b, hb⟩, hbefore⟩, ha'⟩
      · cases hdone

theorem mapM_eq_error_iff {f : α → Except Fault β} {as : List α} {fault : Fault} :
    as.mapM f = .error fault ↔ ∃ before a after, as = before ++ a :: after ∧
      (∀ b ∈ before, ∃ c, f b = .ok c) ∧ f a = .error fault := by
  refine ⟨exists_of_mapM_error, ?_⟩
  rintro ⟨before, a, after, rfl, hbefore, ha⟩
  exact mapM_eq_error hbefore ha

/-- A chain of steps ends with the first of them that fails. -/
theorem foldlM_eq_error {f : β → α → Except ε β} {b : β} {as : List α} {fault : ε} :
    as.foldlM f b = .error fault ↔ ∃ before a after c, as = before ++ a :: after ∧
      before.foldlM f b = .ok c ∧ f c a = .error fault := by
  induction as generalizing b with
  | nil => simp
  | cons a as ih =>
    rw [List.foldlM_cons, bind_eq_error]
    constructor
    · rintro (ha | ⟨c, hc, has⟩)
      · exact ⟨[], a, as, b, rfl, rfl, ha⟩
      · obtain ⟨before, a', after, d, rfl, hbefore, hd⟩ := ih.mp has
        refine ⟨a :: before, a', after, d, rfl, ?_, hd⟩
        rw [List.foldlM_cons, hc]
        exact hbefore
    · rintro ⟨before, a', after, d, heq, hbefore, hd⟩
      cases before with
      | nil =>
        obtain ⟨rfl, rfl⟩ := List.cons.inj heq
        cases hbefore
        exact Or.inl hd
      | cons first before =>
        obtain ⟨rfl, rfl⟩ := List.cons.inj heq
        rw [List.foldlM_cons, bind_eq_ok] at hbefore
        obtain ⟨c, hc, hbefore⟩ := hbefore
        exact Or.inr ⟨c, hc, ih.mpr ⟨before, a', after, d, rfl, hbefore, hd⟩⟩

/-- What holds at the start of a chain and is kept by each of its steps holds at its end. -/
theorem foldlM_induction {f : β → α → Except ε β} {P : β → Prop} {b c : β} {as : List α} (h0 : P b)
    (hs : ∀ {b a c}, P b → f b a = .ok c → P c) (h : as.foldlM f b = .ok c) : P c := by
  induction as generalizing b with
  | nil =>
    cases h
    exact h0
  | cons a as ih =>
    rw [List.foldlM_cons, bind_eq_ok] at h
    obtain ⟨mid, ha, has⟩ := h
    exact ih (hs h0 ha) has

/-- A row of checks succeeds when every check does. -/
theorem forM_eq_ok {f : α → Except Fault Unit} {as : List α} {u : Unit} :
    as.forM f = .ok u ↔ ∀ a ∈ as, f a = .ok () := by
  induction as with
  | nil => exact ⟨fun _ _ h => (nomatch h), fun _ => rfl⟩
  | cons a as ih =>
    show (f a >>= fun _ => as.forM f) = .ok u ↔ _
    rw [bind_eq_ok, List.forall_mem_cons, ← ih]
    constructor
    · rintro ⟨_, ha, has⟩
      exact ⟨ha, has⟩
    · rintro ⟨ha, has⟩
      exact ⟨_, ha, has⟩

/-- A row of checks fails with the first check that does. -/
theorem forM_eq_error {f : α → Except Fault Unit} {as : List α} {fault : Fault} :
    as.forM f = .error fault ↔ ∃ before a after, as = before ++ a :: after ∧
      (∀ b ∈ before, f b = .ok ()) ∧ f a = .error fault := by
  induction as with
  | nil => exact ⟨fun h => (nomatch h), by rintro ⟨before, a, after, h, _⟩; simp at h⟩
  | cons a as ih =>
    show (f a >>= fun _ => as.forM f) = .error fault ↔ _
    rw [bind_eq_error]
    constructor
    · rintro (ha | ⟨_, ha, has⟩)
      · exact ⟨[], a, as, rfl, by simp, ha⟩
      · obtain ⟨before, a', after, rfl, hbefore, ha'⟩ := ih.mp has
        exact ⟨a :: before, a', after, rfl, List.forall_mem_cons.mpr ⟨ha, hbefore⟩, ha'⟩
    · rintro ⟨before, a', after, heq, hbefore, ha'⟩
      cases before with
      | nil =>
        obtain ⟨rfl, rfl⟩ := List.cons.inj heq
        exact Or.inl ha'
      | cons first before =>
        obtain ⟨rfl, rfl⟩ := List.cons.inj heq
        obtain ⟨ha, hbefore⟩ := List.forall_mem_cons.mp hbefore
        exact Or.inr ⟨(), ha, ih.mpr ⟨before, a', after, rfl, hbefore, ha'⟩⟩

/-! ## Chains that march in step -/

/-- Results that are one and the same fault, or values that are related. -/
inductive Related (R : α → β → Prop) : Except ε α → Except ε β → Prop where
  | ok {a : α} {b : β} : R a b → Related R (.ok a) (.ok b)
  | error (fault : ε) : Related R (.error fault) (.error fault)

variable {γ δ : Type} {R : α → β → Prop} {S : γ → δ → Prop}

theorem Related.of_eq {x y : Except ε α} (h : x = y) : Related Eq x y := by
  subst h
  cases x with
  | ok a => exact .ok rfl
  | error fault => exact .error fault

theorem Related.bind {x : Except ε α} {y : Except ε β} {f : α → Except ε γ} {g : β → Except ε δ}
    (h : Related R x y) (hf : ∀ a b, x = .ok a → R a b → Related S (f a) (g b)) :
    Related S (x >>= f) (y >>= g) := by
  cases h with
  | ok hab => exact hf _ _ rfl hab
  | error fault => exact .error fault

/-- Traversals of related lists meet the same first fault, or none. -/
theorem Related.mapM {f : α → Except ε γ} {g : β → Except ε δ} {as : List α} {bs : List β}
    (h : List.Forall₂ R as bs) (hf : ∀ a b, R a b → Related S (f a) (g b)) :
    Related (List.Forall₂ S) (as.mapM f) (bs.mapM g) := by
  induction h with
  | nil => exact .ok .nil
  | @cons a b as bs hab _ ih =>
    rw [List.mapM_cons, List.mapM_cons]
    exact (hf a b hab).bind fun _ _ _ hfirst =>
      ih.bind fun _ _ _ hrest => .ok (.cons hfirst hrest)

instance {x : Except Fault α} {P : α → Prop} [DecidablePred P] :
    Decidable (∀ a, x = .ok a → P a) :=
  match x with
  | .ok a => decidable_of_iff (P a) (by simp)
  | .error _ => .isTrue (by simp)

end Echelon.Result
