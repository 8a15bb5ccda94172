import Echelon.CommandLine
import Echelon.Proofs.Document.Brackets
import Echelon.Proofs.Document.Run

/-!
# Undoing takes operations back as brackets close

A balanced run, failing steps included, leads back to the document that it started from, by
induction on its length: its last step is refused, or it is an undo, which takes back the operation
before a shorter balanced run. So every undo answers the text of the operation that it belongs to.
-/

namespace Echelon.Document

open Text CommandLine

/-! ## Steps and their effects -/

/-- The document after some steps, each refused or not. -/
def walk (d : Document) (steps : List Step) : Document := d.run (steps.map callOf)

/-- What a step does to a document. -/
def effect (d : Document) : Step → Effect
  | .apply text =>
    match d.apply text with
    | .ok _ => .applied text
    | .error fault => .refused fault
  | .undo =>
    match d.undo with
    | .ok (_, text) => .undone text
    | .error fault => .refused fault

/-- What some steps do, one after the other. -/
def effects (d : Document) : List Step → List Effect
  | [] => []
  | step :: steps => d.effect step :: (d.walk [step]).effects steps

section

variable {d : Document}

theorem walk_append (d : Document) (steps more : List Step) :
    d.walk (steps ++ more) = (d.walk steps).walk more := by
  rw [walk, List.map_append, run_append]
  rfl

theorem walk_cons (d : Document) (step : Step) (steps : List Step) :
    d.walk (step :: steps) = (d.walk [step]).walk steps := d.walk_append [step] steps

theorem effects_append (d : Document) (steps more : List Step) :
    d.effects (steps ++ more) = d.effects steps ++ (d.walk steps).effects more := by
  induction steps generalizing d with
  | nil => rfl
  | cons step steps ih =>
    rw [List.cons_append, effects, ih, walk_cons d step steps]
    rfl

/-- Where the word of effects is cut, the steps can be cut. -/
theorem exists_of_effects_eq_append {steps : List Step} {effects more : List Effect}
    (h : d.effects steps = effects ++ more) :
    ∃ first rest, steps = first ++ rest ∧ d.effects first = effects ∧
      (d.walk first).effects rest = more := by
  induction effects generalizing d steps with
  | nil => exact ⟨[], steps, rfl, rfl, h⟩
  | cons effect effects ih =>
    cases steps with
    | nil => cases h
    | cons step steps =>
      obtain ⟨hstep, hsteps⟩ := List.cons.inj h
      obtain ⟨first, rest, rfl, hfirst, hrest⟩ := ih hsteps
      refine ⟨step :: first, rest, rfl, ?_, ?_⟩
      · rw [Document.effects, hstep, hfirst]
      · rw [walk_cons, hrest]

/-- All that a step can do, with its effect and the document after it. -/
inductive Takes (d : Document) : Step → Effect → Document → Prop where
  | apply {e : Document} {given : String} :
      d.apply given = .ok e → Takes d (.apply given) (.applied given) e
  | undo {e : Document} {text : String} : d.undo = .ok (e, text) → Takes d .undo (.undone text) e
  | refused {step : Step} {fault : Fault} : Takes d step (.refused fault) d

theorem takes (d : Document) (step : Step) : Takes d step (d.effect step) (d.walk [step]) := by
  cases step with
  | apply given =>
    have hwalk : d.walk [.apply given] = d.after (.apply given) := rfl
    cases ha : d.apply given with
    | ok e =>
      have hattempt : d.attempt (.apply given) = .ok e := ha
      rw [hwalk, after_of_ok hattempt, effect, ha]
      exact .apply ha
    | error fault =>
      have hattempt : d.attempt (.apply given) = .error fault := ha
      rw [hwalk, after_of_error hattempt, effect, ha]
      exact .refused
  | undo =>
    have hwalk : d.walk [.undo] = d.after .undo := rfl
    cases hu : d.undo with
    | ok result =>
      have hattempt : d.attempt .undo = .ok result.1 := by
        rw [attempt, hu]
        rfl
      rw [hwalk, after_of_ok hattempt, effect, hu]
      exact .undo hu
    | error fault =>
      have hattempt : d.attempt .undo = .error fault := by
        rw [attempt, hu]
        rfl
      rw [hwalk, after_of_error hattempt, effect, hu]
      exact .refused

theorem apply_of_effect {step : Step} {given : String} (h : d.effect step = .applied given) :
    step = .apply given ∧ d.apply given = .ok (d.walk [step]) := by
  have ht := d.takes step
  rw [h] at ht
  generalize d.walk [step] = e at ht
  cases ht with
  | apply ha => exact ⟨rfl, ha⟩

theorem undo_of_effect {step : Step} {text : String} (h : d.effect step = .undone text) :
    d.undo = .ok (d.walk [step], text) := by
  have ht := d.takes step
  rw [h] at ht
  generalize d.walk [step] = e at ht
  cases ht with
  | undo hu => exact hu

theorem walk_of_refused {step : Step} {fault : Fault} (h : d.effect step = .refused fault) :
    d.walk [step] = d := by
  have ht := d.takes step
  rw [h] at ht
  generalize d.walk [step] = e at ht
  cases ht with
  | refused => rfl

/-- Where an operation was applied, the steps before it and after it are known. -/
theorem exists_of_effects_eq_applied {steps : List Step} {earlier between : List Effect}
    {given : String} (h : d.effects steps = earlier ++ .applied given :: between) :
    ∃ first rest e, first.length < steps.length ∧ rest.length < steps.length ∧
      d.effects first = earlier ∧ (d.walk first).apply given = .ok e ∧
      e.effects rest = between ∧ d.walk steps = e.walk rest := by
  obtain ⟨first, rest, rfl, hfirst, hrest⟩ := exists_of_effects_eq_append h
  cases rest with
  | nil => cases hrest
  | cons step rest =>
    obtain ⟨hstep, hbetween⟩ := List.cons.inj hrest
    obtain ⟨rfl, happly⟩ := apply_of_effect hstep
    refine ⟨first, rest, _, by simp, by simp; omega, hfirst, happly, hbetween, ?_⟩
    rw [walk_append, walk_cons]

/-! ## Balanced runs -/

/-- An undo takes back the operation before a part of the run that leads back to its start. -/
theorem undo_of_applied {steps : List Step} {earlier between : List Effect} {given : String}
    (h : d.effects steps = earlier ++ .applied given :: between)
    (hb : ∀ (e : Document) (rest : List Step), rest.length < steps.length →
      e.effects rest = between → e.walk rest = e) :
    ∃ first, first.length < steps.length ∧ d.effects first = earlier ∧
      (d.walk steps).undo = .ok (d.walk first, trimmed given) := by
  obtain ⟨first, rest, e, hlt, hrest, hfirst, happly, hbetween, hwalk⟩ :=
    exists_of_effects_eq_applied h
  refine ⟨first, hlt, hfirst, ?_⟩
  rw [hwalk, hb e rest hrest hbetween]
  exact undo_of_apply happly

/-- A balanced run leads back to where it started. -/
theorem walk_of_balanced {steps : List Step} (h : Balanced (d.effects steps)) :
    d.walk steps = d := by
  induction hn : steps.length using Nat.strong_induction_on generalizing d steps with
  | _ n ih =>
    subst hn
    rcases List.eq_nil_or_concat steps with rfl | ⟨first, step, rfl⟩
    · rfl
    rw [List.concat_eq_append] at h ih ⊢
    have hlt : first.length < (first ++ [step]).length := by simp
    rw [effects_append] at h
    rw [walk_append]
    rcases h.concat_cases with
      ⟨fault, hs, hfirst⟩ | ⟨text, earlier, given, between, hs, hw, hearlier, hbetween⟩
    · rw [walk_of_refused hs]
      exact ih _ hlt hfirst rfl
    · obtain ⟨before, hbefore, heffects, hundo⟩ := undo_of_applied hw fun e rest hrest he =>
        ih _ (hrest.trans hlt) (he ▸ hbetween) rfl
      have hfinal := undo_of_effect hs
      rw [hundo] at hfinal
      obtain ⟨hfinal, _⟩ := Prod.mk.inj (Except.ok.inj hfinal)
      rw [← hfinal]
      exact ih _ (hbefore.trans hlt) (heffects ▸ hearlier) rfl

/-- In a grounded run an undo takes back the operation that stands before a balanced part. -/
theorem exists_applied_of_undone {steps : List Step} {before later : List Effect}
    {returned : String} (hg : Grounded (d.effects steps))
    (h : d.effects steps = before ++ .undone returned :: later) :
    ∃ earlier given between, before = earlier ++ .applied given :: between ∧ Balanced between ∧
      returned = trimmed given := by
  obtain ⟨first, rest, rfl, hfirst, hrest⟩ := exists_of_effects_eq_append h
  cases rest with
  | nil => cases hrest
  | cons step rest =>
    obtain ⟨hstep, _⟩ := List.cons.inj hrest
    have hopen := hg (before ++ [.undone returned]) ⟨later, by rw [h]; simp⟩
    simp at hopen
    obtain ⟨level, hlevel⟩ := Nat.exists_eq_add_of_lt (Nat.lt_of_succ_le hopen)
    obtain ⟨earlier, given, between, rfl, hearlier, hbetween⟩ :=
      exists_applied_at before level (by omega)
    have hbalanced := balanced_of_applied given hearlier hbetween (by omega)
    obtain ⟨_, _, _, hundo⟩ := undo_of_applied hfirst fun e rest _ he =>
      walk_of_balanced (he ▸ hbalanced)
    rw [undo_of_effect hstep] at hundo
    obtain ⟨_, htext⟩ := Prod.mk.inj (Except.ok.inj hundo)
    exact ⟨earlier, given, between, rfl, hbalanced, htext⟩

theorem effects_replicate_undo (hr : d.isReady = true) (hh : d.history = []) (n : Nat) :
    d.effects (List.replicate n .undo) = List.replicate n (.refused .emptyHistory) ∧
      d.walk (List.replicate n .undo) = d := by
  have heffect : d.effect .undo = .refused .emptyHistory := by
    rw [effect, undo_of_history_nil hr hh]
  have hstay : d.walk [.undo] = d := walk_of_refused heffect
  induction n with
  | zero => exact ⟨rfl, rfl⟩
  | succ n ih =>
    rw [List.replicate_succ, List.replicate_succ, effects, heffect, hstay, ih.1,
      walk_cons d .undo, hstay, ih.2]
    exact ⟨rfl, rfl⟩

end

/-- **A balanced run takes back all that it does.** It ends in the document that it started from,
and each of its undos answers the trimmed text of the operation before a balanced part. Without a
history every undo is refused and changes nothing. -/
theorem balanced_run_returns (d : Document) :
    (∀ steps, Balanced (d.effects steps) → d.walk steps = d ∧
      ∀ before returned later, d.effects steps = before ++ .undone returned :: later →
        ∃ earlier given between, before = earlier ++ .applied given :: between ∧
          Balanced between ∧ returned = trimmed given) ∧
    (d.isReady = true → d.history = [] → ∀ n,
      d.effects (List.replicate n .undo) = List.replicate n (.refused .emptyHistory) ∧
        d.walk (List.replicate n .undo) = d) :=
  ⟨fun _ hb => ⟨walk_of_balanced hb, fun _ _ _ h => exists_applied_of_undone hb.grounded h⟩,
    fun hr hh => effects_replicate_undo hr hh⟩

/-- Undos between operations, a nested one and two refusals. -/
theorem balanced_run_returns_mixed_run : ∃ d : Document, ∃ steps, d.isReady = true ∧
    Balanced (d.effects steps) ∧ applies (d.effects steps) = 3 ∧ d.walk steps = d := by
  let base : Document := Document.empty.run [.setText "2 4\n6 8", .apply "R2 = R2 / 4"]
  let steps : List Step := [.apply "R1 <> R2", .apply "R1 = R9", .apply " R2 = R2 * 3 ", .undo,
    .apply "R2 = 2R1", .apply "R2 = R2 / 2", .undo, .undo]
  have hb : Balanced (base.effects steps) := by decide +kernel
  exact ⟨base, steps, by decide +kernel, hb, by decide +kernel,
    ((balanced_run_returns base).1 steps hb).1⟩

end Echelon.Document
