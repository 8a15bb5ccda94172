import Echelon.Proofs.Results
import Echelon.Store

/-!
# Writing a file

A file is written where no directory stands, and a path only passes directories. So writing a file
moves no path: each one leads where it led before, to the new content at the place of the file and
to what stood there elsewhere. Writing the same content again changes nothing.
-/

namespace Echelon.Store

open Result

variable {s next : Store} {location source target : List String} {node found : Node}
  {path name content : String}

/-! ## Paths after a change -/

theorem ne_nil_of_no_directory (h : s.at? location ≠ some .directory) : location ≠ [] := by
  rintro rfl
  exact h rfl

theorem enter_put (h : s.at? location ≠ some .directory) (he : s.enter source name = .ok target) :
    (s.put location node).enter source name = .ok target := by
  have hpassed : s.at? source = some .directory := by
    unfold enter at he
    split at he
    · cases he
    · cases he
    · assumption
  have hne : source ≠ location := by
    rintro rfl
    exact h hpassed
  unfold enter at he ⊢
  rw [at?_put_of_ne s node hne]
  exact he

theorem foldlM_enter_put (h : s.at? location ≠ some .directory) {names : List String}
    (he : names.foldlM s.enter source = .ok target) :
    names.foldlM (s.put location node).enter source = .ok target := by
  induction names generalizing source with
  | nil => exact he
  | cons name names ih =>
    rw [List.foldlM_cons, bind_eq_ok] at he ⊢
    obtain ⟨mid, hname, hrest⟩ := he
    exact ⟨mid, enter_put h hname, ih hrest⟩

theorem locate_put (h : s.at? location ≠ some .directory) (hl : s.locate path = .ok target) :
    (s.put location node).locate path = .ok target := by
  unfold locate walk at hl ⊢
  split at hl
  · cases hl
  · rename_i hpath
    rw [if_neg hpath]
    split at hl
    · cases hl
    · exact foldlM_enter_put h hl

theorem look_eq_ok : s.look path = .ok node ↔
    ∃ target, s.locate path = .ok target ∧ s.at? target = some node := by
  unfold look
  rw [bind_eq_ok]
  refine exists_congr fun target => and_congr_right fun _ => ?_
  cases s.at? target with
  | none => simp
  | some found => simp

theorem look_put_self (h : s.at? location ≠ some .directory) (hl : s.locate path = .ok location) :
    (s.put location node).look path = .ok node :=
  look_eq_ok.mpr ⟨location, locate_put h hl, at?_put s node (ne_nil_of_no_directory h)⟩

theorem look_put_of_ne (h : s.at? location ≠ some .directory) (hlook : s.look path = .ok found)
    (hne : s.locate path ≠ .ok location) : (s.put location node).look path = .ok found := by
  obtain ⟨target, hl, hat⟩ := look_eq_ok.mp hlook
  have hother : target ≠ location := by
    rintro rfl
    exact hne hl
  exact look_eq_ok.mpr ⟨target, locate_put h hl, (at?_put_of_ne s node hother).trans hat⟩

theorem put_put (s : Store) (location : List String) (first second : Node) :
    (s.put location first).put location second = s.put location second := by
  simp [put, List.filter_filter]

/-! ## Files -/

/-- Where a file can be created is where its path leads, in every store. -/
theorem locate_of_locateFile (h : s.locateFile path = .ok target) :
    s.locate path = .ok target ∧ ∀ t : Store, t.locateFile path = t.locate path := by
  simp only [locateFile] at h ⊢
  split at h
  · rename_i hname
    exact ⟨h, fun t => if_pos hname⟩
  · obtain ⟨_, _, hrest⟩ := bind_eq_ok.mp h
    cases hrest

/-- The file that a path names was written. -/
structure Wrote (s : Store) (path content : String) (location : List String) (next : Store) :
    Prop where
  locate_eq : s.locate path = .ok location
  no_directory : s.at? location ≠ some .directory
  next_eq : next = s.put location (.file content.toUTF8)

theorem wrote_of_write (h : s.write path content = .ok next) :
    ∃ location, s.Wrote path content location next ∧
      ∀ t : Store, t.locateFile path = t.locate path := by
  obtain ⟨location, hfile, hput⟩ := bind_eq_ok.mp h
  obtain ⟨hlocate, hevery⟩ := locate_of_locateFile hfile
  refine ⟨location, ?_, hevery⟩
  split at hput
  · cases hput
  · rename_i hdirectory
    cases hput
    exact ⟨hlocate, fun hd => hdirectory hd, rfl⟩

/-- A written file holds what was written. -/
theorem look_of_write (h : s.write path content = .ok next) :
    next.look path = .ok (.file content.toUTF8) := by
  obtain ⟨location, hw, _⟩ := wrote_of_write h
  rw [hw.next_eq]
  exact look_put_self hw.no_directory hw.locate_eq

/-- What other paths lead to is still there after a file was written. -/
theorem look_of_write_of_ne {other : String} (h : s.write path content = .ok next)
    (hlook : s.look other = .ok found) (hne : s.locate other ≠ s.locate path) :
    next.look other = .ok found := by
  obtain ⟨location, hw, _⟩ := wrote_of_write h
  rw [hw.locate_eq] at hne
  rw [hw.next_eq]
  exact look_put_of_ne hw.no_directory hlook hne

/-- Writing a file again changes nothing. -/
theorem write_again (h : s.write path content = .ok next) :
    next.write path content = .ok next := by
  obtain ⟨location, ⟨hlocate, hdirectory, rfl⟩, hevery⟩ := wrote_of_write h
  unfold write
  rw [hevery, locate_put hdirectory hlocate, ok_bind,
    at?_put s _ (ne_nil_of_no_directory hdirectory), put_put]

end Echelon.Store
