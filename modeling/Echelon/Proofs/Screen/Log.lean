import Echelon.Proofs.Number.Displayed
import Echelon.Proofs.Session.View
import Echelon.Screen

/-!
# The log in its box

A box has room for some lines of the log and shows a window of them. The window is meant to hold
the newest entries, so it starts as many lines down as do not fit. That count of lines is kept in
16 bits: it is right up to 65535, and then it starts over and the window goes back to the oldest
entries. A line holds the number of its entry in the whole log, so windows that start at different
entries are never alike.
-/

namespace Echelon

/-! ## What a text takes on a row -/

/-- A text on one line has a place for each character. -/
theorem symbols_of_not_mem {text : List Char} (h : '\n' ∉ text) :
    symbols text = text.map Char.toString := by
  fun_induction symbols text with
  | case1 rest ih => simp at h
  | case2 rest ih => simp at h
  | case3 c rest hreturn hline ih =>
    rw [List.map_cons, ih (fun hrest => h (List.mem_cons_of_mem c hrest))]
  | case4 => rfl

/-- Line feeds of their own have no place in a row. -/
theorem symbols_of_return_not_mem {text : List Char} (h : '\r' ∉ text) :
    symbols text = (text.filter (· ≠ '\n')).map Char.toString := by
  fun_induction symbols text with
  | case1 rest ih => simp at h
  | case2 rest ih =>
    rw [ih (fun hrest => h (List.mem_cons_of_mem _ hrest)), List.filter_cons_of_neg (by simp)]
  | case3 c rest hreturn hline ih =>
    rw [ih (fun hrest => h (List.mem_cons_of_mem c hrest)), List.filter_cons_of_pos (by simpa),
      List.map_cons]
  | case4 => rfl

theorem symbols_paint (color : Color) (text : List Char) :
    (Strip.paint color text).map Glyph.symbol = symbols text := by
  simp [Strip.paint, Function.comp_def]

namespace Workbench

/-! ## Lines of the log -/

/-- The line of an entry: its number in the whole log and its text. -/
def entryLine (entry : String × Nat) : Strip :=
  Strip.paint .darkGray (entryNumber entry.2 ++ ". ".toList) ++ Strip.paint .plain entry.1.toList

theorem logLines_eq (log : List String) : logLines log = (log.zipIdx 1).map entryLine := rfl

theorem newline_not_mem_label (number : Nat) : '\n' ∉ entryNumber number ++ ". ".toList := by
  have hdigits : '\n' ∉ number.repr.toList := not_mem_repr (by decide) number
  have hmark : '\n' ∉ ". ".toList := by decide
  simp only [entryNumber, List.mem_append, List.mem_replicate, not_or]
  exact ⟨⟨by simp, hdigits⟩, hmark⟩

/-- The line of an entry without line feeds shows all its characters. -/
theorem symbols_entryLine {text : String} (h : '\n' ∉ text.toList) (number : Nat) :
    (entryLine (text, number)).map Glyph.symbol =
      (entryNumber number ++ ". ".toList ++ text.toList).map Char.toString := by
  rw [entryLine, List.map_append, symbols_paint, symbols_paint,
    symbols_of_not_mem (newline_not_mem_label number), symbols_of_not_mem h, ← List.map_append]

/-- What is dark gray on a line of the log: the number, and not the text. -/
theorem darkGray_entryLine (entry : String × Nat) :
    (entryLine entry).filter (·.color = .darkGray) =
      Strip.paint .darkGray (entryNumber entry.2 ++ ". ".toList) := by
  have hnumber : ∀ glyph ∈ Strip.paint .darkGray (entryNumber entry.2 ++ ". ".toList),
      decide (glyph.color = .darkGray) = true := by
    intro glyph hglyph
    obtain ⟨_, _, rfl⟩ := List.mem_map.mp hglyph
    rfl
  have htext : ∀ glyph ∈ Strip.paint .plain entry.1.toList,
      ¬ decide (glyph.color = .darkGray) = true := by
    intro glyph hglyph
    obtain ⟨_, _, rfl⟩ := List.mem_map.mp hglyph
    simp
  rw [entryLine, List.filter_append, List.filter_eq_self.mpr hnumber,
    List.filter_eq_nil_iff.mpr htext, List.append_nil]

theorem digits_entryNumber (number : Nat) :
    (entryNumber number).filter Char.isDigit = number.repr.toList := by
  have hblanks : ∀ c ∈ List.replicate (2 - number.repr.toList.length) ' ', ¬ c.isDigit = true := by
    intro c hc
    rw [List.eq_of_mem_replicate hc]
    decide
  rw [entryNumber, List.filter_append, List.filter_eq_nil_iff.mpr hblanks,
    List.filter_eq_self.mpr fun _ => isDigit_of_mem_repr, List.nil_append]

theorem entryNumber_label_inj {k l : Nat}
    (h : entryNumber k ++ ". ".toList = entryNumber l ++ ". ".toList) : k = l := by
  have hdigits := congrArg (List.filter Char.isDigit) (List.append_cancel_right h)
  rw [digits_entryNumber, digits_entryNumber, Nat.repr_eq_ofList_toDigits,
    Nat.repr_eq_ofList_toDigits, String.toList_ofList, String.toList_ofList] at hdigits
  have hvalue := congrArg (Nat.ofDigitChars 10 · 0) hdigits
  rwa [Nat.ofDigitChars_toDigits (by decide) (by decide),
    Nat.ofDigitChars_toDigits (by decide) (by decide)] at hvalue

/-- Lines of the log are only alike when their entries have one number. -/
theorem number_eq_of_entryLine_eq {entry other : String × Nat}
    (h : entryLine entry = entryLine other) : entry.2 = other.2 := by
  have hgray := congrArg (List.filter (·.color = .darkGray)) h
  rw [darkGray_entryLine, darkGray_entryLine] at hgray
  have hlabel := congrArg (List.map Glyph.symbol) hgray
  rw [symbols_paint, symbols_paint, symbols_of_not_mem (newline_not_mem_label _),
    symbols_of_not_mem (newline_not_mem_label _)] at hlabel
  have hchar : Function.Injective Char.toString := fun _ _ hc => String.singleton_inj.mp hc
  exact entryNumber_label_inj (List.map_injective_iff.mpr hchar hlabel)

/-! ## The window -/

/-- The newest entries of a log, as many as there is room for, with their numbers. -/
def newest (room : Nat) (log : List String) : List (String × Nat) :=
  (log.zipIdx 1).drop (log.length - room)

variable {log : List String} {room : Nat}

theorem visibleLog_eq (log : List String) (room : Nat) : visibleLog log room =
    (((log.zipIdx 1).drop (logScroll log.length room)).take room).map entryLine := by
  rw [visibleLog, logLines_eq, List.map_take, List.map_drop]

theorem logScroll_le (count room : Nat) : logScroll count room ≤ count - room :=
  Nat.mod_le _ _

theorem length_visibleLog (log : List String) (room : Nat) :
    (visibleLog log room).length = min log.length room := by
  have hscroll := logScroll_le log.length room
  rw [visibleLog_eq, List.length_map, List.length_take, List.length_drop, List.length_zipIdx]
  omega

theorem visibleLog_of_lt (h : log.length < 65536 + room) :
    visibleLog log room = (newest room log).map entryLine := by
  have hscroll : logScroll log.length room = log.length - room := Nat.mod_eq_of_lt (by omega)
  have hlength : (newest room log).length ≤ room := by
    rw [newest, List.length_drop, List.length_zipIdx]
    omega
  rw [visibleLog_eq, hscroll]
  exact congrArg (List.map entryLine) (List.take_of_length_le hlength)

/-- The first line in sight has the number of the entry that the window starts at. -/
theorem scroll_eq_of_visibleLog (hroom : 0 < room)
    (h : visibleLog log room = (newest room log).map entryLine) :
    logScroll log.length room = log.length - room := by
  have hscroll := logScroll_le log.length room
  by_cases hsmall : log.length ≤ room
  · omega
  have hfirst := congrArg (fun lines => lines[0]?) h
  have hleft : logScroll log.length room < log.length := by omega
  have hright : log.length - room < log.length := by omega
  simp only [visibleLog_eq, newest, List.map_take, List.map_drop, List.getElem?_take_of_lt hroom,
    List.getElem?_drop, Nat.add_zero, List.length_map, List.length_zipIdx, hleft, hright,
    getElem?_pos, List.getElem_map, List.getElem_zipIdx, Option.some.injEq] at hfirst
  exact Nat.add_left_cancel (number_eq_of_entryLine_eq hfirst)

/-- The newest entries are in sight exactly while 16 bits count the lines above them. -/
theorem visibleLog_eq_newest_iff : visibleLog log room = (newest room log).map entryLine ↔
    log.length < 65536 + room ∨ room = 0 := by
  constructor
  · intro h
    by_cases hroom : room = 0
    · exact .inr hroom
    · have hscroll := scroll_eq_of_visibleLog (Nat.pos_of_ne_zero hroom) h
      rw [logScroll] at hscroll
      omega
  · rintro (h | rfl)
    · exact visibleLog_of_lt h
    · simp [visibleLog_eq, newest]

/-- When the count has started over, what is in sight is 65536 entries old. -/
theorem old_of_mem_visibleLog (h : 65536 + room ≤ log.length) {line : Strip}
    (hline : line ∈ visibleLog log room) :
    ∃ entry ∈ log.zipIdx 1, entry.2 + 65536 ≤ log.length ∧ line = entryLine entry := by
  rw [visibleLog_eq] at hline
  obtain ⟨entry, hentry, rfl⟩ := List.mem_map.mp hline
  refine ⟨entry, List.mem_of_mem_drop (List.mem_of_mem_take hentry), ?_, rfl⟩
  obtain ⟨i, hi, rfl⟩ := List.mem_iff_getElem.mp hentry
  rw [List.length_take] at hi
  rw [List.getElem_take, List.getElem_drop, List.getElem_zipIdx]
  have hscroll : logScroll log.length room + 65536 ≤ log.length - room := by
    rw [logScroll]
    omega
  show 1 + (logScroll log.length room + i) + 65536 ≤ log.length
  omega

/-! ## The box -/

/-- A line of the log between the edges of its box. -/
def betweenEdges (line : Strip) : Strip :=
  ⟨"│", .plain⟩ :: line.fit (logWidth - 2) ++ [⟨"│", .plain⟩]

/-- The lines in sight come first, and the rest of the box is empty. -/
theorem inside_logBox (w : Workbench) (height : Nat) : (w.logBox height).tail.dropLast =
    (visibleLog w.view.log (height - 2) ++ List.replicate (height - 2 - w.view.log.length) []).map
      betweenEdges := by
  have hlength := length_visibleLog w.view.log (height - 2)
  have htake : (visibleLog w.view.log (height - 2)).take (height - 2) =
      visibleLog w.view.log (height - 2) := List.take_of_length_le (by omega)
  have hrest : height - 2 - (visibleLog w.view.log (height - 2)).length =
      height - 2 - w.view.log.length := by omega
  rw [logBox, Picture.framed, Picture.fit, htake, hrest, List.map_map, List.cons_append,
    List.tail_cons, List.dropLast_concat]
  rfl

/-- **The log shows its newest entries while 16 bits count the others.** The box holds a window of
the log from its top, a line for each entry, which shows the number and all characters of the entry
unless a line feed is among them. The window holds the newest entries, as many as there is room
for, exactly when fewer than 65536 are above it. From then on all that is in sight is at least 65536
entries old. -/
theorem log_shows_newest (w : Workbench) (height : Nat) :
    (w.logBox height).tail.dropLast = (visibleLog w.view.log (height - 2) ++
      List.replicate (height - 2 - w.view.log.length) []).map betweenEdges ∧
    (visibleLog w.view.log (height - 2)).length = min w.view.log.length (height - 2) ∧
    (visibleLog w.view.log (height - 2) = (newest (height - 2) w.view.log).map entryLine ↔
      w.view.log.length < 65536 + (height - 2) ∨ height ≤ 2) ∧
    (65536 + (height - 2) ≤ w.view.log.length → ∀ line ∈ visibleLog w.view.log (height - 2),
      ∃ entry ∈ w.view.log.zipIdx 1, entry.2 + 65536 ≤ w.view.log.length ∧
        line = entryLine entry) ∧
    ∀ number (text : String), '\n' ∉ text.toList →
      (entryLine (text, number)).map Glyph.symbol =
        (entryNumber number ++ ". ".toList ++ text.toList).map Char.toString := by
  refine ⟨w.inside_logBox height, length_visibleLog _ _, ?_, fun h _ => old_of_mem_visibleLog h,
    fun number text h => symbols_entryLine h number⟩
  rw [visibleLog_eq_newest_iff, Nat.sub_eq_zero_iff_le]

end Workbench

/-! ## Long logs -/

/-- An operation that leaves the matrix as it is can be applied any number of times. -/
theorem Document.run_replicate_apply {d : Document} {m : Matrix} {text : String} {op : Operation}
    (hm : d.matrix = some m) (hop : Operation.parse text = .ok op) (ha : m.apply op = .ok m)
    (count : Nat) : (d.run (List.replicate count (.apply text))).log =
      d.log ++ List.replicate count (Text.trimmed text) := by
  induction count generalizing d with
  | zero => exact (List.append_nil d.log).symm
  | succ count ih =>
    let next : Document := ⟨some m, d.history ++ [m], d.log ++ [Text.trimmed text]⟩
    have happly : d.apply text = .ok next := apply_eq_ok.mpr ⟨m, op, m, hm, hop, ha, rfl⟩
    have hnext : d.after (.apply text) = next := after_of_ok happly
    have hlog : (next.run (List.replicate count (.apply text))).log = next.log ++ _ := ih rfl
    rw [List.replicate_succ, run_cons, hnext, hlog, List.append_assoc, List.singleton_append,
      ← List.replicate_succ]

namespace Workbench

theorem document_calls (w : Workbench) (calls : List Call) :
    ((calls.map Move.call).foldl Workbench.move w).document = w.document.run calls := by
  induction calls generalizing w with
  | nil => rfl
  | cons call calls ih =>
    rw [List.map_cons, List.foldl_cons, ih, Document.run_cons, ← Document.call_document]
    rfl

/-- The log can come to any length. -/
theorem exists_log (count : Nat) :
    ∃ w, Reachable w ∧ w.view.log = List.replicate count "R1<>R1" := by
  let d := Document.empty.run [.setText "1 2\n3 4"]
  have hm : d.matrix = some d.snapshot := by decide +kernel
  have hop : Operation.parse "R1<>R1" = .ok (.swap ⟨1⟩ ⟨1⟩) := by decide +kernel
  have happly : d.snapshot.apply (.swap ⟨1⟩ ⟨1⟩) = .ok d.snapshot := by decide +kernel
  let calls : List Call := [.setText "1 2\n3 4"] ++ List.replicate count (.apply "R1<>R1")
  have hr := (Reachable.start ⟨10, true⟩).moves (calls.map Move.call)
  refine ⟨_, hr, ?_⟩
  have hlog := Document.run_replicate_apply hm hop happly count
  have hempty : d.log = [] := by decide +kernel
  have htrim : Text.trimmed "R1<>R1" = "R1<>R1" := by decide +kernel
  rw [hempty, htrim, List.nil_append] at hlog
  rw [hr.faithful.log_eq, document_calls, Document.run_append]
  exact hlog

/-- A log whose newest entries are out of sight. -/
theorem newest_out_of_sight : ∃ w, Reachable w ∧
    w.view.log = List.replicate 65550 "R1<>R1" ∧
    visibleLog w.view.log (16 - 2) ≠ (newest (16 - 2) w.view.log).map entryLine ∧
    entryLine ("R1<>R1", 65550) ∉ visibleLog w.view.log (16 - 2) := by
  obtain ⟨w, hr, hlog⟩ := exists_log 65550
  have hlength : w.view.log.length = 65550 := by rw [hlog, List.length_replicate]
  refine ⟨w, hr, hlog, fun h => ?_, fun hmem => ?_⟩
  · have hshort := visibleLog_eq_newest_iff.mp h
    omega
  · obtain ⟨entry, _, hage, hline⟩ := old_of_mem_visibleLog (by omega) hmem
    have hnumber : 65550 = entry.2 := number_eq_of_entryLine_eq hline
    omega

end Workbench

end Echelon
