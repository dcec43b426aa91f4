import Keytape.Proofs.LineBreaks

/-! What stays on display from line to line.

Where a report has no main line, a display of text keeps the last one that an earlier report had.
Main statement: of input in lines, a display is printed for each line up to the first that is not
UTF-8, and each is that of the report on the words so far, on the display that the reports before
it leave. No display depends on what comes after its line.
-/

set_option autoImplicit false

namespace Keytape

/-! ## Reports line by line -/

namespace Session

@[simp] theorem length_reports (s : Session) (draws : Draws) (lines : List String) :
    (s.reports draws lines).length = lines.length := by
  induction lines generalizing s draws with
  | nil => rfl
  | cons line rest ih => exact congrArg Nat.succ (ih _ _)

theorem reports_take (s : Session) (draws : Draws) (lines : List String) (n : Nat) :
    s.reports draws (lines.take n) = (s.reports draws lines).take n := by
  induction lines generalizing s draws n with
  | nil => rw [List.take_nil]; exact List.take_nil.symm
  | cons line rest ih =>
    cases n with
    | zero => rfl
    | succ n => exact congrArg (_ :: ·) (ih _ _ n)

def reportOn (s : Session) (draws : Draws) (lines : List String) : Report :=
  let pressed := s.pressWords draws (lines.flatMap Text.words)
  (pressed.1.report pressed.2).1

theorem report_pressLines {s : Session} {lines : List String} (drawless : s.engine.drawCount = 0)
    (other : "rand" ∉ lines.flatMap Text.words) (draws draws' later : Draws) :
    ((s.pressLines draws lines).1.report later).1 = s.reportOn draws' lines := by
  rw [← Request.words_ofLines] at other
  have pressed := drawless_answerAll other drawless
  have alone : s.kept draws' ((Request.words (Request.ofLines lines)).map .word) = [] :=
    (drawless_answerAll (by rwa [Request.words_map]) drawless draws').1
  have session : (s.answerAll draws (Request.ofLines lines)).1 =
      (s.pressWords draws' (Request.words (Request.ofLines lines))).1 :=
    answerAll_eq_pressWords ((pressed draws).1.trans alone.symm)
  have settled := (pressed draws).2
  rw [pressLines_eq_answerAll, reportOn, ← Request.words_ofLines]
  rw [session] at settled ⊢
  exact report_congr settled _ _

theorem reports_eq_map {s : Session} {lines : List String} (drawless : s.engine.drawCount = 0)
    (other : "rand" ∉ lines.flatMap Text.words) (draws draws' : Draws) :
    s.reports draws lines =
      (List.range lines.length).map fun i => s.reportOn draws' (lines.take (i + 1)) := by
  refine List.ext_getElem (by simp) fun i reported _ => ?_
  have within : i < lines.length := by rwa [length_reports] at reported
  have some : lines.take (i + 1) ≠ [] := by
    rw [ne_eq, List.take_eq_nil_iff]
    rintro (⟨⟨⟩⟩ | rfl)
    cases within
  have fewer : "rand" ∉ (lines.take (i + 1)).flatMap Text.words := fun mem => by
    obtain ⟨line, taken, word⟩ := List.mem_flatMap.1 mem
    exact other (List.mem_flatMap.2 ⟨line, List.mem_of_mem_take taken, word⟩)
  -- The report on a line is the last of those on the lines up to it.
  obtain ⟨earlier, later, length, reports⟩ := s.exists_reports_eq draws some
  rw [report_pressLines drawless fewer draws draws' later, reports_take] at reports
  rw [List.length_take_of_le within] at length
  obtain rfl := Nat.succ.inj length
  have last := List.getElem?_take_of_lt (l := s.reports draws lines) (Nat.lt_succ_self earlier.length)
  rw [reports, List.getElem?_concat_length, List.getElem?_eq_getElem reported] at last
  rw [← Option.some.inj last, List.getElem_map, List.getElem_range]

end Session

/-! ## Retention -/

namespace Report

def lastMain (earlier : List Report) : Option String :=
  earlier.reverse.findSome? fun r => r.display.main

theorem lastMain_cons (r : Report) (rest : List Report) :
    lastMain (r :: rest) = (lastMain rest).or r.display.main := by
  simp [lastMain, List.findSome?_append]

theorem length_retain (shown : Option String) (rs : List Report) :
    (retain shown rs).length = rs.length := by
  induction rs generalizing shown with
  | nil => rfl
  | cons r rest ih => exact congrArg Nat.succ (ih _)

theorem retain_take (shown : Option String) (rs : List Report) (n : Nat) :
    retain shown (rs.take n) = (retain shown rs).take n := by
  induction rs generalizing shown n with
  | nil => rw [List.take_nil]; exact List.take_nil.symm
  | cons r rest ih =>
    cases n with
    | zero => rfl
    | succ n => exact congrArg (_ :: ·) (ih _ n)

theorem getElem?_retain (shown : Option String) (rs : List Report) (i : Nat) :
    (retain shown rs)[i]? = rs[i]?.map fun r =>
      r.withMain (r.display.main.or ((lastMain (rs.take i)).or shown)) := by
  induction rs generalizing shown i with
  | nil => rfl
  | cons r rest ih =>
    cases i with
    | zero => rfl
    | succ i =>
      rw [List.getElem?_cons_succ, List.take_succ_cons, lastMain_cons, Option.or_assoc]
      exact ih _ i

end Report

namespace Program

/-- What is printed of a report after others. In text, the last main line stays on display where
there is no other. -/
def Printer.printAfter (p : Printer) (earlier : List Report) (r : Report) : String :=
  match p.format with
  | .json => p.print r
  | .text => p.print (r.withMain (some (r.display.main.getD ((Report.lastMain earlier).getD ""))))

def displays (p : Printer) (s : Session) (draws : Draws) (texts : List String) : List String :=
  let reports := s.reports draws texts
  (match p.format with
    | .text => Report.retain none reports
    | .json => reports).map p.print

theorem displays_take (p : Printer) (s : Session) (draws : Draws) (texts : List String) (n : Nat) :
    displays p s draws (texts.take n) = (displays p s draws texts).take n := by
  rw [displays, displays, s.reports_take, ← List.map_take]
  cases p.format with
  | json => rfl
  | text => rw [Report.retain_take]

theorem getElem?_displays (p : Printer) (s : Session) (draws : Draws) (texts : List String) (i : Nat) :
    (displays p s draws texts)[i]? =
      (s.reports draws texts)[i]?.map (p.printAfter ((s.reports draws texts).take i)) := by
  rw [displays, List.getElem?_map]
  unfold Printer.printAfter
  cases format : p.format with
  | json => rfl
  | text =>
    -- A main line that is absent to the end is printed as an empty one.
    rw [Report.getElem?_retain, Option.map_map]
    refine congrArg (Option.map · _) (funext fun r => ?_)
    simp only [Function.comp_apply, Printer.print, format, Option.or_none, ← Option.getD_or]
    rfl

theorem length_displays (p : Printer) (s : Session) (draws : Draws) (texts : List String) :
    (displays p s draws texts).length = texts.length := by
  rw [displays, List.length_map]
  cases p.format with
  | json => exact s.length_reports draws texts
  | text => exact (Report.length_retain none _).trans (s.length_reports draws texts)

theorem displays_eq_map (p : Printer) {s : Session} {texts : List String}
    (drawless : s.engine.drawCount = 0) (other : "rand" ∉ texts.flatMap Text.words)
    (draws draws' : Draws) : displays p s draws texts =
      let report i := s.reportOn draws' (texts.take (i + 1))
      (List.range texts.length).map fun i => p.printAfter ((List.range i).map report) (report i) := by
  refine List.ext_getElem? fun i => ?_
  rw [getElem?_displays, Session.reports_eq_map drawless other draws draws', ← List.map_take]
  by_cases within : i < texts.length
  · rw [List.take_range, Nat.min_eq_left (Nat.le_of_lt within)]
    simp [within]
  · simp [Nat.not_lt.1 within]

end Program

/-- On lines of input, a display is printed for each line before the first that is not UTF-8, and
the run fails there, if there is such a line. What is displayed on a line does not depend on what
comes after it. Where `rand` is not among the words, it is the report on the words up to there,
in text with the last main line of the lines before if it has none of its own. -/
theorem perform_lines (settings : Settings) (around : Surroundings) (bound : List String) :
    let p := Program.Printer.of settings around
    let start := Program.session settings
    let lines := Text.lines around.stdin
    let texts := (Text.decode lines).1
    let displays := Program.displays p start around.draws texts
    let printed := Program.perform settings around (.eval [] bound)
    (∃ rest, lines = texts.map Text.bytesOf ++ rest ∧ ∀ line ∈ rest.head?, ¬ Text.IsText line) ∧
    displays.length = texts.length ∧
    printed.1 = String.join displays ∧
    (printed.2 = none ↔ ∀ line ∈ lines, Text.IsText line) ∧
    (∀ failure ∈ printed.2, failure = .stream "stream did not contain valid UTF-8") ∧
    (∀ stdin n, (Text.lines stdin).take n = lines.take n →
      (Program.displays p start around.draws (Text.decode (Text.lines stdin)).1).take n =
        displays.take n) ∧
    ("rand" ∉ texts.flatMap Text.words → ∀ draws,
      let report i := start.reportOn draws (texts.take (i + 1))
      displays = (List.range texts.length).map fun i =>
        p.printAfter ((List.range i).map report) (report i)) := by
  intro p start lines texts displays printed
  have complete := Text.decode_eq_true_iff lines
  have ended : printed.2 = if (Text.decode lines).2 then none
      else some (.stream "stream did not contain valid UTF-8") := rfl
  obtain ⟨rest, split, stop, _⟩ := Text.exists_decode_eq lines
  refine ⟨⟨rest, split, stop⟩, Program.length_displays _ _ _ _, rfl, ?_, ?_, ?_, ?_⟩
  · rw [ended, ← complete]
    cases (Text.decode lines).2 <;> simp
  · intro failure mem
    rw [ended] at mem
    split at mem
    · cases mem
    · exact (Option.some.inj mem).symm
  · intro stdin n same
    rw [← Program.displays_take, ← Text.decode_take, same, Text.decode_take, Program.displays_take]
  · intro other draws
    have drawless : start.engine.drawCount = 0 := by rw [Program.engine_session]; rfl
    exact Program.displays_eq_map p drawless other around.draws draws

/-- The number of the first line stays on display when all is cleared and when the slot is
recalled without being set; the fourth line is not UTF-8, and the fifth is not reached. -/
theorem perform_lines_of_cleared_display :
    let settings : Settings := ⟨.normal, .never, .text, .empty⟩
    let stdin : List UInt8 := [0x35, 0xA, 0x43, 0xA, 0x4D, 0xA, 0xFF, 0xA, 0x37]
    let around : Surroundings := ⟨stdin, false, false, ⟨fun _ => 0.5, 0⟩⟩
    let texts := (Text.decode (Text.lines stdin)).1
    texts = ["5", "C", "M"] ∧ "rand" ∉ texts.flatMap Text.words ∧
      (Program.perform settings around (.eval [] [])).1 = "5.0\n5.0 =\n" ++ "5.0\n" ++ "5.0\nM =\n" ∧
      (Program.perform settings around (.eval [] [])).2 ≠ none := by
  intro settings stdin around texts
  have read : texts = ["5", "C", "M"] := by decide
  have other : "rand" ∉ texts.flatMap Text.words := by rw [read]; decide
  obtain ⟨_, _, printed, ended, _, _, displayed⟩ := perform_lines settings around []
  refine ⟨read, other, ?_, ?_⟩
  · refine (printed.trans (congrArg String.join (displayed other around.draws))).trans ?_
    decide
  · rw [ne_eq, ended]
    intro all
    have broken : Text.decode? [0xFF] = none := by decide
    exact Text.not_isText_iff.2 broken (all _ (by decide))

end Keytape
