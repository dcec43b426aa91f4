import Keytape.Proofs.Bindings
import Keytape.Proofs.Pressing
import Keytape.Proofs.Text.Lines

/-! Words in lines of input and words in arguments.

The main statement says how far it matters where lines break: however words are laid out in a text,
reading it line by line leads to the sessions that the words lead to as arguments, and to the same
one up to values of the generator that stay in the memory. The report after the last line is then
the report on the words, except that a display of text may still show an earlier main line where
the words have none.
-/

set_option autoImplicit false

namespace Keytape

/-! ## Lines -/

/-- The requests that lines make: each is taken word by word and followed by a report. -/
def Request.ofLines : List String → List Request
  | [] => []
  | line :: rest => (Text.words line).map .word ++ .report :: ofLines rest

theorem Request.words_ofLines (lines : List String) :
    words (ofLines lines) = lines.flatMap Text.words := by
  induction lines with
  | nil => rfl
  | cons line rest ih => rw [ofLines, words_map_append, words, ih, List.flatMap_cons]

/-- The lines of a text ask for the words that are laid out in it. -/
theorem Request.words_ofLines_of_laid {text : String} {ws : List String}
    (laid : Text.Laid text.toList ws) : words (ofLines (Text.linesOf text)) = ws := by
  rw [words_ofLines, Text.words_linesOf, (Text.words_eq_iff text ws).2 laid]

namespace Session

def pressLines (s : Session) (draws : Draws) : List String → Session × Draws
  | [] => (s, draws)
  | line :: rest =>
    let (s, draws) := s.pressLine draws line
    s.pressLines (s.report draws).2 rest

theorem pressLines_eq_answerAll (s : Session) (draws : Draws) (lines : List String) :
    s.pressLines draws lines = s.answerAll draws (Request.ofLines lines) := by
  induction lines generalizing s draws with
  | nil => rfl
  | cons line rest ih =>
    rw [Request.ofLines, answerAll_append, answerAll_words, answerAll_cons]
    exact ih _ _

/-- The last report is on the session after all lines. -/
theorem exists_reports_eq (s : Session) (draws : Draws) {lines : List String} (some : lines ≠ []) :
    ∃ (earlier : List Report) (later : Draws), earlier.length + 1 = lines.length ∧
      s.reports draws lines = earlier ++ [((s.pressLines draws lines).1.report later).1] := by
  induction lines generalizing s draws with
  | nil => exact absurd rfl some
  | cons line rest ih =>
    cases rest with
    | nil => exact ⟨[], _, rfl, rfl⟩
    | cons next rest =>
      obtain ⟨earlier, later, length, reports⟩ := ih (s.pressLine draws line).1
        ((s.pressLine draws line).1.report (s.pressLine draws line).2).2 (List.cons_ne_nil _ _)
      refine ⟨((s.pressLine draws line).1.report (s.pressLine draws line).2).1 :: earlier, later,
        congrArg Nat.succ length, ?_⟩
      exact congrArg (_ :: ·) reports

theorem report_congr {s : Session} (drawless : s.engine.drawCount = 0) (draws draws' : Draws) :
    (s.report draws).1 = (s.report draws').1 := by
  have outcome (d d' : Draws) : s.evaluate d = s.evaluate d' :=
    s.evaluate_congr (by rw [drawless, Draws.take_zero, Draws.take_zero])
  rw [report, report, display, display, outcome draws draws',
    outcome (s.drawsAfter draws) (s.drawsAfter draws')]

end Session

/-! ## Displays -/

def Report.withMain (r : Report) (main : Option String) : Report :=
  { r with display := { r.display with main := main } }

/-- Whatever is kept on display, it only stands in for an absent main line. -/
theorem Report.exists_retain_eq (shown : Option String) (earlier : List Report) (r : Report) :
    ∃ (before : List Report) (main : Option String), before.length = earlier.length ∧
      retain shown (earlier ++ [r]) = before ++ [r.withMain (r.display.main.or main)] := by
  induction earlier generalizing shown with
  | nil => exact ⟨[], shown, rfl, rfl⟩
  | cons first rest ih =>
    obtain ⟨before, main, length, retained⟩ := ih (first.display.main.or shown)
    refine ⟨first.withMain (first.display.main.or shown) :: before, main,
      congrArg Nat.succ length, ?_⟩
    exact congrArg (_ :: ·) retained

namespace Program

/-- Reports are printed on `n` lines, and the last is `r`, except that a display of text may
have a main line where `r` has none. -/
def EndsWith (p : Printer) (r : Report) (n : Nat) (printed : Printed) : Prop :=
  ∃ (earlier : List Report) (last : Report), earlier.length + 1 = n ∧
    printed = (String.join ((earlier ++ [last]).map p.print), none) ∧
    last = r.withMain last.display.main ∧ (p.format = .json ∨ r.display.main ≠ none → last = r)

/-- What is printed on lines ends with the report on the session after them, if there is nothing
to draw in the end. -/
theorem endsWith_evalLines (p : Printer) (s : Session) (draws : Draws) {input : List UInt8}
    {lines : List String} (decoded : Text.decode (Text.lines input) = (lines, true))
    (some : lines ≠ []) (drawless : (s.pressLines draws lines).1.engine.drawCount = 0)
    (draws' : Draws) :
    EndsWith p ((s.pressLines draws lines).1.report draws').1 lines.length
      (evalLines p s draws input) := by
  obtain ⟨earlier, later, length, reports⟩ := s.exists_reports_eq draws some
  rw [Session.report_congr drawless later draws'] at reports
  generalize ((s.pressLines draws lines).1.report draws').1 = r at reports ⊢
  cases format : p.format with
  | json =>
    refine ⟨earlier, r, length, ?_, rfl, fun _ => rfl⟩
    simp only [evalLines, decoded, format, reports, if_true]
  | text =>
    obtain ⟨before, main, same, retained⟩ := Report.exists_retain_eq none earlier r
    refine ⟨before, r.withMain (r.display.main.or main), same ▸ length, ?_, rfl, fun present => ?_⟩
    · simp only [evalLines, decoded, format, reports, retained, if_true]
    · have shown := present.resolve_left (by rw [format]; exact OutputFormat.noConfusion)
      obtain ⟨text, isText⟩ := Option.ne_none_iff_exists'.1 shown
      rw [isText, Option.some_or, ← isText]
      rfl

theorem perform_words (settings : Settings) (around : Surroundings) {words : List String}
    (nonempty : words ≠ []) (bound : List String) :
    perform settings around (.eval words bound) =
      evalWords (.of settings around) (session settings) around.draws words := by
  cases words with
  | nil => exact absurd rfl nonempty
  | cons w rest => rfl

end Program

/-- Words laid out in a text lead to the sessions that they lead to as arguments, whatever values
`p` the generator gives. It is one session for any two runs just if the words alone lead to one,
as they do without `rand`, and it is the same for two runs that draw the same values for the
memory. On one session with nothing to draw, the last report on the text is that on the
arguments. -/
theorem perform_text_eq_perform_words (settings : Settings) (around : Surroundings)
    (bound bound' : List String) {text : String} {words : List String}
    (laid : Text.Laid text.toList words) (nonempty : words ≠ []) (p : Float → Prop) :
    let start := Program.session settings
    let printer := Program.Printer.of settings around
    let input := text.toUTF8.data.toList
    let lines := (Text.decode (Text.lines input)).1
    let Agree (draws draws' : Draws) : Prop :=
      (start.pressLines draws lines).1 = (start.pressWords draws' words).1
    ((∀ draws draws', draws.All p → draws'.All p → Agree draws draws') ↔
      ∀ draws draws', draws.All p → draws'.All p →
        (start.pressWords draws words).1 = (start.pressWords draws' words).1) ∧
    (∀ draws, draws.All p → ∃ draws', draws'.All p ∧ Agree draws draws') ∧
    (∀ draws', draws'.All p → ∃ draws, draws.All p ∧ Agree draws draws') ∧
    (∀ draws draws', start.kept draws (Request.ofLines lines) = start.kept draws' (words.map .word) →
      Agree draws draws') ∧
    ("rand" ∉ words → ∀ draws draws', Agree draws draws' ∧
      (start.pressWords draws words).1.engine.drawCount = 0) ∧
    ∀ draws draws' : Draws, Agree draws draws' →
      let s := (start.pressWords draws' words).1
      let r := (s.report (start.pressWords draws' words).2).1
      Program.perform settings { around with draws := draws' } (.eval words bound') =
        (printer.print r, none) ∧
      (s.engine.drawCount = 0 → Program.EndsWith printer r lines.length
        (Program.perform settings { around with draws := draws, stdin := input }
          (.eval [] bound))) := by
  intro start printer input lines Agree
  have split : lines = Text.linesOf text := congrArg Prod.fst (Text.decode_lines_toUTF8 text)
  have decoded : Text.decode (Text.lines input) = (lines, true) := by
    rw [split]
    exact Text.decode_lines_toUTF8 text
  have requested : Request.words (Request.ofLines lines) = words := by
    rw [split, Request.words_ofLines_of_laid laid]
  have some : lines ≠ [] := by
    intro none
    rw [none] at requested
    exact nonempty requested.symm
  subst requested
  have answered (draws : Draws) : (start.pressLines draws lines).1 =
      (start.answerAll draws (Request.ofLines lines)).1 := by
    rw [Session.pressLines_eq_answerAll]
  simp only [Agree, answered]
  refine ⟨start.answerAll_settled_iff _, fun draws => start.exists_pressWords_eq _,
    fun draws' => start.exists_answerAll_eq _, fun draws draws' => Session.answerAll_eq_pressWords,
    fun other => ?_, fun draws draws' agree => ?_⟩
  · exact Session.answerAll_of_drawless other (by rw [Program.engine_session]; rfl)
  · have session := (answered draws).trans agree
    refine ⟨?_, fun drawless => ?_⟩
    · rw [Program.perform_words _ _ nonempty]
      rfl
    · rw [← session] at drawless ⊢
      exact Program.endsWith_evalLines printer start draws decoded some drawless _

/-- What is drawn may be overwritten, and the words then lead to one session. -/
example (draws draws' : Draws) :
    (Session.new.pressWords draws ["rand", "→M", "C", "5"]).1 =
      (Session.new.pressWords draws' ["rand", "→M", "C", "5"]).1 := rfl

/-- A drawn value goes into the memory, on lines after a report that draws two. -/
theorem perform_text_eq_perform_words_of_stored_draw :
    let settings : Settings := ⟨.normal, .never, .json, .empty⟩
    let text := "rand\r\n\t→M  undo\n\nM"
    let words := ["rand", "→M", "undo", "M"]
    let input := text.toUTF8.data.toList
    let around : Surroundings := ⟨input, false, false, ⟨fun i => if i < 2 then 0.25 else 0.75, 0⟩⟩
    let draws : Draws := ⟨fun _ => 0.75, 0⟩
    let lines := (Text.decode (Text.lines input)).1
    let s := (Session.new.pressWords draws words).1
    Text.Laid text.toList words ∧ words ≠ [] ∧ s.memory? = some 0.75 ∧ s.engine.drawCount = 0 ∧
      (Session.new.pressLines around.draws lines).1 = s ∧
      Program.EndsWith (.of settings around) (s.report draws).1 4
        (Program.perform settings around (.eval [] [])) := by
  intro settings text words input around draws lines s
  have laid : Text.Laid text.toList words := (Text.words_eq_iff text words).1 (by decide)
  have nonempty : words ≠ [] := List.cons_ne_nil _ _
  obtain ⟨_, _, _, alike, _, printed⟩ :=
    perform_text_eq_perform_words settings around [] [] laid nonempty fun x => 0 ≤ x ∧ x < 1
  have read : lines = Text.linesOf text := congrArg Prod.fst (Text.decode_lines_toUTF8 text)
  have kept : (Session.new.kept around.draws (Request.ofLines lines)) =
      Session.new.kept draws (words.map .word) := by rw [read]; decide
  have session := alike around.draws draws kept
  have drawless : s.engine.drawCount = 0 := rfl
  have ends := (printed around.draws draws session).2 drawless
  have report := Session.report_congr drawless (Session.new.pressWords draws words).2 draws
  have count : lines.length = 4 := by rw [read]; decide
  exact ⟨laid, nonempty, rfl, drawless, session, count ▸ report ▸ ends⟩

/-- With a value of the generator in the memory line breaks do tell: on lines, a report takes the
values that the words would store. -/
theorem perform_text_ne_perform_words :
    let settings : Settings := ⟨.normal, .never, .json, .empty⟩
    let text := "rand\n→M undo M"
    let words := ["rand", "→M", "undo", "M"]
    let input := text.toUTF8.data.toList
    let draws : Draws := ⟨fun i => if i < 2 then 0.25 else 0.75, 0⟩
    let around : Surroundings := ⟨input, false, false, draws⟩
    let lines := (Text.decode (Text.lines input)).1
    let s := (Session.new.pressWords draws words).1
    let t := (Session.new.pressLines draws lines).1
    Text.Laid text.toList words ∧ words ≠ [] ∧ s.engine.drawCount = 0 ∧
      s.memory? = some 0.25 ∧ t.memory? = some 0.75 ∧ t ≠ s ∧
      ¬ Program.EndsWith (.of settings around) (s.report draws).1 2
        (Program.perform settings around (.eval [] [])) := by
  intro settings text words input draws around lines s t
  have laid : Text.Laid text.toList words := (Text.words_eq_iff text words).1 (by decide)
  have split : Text.linesOf text = ["rand", "→M undo M"] := by decide
  have read : lines = ["rand", "→M undo M"] :=
    (congrArg Prod.fst (Text.decode_lines_toUTF8 text)).trans split
  have later : t.memory? = some 0.75 := by
    change (Session.new.pressLines draws lines).1.memory? = _
    rw [read]
    rfl
  refine ⟨laid, List.cons_ne_nil _ _, rfl, rfl, later, ?_, ?_⟩
  · rintro same
    rw [same] at later
    exact absurd later (by decide)
  · rintro ⟨earlier, last, count, printed, -, exact⟩
    obtain ⟨first, rfl⟩ := List.length_eq_one_iff.1 (Nat.succ.inj count)
    obtain rfl := exact (.inl rfl)
    -- The reports on the second line and on the words are as long, and differ.
    have texts : Program.perform settings around (.eval [] []) =
        (String.join ((Session.new.reports draws ["rand", "→M undo M"]).map
          (Program.Printer.of settings around).print), none) := by
      change Program.evalLines _ _ _ _ = _
      simp only [Program.evalLines, around, input, Text.decode_lines_toUTF8, split]
      rfl
    rw [texts, Prod.mk.injEq] at printed
    have written (r : Report) : ((Program.Printer.of settings around).print r).toList =
        r.write ++ "\n".toList := by
      rw [Program.Printer.print, String.toList_append]
      exact congrArg (· ++ _) String.toList_ofList
    have chars := congrArg String.toList printed.1
    simp only [Session.reports, List.map_cons, List.map_nil, List.cons_append, List.nil_append,
      String.toList_join, List.flatMap_cons, List.flatMap_nil, List.append_nil, written] at chars
    have ends := (List.append_inj' chars (by decide +kernel)).2
    exact absurd ends (by decide +kernel)

end Keytape
