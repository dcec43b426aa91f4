import Keytape.Key
import Keytape.Proofs.Locality
import Keytape.Report

/-! What pressing keys takes from the draws.

Reports draw values and so does storing, but only what is stored is kept. Where on the tape of
draws these values stand depends on the engine alone. Main statements: reports in between make
no difference to the session if the values that were stored come from the same draws, and they
never force these to be different ones.
-/

set_option autoImplicit false

namespace Keytape

theorem Draws.take_eq_map (d : Draws) (n : Nat) : d.take n = (List.range' d.used n).map d.source := by
  induction n generalizing d with
  | zero => rfl
  | succ n ih => rw [take, ih, List.range'_succ, List.map_cons]; rfl

def Draws.All (p : Float → Prop) (d : Draws) : Prop := ∀ i, p (d.source i)

/-- Values can be put at any positions that differ, and `filler` elsewhere. -/
theorem Draws.exists_source {p : Float → Prop} {filler : Float} (fill : p filler)
    {positions : List Nat} (distinct : positions.Nodup) {xs : List Float}
    (length : positions.length = xs.length) (within : ∀ x ∈ xs, p x) :
    ∃ source : Nat → Float, positions.map source = xs ∧ ∀ i, p (source i) := by
  induction positions generalizing xs with
  | nil => exact ⟨fun _ => filler, (List.length_eq_zero_iff.1 length.symm).symm, fun _ => fill⟩
  | cons i rest ih =>
    obtain ⟨x, later, rfl⟩ := List.exists_cons_of_length_eq_add_one length.symm
    obtain ⟨fresh, distinct⟩ := List.nodup_cons.1 distinct
    obtain ⟨first, within⟩ := List.forall_mem_cons.1 within
    obtain ⟨source, values, all⟩ := ih distinct (Nat.succ.inj length) within
    refine ⟨fun j => if j = i then x else source j, ?_, fun j => ?_⟩
    · rw [List.map_cons, if_pos rfl, ← values]
      refine congrArg (x :: ·) (List.map_congr_left fun j mem => if_neg ?_)
      exact fun same => fresh (same ▸ mem)
    · dsimp only
      split
      · exact first
      · exact all j

/-! ## Keys -/

namespace Key

def drawCount (k : Key) (s : Session) : Nat :=
  match k with
  | .storeMemory => s.engine.drawCount
  | _ => 0

variable (k : Key) {s s' : Session} {draws draws' : Draws}

theorem draws_press (s : Session) (draws : Draws) :
    (k.press s draws).2 = draws.skip (k.drawCount s) := by
  cases k <;> rfl

theorem press_congr (same : draws.take (k.drawCount s) = draws'.take (k.drawCount s)) :
    (k.press s draws).1 = (k.press s draws').1 := by
  cases k with
  | storeMemory =>
    have value : s.currentValue draws = s.currentValue draws' := by
      rw [Session.currentValue, s.evaluate_congr same, Session.currentValue]
    exact congrArg s.store value
  | _ => rfl

theorem drawCount_congr (same : s.engine = s'.engine) : k.drawCount s = k.drawCount s' := by
  cases k with
  | storeMemory => exact congrArg Engine.drawCount same
  | _ => rfl

/-- What a key does to the engine does not depend on the memory. -/
theorem engine_press_congr (same : s.engine = s'.engine) :
    (k.press s draws).1.engine = (k.press s' draws').1.engine := by
  cases k with
  | storeMemory => exact same
  | clearMemory => exact same
  | clear => rfl
  | undo => exact congrArg Engine.undo same
  | _ => exact congrArg (Engine.append · _) same

theorem drawCount_of_drawless (drawless : s.engine.drawCount = 0) : k.drawCount s = 0 := by
  cases k with
  | storeMemory => exact drawless
  | _ => rfl

theorem eq_of_ofWord {w symbol : String} (h : ofWord w = .operation symbol) : symbol = w := by
  unfold ofWord ofName at h
  grind

theorem drawCount_press_le {w : String} (other : w ≠ "rand") (s : Session) (draws : Draws) :
    ((ofWord w).press s draws).1.engine.drawCount ≤ s.engine.drawCount := by
  have append (t : Token) (idle : t.isDraw = false) :
      (s.append t).engine.drawCount ≤ s.engine.drawCount := by
    change (s.engine.tape.toList ++ [t]).countP Token.isDraw ≤ _
    rw [List.countP_append, List.countP_singleton, idle]
    exact Nat.le_refl _
  cases key : ofWord w with
  | storeMemory => exact Nat.le_refl _
  | clearMemory => exact Nat.le_refl _
  | clear => exact Nat.zero_le _
  | undo => exact List.Sublist.countP_le (List.dropLast_sublist _)
  | operation symbol =>
    refine append _ (beq_eq_false_iff_ne.2 fun random => other ?_)
    exact (eq_of_ofWord key).symm.trans (Operation.symbol_eq_of_ofSymbol? random).symm
  | _ => exact append _ rfl

end Key

/-! ## Requests -/

/-- What a session is asked for: to take a word, or to report. -/
inductive Request where
  | word (w : String)
  | report

def Request.words : List Request → List String
  | [] => []
  | .word w :: rest => w :: words rest
  | .report :: rest => words rest

theorem Request.words_map_append (ws : List String) (later : List Request) :
    words (ws.map .word ++ later) = ws ++ words later := by
  induction ws with
  | nil => rfl
  | cons w rest ih => rw [List.map_cons, List.cons_append, words, ih, List.cons_append]

theorem Request.words_map (ws : List String) : words (ws.map .word) = ws := by
  have alone := words_map_append ws []
  rwa [List.append_nil, words, List.append_nil] at alone

namespace Session

def answer (s : Session) (draws : Draws) : Request → Session × Draws
  | .word w => (Key.ofWord w).press s draws
  | .report => (s, (s.report draws).2)

def answerAll (s : Session) (draws : Draws) (requests : List Request) : Session × Draws :=
  requests.foldl (fun (s, draws) r => s.answer draws r) (s, draws)

def takeCount (s : Session) : Request → Nat
  | .word w => (Key.ofWord w).drawCount s
  | .report => s.engine.drawCount + s.engine.drawCount

def keepCount (s : Session) : Request → Nat
  | .word w => (Key.ofWord w).drawCount s
  | .report => 0

/-- The positions of the draws that go into the memory. -/
def keptAt (s : Session) (draws : Draws) : List Request → List Nat
  | [] => []
  | r :: rest =>
    let next := s.answer draws r
    List.range' draws.used (s.keepCount r) ++ next.1.keptAt next.2 rest

def kept (s : Session) (draws : Draws) (requests : List Request) : List Float :=
  (s.keptAt draws requests).map draws.source

variable {s s' : Session} {draws draws' : Draws}

theorem answerAll_cons (s : Session) (draws : Draws) (r : Request) (rest : List Request) :
    s.answerAll draws (r :: rest) = (s.answer draws r).1.answerAll (s.answer draws r).2 rest :=
  rfl

theorem answerAll_append (s : Session) (draws : Draws) (first later : List Request) :
    s.answerAll draws (first ++ later) =
      (s.answerAll draws first).1.answerAll (s.answerAll draws first).2 later :=
  List.foldl_append

theorem answerAll_words (s : Session) (draws : Draws) (words : List String) :
    s.answerAll draws (words.map .word) = s.pressWords draws words :=
  List.foldl_map

theorem draws_answer (s : Session) (draws : Draws) (r : Request) :
    (s.answer draws r).2 = draws.skip (s.takeCount r) := by
  cases r with
  | word w => exact (Key.ofWord w).draws_press s draws
  | report => exact Draws.skip_skip _ _ _

theorem keepCount_le (s : Session) (r : Request) : s.keepCount r ≤ s.takeCount r := by
  cases r with
  | word w => exact Nat.le_refl _
  | report => exact Nat.zero_le _

theorem engine_answer_congr (same : s.engine = s'.engine) (r : Request) :
    (s.answer draws r).1.engine = (s'.answer draws' r).1.engine := by
  cases r with
  | word w => exact (Key.ofWord w).engine_press_congr same
  | report => exact same

theorem takeCount_congr (same : s.engine = s'.engine) (r : Request) :
    s.takeCount r = s'.takeCount r := by
  cases r with
  | word w => exact (Key.ofWord w).drawCount_congr same
  | report => rw [takeCount, takeCount, same]

theorem keepCount_congr (same : s.engine = s'.engine) (r : Request) :
    s.keepCount r = s'.keepCount r := by
  cases r with
  | word w => exact (Key.ofWord w).drawCount_congr same
  | report => rfl

/-! ## Positions -/

theorem keptAt_congr (same : s.engine = s'.engine) (used : draws.used = draws'.used)
    (requests : List Request) : s.keptAt draws requests = s'.keptAt draws' requests := by
  induction requests generalizing s s' draws draws' with
  | nil => rfl
  | cons r rest ih =>
    have later : (s.answer draws r).2.used = (s'.answer draws' r).2.used := by
      rw [draws_answer, draws_answer, Draws.skip, Draws.skip, used, takeCount_congr same]
    rw [keptAt, keptAt, used, keepCount_congr same, ih (engine_answer_congr same r) later]

theorem used_le_of_mem_keptAt {requests : List Request} {i : Nat}
    (mem : i ∈ s.keptAt draws requests) : draws.used ≤ i := by
  induction requests generalizing s draws with
  | nil => cases mem
  | cons r rest ih =>
    rcases List.mem_append.1 mem with first | later
    · exact (List.mem_range'_1.1 first).1
    · have moved := ih later
      rw [draws_answer] at moved
      exact Nat.le_trans (Nat.le_add_right _ _) moved

theorem nodup_keptAt (s : Session) (draws : Draws) (requests : List Request) :
    (s.keptAt draws requests).Nodup := by
  induction requests generalizing s draws with
  | nil => exact List.nodup_nil
  | cons r rest ih =>
    refine List.nodup_append.2 ⟨List.nodup_range', ih _ _, fun i first j later same => ?_⟩
    -- What later requests keep stands behind all that this one draws.
    have moved := used_le_of_mem_keptAt later
    rw [draws_answer] at moved
    have within := (List.mem_range'_1.1 first).2
    have count := s.keepCount_le r
    change draws.used + s.takeCount r ≤ j at moved
    omega

theorem kept_cons (s : Session) (draws : Draws) (r : Request) (rest : List Request) :
    s.kept draws (r :: rest) = draws.take (s.keepCount r) ++
      (s.answer draws r).1.kept (s.answer draws r).2 rest := by
  have source : (s.answer draws r).2.source = draws.source := by rw [draws_answer, Draws.skip]
  rw [kept, keptAt, List.map_append, ← Draws.take_eq_map, kept, source]

/-- Reports do not change how many draws go into the memory. -/
theorem length_kept_words (same : s.engine = s'.engine) (requests : List Request) :
    (s.kept draws requests).length = (s'.kept draws' ((Request.words requests).map .word)).length := by
  induction requests generalizing s s' draws draws' with
  | nil => rfl
  | cons r rest ih =>
    cases r with
    | report => rw [kept_cons]; exact ih same
    | word w =>
      rw [Request.words, List.map_cons, kept_cons, kept_cons, List.length_append, List.length_append,
        Draws.length_take, Draws.length_take, keepCount_congr same,
        ih (engine_answer_congr same (.word w))]

theorem forall_mem_kept {p : Float → Prop} (all : draws.All p) (s : Session)
    (requests : List Request) : ∀ x ∈ s.kept draws requests, p x :=
  List.forall_mem_map.2 fun i _ => all i

/-- What one run draws for the memory, another can draw as well. -/
theorem exists_kept_eq {p : Float → Prop} (all : draws.All p) (s : Session)
    (requests : List Request) {xs : List Float}
    (length : (s.kept draws requests).length = xs.length) (within : ∀ x ∈ xs, p x) :
    ∃ draws' : Draws, draws'.All p ∧ s.kept draws' requests = xs := by
  rw [kept, List.length_map] at length
  obtain ⟨source, values, each⟩ :=
    Draws.exists_source (all 0) (s.nodup_keptAt draws requests) length within
  have used : (Draws.mk source draws.used).used = draws.used := rfl
  have positions := keptAt_congr (s := s) rfl used requests
  refine ⟨⟨source, draws.used⟩, each, ?_⟩
  rw [kept, positions]
  exact values

/-! ## Sessions -/

theorem drawless_answerAll {requests : List Request} (other : "rand" ∉ Request.words requests)
    (drawless : s.engine.drawCount = 0) (draws : Draws) :
    s.kept draws requests = [] ∧ (s.answerAll draws requests).1.engine.drawCount = 0 := by
  induction requests generalizing s draws with
  | nil => exact ⟨rfl, drawless⟩
  | cons r rest ih =>
    rw [kept_cons, answerAll_cons]
    cases r with
    | report =>
      exact ih other drawless _
    | word w =>
      obtain ⟨first, later⟩ := not_or.1 (mt List.mem_cons.2 other)
      have count : s.keepCount (.word w) = 0 := (Key.ofWord w).drawCount_of_drawless drawless
      have next := Key.drawCount_press_le (Ne.symm first) s draws
      rw [count, Draws.take_zero, List.nil_append]
      exact ih later (Nat.le_zero.1 (drawless ▸ next)) _

theorem answerAll_eq_pressWords {requests : List Request}
    (same : s.kept draws requests = s.kept draws' ((Request.words requests).map .word)) :
    (s.answerAll draws requests).1 = (s.pressWords draws' (Request.words requests)).1 := by
  rw [← answerAll_words]
  induction requests generalizing s draws draws' with
  | nil => rfl
  | cons r rest ih =>
    cases r with
    | report =>
      rw [kept_cons] at same
      exact ih same
    | word w =>
      rw [Request.words, List.map_cons] at same ⊢
      rw [kept_cons, kept_cons] at same
      obtain ⟨first, later⟩ := List.append_inj same (by rw [Draws.length_take, Draws.length_take])
      have session : (s.answer draws (.word w)).1 = (s.answer draws' (.word w)).1 :=
        (Key.ofWord w).press_congr first
      rw [answerAll_cons, answerAll_cons, ← session]
      refine ih ?_
      rw [later, session]

/-- Without `rand` requests lead to the session of the words, whatever is drawn. -/
theorem answerAll_of_drawless {requests : List Request} (other : "rand" ∉ Request.words requests)
    (drawless : s.engine.drawCount = 0) (draws draws' : Draws) :
    (s.answerAll draws requests).1 = (s.pressWords draws' (Request.words requests)).1 ∧
      (s.pressWords draws (Request.words requests)).1.engine.drawCount = 0 := by
  have alone := drawless_answerAll ((Request.words_map (Request.words requests)).symm ▸ other) drawless
  rw [← answerAll_words s draws]
  refine ⟨answerAll_eq_pressWords ?_, (alone draws).2⟩
  rw [(drawless_answerAll other drawless draws).1, (alone draws').1]

section
variable {p : Float → Prop} (s : Session) (requests : List Request)

/-- The session after requests is one that the words alone can lead to. -/
theorem exists_pressWords_eq (all : draws.All p) : ∃ draws', draws'.All p ∧
    (s.answerAll draws requests).1 = (s.pressWords draws' (Request.words requests)).1 := by
  obtain ⟨draws', all', same⟩ := exists_kept_eq all s ((Request.words requests).map .word)
    (length_kept_words rfl requests).symm (forall_mem_kept all s requests)
  exact ⟨draws', all', answerAll_eq_pressWords same.symm⟩

/-- The session after words is one that the requests can lead to. -/
theorem exists_answerAll_eq (all : draws'.All p) : ∃ draws, draws.All p ∧
    (s.answerAll draws requests).1 = (s.pressWords draws' (Request.words requests)).1 := by
  obtain ⟨draws, all', same⟩ := exists_kept_eq all s requests (length_kept_words rfl requests)
    (forall_mem_kept all s ((Request.words requests).map .word))
  exact ⟨draws, all', answerAll_eq_pressWords same⟩

/-- Requests lead to the session of the words in any two runs just if the words lead to one. -/
theorem answerAll_settled_iff :
    (∀ draws draws', draws.All p → draws'.All p →
      (s.answerAll draws requests).1 = (s.pressWords draws' (Request.words requests)).1) ↔
    ∀ draws draws', draws.All p → draws'.All p →
      (s.pressWords draws (Request.words requests)).1 =
        (s.pressWords draws' (Request.words requests)).1 := by
  constructor
  · intro agree draws draws' all all'
    exact (agree draws draws all all).symm.trans (agree draws draws' all all')
  · intro settled draws draws' all all'
    obtain ⟨drawn, within, same⟩ := s.exists_pressWords_eq requests all
    exact same.trans (settled drawn draws' within all')

end

end Session

end Keytape
