import Keytape.Curve
import Keytape.Proofs.Binary.Value

/-! Values in ascending order.

Values are sorted by ≤, which orders numbers only, and repetitions are erased by numeric
equality. Main statements: numbers come out strictly ascending, and without a negative zero among
them the total order sorts them alike. In an ascending list the values up to a bound come first,
and behind those below it the ones that equal it.
-/

set_option autoImplicit false

namespace Keytape

open Binary

/-! ## Lists -/

section
variable {α : Type} {p q : α → Bool} {l : List α}

theorem filter_eq_takeWhile (order : l.Pairwise fun x y => p y → p x) :
    l.filter p = l.takeWhile p := by
  induction l with
  | nil => rfl
  | cons a l ih =>
    obtain ⟨head, tail⟩ := List.pairwise_cons.1 order
    by_cases kept : p a
    · rw [List.filter_cons_of_pos kept, List.takeWhile_cons_of_pos kept, ih tail]
    · rw [List.filter_cons_of_neg kept, List.takeWhile_cons_of_neg kept]
      exact List.filter_eq_nil_iff.2 fun y mem later => kept (head y mem later)

theorem filter_or_eq_append (apart : ∀ x ∈ l, p x → q x = false)
    (order : l.Pairwise fun x y => q x → p y = false) :
    l.filter (fun x => p x || q x) = l.filter p ++ l.filter q := by
  induction l with
  | nil => rfl
  | cons a l ih =>
    obtain ⟨head, tail⟩ := List.pairwise_cons.1 order
    have later := ih (fun x mem => apart x (List.mem_cons_of_mem _ mem)) tail
    by_cases before : p a
    · simp [before, apart a List.mem_cons_self before, later]
    · by_cases behind : q a
      · have none : l.filter p = [] :=
          List.filter_eq_nil_iff.2 fun y mem => by simp [head y mem behind]
        simp [before, behind, later, none]
      · simp [before, behind, later]

theorem getElem?_of_takeWhile {i : Nat} {x : α} (here : (l.takeWhile p)[i]? = some x) :
    l[i]? = some x := by
  obtain ⟨bound, rfl⟩ := List.getElem?_eq_some_iff.1 here
  exact List.prefix_iff_getElem?.1 (List.takeWhile_prefix p) i bound

theorem getElem?_takeWhile_of_kept {i : Nat} (kept : ∀ j ≤ i, ∀ x, l[j]? = some x → p x) :
    (l.takeWhile p)[i]? = l[i]? := by
  induction l generalizing i with
  | nil => rfl
  | cons a l ih =>
    rw [List.takeWhile_cons_of_pos (kept 0 (Nat.zero_le i) a rfl)]
    cases i with
    | zero => rfl
    | succ i => exact ih fun j le x here => kept (j + 1) (Nat.succ_le_succ le) x here

theorem mem_eraseRepsBy_loop {r : α → α → Bool} {a x : α} {acc : List α}
    (same : ∀ u ∈ a :: l, ∀ v ∈ a :: l, r u v → u = v) :
    x ∈ List.eraseRepsBy.loop r a l acc ↔ x ∈ acc ∨ x ∈ a :: l := by
  induction l generalizing a acc with
  | nil => simp [List.eraseRepsBy.loop, or_comm]
  | cons b l ih =>
    have later : ∀ u ∈ b :: l, ∀ v ∈ b :: l, r u v → u = v :=
      fun u left v right => same u (.tail a left) v (.tail a right)
    rw [List.eraseRepsBy.loop]
    split
    · rename_i repeated
      obtain rfl := same a (by simp) b (by simp) repeated
      rw [ih later]
      simp
    · rw [ih later]
      simp [or_assoc, or_left_comm]

theorem mem_eraseReps [BEq α] {x : α} (same : ∀ u ∈ l, ∀ v ∈ l, u == v → u = v) :
    x ∈ l.eraseReps ↔ x ∈ l := by
  cases l with
  | nil => rfl
  | cons a l =>
    rw [List.eraseReps, List.eraseRepsBy, mem_eraseRepsBy_loop same]
    simp

/-- What the loop has put aside ascends strictly and stays below all that is to come. -/
theorem pairwise_eraseRepsBy_loop {r : α → α → Bool} {le lt : α → α → Prop}
    (strict : ∀ x y, le x y → r x y = false → lt x y) (trans : ∀ x y z, lt x y → le y z → lt x z)
    {a : α} {acc : List α} (order : (a :: l).Pairwise le)
    (below : ∀ z ∈ acc, ∀ x ∈ a :: l, lt z x) (done : acc.reverse.Pairwise lt) :
    (List.eraseRepsBy.loop r a l acc).Pairwise lt := by
  have put {acc' : List α} (inner : acc'.reverse.Pairwise lt) {u : α} (below : ∀ z ∈ acc', lt z u) :
      (u :: acc').reverse.Pairwise lt := by
    rw [List.reverse_cons, List.pairwise_append]
    simpa [inner] using below
  induction l generalizing a acc with
  | nil =>
    rw [List.eraseRepsBy.loop]
    exact put done fun z mem => below z mem a List.mem_cons_self
  | cons b l ih =>
    obtain ⟨head, tail⟩ := List.pairwise_cons.1 order
    rw [List.eraseRepsBy.loop]
    split
    -- The second of two equal neighbours goes, so what remains is a sublist.
    · have shorter : (a :: l).Sublist (a :: b :: l) := (List.sublist_cons_self b l).cons_cons a
      exact ih (order.sublist shorter) (fun z mem x here => below z mem x (shorter.subset here)) done
    · rename_i apart
      have next : lt a b := strict a b (head b List.mem_cons_self) apart
      -- What is put aside now is below its neighbour, and by that below all behind it.
      refine ih tail (fun z mem x here => ?_) (put done fun z mem => below z mem a List.mem_cons_self)
      rcases List.mem_cons.1 mem with rfl | mem
      · rcases List.mem_cons.1 here with rfl | here
        · exact next
        · exact trans _ b x next ((List.pairwise_cons.1 tail).1 x here)
      · exact below z mem x (List.mem_cons_of_mem _ here)

theorem pairwise_eraseReps [BEq α] {le lt : α → α → Prop}
    (strict : ∀ x y, le x y → (x == y) = false → lt x y)
    (trans : ∀ x y z, lt x y → le y z → lt x z) (order : l.Pairwise le) :
    l.eraseReps.Pairwise lt := by
  cases l with
  | nil => exact .nil
  | cons a l =>
    rw [List.eraseReps, List.eraseRepsBy]
    exact pairwise_eraseRepsBy_loop strict trans order (by simp) (by simp)

theorem eraseRepsBy_loop_sublist (r : α → α → Bool) (a : α) (l acc : List α) :
    (List.eraseRepsBy.loop r a l acc).Sublist (acc.reverse ++ a :: l) := by
  induction l generalizing a acc with
  | nil => simp [List.eraseRepsBy.loop]
  | cons b l ih =>
    rw [List.eraseRepsBy.loop]
    split
    · exact (ih a acc).trans (((List.sublist_cons_self b l).cons_cons a).append_left _)
    · simpa using ih b (a :: acc)

theorem eraseReps_sublist [BEq α] (l : List α) : l.eraseReps.Sublist l := by
  cases l with
  | nil => exact .slnil
  | cons a l => exact eraseRepsBy_loop_sublist (· == ·) a l []

end

/-! ## Values -/

/-- The values sorted by ≤, each once. -/
def ascending (l : List Float) : List Float := (l.mergeSort fun a b => a ≤ b).eraseReps

section
variable {l : List Float} {x bound : Float}

theorem mem_ascending (same : ∀ x ∈ l, ∀ y ∈ l, x == y → x = y) : x ∈ ascending l ↔ x ∈ l := by
  rw [ascending, mem_eraseReps, List.mem_mergeSort]
  simpa using same

theorem pairwise_mergeSort_of_numbers (numbers : ∀ x ∈ l, ∃ v, number? x = some v) :
    (l.mergeSort fun a b => a ≤ b).Pairwise (· ≤ ·) := by
  let f (x : Float) : ℚ := (number? x).getD 0
  have compared {x y : Float} (left : x ∈ l) (right : y ∈ l) : x ≤ y ↔ f x ≤ f y := by
    obtain ⟨v, hx⟩ := numbers x left
    obtain ⟨w, hy⟩ := numbers y right
    rw [le_iff hx hy]
    simp [f, hx, hy]
  have mapped : (l.mergeSort fun a b => a ≤ b).map f = (l.map f).mergeSort fun v w => v ≤ w :=
    List.map_mergeSort fun x left y right => by rw [decide_eq_decide, compared left right]
  have sorted : ((l.map f).mergeSort fun v w => v ≤ w).Pairwise fun v w => decide (v ≤ w) = true :=
    List.pairwise_mergeSort (fun u v w => by simpa using le_trans)
      (fun v w => by simpa using le_total v w) _
  rw [← mapped, List.pairwise_map] at sorted
  exact sorted.imp_of_mem fun left right order =>
    (compared (List.mem_mergeSort.1 left) (List.mem_mergeSort.1 right)).2 (of_decide_eq_true order)

/-- Numbers other than the negative zero are in the total order as in the usual one. -/
theorem totalLe_eq {y : Float} {v w : ℚ} (hx : number? x = some v) (hy : number? y = some w)
    (zero : y ≠ -0.0) : totalLe x y = decide (x ≤ y) := by
  unfold totalLe
  split
  · rename_i fields
    rw [number?, fields] at hy
    cases hy
  · rename_i fields _
    rw [number?, fields] at hx
    cases hx
  · rename_i fields
    exact absurd (eq_of_unpack fields) zero
  · rfl

theorem mergeSort_totalLe (numbers : ∀ x ∈ l, ∃ v, number? x = some v) (zero : -0.0 ∉ l) :
    l.mergeSort totalLe = l.mergeSort fun a b => a ≤ b := by
  have compared : ∀ x ∈ l, ∀ y ∈ l, totalLe x y = decide (id x ≤ id y) := by
    intro x left y right
    obtain ⟨v, hx⟩ := numbers x left
    obtain ⟨w, hy⟩ := numbers y right
    exact totalLe_eq hx hy fun same => zero (same ▸ right)
  have sorted := List.map_mergeSort (s := fun x y : Float => decide (x ≤ y)) (f := id) compared
  rwa [List.map_id, List.map_id] at sorted

theorem pairwise_ascending (numbers : ∀ x ∈ l, ∃ v, number? x = some v) :
    (ascending l).Pairwise (· < ·) := by
  refine pairwise_eraseReps (fun x y le differ => ?_) (fun x y z => lt_trans_le)
    (pairwise_mergeSort_of_numbers numbers)
  exact ((le_iff_lt_or_beq x y).1 le).resolve_right (by simp [differ])

theorem length_ascending_le (l : List Float) : (ascending l).length ≤ l.length :=
  (eraseReps_sublist _).length_le.trans_eq (List.length_mergeSort l)

theorem filter_le_eq_takeWhile (order : l.Pairwise (· ≤ ·)) :
    (l.filter fun x => x ≤ bound) = l.takeWhile fun x => x ≤ bound := by
  refine filter_eq_takeWhile (order.imp fun {x y} le => ?_)
  rw [decide_eq_true_eq, decide_eq_true_eq]
  exact le_trans_le le

theorem filter_lt_eq_takeWhile (order : l.Pairwise (· ≤ ·)) :
    (l.filter fun x => x < bound) = l.takeWhile fun x => x < bound := by
  refine filter_eq_takeWhile (order.imp fun {x y} le => ?_)
  rw [decide_eq_true_eq, decide_eq_true_eq]
  exact le_trans_lt le

/-- The values up to a bound are those below it and then those that equal it. -/
theorem filter_le_eq_append (order : l.Pairwise (· ≤ ·)) :
    (l.filter fun x => x ≤ bound) =
      (l.filter fun x => x < bound) ++ l.filter fun x => x == bound := by
  have split : (fun x : Float => decide (x ≤ bound)) = fun x => decide (x < bound) || x == bound := by
    funext x
    rw [Bool.eq_iff_iff, decide_eq_true_eq, le_iff_lt_or_beq, Bool.or_eq_true, decide_eq_true_eq]
  rw [split]
  refine filter_or_eq_append (fun x _ before => beq_eq_false_of_lt (of_decide_eq_true before))
    (order.imp fun {x y} le equal => decide_eq_false fun before => ?_)
  rw [beq_eq_false_of_lt (le_trans_lt le before)] at equal
  cases equal

end

end Keytape
