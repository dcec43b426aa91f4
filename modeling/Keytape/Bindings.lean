/-! Tables of bound names.

A table is kept sorted by name, each name once, so it has one form for each set of
bindings, whatever the order in which they were made.
-/

set_option autoImplicit false

namespace Keytape

/-- A table of names and their values, in ascending order of names. -/
structure Bindings where
  entries : List (String × Float)
  sorted : entries.Pairwise (fun a b => a.1 < b.1)

namespace Bindings

def empty : Bindings := ⟨[], .nil⟩

instance : Inhabited Bindings := ⟨empty⟩

def lookup (b : Bindings) (name : String) : Option Float := b.entries.lookup name

/-- Places an entry before the first larger name, replacing an equal one. -/
def place (name : String) (x : Float) : List (String × Float) → List (String × Float)
  | [] => [(name, x)]
  | (n, y) :: rest =>
    if name < n then (name, x) :: (n, y) :: rest
    else if n < name then (n, y) :: place name x rest
    else (name, x) :: rest

theorem mem_place {name : String} {x : Float} {entry : String × Float} :
    ∀ {l : List (String × Float)}, entry ∈ place name x l → entry = (name, x) ∨ entry ∈ l
  | [], h => by simpa [place] using h
  | (n, y) :: rest, h => by
    unfold place at h
    split at h
    · simpa using h
    · split at h
      · rcases List.mem_cons.1 h with h | h
        · exact .inr (h ▸ List.mem_cons_self)
        · exact (mem_place h).imp id (List.mem_cons_of_mem _)
      · rcases List.mem_cons.1 h with h | h
        · exact .inl h
        · exact .inr (List.mem_cons_of_mem _ h)

theorem sorted_place (name : String) (x : Float) :
    ∀ {l : List (String × Float)}, l.Pairwise (fun a b => a.1 < b.1) →
      (place name x l).Pairwise (fun a b => a.1 < b.1)
  | [], _ => by simp [place]
  | (n, y) :: rest, h => by
    obtain ⟨first, later⟩ := List.pairwise_cons.1 h
    unfold place
    split
    · rename_i before
      refine List.pairwise_cons.2 ⟨fun e he => ?_, h⟩
      rcases List.mem_cons.1 he with he | he
      · exact he ▸ before
      · exact String.lt_trans before (first e he)
    · split
      · rename_i after
        refine List.pairwise_cons.2 ⟨fun e he => ?_, sorted_place name x later⟩
        rcases mem_place he with he | he
        · exact he ▸ after
        · exact first e he
      · rename_i notBefore notAfter
        have same : name = n := String.le_antisymm (String.not_lt.1 notAfter) (String.not_lt.1 notBefore)
        exact List.pairwise_cons.2 ⟨fun e he => same ▸ first e he, later⟩

def insert (b : Bindings) (name : String) (x : Float) : Bindings :=
  ⟨place name x b.entries, sorted_place name x b.sorted⟩

def erase (b : Bindings) (name : String) : Bindings :=
  ⟨b.entries.filter (fun e => e.1 != name), b.sorted.filter _⟩

/-! ## Lookups -/

@[simp] theorem lookup_empty (name : String) : empty.lookup name = none := rfl

theorem lookup_entry (n : String) (y : Float) (rest : List (String × Float)) (name : String) :
    ((n, y) :: rest).lookup name = if name = n then some y else rest.lookup name := by
  by_cases h : name = n
  · simp [h]
  · have differs : (name == n) = false := by simpa using h
    simp [List.lookup_cons, h, differs]

theorem lookup_place (name : String) (x : Float) (other : String) (l : List (String × Float)) :
    (place name x l).lookup other = if other = name then some x else l.lookup other := by
  induction l with
  | nil => simp [place, lookup_entry]
  | cons entry rest ih =>
    obtain ⟨n, y⟩ := entry
    unfold place
    split
    · simp only [lookup_entry]
    · split
      · rename_i after
        have ne : n ≠ name := fun same => String.lt_irrefl name (same ▸ after)
        simp only [lookup_entry, ih]
        by_cases h : other = n <;> simp [h, ne]
      · rename_i notBefore notAfter
        have same : name = n := String.le_antisymm (String.not_lt.1 notAfter) (String.not_lt.1 notBefore)
        subst same
        simp only [lookup_entry]
        by_cases h : other = name <;> simp [h]

theorem lookup_insert (b : Bindings) (name : String) (x : Float) (other : String) :
    (b.insert name x).lookup other = if other = name then some x else b.lookup other :=
  lookup_place name x other b.entries

theorem lookup_without (name other : String) (l : List (String × Float)) :
    (l.filter fun e => e.1 != name).lookup other = if other = name then none else l.lookup other := by
  induction l with
  | nil => simp
  | cons entry rest ih =>
    obtain ⟨n, y⟩ := entry
    rw [List.filter_cons, lookup_entry]
    by_cases hn : n = name
    · have dropped : ((n, y).1 != name) = false := by simpa using hn
      rw [dropped, if_neg Bool.false_ne_true, ih, hn]
      by_cases h : other = name <;> simp [h]
    · have kept : ((n, y).1 != name) = true := by simpa using hn
      rw [kept, if_pos rfl, lookup_entry, ih]
      by_cases h : other = n <;> simp [h, hn]

theorem lookup_erase (b : Bindings) (name other : String) :
    (b.erase name).lookup other = if other = name then none else b.lookup other :=
  lookup_without name other b.entries

/-! ## Rebuilding -/

theorem ext {a b : Bindings} (same : a.entries = b.entries) : a = b := by
  cases a
  cases b
  cases same
  rfl

theorem place_last {name : String} (x : Float) {l : List (String × Float)}
    (before : ∀ entry ∈ l, entry.1 < name) : place name x l = l ++ [(name, x)] := by
  induction l with
  | nil => rfl
  | cons entry rest ih =>
    have first := before entry List.mem_cons_self
    have later := ih fun e member => before e (List.mem_cons_of_mem entry member)
    rw [place, if_neg (String.lt_asymm first), if_pos first, later]
    rfl

/-- The next entry of a table goes behind those that were taken over before it. -/
theorem entries_eq_insert_append {all acc : Bindings} {name : String} {x : Float}
    {later : List (String × Float)} (split : all.entries = acc.entries ++ (name, x) :: later) :
    all.entries = (acc.insert name x).entries ++ later := by
  have sorted := all.sorted
  rw [split] at sorted
  have before : ∀ e ∈ acc.entries, e.1 < name := fun e member =>
    (List.pairwise_append.1 sorted).2.2 e member _ List.mem_cons_self
  have placed : (acc.insert name x).entries = acc.entries ++ [(name, x)] := place_last x before
  rw [split, placed, List.append_assoc, List.singleton_append]

end Bindings

end Keytape
