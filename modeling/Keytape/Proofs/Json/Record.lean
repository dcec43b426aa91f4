import Keytape.Json.Record
import Keytape.Proofs.Json.Quote

/-! Lists, objects, records and variants read back.

Main statements: a list is read off the texts of its items and a record off an object with its
fields, if each item and each field is read off its own text. A variant is read off its name
or off an object that holds its content under that name.
-/

set_option autoImplicit false

namespace Keytape.Json

open Reader

/-! ## Texts between commas -/

theorem intercalate_cons (text : List Char) (texts : List (List Char)) :
    [','].intercalate (text :: texts) = text ++ texts.flatMap (',' :: ·) := by
  induction texts generalizing text with
  | nil => simp [List.intercalate]
  | cons next texts ih =>
    rw [List.flatMap_cons, List.cons_append, ← ih next]
    simp [List.intercalate, List.intersperse]

theorem length_le_intercalate (texts : List (List Char)) :
    texts.length ≤ ([','].intercalate texts).length + 1 := by
  cases texts with
  | nil => exact Nat.zero_le _
  | cons text texts =>
    have commas : texts.length ≤ (texts.flatMap (',' :: ·)).length := by
      induction texts with
      | nil => exact Nat.le_refl 0
      | cons next texts ih =>
        rw [List.flatMap_cons, List.length_append, List.length_cons, List.length_cons]
        omega
    rw [intercalate_cons, List.length_append, List.length_cons]
    omega

theorem ends_rest (texts : List (List Char)) {close : Char} (mark : close ∈ [',', ':', ']', '\x7d'])
    (rest : List Char) : Ends (texts.flatMap (',' :: ·) ++ close :: rest) := by
  cases texts with
  | nil => exact ends_cons mark rest
  | cons text texts => exact ends_cons (by decide) _

/-! ## Lists -/

def Reader.OpensValue (text : List Char) : Prop := ∃ kind, kind ≠ .stray ∧ Opens text kind

theorem moreItems_end (isFirst : Bool) (s : List Char) :
    moreItems isFirst (']' :: s) = .ok (false, ']' :: s) :=
  bind_apply (peekPastBlanks_cons (by decide) s) _

section
variable {text : List Char} (opens : OpensValue text) (s : List Char)
include opens

theorem moreItems_first : moreItems true (text ++ s) = .ok (true, text ++ s) := by
  obtain ⟨_, notStray, c, rest, rfl, visible, rfl⟩ := opens
  rw [List.cons_append, moreItems, bind_apply (peekPastBlanks_cons visible _)]
  refine congrFun (?_ : _ = (pure true : Reader Bool)) _
  split
  · rename_i ended
    cases ended
  · rename_i closed
    cases closed
    exact absurd rfl notStray
  · rfl
  · rfl

theorem moreItems_next : moreItems false (',' :: (text ++ s)) = .ok (true, text ++ s) := by
  obtain ⟨_, notStray, c, rest, rfl, visible, rfl⟩ := opens
  rw [List.cons_append, moreItems, bind_apply (peekPastBlanks_cons (by decide) _)]
  refine (bind_apply (drop_cons ',' _) _).trans ?_
  rw [bind_apply (peekPastBlanks_cons visible _)]
  refine congrFun (?_ : _ = (pure true : Reader Bool)) _
  split
  · rename_i ended
    cases ended
  · rename_i closed
    cases closed
    exact absurd rfl notStray
  · rfl

end

section
variable {α : Type} {item : Reader α} {write : α → List Char}

theorem items_end (item : Reader α) (fuel : Nat) (isFirst : Bool) (rest : List Char) :
    items item (fuel + 1) isFirst (']' :: rest) = .ok ([], rest) := by
  rw [items, bind_apply (moreItems_end isFirst rest)]
  exact bind_apply (drop_cons ']' rest) _

/-- An item is taken before the others are looked at. -/
theorem items_item {fuel : Nat} {isFirst : Bool} {s s' : List Char}
    (more : moreItems isFirst s = .ok (true, s')) :
    items item (fuel + 1) isFirst s =
      (do let a ← item; let rest ← items item fuel false; return a :: rest : Reader (List α)) s' := by
  rw [items, bind_apply more]
  rfl

/-- The rest of a list after its first item. -/
theorem items_rest (value : ∀ a, Reads item (write a) a) (opens : ∀ a, OpensValue (write a))
    {as : List α} {fuel : Nat} (enough : as.length < fuel) (rest : List Char) :
    items item fuel false ((as.map write).flatMap (',' :: ·) ++ ']' :: rest) = .ok (as, rest) := by
  -- Every item takes one round, and the bracket another.
  induction as generalizing fuel with
  | nil =>
    obtain ⟨fuel, rfl⟩ := Nat.exists_eq_add_one.2 enough
    exact items_end item fuel false rest
  | cons a as ih =>
    obtain ⟨fuel, rfl⟩ := Nat.exists_eq_add_one.2 (Nat.zero_lt_of_lt enough)
    have later := ih (Nat.lt_of_succ_lt_succ enough)
    have ends := ends_rest (as.map write) (by decide : ']' ∈ _) rest
    rw [List.map_cons, List.flatMap_cons, List.append_assoc, List.cons_append,
      items_item (moreItems_next (opens a) _), bind_apply (value a _ ends), bind_apply later]
    rfl

theorem items_start (value : ∀ a, Reads item (write a) a) (opens : ∀ a, OpensValue (write a))
    {as : List α} {fuel : Nat} (enough : as.length < fuel) (rest : List Char) :
    items item fuel true ([','].intercalate (as.map write) ++ ']' :: rest) = .ok (as, rest) := by
  have after := items_rest value opens enough rest
  obtain ⟨fuel, rfl⟩ := Nat.exists_eq_add_one.2 (Nat.zero_lt_of_lt enough)
  cases as with
  | nil => exact items_end item fuel true rest
  | cons a as =>
    rw [List.map_cons, List.flatMap_cons, List.append_assoc, List.cons_append,
      items_item (moreItems_next (opens a) _)] at after
    rw [List.map_cons, intercalate_cons, List.append_assoc, items_item (moreItems_first (opens a) _)]
    exact after

theorem Reads.list {read : Nat → Reader α} {depth : Nat}
    (value : ∀ a, Reads (read depth) (write a) a) (opens : ∀ a, OpensValue (write a))
    (as : List α) : Reads (Reader.list (depth + 1) read) (Json.array (as.map write)) as := by
  refine .of_opens (⟨'[', _, rfl, by decide, rfl⟩ : Opens _ .list) fun rest _ => ?_
  have size := length_le_intercalate (as.map write)
  rw [List.length_map] at size
  rw [Json.array, List.cons_append, List.append_assoc, List.singleton_append]
  refine (nested_cons depth _ '[' _).trans ?_
  rw [bind_apply (rounds_apply _)]
  refine items_start value opens ?_ rest
  rw [List.length_append, List.length_cons]
  omega

end

/-! ## Objects -/

theorem moreMembers_end (isFirst : Bool) (s : List Char) :
    moreMembers isFirst ('\x7d' :: s) = .ok (false, '\x7d' :: s) :=
  bind_apply (peekPastBlanks_cons (by decide) s) _

theorem moreMembers_first (name : String) (s : List Char) :
    moreMembers true (Json.string name ++ s) = .ok (true, Json.string name ++ s) :=
  bind_apply (peekPastBlanks_cons (by decide) _) _

theorem moreMembers_next (name : String) (s : List Char) :
    moreMembers false (',' :: (Json.string name ++ s)) = .ok (true, Json.string name ++ s) := by
  rw [moreMembers, bind_apply (peekPastBlanks_cons (by decide) _)]
  refine (bind_apply (drop_cons ',' _) _).trans ?_
  exact bind_apply (peekPastBlanks_cons (by decide) _) _

section
variable {σ : Type}

/-- A reader left `rest` after this value, or stopped for this cause. -/
def Yields (out : Except Cause σ) (rest : List Char) (result : Except Fault (σ × List Char)) : Prop :=
  match out with
  | .ok a => result = .ok (a, rest)
  | .error cause => ∃ left, result = .error ⟨cause, left⟩

/-- What entering members with these names and texts one after the other makes of a draft:
another draft, or a refusal at the first member that does not fit. -/
inductive Gathers (enter : String → σ → Reader σ) :
    List (String × List Char) → σ → Except Cause σ → Prop where
  | nil (acc : σ) : Gathers enter [] acc (.ok acc)
  | cons {name : String} {text : List Char} {later : List (String × List Char)} {acc acc' : σ}
      {out : Except Cause σ} :
    (∀ rest, Ends rest → enter name acc (':' :: (text ++ rest)) = .ok (acc', rest)) →
      Gathers enter later acc' out → Gathers enter ((name, text) :: later) acc out
  | stop {name : String} {text : List Char} {later : List (String × List Char)} {acc : σ}
      {cause : Cause} :
    (∀ rest, Ends rest → ∃ left, enter name acc (':' :: (text ++ rest)) = .error ⟨cause, left⟩) →
      Gathers enter ((name, text) :: later) acc (.error cause)

variable {enter : String → σ → Reader σ} {acc : σ} {out : Except Cause σ}
variable {entries : List (String × List Char)}

def memberTexts (entries : List (String × List Char)) : List (List Char) :=
  entries.map fun (name, text) => member name text

theorem memberTexts_cons (name : String) (text : List Char) (later : List (String × List Char)) :
    memberTexts ((name, text) :: later) = (Json.string name ++ ':' :: text) :: memberTexts later :=
  rfl

theorem flatMap_memberTexts (name : String) (text : List Char) (later : List (String × List Char))
    (s : List Char) :
    (memberTexts ((name, text) :: later)).flatMap (',' :: ·) ++ s =
      ',' :: (Json.string name ++ ':' :: (text ++ ((memberTexts later).flatMap (',' :: ·) ++ s))) := by
  rw [memberTexts_cons, List.flatMap_cons, List.append_assoc, List.cons_append, List.append_assoc,
    List.cons_append]

theorem intercalate_memberTexts (name : String) (text : List Char)
    (later : List (String × List Char)) (s : List Char) :
    [','].intercalate (memberTexts ((name, text) :: later)) ++ s =
      Json.string name ++ ':' :: (text ++ ((memberTexts later).flatMap (',' :: ·) ++ s)) := by
  rw [memberTexts_cons, intercalate_cons, List.append_assoc, List.append_assoc, List.cons_append]

theorem length_memberTexts (entries : List (String × List Char)) :
    (memberTexts entries).length = entries.length :=
  List.length_map _

theorem members_end (fuel : Nat) (isFirst : Bool) (acc : σ) (rest : List Char) :
    members Reader.string enter (fuel + 1) isFirst acc ('\x7d' :: rest) = .ok (acc, rest) := by
  rw [members, bind_apply (moreMembers_end isFirst rest)]
  exact bind_apply (drop_cons '\x7d' rest) _

theorem members_member {fuel : Nat} {isFirst : Bool} {name : String} {s s' : List Char}
    (more : moreMembers isFirst s = .ok (true, Json.string name ++ s')) :
    members Reader.string enter (fuel + 1) isFirst acc s =
      (enter name acc >>= members Reader.string enter fuel false) s' := by
  rw [members, bind_apply more]
  exact bind_apply (string_append name s') _

theorem members_rest (gathers : Gathers enter entries acc out) {fuel : Nat}
    (enough : entries.length < fuel) (rest : List Char) :
    Yields out rest (members Reader.string enter fuel false acc
      ((memberTexts entries).flatMap (',' :: ·) ++ '\x7d' :: rest)) := by
  -- On how the members are gathered: the draft and the rounds change from one to the next.
  induction gathers generalizing fuel with
  | nil acc =>
    obtain ⟨fuel, rfl⟩ := Nat.exists_eq_add_one.2 enough
    exact members_end fuel false acc rest
  | @cons name text later _ _ _ entered _ ih =>
    obtain ⟨fuel, rfl⟩ := Nat.exists_eq_add_one.2 (Nat.zero_lt_of_lt enough)
    have ends := ends_rest (memberTexts later) (by decide : '\x7d' ∈ _) rest
    rw [flatMap_memberTexts, members_member (moreMembers_next name _), bind_apply (entered _ ends)]
    exact ih (Nat.lt_of_succ_lt_succ enough)
  | @stop name text later _ _ stopped =>
    obtain ⟨fuel, rfl⟩ := Nat.exists_eq_add_one.2 (Nat.zero_lt_of_lt enough)
    have ends := ends_rest (memberTexts later) (by decide : '\x7d' ∈ _) rest
    obtain ⟨left, refused⟩ := stopped _ ends
    rw [flatMap_memberTexts, members_member (moreMembers_next name _), bind_error refused]
    exact ⟨left, rfl⟩

/-- All of an object: its first member is read as if it came after a comma. -/
theorem members_start (gathers : Gathers enter entries acc out) {fuel : Nat}
    (enough : entries.length < fuel) (rest : List Char) :
    Yields out rest (members Reader.string enter fuel true acc
      ([','].intercalate (memberTexts entries) ++ '\x7d' :: rest)) := by
  have after := members_rest gathers enough rest
  obtain ⟨fuel, rfl⟩ := Nat.exists_eq_add_one.2 (Nat.zero_lt_of_lt enough)
  cases entries with
  | nil =>
    cases gathers
    exact members_end fuel true acc rest
  | cons entry later =>
    obtain ⟨name, text⟩ := entry
    rw [flatMap_memberTexts, members_member (moreMembers_next name _)] at after
    rw [intercalate_memberTexts, members_member (moreMembers_first name _)]
    exact after

theorem members_object (gathers : Gathers enter entries acc out) (rest : List Char) :
    Yields out rest ((do members Reader.string enter (← rounds) true acc : Reader σ)
      ([','].intercalate (memberTexts entries) ++ '\x7d' :: rest)) := by
  have size := length_le_intercalate (memberTexts entries)
  rw [length_memberTexts] at size
  rw [bind_apply (rounds_apply _)]
  refine members_start gathers ?_ rest
  rw [List.length_append, List.length_cons]
  omega

end

/-! ## Records -/

section
variable {σ α : Type} {shape : Shape σ α} {depth : Nat} {entries : List (String × List Char)}

section
variable {name : String} {text : List Char} {declared : Field σ} {acc : σ}

theorem readMember_append (found : shape.fields.find? (·.name == name) = some declared)
    (unset : declared.isSet acc = false) (s : List Char) :
    shape.readMember depth name acc (':' :: s) = declared.read depth acc s := by
  rw [Shape.readMember, found]
  simp only [unset, Bool.false_eq_true, if_false]
  exact bind_apply (colon_cons s) _

theorem Gathers.field {acc' : σ} {out : Except Cause σ}
    (found : shape.fields.find? (·.name == name) = some declared) (unset : declared.isSet acc = false)
    (value : Reads (declared.read depth acc) text acc')
    (later : Gathers (shape.readMember depth) entries acc' out) :
    Gathers (shape.readMember depth) ((name, text) :: entries) acc out :=
  .cons (fun rest ends => (readMember_append found unset _).trans (value rest ends)) later

theorem Gathers.refusedField {cause : Cause}
    (found : shape.fields.find? (·.name == name) = some declared) (unset : declared.isSet acc = false)
    (value : Refuses (declared.read depth acc) text cause) :
    Gathers (shape.readMember depth) ((name, text) :: entries) acc (.error cause) :=
  .stop fun rest ends => (readMember_append found unset _).symm ▸ value rest ends

end

theorem opens_object (entries : List (String × List Char)) : Opens (Json.object entries) .object :=
  ⟨'\x7b', _, rfl, by decide, rfl⟩

theorem nested_object (depth : Nat) (inside : Nat → Reader α) (rest : List Char) :
    nested (depth + 1) inside (Json.object entries ++ rest) =
      inside depth ([','].intercalate (memberTexts entries) ++ '\x7d' :: rest) := by
  rw [Json.object, List.cons_append, List.append_assoc, List.singleton_append]
  exact nested_cons depth inside '\x7b' _

theorem Reads.record {draft : σ} {a : α}
    (gathers : Gathers (shape.readMember depth) entries shape.start (.ok draft))
    (complete : shape.finish draft = .ok a) :
    Reads (shape.read (depth + 1)) (Json.object entries) a := by
  refine .of_opens (opens_object entries) fun rest _ => (nested_object depth _ rest).trans ?_
  have read := bind_apply (members_object gathers rest) shape.complete
  rw [bind_assoc] at read
  refine read.trans ?_
  rw [Shape.complete, complete]
  rfl

theorem Refuses.record {cause : Cause}
    (gathers : Gathers (shape.readMember depth) entries shape.start (.error cause)) :
    Refuses (shape.read (depth + 1)) (Json.object entries) cause := by
  refine .of_opens (opens_object entries) fun rest _ => ?_
  obtain ⟨left, stopped⟩ := members_object gathers rest
  have read := bind_error stopped shape.complete
  rw [bind_assoc] at read
  exact ⟨left, (nested_object depth _ rest).trans read⟩

end

/-! ## Tables -/

section
variable {α σ : Type} {value : Reader α} {insert : σ → String → α → σ} {empty : σ} {depth : Nat}
variable {entries : List (String × List Char)}

def entering (value : Reader α) (insert : σ → String → α → σ) (name : String) (acc : σ) : Reader σ := do
  colon
  return insert acc name (← value)

theorem Gathers.entry {name : String} {text : List Char} {a : α} {acc : σ} {out : Except Cause σ}
    (read : Reads value text a) (later : Gathers (entering value insert) entries (insert acc name a) out) :
    Gathers (entering value insert) ((name, text) :: entries) acc out := by
  refine .cons (fun rest ends => ?_) later
  rw [entering, bind_apply (colon_cons _)]
  exact bind_apply (read rest ends) _

theorem Gathers.refusedEntry {name : String} {text : List Char} {acc : σ} {cause : Cause}
    (refused : Refuses value text cause) :
    Gathers (entering value insert) ((name, text) :: entries) acc (.error cause) := by
  refine .stop fun rest ends => ?_
  obtain ⟨left, stopped⟩ := refused rest ends
  refine ⟨left, ?_⟩
  rw [entering, bind_apply (colon_cons _)]
  exact bind_error stopped _

theorem Reads.table {table : σ} (gathers : Gathers (entering value insert) entries empty (.ok table)) :
    Reads (Reader.table (depth + 1) value insert empty) (Json.object entries) table :=
  .of_opens (opens_object entries) fun rest _ =>
    (nested_object depth _ rest).trans (members_object gathers rest)

theorem Refuses.table {cause : Cause}
    (gathers : Gathers (entering value insert) entries empty (.error cause)) :
    Refuses (Reader.table (depth + 1) value insert empty) (Json.object entries) cause := by
  refine .of_opens (opens_object entries) fun rest _ => ?_
  obtain ⟨left, stopped⟩ := members_object gathers rest
  exact ⟨left, (nested_object depth _ rest).trans stopped⟩

end

/-! ## Variants -/

section
variable {α : Type} {variants : List (String × Payload α)} {name : String} {depth : Nat}

theorem Reads.bareVariant {a : α} (known : variants.lookup name = some (.nothing a)) :
    Reads (Json.variant variants depth) (Json.string name) a := by
  refine .of_opens (opens_string name) fun rest _ => ?_
  refine (bind_apply (string_append name rest) _).trans ?_
  simp only [known]
  rfl

theorem Reads.variant {read : Nat → Reader α} {text : List Char} {a : α}
    (known : variants.lookup name = some (.content read)) (value : Reads (read depth) text a) :
    Reads (Json.variant variants (depth + 1)) (Json.object [(name, text)]) a := by
  refine .of_opens (opens_object _) fun rest _ => (nested_object depth _ rest).trans ?_
  rw [intercalate_memberTexts]
  refine (bind_apply (Reads.key name _ (ends_cons (by decide) _)) _).trans ?_
  simp only [known]
  refine (bind_apply (pure_apply _ _) _).trans ?_
  refine (bind_apply (colon_cons _) _).trans ?_
  refine (bind_apply (value _ (ends_cons (by decide) rest)) _).trans ?_
  refine (bind_apply (peekPastBlanks_cons (by decide) rest) _).trans ?_
  exact bind_apply (drop_cons _ _) _

end

end Keytape.Json
