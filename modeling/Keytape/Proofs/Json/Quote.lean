import Keytape.Proofs.Json.Reading

/-! Strings between quotes read back.

Main statement: whatever its characters, a string is read off its quoted text, and what
follows the closing quote is left.
-/

set_option autoImplicit false

namespace Keytape.Json

namespace Reader

theorem unit?_control : ∀ n < 0x20,
    unit? '0' '0' (Nat.digitChar (n / 16)) (Nat.digitChar (n % 16)) = some n := by
  decide

theorem stringBody_control {c : Char} (control : c.toNat < 0x20) (s : List Char) :
    stringBody ('\\' :: 'u' :: '0' :: '0' :: Nat.digitChar (c.toNat / 16) ::
      Nat.digitChar (c.toNat % 16) :: s) = prepend c (stringBody s) := by
  have trailing : isTrailing c.toNat = false := by
    simp only [isTrailing, Bool.and_eq_false_iff, decide_eq_false_iff_not]
    omega
  have leading : isLeading c.toNat = false := by
    simp only [isLeading, Bool.and_eq_false_iff, decide_eq_false_iff_not]
    omega
  rw [stringBody, unit?_control c.toNat control]
  simp only [trailing, leading, Char.ofNat_toNat]
  rfl

theorem stringBody_plain {c : Char} (notQuote : c ≠ '"') (notBackslash : c ≠ '\\')
    (visible : ¬c.toNat < 0x20) (s : List Char) :
    stringBody (c :: s) = prepend c (stringBody s) := by
  rw [stringBody, if_neg visible]
  -- The other ways to go on start with a quote or a backslash.
  all_goals
    intros
    contradiction

theorem stringBody_escaped (c : Char) (s : List Char) :
    stringBody (escaped c ++ s) = prepend c (stringBody s) := by
  unfold escaped
  split
  · rfl
  · rfl
  · rfl
  · rfl
  · rfl
  · rfl
  · rfl
  · rename_i notQuote notBackslash _ _ _ _ _
    split
    · rename_i control
      exact stringBody_control control s
    · rename_i visible
      exact stringBody_plain notQuote notBackslash visible s

theorem stringBody_append (cs rest : List Char) :
    stringBody (cs.flatMap escaped ++ '"' :: rest) = .ok (cs, rest) := by
  induction cs with
  | nil => rfl
  | cons c cs ih =>
    rw [List.flatMap_cons, List.append_assoc, stringBody_escaped, ih]
    rfl

end Reader

open Reader

theorem string_append (t : String) (rest : List Char) :
    Reader.string (Json.string t ++ rest) = .ok (t, rest) := by
  have body := stringBody_append t.toList rest
  have quoted : Json.string t ++ rest = '"' :: (t.toList.flatMap escaped ++ '"' :: rest) := by
    simp [Json.string]
  rw [quoted, Reader.string, bind_apply (drop_cons '"' _), body]
  exact congrArg (fun u => Except.ok (u, rest)) String.ofList_toList

theorem opens_string (t : String) : Opens (Json.string t) .string := ⟨'"', _, rfl, by decide, rfl⟩

theorem Reads.text (t : String) : Reads Reader.text (Json.string t) t :=
  .of_opens (opens_string t) fun rest _ => string_append t rest

theorem Reads.key (name : String) : Reads Reader.key (Json.string name) name :=
  .of_opens (opens_string name) fun rest _ => string_append name rest

end Keytape.Json
