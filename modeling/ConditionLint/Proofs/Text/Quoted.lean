import ConditionLint.Text.Quoted
import Mathlib.Data.List.Basic

/-!
# Quoted texts

No escaped form is the start of another one, so a quoted text tells what is quoted.
-/

set_option autoImplicit false

namespace ConditionLint.Text

variable {c d : Char} {rest others : List Char} {m n : Nat}

/-- What stands before the first of a separator, and what stands behind it. -/
theorem append_cons_inj {α : Type} {a : α} {xs ys rest others : List α} (absent : a ∉ xs)
    (absent' : a ∉ ys) (same : xs ++ a :: rest = ys ++ a :: others) : xs = ys ∧ rest = others := by
  induction xs generalizing ys with
  | nil =>
      cases ys with
      | nil => exact ⟨rfl, List.cons.inj same |>.2⟩
      | cons y ys => exact absurd (List.cons.inj same).1 (List.ne_of_not_mem_cons absent')
  | cons x xs ih =>
      cases ys with
      | nil => exact absurd (List.cons.inj same).1.symm (List.ne_of_not_mem_cons absent)
      | cons y ys =>
          obtain ⟨rfl, behind⟩ := List.cons.inj same
          obtain ⟨rfl, rest⟩ := ih (List.not_mem_of_not_mem_cons absent)
            (List.not_mem_of_not_mem_cons absent') behind
          exact ⟨rfl, rest⟩

/-!
## Hexadecimal digits
-/

private theorem toDigits_hex (n : Nat) : hexDigits n =
    if n < 16 then [Nat.digitChar n] else hexDigits (n / 16) ++ [Nat.digitChar (n % 16)] :=
  Nat.toDigits_eq_if (by decide)

private theorem digitChar_injective :
    ∀ m < 16, ∀ n < 16, Nat.digitChar m = Nat.digitChar n → m = n := by
  decide

private theorem hexDigits_ne_nil (n : Nat) : hexDigits n ≠ [] :=
  Nat.toDigits_ne_nil

theorem hexDigits_injective (same : hexDigits m = hexDigits n) : m = n := by
  induction m using Nat.strongRecOn generalizing n with
  | ind m ih =>
      rw [toDigits_hex m, toDigits_hex n] at same
      split at same
      · rename_i small
        split at same
        · rename_i small'
          exact digitChar_injective m small n small' (List.singleton_inj.mp same)
        · exact absurd (List.append_eq_singleton_iff.mp same.symm) (by simp [hexDigits_ne_nil])
      · rename_i large
        split at same
        · exact absurd (List.append_eq_singleton_iff.mp same) (by simp [hexDigits_ne_nil])
        · obtain ⟨leading, last⟩ := List.append_singleton_inj.mp same
          have quotients := ih (m / 16) (by omega) leading
          have remainders := digitChar_injective _ (Nat.mod_lt m (by decide)) _
            (Nat.mod_lt n (by decide)) last
          omega

private theorem mem_hexDigits (member : c ∈ hexDigits n) : ∃ k < 16, c = Nat.digitChar k := by
  induction n using Nat.strongRecOn with
  | ind n ih =>
      rw [toDigits_hex] at member
      split at member
      · rename_i small
        exact ⟨n, small, List.mem_singleton.mp member⟩
      · rcases List.mem_append.mp member with leading | last
        · exact ih (n / 16) (by omega) leading
        · exact ⟨n % 16, Nat.mod_lt n (by decide), List.mem_singleton.mp last⟩

theorem not_mem_hexDigits (n : Nat) : '\x7d' ∉ hexDigits n ∧ '"' ∉ hexDigits n ∧
    '\\' ∉ hexDigits n := by
  have plain : ∀ k < 16, Nat.digitChar k ≠ '\x7d' ∧ Nat.digitChar k ≠ '"' ∧
      Nat.digitChar k ≠ '\\' := by
    decide
  refine ⟨fun member => ?_, fun member => ?_, fun member => ?_⟩
  all_goals
    obtain ⟨k, below, isDigit⟩ := mem_hexDigits member
    have different := plain k below
    simp_all

/-!
## Escapes
-/

/-- The characters with an escape of one letter, and the letters. -/
def shortEscapes : List (Char × Char) :=
  [('\x00', '0'), ('\t', 't'), ('\r', 'r'), ('\n', 'n'), ('\\', '\\'), ('"', '"')]

/-- The three ways to write a character: with a letter behind a backslash, with its code point, and
as it is. -/
inductive Escaped (c : Char) : List Char → Prop where
  | short {letter : Char} : (c, letter) ∈ shortEscapes → Escaped c ['\\', letter]
  | code : Escaped c (['\\', 'u', '\x7b'] ++ hexDigits c.toNat ++ ['\x7d'])
  | plain : c ≠ '\\' → c ≠ '"' → Escaped c [c]

theorem escaped_escape (c : Char) : Escaped c (escape c) := by
  unfold escape
  split
  case h_7 =>
    split
    · exact .code
    · exact .plain (by assumption) (by assumption)
  all_goals exact .short (by decide)

/-- No escaped form is the start of another one. -/
theorem Escaped.inj {text text' : List Char} (first : Escaped c text) (second : Escaped d text')
    (same : text ++ rest = text' ++ others) : c = d ∧ rest = others := by
  have keys : ∀ pair ∈ shortEscapes, ∀ other ∈ shortEscapes, pair.2 = other.2 →
      pair.1 = other.1 := by
    decide
  have letters : ∀ pair ∈ shortEscapes, pair.2 ≠ 'u' := by
    decide
  cases first with
  | short listed =>
      cases second with
      | short listed' =>
          simp only [List.cons_append, List.nil_append, List.cons.injEq, true_and] at same
          exact ⟨keys _ listed _ listed' same.1, same.2⟩
      | code =>
          simp only [List.cons_append, List.nil_append, List.cons.injEq, true_and] at same
          exact absurd same.1 (letters _ listed)
      | plain notBackslash => exact absurd (List.cons.inj same).1.symm notBackslash
  | code =>
      cases second with
      | short listed' =>
          simp only [List.cons_append, List.nil_append, List.cons.injEq, true_and] at same
          exact absurd same.1.symm (letters _ listed')
      | code =>
          simp only [List.cons_append, List.nil_append, List.append_assoc, List.cons.injEq,
            true_and] at same
          obtain ⟨digits, rest⟩ :=
            append_cons_inj (not_mem_hexDigits _).1 (not_mem_hexDigits _).1 same
          exact ⟨Char.toNat_inj.mp (hexDigits_injective digits), rest⟩
      | plain notBackslash => exact absurd (List.cons.inj same).1.symm notBackslash
  | plain notBackslash =>
      cases second with
      | short | code => exact absurd (List.cons.inj same).1 notBackslash
      | plain => exact List.cons.inj same

theorem flatMap_escape_injective {cs ds : List Char}
    (same : cs.flatMap escape = ds.flatMap escape) : cs = ds := by
  have notEmpty (c : Char) (rest : List Char) : escape c ++ rest ≠ [] := by
    have escaped := escaped_escape c
    generalize escape c = text at escaped ⊢
    cases escaped <;> exact List.cons_ne_nil _ _
  induction cs generalizing ds with
  | nil =>
      cases ds with
      | nil => rfl
      | cons d ds => exact absurd same.symm (notEmpty d _)
  | cons c cs ih =>
      cases ds with
      | nil => exact absurd same (notEmpty c _)
      | cons d ds =>
          rw [List.flatMap_cons, List.flatMap_cons] at same
          obtain ⟨rfl, rest⟩ := (escaped_escape c).inj (escaped_escape d) same
          rw [ih rest]

end ConditionLint.Text
