import ConditionLint.Source.Token

/-!
# Searching tokens

The tokens of a stream are ordered by their starts, so the binary search ends at the place that has
all tokens before the offset on its left. A search from an offset on thus finds the first token of
the whole stream that starts there or later and satisfies the condition.
-/

set_option autoImplicit false

namespace ConditionLint.TokenStream

/-- The place divides the tokens into those that start before the offset and the others. -/
structure Divides (tokens : Array Token) (offset place : Nat) : Prop where
  before : ∀ i token, tokens[i]? = some token → i < place → token.span.start < offset
  after : ∀ i token, tokens[i]? = some token → place ≤ i → offset ≤ token.span.start

variable {tokens : Array Token} {offset : Nat}

private theorem start_le_start (ordered : tokens.toList.Pairwise fun a b => a.startsBy b = true)
    {i j : Nat} {first second : Token} (atFirst : tokens[i]? = some first)
    (atSecond : tokens[j]? = some second) (le : i ≤ j) :
    first.span.start ≤ second.span.start := by
  obtain ⟨firstBound, rfl⟩ := Array.getElem?_eq_some_iff.mp atFirst
  obtain ⟨secondBound, rfl⟩ := Array.getElem?_eq_some_iff.mp atSecond
  rcases Nat.lt_or_eq_of_le le with lt | rfl
  · have starts := List.pairwise_iff_getElem.mp ordered i j firstBound secondBound lt
    simpa [Token.startsBy] using starts
  · exact Nat.le_refl _

/-- The invariant of the search: what is left of the lower place starts before the offset, and what
is not left of the higher one does not. -/
private theorem divides_search (ordered : tokens.toList.Pairwise fun a b => a.startsBy b = true)
    {low high : Nat} (le : low ≤ high)
    (left : ∀ i token, tokens[i]? = some token → i < low → token.span.start < offset)
    (right : ∀ i token, tokens[i]? = some token → high ≤ i → offset ≤ token.span.start) :
    Divides tokens offset (search tokens offset low high) := by
  fun_induction search tokens offset low high with
  | case1 low high less middle token found early ih =>
      refine ih (by omega) (fun i other atOther earlier => ?_) right
      exact Nat.lt_of_le_of_lt
        (start_le_start ordered atOther found (Nat.le_of_lt_succ earlier)) early
  | case2 low high less middle token found late ih =>
      refine ih (by omega) left (fun i other atOther later => ?_)
      exact Nat.le_trans (Nat.le_of_not_lt late) (start_le_start ordered found atOther later)
  | case3 low high less middle missing ih =>
      refine ih (by omega) left (fun i other atOther later => ?_)
      have inside := (Array.getElem?_eq_some_iff.mp atOther).1
      have outside := Array.getElem?_eq_none_iff.mp missing
      omega
  | case4 low high notLess =>
      have same : high = low := by omega
      exact ⟨left, same ▸ right⟩

theorem divides_search_all (s : TokenStream) (offset : Nat) :
    Divides s.tokens offset (search s.tokens offset 0 s.size) := by
  refine divides_search s.ordered (Nat.zero_le _) (fun i _ _ impossible => ?_)
    (fun i token found outside => ?_)
  · exact absurd impossible (Nat.not_lt_zero i)
  · have inside := (Array.getElem?_eq_some_iff.mp found).1
    exact absurd inside (Nat.not_lt.mpr outside)

private theorem filter_eq_drop (s : TokenStream) (offset : Nat) :
    s.toList.filter (fun token => offset ≤ token.span.start) =
      s.toList.drop (search s.tokens offset 0 s.size) := by
  have divides := divides_search_all s offset
  generalize search s.tokens offset 0 s.size = place at divides ⊢
  have dropped : (s.toList.take place).filter (fun token => offset ≤ token.span.start) = [] := by
    refine List.filter_eq_nil_iff.mpr fun token included => ?_
    obtain ⟨i, bound, rfl⟩ := List.mem_take_iff_getElem.mp included
    obtain ⟨left, inside⟩ := Nat.lt_min.mp bound
    have early := divides.before i _ (Array.getElem?_eq_getElem inside) left
    rw [decide_eq_true_eq]
    exact Nat.not_le.mpr early
  have kept : (s.toList.drop place).filter (fun token => offset ≤ token.span.start) =
      s.toList.drop place := by
    refine List.filter_eq_self.mpr fun token included => ?_
    obtain ⟨i, inside, rfl⟩ := List.mem_drop_iff_getElem.mp included
    rw [decide_eq_true_eq]
    have within : place + i < s.tokens.size := Nat.add_comm i place ▸ inside
    exact divides.after (place + i) _ (Array.getElem?_eq_getElem within) (Nat.le_add_right _ _)
  calc
    s.toList.filter (fun token => offset ≤ token.span.start)
      = (s.toList.take place ++ s.toList.drop place).filter
          (fun token => offset ≤ token.span.start) := by rw [List.take_append_drop]
    _ = s.toList.drop place := by rw [List.filter_append, dropped, kept, List.nil_append]

theorem tokenAfter?_eq_find? (s : TokenStream) (offset : Nat) (condition : Token → Bool) :
    s.tokenAfter? offset condition =
      s.toList.find? fun token => offset ≤ token.span.start && condition token := by
  rw [tokenAfter?, ← filter_eq_drop, List.find?_filter]
  simp only [Bool.decide_and, Bool.decide_eq_true]

end ConditionLint.TokenStream
