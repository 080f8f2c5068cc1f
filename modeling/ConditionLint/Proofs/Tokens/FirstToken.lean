import ConditionLint.Proofs.Tokens.Coding
import ConditionLint.Proofs.Tokens.Search

/-!
# The first token of a list

A stream is made of tokens in any order. Tokens that start together keep their order when they are
sorted, so a search of the stream finds the token that a search of the list would find: of those
that satisfy the condition and do not start before the offset one with the least start, and of
several with that start the earliest in the list.
-/

set_option autoImplicit false

namespace ConditionLint.TokenStream

variable {tokens : List Token} {offset place other : Nat} {condition : Token → Bool}
  {token token' : Token}

/-- The token at a place of the list is the one that a search from the offset looks for: no other
starts earlier, and those that start with it do not stand before it. -/
structure IsFirstAt (tokens : List Token) (offset : Nat) (condition : Token → Bool) (place : Nat)
    (token : Token) : Prop where
  found : tokens[place]? = some token
  reached : offset ≤ token.span.start
  satisfies : condition token = true
  first : ∀ i later, tokens[i]? = some later → offset ≤ later.span.start →
    condition later = true →
      token.span.start < later.span.start ∨ token.span.start = later.span.start ∧ place ≤ i

theorem IsFirstAt.unique (isFirst : IsFirstAt tokens offset condition place token)
    (isFirst' : IsFirstAt tokens offset condition other token') : token = token' := by
  have forwards := isFirst.first other token' isFirst'.found isFirst'.reached isFirst'.satisfies
  have backwards := isFirst'.first place token isFirst.found isFirst.reached isFirst.satisfies
  have same : place = other := by omega
  have found := isFirst.found
  rw [same, isFirst'.found] at found
  exact (Option.some.inj found).symm

private theorem pairwise_ofList (tokens : List Token) :
    (ofList tokens).toList.Pairwise fun a b => a.span.start ≤ b.span.start :=
  (ofList tokens).ordered.imp of_decide_eq_true

private theorem filter_ofList (tokens : List Token) (start : Nat) :
    (ofList tokens).toList.filter (·.span.start == start) =
      tokens.filter (·.span.start == start) := by
  have together : (tokens.filter (·.span.start == start)).Pairwise
      fun a b => a.startsBy b = true := by
    refine List.pairwise_of_forall_mem_list fun a first b second => ?_
    have startA := eq_of_beq (List.mem_filter.mp first).2
    have startB := eq_of_beq (List.mem_filter.mp second).2
    exact decide_eq_true (Nat.le_of_eq (startA.trans startB.symm))
  have kept : (tokens.filter (·.span.start == start)).Sublist (ofList tokens).toList := by
    refine List.sublist_mergeSort ?_ ?_ together List.filter_sublist
    · intro a b c first second
      exact decide_eq_true (Nat.le_trans (of_decide_eq_true first) (of_decide_eq_true second))
    · intro a b
      simpa [Token.startsBy] using Nat.le_total a.span.start b.span.start
  have again := kept.filter (·.span.start == start)
  rw [List.filter_filter] at again
  simp only [Bool.and_self] at again
  have perm : (ofList tokens).toList.Perm tokens := List.mergeSort_perm tokens Token.startsBy
  exact (again.eq_of_length (perm.filter _).length_eq.symm).symm

/-- What a search of the stream finds starts no later than anything else it could find. -/
private theorem start_le_of_tokenAfter?
    (found : (ofList tokens).tokenAfter? offset condition = some token) {later : Token}
    (member : later ∈ tokens) (reached : offset ≤ later.span.start)
    (satisfies : condition later = true) : token.span.start ≤ later.span.start := by
  rw [tokenAfter?_eq_find?] at found
  obtain ⟨_, before, after, split, none⟩ := List.find?_eq_some_iff_append.mp found
  have sorted := pairwise_ofList tokens
  have included : later ∈ (ofList tokens).toList := mem_toList_ofList.mpr member
  rw [split] at sorted included
  rcases List.mem_append.mp included with early | inRest
  · have refused := none later early
    simp [reached, satisfies] at refused
  · rcases List.mem_cons.mp inRest with rfl | late
    · exact Nat.le_refl _
    · exact (List.pairwise_cons.mp (List.pairwise_append.mp sorted).2.1).1 later late

/-- A search of the stream for tokens with the start that it finds is a search of the list. -/
private theorem find?_of_tokenAfter?
    (found : (ofList tokens).tokenAfter? offset condition = some token) :
    tokens.find? (fun t => t.span.start == token.span.start &&
      (offset ≤ t.span.start && condition t)) = some token := by
  rw [tokenAfter?_eq_find?] at found
  have narrowed : (ofList tokens).toList.find? (fun t => t.span.start == token.span.start &&
      (offset ≤ t.span.start && condition t)) = some token := by
    obtain ⟨passes, before, after, split, none⟩ := List.find?_eq_some_iff_append.mp found
    refine List.find?_eq_some_iff_append.mpr ⟨by simpa using passes, before, after, split, ?_⟩
    intro early member
    have refused := none early member
    simp only [Bool.not_eq_true', Bool.and_eq_false_iff] at refused ⊢
    exact .inr refused
  have filtered : ∀ ts : List Token, ts.find? (fun t => t.span.start == token.span.start &&
      (offset ≤ t.span.start && condition t)) =
        (ts.filter (·.span.start == token.span.start)).find?
          (fun t => offset ≤ t.span.start && condition t) := by
    intro ts
    rw [List.find?_filter]
    simp only [Bool.decide_and, Bool.decide_eq_true]
  rw [filtered, ← filter_ofList, ← filtered]
  exact narrowed

theorem isFirstAt_of_tokenAfter?
    (found : (ofList tokens).tokenAfter? offset condition = some token) :
    ∃ place, IsFirstAt tokens offset condition place token := by
  obtain ⟨passes, place, bound, atPlace, none⟩ :=
    List.find?_eq_some_iff_getElem.mp (find?_of_tokenAfter? found)
  simp only [beq_self_eq_true, Bool.true_and, Bool.and_eq_true, decide_eq_true_eq] at passes
  obtain ⟨reached, satisfies⟩ := passes
  refine ⟨place, List.getElem?_eq_some_iff.mpr ⟨bound, atPlace⟩, reached, satisfies, ?_⟩
  intro i later atLater laterReached laterSatisfies
  have le := start_le_of_tokenAfter? found (List.mem_of_getElem? atLater) laterReached
    laterSatisfies
  rcases Nat.lt_or_eq_of_le le with less | same
  · exact .inl less
  · refine .inr ⟨same, Nat.le_of_not_lt fun earlier => ?_⟩
    obtain ⟨_, rfl⟩ := List.getElem?_eq_some_iff.mp atLater
    have refused := none i earlier
    simp [← same, reached, laterSatisfies] at refused

theorem tokenAfter?_ofList_eq_none_iff :
    (ofList tokens).tokenAfter? offset condition = none ↔
      ∀ token ∈ tokens, offset ≤ token.span.start → condition token = false := by
  rw [tokenAfter?_eq_find?, List.find?_eq_none]
  simp only [mem_toList_ofList, Bool.and_eq_true, decide_eq_true_eq, not_and, Bool.not_eq_true]

/-- A search of the stream that is made of a list finds exactly the token of the list with the least
start among those from the offset on that satisfy the condition, the earliest in the list if several
have that start, and nothing exactly if there is no such token. Making a stream of the tokens of a
stream gives that stream again. -/
theorem search_finds_first (tokens : List Token) (offset : Nat) (condition : Token → Bool) :
    (∀ token, (ofList tokens).tokenAfter? offset condition = some token ↔
      ∃ place, IsFirstAt tokens offset condition place token) ∧
    ((ofList tokens).tokenAfter? offset condition = none ↔
      ∀ token ∈ tokens, offset ≤ token.span.start → condition token = false) ∧
    ∀ s : TokenStream, ofList s.toList = s := by
  refine ⟨fun token => ⟨isFirstAt_of_tokenAfter?, fun ⟨place, isFirst⟩ => ?_⟩,
    tokenAfter?_ofList_eq_none_iff, ofList_toList⟩
  cases result : (ofList tokens).tokenAfter? offset condition with
  | none =>
      have refused := tokenAfter?_ofList_eq_none_iff.mp result token
        (List.mem_of_getElem? isFirst.found) isFirst.reached
      rw [isFirst.satisfies] at refused
      cases refused
  | some found =>
      obtain ⟨other, isFirst'⟩ := isFirstAt_of_tokenAfter? result
      rw [isFirst'.unique isFirst]

end ConditionLint.TokenStream
