import ConditionLint.Proofs.Table.Parts

/-!
# Members of normalized unions

A union keeps the members of what it joins, but for `never` and absorbed literals, unless `any` or
`unknown` takes it over.
-/

set_option autoImplicit false

namespace ConditionLint.Table

variable {t : Table} {id r : TypeId} {members : List TypeId}

theorem mem_insertId {new : TypeId} {ids : List TypeId} :
    id ∈ insertId new ids ↔ id = new ∨ id ∈ ids := by
  induction ids with
  | nil => simp [insertId]
  | cons head tail ih =>
      unfold insertId
      split
      · simp
      · split
        · rename_i same
          subst same
          simp
        · simp only [List.mem_cons, ih]
          exact or_left_comm

theorem mem_ascending {ids : List TypeId} : id ∈ ascending ids ↔ id ∈ ids := by
  induction ids with
  | nil => simp [ascending]
  | cons head tail ih => exact mem_insertId.trans (or_congr_right ih |>.trans List.mem_cons.symm)

theorem Regular.get?_of_intern (regular : t.Regular) {d : Descriptor}
    (interned : t.intern d = (t, r)) : t.get? r = some d := by
  unfold intern at interned
  split at interned
  · rename_i known found
    cases interned
    exact regular.ids.mp found
  · have grown : (t.push d).size = t.size := congrArg (size ·.1) interned
    simp at grown

private theorem isAbsorbed_eq_false {set : List Kind} (other : t.kindIn id set = true)
    (noLiteral : ∀ kind ∈ set, kind ∉ [.stringLiteral, .numberLiteral, .bigintLiteral])
    (flat : List TypeId) : t.isAbsorbed flat id = false := by
  obtain ⟨kind, member, found⟩ := kindIn_iff.mp other
  have excluded := noLiteral kind member
  unfold isAbsorbed
  split <;> simp_all [kind?, Descriptor.kind, LiteralValue.kind]

/-- The members of the joined types that the union keeps. -/
def keptParts (t : Table) (members : List TypeId) : List TypeId :=
  let flat := members.flatMap t.unionParts
  flat.filter fun id => id != .never && !t.isAbsorbed flat id

theorem mem_keptParts {part : TypeId} :
    part ∈ t.keptParts members ↔
      part ∈ members.flatMap t.unionParts ∧ part ≠ .never ∧
        t.isAbsorbed (members.flatMap t.unionParts) part = false := by
  simp [keptParts]

theorem two_le_length {ids : List TypeId} (notEmpty : ids = [] → False)
    (notSingle : ∀ single, ids = [single] → False) : 2 ≤ ids.length := by
  match ids with
  | [] => exact (notEmpty rfl).elim
  | [single] => exact (notSingle single rfl).elim
  | _ :: _ :: _ => simp

/-- The types that a union or an intersection can be without having them as a member. -/
def collapsed : List TypeId :=
  [.any, .unknown, .never]

/-- A union is a type that is there already, or the members that are kept are interned. -/
theorem union_cases (t : Table) (members : List TypeId) :
    (∃ id, (id ∈ collapsed ∨ id ∈ t.keptParts members) ∧
        t.union members = (t, id)) ∨
      (2 ≤ (ascending (t.keptParts members)).length ∧
        t.union members = t.intern (.union (ascending (t.keptParts members)))) := by
  unfold union
  simp only [List.contains_iff_mem]
  split
  · exact .inl ⟨.any, by simp [collapsed], rfl⟩
  · split
    · exact .inl ⟨.unknown, by simp [collapsed], rfl⟩
    · split
      · exact .inl ⟨.never, by simp [collapsed], rfl⟩
      · rename_i single kept
        have included : single ∈ ascending (t.keptParts members) := by
          rw [keptParts, kept]
          exact List.mem_singleton.mpr rfl
        exact .inl ⟨single, .inr (mem_ascending.mp included), rfl⟩
      · rename_i notEmpty notSingle
        exact .inr ⟨two_le_length notEmpty notSingle, rfl⟩

/-- A union that is taken over by none of its members has the members that are kept. -/
theorem Regular.unionParts_union (regular : t.Regular) (joined : t.union members = (t, r))
    (noAny : .any ∉ members.flatMap t.unionParts)
    (noUnknown : .unknown ∉ members.flatMap t.unionParts)
    (kept : t.keptParts members ≠ []) {part : TypeId} :
    part ∈ t.unionParts r ↔ part ∈ t.keptParts members := by
  have same : ∀ {ids}, ascending (t.keptParts members) = ids →
      (part ∈ ids ↔ part ∈ t.keptParts members) := by
    rintro _ rfl
    exact mem_ascending
  unfold union at joined
  simp only [List.contains_iff_mem, noAny, noUnknown, if_false] at joined
  split at joined
  · rename_i nothing
    obtain ⟨first, included⟩ := List.exists_mem_of_ne_nil _ kept
    have : first ∈ ascending (t.keptParts members) := mem_ascending.mpr included
    rw [keptParts, nothing] at this
    cases this
  · rename_i single found
    cases joined
    have included : r ∈ t.keptParts members := by
      have : r ∈ ascending (t.keptParts members) := by
        rw [keptParts, found]
        exact List.mem_singleton.mpr rfl
      exact mem_ascending.mp this
    obtain ⟨member, _, belongs⟩ := List.mem_flatMap.mp (mem_keptParts.mp included).1
    rw [unionParts_of_not_union (regular.get?_ne_union_of_mem_unionParts belongs)]
    exact same found
  · rw [unionParts_of_union (regular.get?_of_intern joined)]
    exact same rfl

theorem Regular.union_of_get? (regular : t.Regular)
    (noAny : .any ∉ members.flatMap t.unionParts)
    (noUnknown : .unknown ∉ members.flatMap t.unionParts) {parts : List TypeId}
    (ordered : ascending (t.keptParts members) = parts)
    (entry : t.get? r = some (.union parts)) : t.union members = (t, r) := by
  have several := (irregularity?_eq_none_iff.mp (regular.members entry rfl)).1
  rw [keptParts] at ordered
  unfold union
  simp only [List.contains_iff_mem, noAny, noUnknown, if_false, ordered]
  have found : t.intern (.union parts) = (t, r) := by
    simp [intern, regular.ids.mpr entry]
  match parts with
  | [] => simp at several
  | [_] => simp at several
  | _ :: _ :: _ => exact found

/-!
## Unions with `undefined`
-/

theorem WellFormed.undefined_mem_keptParts (wellFormed : t.WellFormed) :
    .undefined ∈ t.keptParts (.undefined :: members) := by
  have entry : t.get? .undefined = some (.intrinsic .undefined) :=
    wellFormed.get?_wellKnown rfl
  rw [mem_keptParts]
  refine ⟨?_, by decide, by simp [isAbsorbed, entry]⟩
  rw [List.flatMap_cons,
    unionParts_of_not_union (wellFormed.not_union_wellKnown .undefined rfl (by simp))]
  exact List.mem_append_left _ List.mem_cons_self

/-- A union with `undefined` is taken over by `any` or `unknown`, or has the members that are
kept. -/
theorem WellFormed.union_undefined (wellFormed : t.WellFormed)
    (joined : t.union (.undefined :: members) = (t, r)) :
    (r = .any ∧ .any ∈ (.undefined :: members).flatMap t.unionParts) ∨
      (r = .unknown ∧ .unknown ∈ (.undefined :: members).flatMap t.unionParts) ∨
      ∀ part, part ∈ t.unionParts r ↔ part ∈ t.keptParts (.undefined :: members) := by
  by_cases noAny : .any ∈ (TypeId.undefined :: members).flatMap t.unionParts
  · refine .inl ⟨?_, noAny⟩
    simp only [union, List.contains_iff_mem, noAny, if_true] at joined
    exact (congrArg Prod.snd joined).symm
  · by_cases noUnknown : .unknown ∈ (TypeId.undefined :: members).flatMap t.unionParts
    · refine .inr (.inl ⟨?_, noUnknown⟩)
      simp only [union, List.contains_iff_mem, noAny, noUnknown, if_true, if_false] at joined
      exact (congrArg Prod.snd joined).symm
    · refine .inr (.inr fun part => ?_)
      exact wellFormed.unionParts_union joined noAny noUnknown
        (List.ne_nil_of_mem wellFormed.undefined_mem_keptParts)

private theorem hasKind_flatMap {set : List Kind} :
    (∃ part ∈ members.flatMap t.unionParts, t.kindIn part set = true) ↔
      ∃ member ∈ members, t.hasKind member set = true := by
  simp only [List.mem_flatMap, hasKind_iff]
  constructor
  · rintro ⟨part, ⟨member, joined, included⟩, kind⟩
    exact ⟨member, joined, part, included, kind⟩
  · rintro ⟨member, joined, part, included, kind⟩
    exact ⟨part, ⟨member, joined, included⟩, kind⟩

/-- The union keeps what can be anything. -/
theorem WellFormed.mem_keptParts_of_undecidable (wellFormed : t.WellFormed) {part : TypeId}
    (included : part ∈ members.flatMap t.unionParts)
    (undecidable : t.kindIn part Kind.undecidable = true) : part ∈ t.keptParts members := by
  refine mem_keptParts.mpr ⟨included, ?_, isAbsorbed_eq_false undecidable (by decide) _⟩
  rintro rfl
  rw [wellFormed.kindIn_wellKnown .never rfl] at undecidable
  cases undecidable

/-- A union with `undefined` can be anything exactly if one of the joined types can. -/
theorem WellFormed.hasKind_undecidable_union (wellFormed : t.WellFormed)
    (joined : t.union (.undefined :: members) = (t, r)) :
    t.hasKind r Kind.undecidable = true ↔
      ∃ member ∈ members, t.hasKind member Kind.undecidable = true := by
  have decidable : t.hasKind .undefined Kind.undecidable = false := by
    rw [wellFormed.hasKind_wellKnown .undefined rfl (by simp)]
    rfl
  have flat : (∃ part ∈ (TypeId.undefined :: members).flatMap t.unionParts,
      t.kindIn part Kind.undecidable = true) ↔
        ∃ member ∈ members, t.hasKind member Kind.undecidable = true := by
    rw [hasKind_flatMap]
    simp [decidable]
  rw [← flat]
  rcases wellFormed.union_undefined joined with ⟨rfl, taken⟩ | ⟨rfl, taken⟩ | kept
  · have whole : t.hasKind .any Kind.undecidable = true :=
      wellFormed.hasKind_wellKnown .any rfl (by simp) _
    have part : t.kindIn .any Kind.undecidable = true :=
      wellFormed.kindIn_wellKnown .any rfl _
    exact iff_of_true whole ⟨.any, taken, part⟩
  · have whole : t.hasKind .unknown Kind.undecidable = true :=
      wellFormed.hasKind_wellKnown .unknown rfl (by simp) _
    have part : t.kindIn .unknown Kind.undecidable = true :=
      wellFormed.kindIn_wellKnown .unknown rfl _
    exact iff_of_true whole ⟨.unknown, taken, part⟩
  · rw [hasKind_iff]
    constructor
    · rintro ⟨part, included, undecidable⟩
      exact ⟨part, (mem_keptParts.mp ((kept part).mp included)).1, undecidable⟩
    · rintro ⟨part, included, undecidable⟩
      exact ⟨part, (kept part).mpr (wellFormed.mem_keptParts_of_undecidable included undecidable),
        undecidable⟩

/-- Where it cannot be anything, such a union is nullable. -/
theorem WellFormed.isNullable_union (wellFormed : t.WellFormed)
    (joined : t.union (.undefined :: members) = (t, r))
    (decidable : t.hasKind r Kind.undecidable = false) : t.isNullable r = true := by
  rcases wellFormed.union_undefined joined with ⟨rfl, _⟩ | ⟨rfl, _⟩ | kept
  · rw [wellFormed.hasKind_wellKnown .any rfl (by simp)] at decidable
    cases decidable
  · rw [wellFormed.hasKind_wellKnown .unknown rfl (by simp)] at decidable
    cases decidable
  · have undefined : t.kindIn .undefined Kind.nullable = true :=
      wellFormed.kindIn_wellKnown .undefined rfl _
    exact hasKind_iff.mpr ⟨.undefined, (kept _).mpr wellFormed.undefined_mem_keptParts, undefined⟩

theorem WellFormed.constrained_union (wellFormed : t.WellFormed)
    (joined : t.union (.undefined :: members) = (t, r)) : t.constrained r = r := by
  apply constrained_of_not_variable
  rcases wellFormed.union_undefined joined with ⟨rfl, _⟩ | ⟨rfl, _⟩ | kept
  · exact wellFormed.kindIn_wellKnown .any rfl _
  · exact wellFormed.kindIn_wellKnown .unknown rfl _
  · have undefined : .undefined ∈ t.unionParts r :=
      (kept _).mpr wellFormed.undefined_mem_keptParts
    by_cases combined : ∃ parts, t.get? r = some (.union parts)
    · obtain ⟨parts, entry⟩ := combined
      rw [kindIn_of_get? entry]
      rfl
    · rw [unionParts_of_not_union fun parts entry => combined ⟨parts, entry⟩] at undefined
      cases List.mem_singleton.mp undefined
      exact wellFormed.kindIn_wellKnown .undefined rfl _

end ConditionLint.Table
