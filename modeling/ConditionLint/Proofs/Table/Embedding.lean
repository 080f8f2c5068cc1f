import ConditionLint.Analysis.Callback
import ConditionLint.Analysis.Comparison
import ConditionLint.Analysis.Origin
import ConditionLint.Proofs.Table.Closure

/-!
# Tables inside tables

A table is embedded in another one by a renaming of its ids if its entries are entries there. What
is asked about a type of the table is then answered the same about the renamed type: truth values
and texts stay as they are, and ids are renamed. The questions compare ids with the well-known ones
only, which the renaming keeps.
-/

set_option autoImplicit false

namespace ConditionLint.Table

/-- The entries of a table are entries of another one, with their references renamed. The renaming
keeps the well-known ids, and different ids of the table apart. -/
structure Embeds (f : TypeId → TypeId) (t u : Table) : Prop where
  source : t.WellFormed
  target : u.WellFormed
  entry : ∀ {id d}, t.get? id = some d → u.get? (f id) = some (d.rename f)
  injective : ∀ {a b}, t.contains a = true → t.contains b = true → f a = f b → a = b
  known : ∀ id : TypeId, id.index < wellKnown.length → f id = id

/-- A question about a type of the table has the same answer about the renamed type. -/
def Keeps {α : Type} (f : TypeId → TypeId) (t u : Table) (question : Table → TypeId → α) : Prop :=
  ∀ id, t.contains id = true → question u (f id) = question t id

/-- The types that come with a type of the table are in the table, and those that come with the
renamed type are the renamed ones. -/
structure Carries (f : TypeId → TypeId) (t u : Table) (parts : Table → TypeId → List TypeId) :
    Prop where
  map : ∀ id, t.contains id = true → parts u (f id) = (parts t id).map f
  inside : ∀ id, t.contains id = true → ∀ part ∈ parts t id, t.contains part = true

variable {f : TypeId → TypeId} {t u : Table} {id : TypeId}

section Agreement

variable {α β : Type} {carry : α → β} {items : List α} {first : α → Bool} {second : β → Bool}

theorem any_map_of_agree (agree : ∀ item ∈ items, second (carry item) = first item) :
    (items.map carry).any second = items.any first := by
  rw [List.any_map, Bool.eq_iff_iff, List.any_eq_true, List.any_eq_true]
  refine exists_congr fun item => and_congr_right fun included => ?_
  rw [Function.comp_apply, agree item included]

private theorem all_map_of_agree (agree : ∀ item ∈ items, second (carry item) = first item) :
    (items.map carry).all second = items.all first := by
  rw [List.all_map, Bool.eq_iff_iff, List.all_eq_true, List.all_eq_true]
  refine forall₂_congr fun item included => ?_
  rw [Function.comp_apply, agree item included]

end Agreement

namespace Carries

variable {parts others : Table → TypeId → List TypeId} {question : Table → TypeId → Bool}

theorem any (carries : Carries f t u parts) (keeps : Keeps f t u question) :
    Keeps f t u fun t id => (parts t id).any (question t) := by
  intro id contained
  simp only [carries.map id contained]
  exact any_map_of_agree fun part included => keeps part (carries.inside id contained part included)

theorem all (carries : Carries f t u parts) (keeps : Keeps f t u question) :
    Keeps f t u fun t id => (parts t id).all (question t) := by
  intro id contained
  simp only [carries.map id contained]
  exact all_map_of_agree fun part included => keeps part (carries.inside id contained part included)

theorem flatMap (carries : Carries f t u parts) (further : Carries f t u others) :
    Carries f t u fun t id => (parts t id).flatMap (others t) where
  map id contained := by
    rw [carries.map id contained, List.flatMap_map, List.map_flatMap]
    exact List.flatMap_congr fun part included =>
      further.map part (carries.inside id contained part included)
  inside id contained part included := by
    obtain ⟨between, first, second⟩ := List.mem_flatMap.mp included
    exact further.inside between (carries.inside id contained between first) part second

end Carries

/-- A well-formed table is embedded, with its ids as they are, in every one that continues it. -/
theorem WellFormed.embeds_of_grown (wellFormed : t.WellFormed) (later : u.WellFormed)
    (grown : t.entries.toList <+: u.entries.toList) : Embeds (fun type => type) t u where
  source := wellFormed
  target := later
  entry found := (get?_of_grown grown found).trans (congrArg some (Descriptor.rename_id _).symm)
  injective _ _ same := same
  known _ _ := rfl

namespace Embeds

/-!
## Questions about one entry
-/

theorem get? (embeds : Embeds f t u) (contained : t.contains id = true) :
    ∃ d, t.get? id = some d ∧ u.get? (f id) = some (d.rename f) := by
  obtain ⟨d, entry⟩ := exists_get?_of_contains contained
  exact ⟨d, entry, embeds.entry entry⟩

theorem contains (embeds : Embeds f t u) (contained : t.contains id = true) :
    u.contains (f id) = true := by
  obtain ⟨d, _, renamed⟩ := embeds.get? contained
  exact contains_iff.mpr (lt_size_of_get? renamed)

theorem kind? (embeds : Embeds f t u) : Keeps f t u Table.kind? := by
  intro id contained
  obtain ⟨d, entry, renamed⟩ := embeds.get? contained
  rw [Table.kind?, Table.kind?, entry, renamed]
  exact congrArg some d.kind_rename

theorem kindIn (embeds : Embeds f t u) (contained : t.contains id = true) (set : List Kind) :
    u.kindIn (f id) set = t.kindIn id set :=
  congrArg (Option.any (· ∈ set)) (embeds.kind? id contained)

theorem literal? (embeds : Embeds f t u) : Keeps f t u Table.literal? := by
  intro id contained
  obtain ⟨d, entry, renamed⟩ := embeds.get? contained
  rw [Table.literal?, Table.literal?, entry, renamed]
  cases d <;> rfl

theorem isArray (embeds : Embeds f t u) : Keeps f t u Table.isArray := by
  intro id contained
  obtain ⟨d, entry, renamed⟩ := embeds.get? contained
  rw [Table.isArray, Table.isArray, entry, renamed]
  cases d <;> rfl

theorem isTuple (embeds : Embeds f t u) : Keeps f t u Table.isTuple := by
  intro id contained
  obtain ⟨d, entry, renamed⟩ := embeds.get? contained
  rw [Table.isTuple, Table.isTuple, entry, renamed]
  cases d <;> rfl

theorem unionParts (embeds : Embeds f t u) : Carries f t u Table.unionParts where
  map id contained := by
    obtain ⟨d, entry, renamed⟩ := embeds.get? contained
    rw [Table.unionParts, Table.unionParts, entry, renamed]
    cases d <;> rfl
  inside _ contained _ included := embeds.source.contains_of_mem_unionParts contained included

theorem intersectionParts (embeds : Embeds f t u) : Carries f t u Table.intersectionParts where
  map id contained := by
    obtain ⟨d, entry, renamed⟩ := embeds.get? contained
    rw [Table.intersectionParts, Table.intersectionParts, entry, renamed]
    cases d <;> rfl
  inside _ contained _ included :=
    embeds.source.contains_of_mem_intersectionParts contained included

theorem hasKind (embeds : Embeds f t u) (contained : t.contains id = true) (set : List Kind) :
    u.hasKind (f id) set = t.hasKind id set := by
  have kinds : u.kinds (f id) = t.kinds id := by
    rw [kinds, kinds, embeds.unionParts.map id contained, List.filterMap_map]
    exact List.filterMap_congr fun part included =>
      embeds.kind? part (embeds.unionParts.inside id contained part included)
  exact congrArg (List.any · (· ∈ set)) kinds

/-!
## Questions that descend
-/

/-- An answer is carried over if each step carries the answers about references over. -/
theorem ask_rename {α β : Type} {step : TypeId → Option Descriptor → (TypeId → α) → α}
    {step' : TypeId → Option Descriptor → (TypeId → β) → β} {stuck : α} {stuck' : β}
    (embeds : Embeds f t u) (asks : AsksReferences step) (asks' : AsksReferences step')
    (carry : α → β)
    (each : ∀ id d, t.get? id = some d →
      (∀ target ∈ d.references,
        u.ask step' stuck' (f target) = carry (t.ask step stuck target)) →
      step' (f id) (some (d.rename f)) (u.ask step' stuck') =
        carry (step id (some d) (t.ask step stuck)))
    (contained : t.contains id = true) :
    u.ask step' stuck' (f id) = carry (t.ask step stuck id) := by
  induction place : id.index using Nat.strongRecOn generalizing id with
  | ind index ih =>
      subst place
      obtain ⟨d, entry, renamed⟩ := embeds.get? contained
      rw [embeds.source.ask_eq asks, embeds.target.ask_eq asks', entry, renamed]
      refine each id d entry fun target reference => ?_
      exact ih target.index (embeds.source.references_lt entry reference)
        (embeds.source.contains_of_mem_references entry reference) rfl

theorem keepsWellKnown (embeds : Embeds f t u) {ids : List TypeId}
    (contained : ∀ id ∈ ids, t.contains id = true) : KeepsWellKnown f ids := by
  intro known small
  refine ⟨embeds.known known small, fun id included same => ?_⟩
  refine embeds.injective (contained id included) (embeds.source.contains_wellKnown small) ?_
  rw [same, embeds.known known small]

theorem propertyType? (embeds : Embeds f t u) (contained : t.contains id = true) (name : String) :
    u.propertyType? (f id) name = (t.propertyType? id name).map f :=
  embeds.ask_rename (asksReferences_propertyStep name) (asksReferences_propertyStep name)
    (Option.map f)
    (fun _ _ _ agree => propertyStep_rename (embeds.known .number (by decide)) name agree) contained

theorem indexKinds (embeds : Embeds f t u) : Keeps f t u Table.indexKinds := by
  intro id contained
  exact embeds.ask_rename asksReferences_indexKindsStep asksReferences_indexKindsStep
    (fun kinds => kinds) (fun _ _ _ agree => indexKindsStep_rename agree) contained

theorem indexType? (embeds : Embeds f t u) (contained : t.contains id = true) (kind : IndexKind) :
    u.indexType? (f id) kind = (t.indexType? id kind).map f :=
  embeds.ask_rename (asksReferences_indexStep kind) (asksReferences_indexStep kind)
    (Option.map f) (fun _ _ _ agree => indexStep_rename kind agree) contained

theorem callSignatures (embeds : Embeds f t u) (contained : t.contains id = true) :
    u.callSignatures (f id) = (t.callSignatures id).map (Signature.rename f) :=
  embeds.ask_rename asksReferences_callSignaturesStep asksReferences_callSignaturesStep
    (List.map (Signature.rename f)) (fun _ _ _ agree => callSignaturesStep_rename agree) contained

theorem display (embeds : Embeds f t u) : Keeps f t u Table.display := by
  intro id contained
  refine congrFun (embeds.ask_rename asksReferences_displayStep asksReferences_displayStep
    (fun text => text) (fun _ d entry agree => displayStep_rename ?_ agree) contained) false
  exact embeds.keepsWellKnown fun target reference =>
    embeds.source.contains_of_mem_references entry reference

theorem accessType? (embeds : Embeds f t u) {object key : TypeId}
    (contained : t.contains object = true) (keyContained : t.contains key = true) :
    u.accessType? (f object) (f key) = (t.accessType? object key).map f := by
  have property : u.propertyType? (f object) = fun name => (t.propertyType? object name).map f :=
    funext (embeds.propertyType? contained)
  have index : u.indexType? (f object) = fun kind => (t.indexType? object kind).map f :=
    funext (embeds.indexType? contained)
  rw [Table.accessType?, Table.accessType?, embeds.literal? key keyContained,
    embeds.kind? key keyContained, property, index]
  simp only [Option.orElse_eq_orElse, Option.orElse_eq_or, Option.map_or, Option.map_bind]
  rfl

theorem baseConstraint? (embeds : Embeds f t u) (contained : t.contains id = true) :
    u.baseConstraint? (f id) = (t.baseConstraint? id).map f := by
  refine embeds.ask_rename (asksReferences_baseConstraintStep t)
    (asksReferences_baseConstraintStep u) (Option.map f) (fun id d entry agree => ?_) contained
  have resolved {target : TypeId} (reference : target ∈ d.references) :
      u.constrained (f target) = f (t.constrained target) := by
    rw [constrained, constrained, Table.baseConstraint?, agree target reference]
    exact Option.getD_map f target _
  have inside {target : TypeId} (reference : target ∈ d.references) :
      t.contains (t.constrained target) = true :=
    embeds.source.contains_constrained (embeds.source.contains_of_mem_references entry reference)
  cases d with
  | typeParameter name constraint =>
      cases constraint with
      | none => rfl
      | some constraint => exact congrArg some (resolved (List.mem_singleton_self _))
  | indexedAccess object index =>
      have object' : object ∈ (Descriptor.indexedAccess object index).references := by
        simp [Descriptor.references]
      have index' : index ∈ (Descriptor.indexedAccess object index).references := by
        simp [Descriptor.references]
      change u.accessType? (u.constrained (f object)) (u.constrained (f index)) =
        (t.accessType? (t.constrained object) (t.constrained index)).map f
      rw [resolved object', resolved index']
      exact embeds.accessType? (inside object') (inside index')
  | _ => rfl

theorem constrained (embeds : Embeds f t u) (contained : t.contains id = true) :
    u.constrained (f id) = f (t.constrained id) := by
  rw [Table.constrained, Table.constrained, embeds.baseConstraint? contained]
  exact Option.getD_map f id _

/-!
## Predicates
-/

theorem constrainedUnionParts (embeds : Embeds f t u) :
    Carries f t u Table.constrainedUnionParts := by
  have parts : Carries f t u fun t id => t.unionParts (t.constrained id) := by
    refine ⟨fun id contained => ?_, fun id contained => ?_⟩
    · rw [embeds.constrained contained]
      exact embeds.unionParts.map _ (embeds.source.contains_constrained contained)
    · exact embeds.unionParts.inside _ (embeds.source.contains_constrained contained)
  exact embeds.unionParts.flatMap parts

theorem constrainedIntersectionParts (embeds : Embeds f t u) :
    Carries f t u Table.constrainedIntersectionParts where
  map id contained := by
    rw [Table.constrainedIntersectionParts, Table.constrainedIntersectionParts,
      embeds.intersectionParts.map id contained, List.map_map, List.map_map]
    exact List.map_congr_left fun part included =>
      embeds.constrained (embeds.intersectionParts.inside id contained part included)
  inside id contained part included := by
    obtain ⟨general, member, rfl⟩ := List.mem_map.mp included
    exact embeds.source.contains_constrained
      (embeds.intersectionParts.inside id contained general member)

theorem isFalsy (embeds : Embeds f t u) : Keeps f t u Table.isFalsy := by
  intro id contained
  rw [Table.isFalsy, Table.isFalsy, embeds.kindIn contained, embeds.literal? id contained]

theorem isTrueLiteral (embeds : Embeds f t u) : Keeps f t u Table.isTrueLiteral := by
  intro id contained
  rw [Table.isTrueLiteral, Table.isTrueLiteral, embeds.literal? id contained]

theorem isPossiblyFalsy (embeds : Embeds f t u) : Keeps f t u Table.isPossiblyFalsy := by
  have constituent : Keeps f t u fun t id =>
      !t.isTruthyLiteral id && t.hasKind id Kind.possiblyFalsy := by
    intro id contained
    simp only [isTruthyLiteral, embeds.literal? id contained, embeds.hasKind contained]
  exact embeds.constrainedUnionParts.any (embeds.constrainedIntersectionParts.any constituent)

theorem isPossiblyTruthy (embeds : Embeds f t u) : Keeps f t u Table.isPossiblyTruthy := by
  have constituent : Keeps f t u fun t id => !t.isFalsy id :=
    fun id contained => congrArg (!·) (embeds.isFalsy id contained)
  exact embeds.constrainedUnionParts.any (embeds.constrainedIntersectionParts.all constituent)

theorem isPossiblyNullish (embeds : Embeds f t u) : Keeps f t u Table.isPossiblyNullish :=
  embeds.constrainedUnionParts.any fun _ contained => embeds.kindIn contained _

theorem isAlwaysNullish (embeds : Embeds f t u) : Keeps f t u Table.isAlwaysNullish :=
  embeds.constrainedUnionParts.all fun _ contained => embeds.kindIn contained _

theorem isIndeterminate (embeds : Embeds f t u) : Keeps f t u Table.isIndeterminate :=
  embeds.constrainedUnionParts.any fun _ contained => embeds.kindIn contained _

theorem isNullable (embeds : Embeds f t u) : Keeps f t u Table.isNullable :=
  fun _ contained => embeds.hasKind contained _

theorem isNever (embeds : Embeds f t u) : Keeps f t u Table.isNever :=
  fun _ contained => embeds.hasKind contained _

theorem isUnion (embeds : Embeds f t u) : Keeps f t u Table.isUnion :=
  fun _ contained => embeds.kindIn contained _

theorem isBareLiteral (embeds : Embeds f t u) : Keeps f t u Table.isBareLiteral := by
  intro id contained
  simp only [Table.isBareLiteral, isBooleanLiteral, isLiteral, embeds.kindIn contained]

theorem truthVerdict? (embeds : Embeds f t u) : Keeps f t u Table.truthVerdict? := by
  intro id contained
  rw [Table.truthVerdict?, Table.truthVerdict?, embeds.isNever id contained,
    embeds.isPossiblyTruthy id contained, embeds.isPossiblyFalsy id contained]

/-!
## Comparisons
-/

theorem mayEqual (embeds : Embeds f t u) (contained : t.contains id = true) (loose : Bool)
    (kinds : List Kind) : u.mayEqual loose (f id) kinds = t.mayEqual loose id kinds :=
  embeds.hasKind contained _

theorem isNullishOutside (embeds : Embeds f t u) {nullish other : TypeId}
    (nullishContained : t.contains nullish = true) (contained : t.contains other = true)
    (loose : Bool) :
    u.isNullishOutside loose (f nullish) (f other) = t.isNullishOutside loose nullish other := by
  simp only [Table.isNullishOutside, isOfKind, embeds.kind? nullish nullishContained,
    embeds.mayEqual contained]

theorem cannotOverlap (embeds : Embeds f t u) {left right : TypeId}
    (leftContained : t.contains left = true) (rightContained : t.contains right = true)
    (loose : Bool) :
    u.cannotOverlap loose (f left) (f right) = t.cannotOverlap loose left right := by
  rw [Table.cannotOverlap, Table.cannotOverlap,
    embeds.isNullishOutside leftContained rightContained,
    embeds.isNullishOutside rightContained leftContained]

/-!
## Callbacks
-/

theorem mayBeList (embeds : Embeds f t u) : Keeps f t u Table.mayBeList := by
  have part : Keeps f t u fun t id => t.isArray id || t.isTuple id := by
    intro id contained
    simp only [embeds.isArray id contained, embeds.isTuple id contained]
  exact (embeds.unionParts.flatMap embeds.intersectionParts).any part

theorem callbackVerdict? (embeds : Embeds f t u) {returnTypes : List TypeId}
    (contained : ∀ type ∈ returnTypes, t.contains type = true) :
    u.callbackVerdict? (returnTypes.map f) = t.callbackVerdict? returnTypes := by
  have falsy : (returnTypes.map f).any u.isPossiblyFalsy = returnTypes.any t.isPossiblyFalsy :=
    any_map_of_agree fun type included => embeds.isPossiblyFalsy type (contained type included)
  have truthy : (returnTypes.map f).any u.isPossiblyTruthy = returnTypes.any t.isPossiblyTruthy :=
    any_map_of_agree fun type included => embeds.isPossiblyTruthy type (contained type included)
  have kinds (set : List Kind) :
      (returnTypes.map f).any (u.hasKind · set) = returnTypes.any (t.hasKind · set) :=
    any_map_of_agree fun type included => embeds.hasKind (contained type included) set
  rw [Table.callbackVerdict?, Table.callbackVerdict?, kinds, falsy, truthy]

/-!
## Nullability by the key
-/

theorem nameMayBeNullish (embeds : Embeds f t u) (name : String) :
    Keeps f t u (·.nameMayBeNullish name) := by
  intro id contained
  simp only [Table.nameMayBeNullish, embeds.propertyType? contained, embeds.indexKinds id contained]
  cases declared : t.propertyType? id name with
  | none => rfl
  | some property =>
      exact embeds.isNullable property (embeds.source.contains_propertyType? contained declared)

theorem keyMayBeNullish (embeds : Embeds f t u) {object key : TypeId}
    (contained : t.contains object = true) (keyContained : t.contains key = true) :
    u.keyMayBeNullish (f object) (f key) = t.keyMayBeNullish object key := by
  have property : u.propertyType? (f object) = fun name => (t.propertyType? object name).map f :=
    funext (embeds.propertyType? contained)
  simp only [Table.keyMayBeNullish, embeds.literal? key keyContained,
    embeds.kind? key keyContained, embeds.indexKinds object contained, property]
  cases named : (t.literal? key).bind LiteralValue.propertyName? with
  | none => rfl
  | some name =>
      simp only [Option.bind_some]
      cases declared : t.propertyType? object name with
      | none => rfl
      | some property =>
          exact embeds.isNullable property
            (embeds.source.contains_propertyType? contained declared)

theorem someKeyMayBeNullish (embeds : Embeds f t u) {object key : TypeId}
    (contained : t.contains object = true) (keyContained : t.contains key = true) :
    u.someKeyMayBeNullish (f object) (f key) = t.someKeyMayBeNullish object key := by
  rw [Table.someKeyMayBeNullish, embeds.unionParts.map key keyContained]
  exact any_map_of_agree fun part included =>
    embeds.keyMayBeNullish contained (embeds.unionParts.inside key keyContained part included)

end Embeds

end ConditionLint.Table
