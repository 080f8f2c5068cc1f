import ConditionLint.Proofs.Table.Builders
import ConditionLint.Proofs.Table.Embedding

/-!
# Answers persist while a table grows

Builder calls only append entries, and an entry refers to earlier ones. So whatever is asked about
a type of the table keeps its answer, however many types are added.
-/

set_option autoImplicit false

namespace ConditionLint.Table

/-- The second table answers every question about the type as the first one does. -/
structure SameAnswers (t u : Table) (type : TypeId) : Prop where
  kind? : u.kind? type = t.kind? type
  unionParts : u.unionParts type = t.unionParts type
  intersectionParts : u.intersectionParts type = t.intersectionParts type
  literal? : u.literal? type = t.literal? type
  propertyType? : ∀ name, u.propertyType? type name = t.propertyType? type name
  indexKinds : u.indexKinds type = t.indexKinds type
  indexType? : ∀ kind, u.indexType? type kind = t.indexType? type kind
  callSignatures : u.callSignatures type = t.callSignatures type
  baseConstraint? : u.baseConstraint? type = t.baseConstraint? type
  isArray : u.isArray type = t.isArray type
  isTuple : u.isTuple type = t.isTuple type
  display : u.display type = t.display type
  constrainedUnionParts : u.constrainedUnionParts type = t.constrainedUnionParts type
  constrainedIntersectionParts :
    u.constrainedIntersectionParts type = t.constrainedIntersectionParts type
  isTruthyLiteral : u.isTruthyLiteral type = t.isTruthyLiteral type
  isTrueLiteral : u.isTrueLiteral type = t.isTrueLiteral type
  isFalsy : u.isFalsy type = t.isFalsy type
  isPossiblyFalsy : u.isPossiblyFalsy type = t.isPossiblyFalsy type
  isPossiblyTruthy : u.isPossiblyTruthy type = t.isPossiblyTruthy type
  isNullish : u.isNullish type = t.isNullish type
  isPossiblyNullish : u.isPossiblyNullish type = t.isPossiblyNullish type
  isAlwaysNullish : u.isAlwaysNullish type = t.isAlwaysNullish type
  isNullable : u.isNullable type = t.isNullable type
  isBareLiteral : u.isBareLiteral type = t.isBareLiteral type
  isIndeterminate : u.isIndeterminate type = t.isIndeterminate type
  isNever : u.isNever type = t.isNever type

variable {t u : Table} {type : TypeId}

/-- An embedding that leaves the ids as they are keeps every answer. -/
theorem Embeds.sameAnswers (embeds : Embeds id t u) (contained : t.contains type = true) :
    t.SameAnswers u type where
  kind? := embeds.kind? type contained
  unionParts := (embeds.unionParts.map type contained).trans (List.map_id _)
  intersectionParts := (embeds.intersectionParts.map type contained).trans (List.map_id _)
  literal? := embeds.literal? type contained
  propertyType? name := (embeds.propertyType? contained name).trans (congrFun Option.map_id _)
  indexKinds := embeds.indexKinds type contained
  indexType? kind := (embeds.indexType? contained kind).trans (congrFun Option.map_id _)
  callSignatures := by
    rw [← List.map_id (t.callSignatures type), ← Signature.rename_id]
    exact embeds.callSignatures contained
  baseConstraint? := (embeds.baseConstraint? contained).trans (congrFun Option.map_id _)
  isArray := embeds.isArray type contained
  isTuple := embeds.isTuple type contained
  display := embeds.display type contained
  constrainedUnionParts := (embeds.constrainedUnionParts.map type contained).trans (List.map_id _)
  constrainedIntersectionParts :=
    (embeds.constrainedIntersectionParts.map type contained).trans (List.map_id _)
  isTruthyLiteral := congrArg (Option.any LiteralValue.isTruthy) (embeds.literal? type contained)
  isTrueLiteral := embeds.isTrueLiteral type contained
  isFalsy := embeds.isFalsy type contained
  isPossiblyFalsy := embeds.isPossiblyFalsy type contained
  isPossiblyTruthy := embeds.isPossiblyTruthy type contained
  isNullish := embeds.kindIn contained _
  isPossiblyNullish := embeds.isPossiblyNullish type contained
  isAlwaysNullish := embeds.isAlwaysNullish type contained
  isNullable := embeds.isNullable type contained
  isBareLiteral := embeds.isBareLiteral type contained
  isIndeterminate := embeds.isIndeterminate type contained
  isNever := embeds.isNever type contained

/-- Further builder calls change no answer about a type that a reached table has. -/
theorem answers_persist (reached : t.Reached) (grows : t.Grows u)
    (contained : t.contains type = true) : t.SameAnswers u type := by
  have embeds := reached.wellFormed.embeds_of_grown (reached.grows grows).wellFormed grows.grown
  exact embeds.sameAnswers contained

/-- The union of `T`, `null` and `"a"` is what it was once it has got a brand. -/
theorem joined_persists :
    BrandedName.joined.1.Grows BrandedName.branded.1 ∧
      BrandedName.joined.1.contains BrandedName.joined.2 = true ∧
      BrandedName.joined.1.SameAnswers BrandedName.branded.1 BrandedName.joined.2 := by
  have contained := BrandedName.contains_joined
  have grows : BrandedName.joined.1.Grows BrandedName.branded.1 :=
    .call _ .refl BrandedName.contains_brand
  exact ⟨grows, contained, answers_persist BrandedName.reached_joined grows contained⟩

end ConditionLint.Table
