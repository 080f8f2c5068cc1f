import ConditionLint.Proofs.Table.Descent
import ConditionLint.Types.Display
import Mathlib.Data.List.Basic

/-!
# Renamed descriptors

The steps of all questions about types commute with a renaming of ids: what a step makes of a
renamed descriptor and of renamed answers about its references is its own answer, renamed. With
the identity as renaming this says that a step asks about references only.
-/

set_option autoImplicit false

namespace ConditionLint

def Property.rename (f : TypeId → TypeId) (property : Property) : Property :=
  ⟨property.name, f property.type⟩

def IndexSignature.rename (f : TypeId → TypeId) (signature : IndexSignature) : IndexSignature :=
  ⟨signature.key, f signature.type⟩

def Signature.rename (f : TypeId → TypeId) (signature : Signature) : Signature :=
  ⟨signature.params.map f, f signature.returnType⟩

def ObjectShape.rename (f : TypeId → TypeId) (shape : ObjectShape) : ObjectShape where
  properties := shape.properties.map (Property.rename f)
  indexSignatures := shape.indexSignatures.map (IndexSignature.rename f)
  callSignatures := shape.callSignatures.map (Signature.rename f)

def Descriptor.rename (f : TypeId → TypeId) : Descriptor → Descriptor
  | intrinsic keyword => intrinsic keyword
  | literal value => literal value
  | object shape => object (shape.rename f)
  | array element => array (f element)
  | tuple elements => tuple (elements.map f)
  | union members => union (members.map f)
  | intersection members => intersection (members.map f)
  | typeParameter name constraint => typeParameter name (constraint.map f)
  | indexedAccess target index => indexedAccess (f target) (f index)

/-- The ids in a call signature. -/
def Signature.references (signature : Signature) : List TypeId :=
  signature.params ++ [signature.returnType]

variable {f : TypeId → TypeId}

@[simp] theorem Signature.rename_id : Signature.rename id = id := by
  funext signature
  simp [Signature.rename]

@[simp] theorem Descriptor.rename_id (d : Descriptor) : d.rename id = d := by
  have property : Property.rename id = id := rfl
  have index : IndexSignature.rename id = id := rfl
  cases d <;> simp [Descriptor.rename, ObjectShape.rename, property, index]

@[simp] theorem Descriptor.kind_rename (d : Descriptor) : (d.rename f).kind = d.kind := by
  cases d <;> rfl

/-!
## The steps of questions
-/

namespace Table

variable {id : TypeId} {d : Descriptor}

private theorem findSome?_rename {members : List TypeId} {first second : TypeId → Option TypeId}
    (agree : ∀ target ∈ members, second (f target) = (first target).map f) :
    (members.map f).findSome? second = (members.findSome? first).map f := by
  induction members with
  | nil => rfl
  | cons member rest ih =>
      obtain ⟨atMember, atRest⟩ := List.forall_mem_cons.mp agree
      rw [List.map_cons, List.findSome?_cons, List.findSome?_cons, atMember]
      cases first member with
      | none => exact ih atRest
      | some found => rfl

theorem propertyStep_rename (fixed : f .number = .number) (name : String)
    {first second : TypeId → Option TypeId}
    (agree : ∀ target ∈ d.references, second (f target) = (first target).map f) :
    propertyStep name (f id) (some (d.rename f)) second =
      (propertyStep name id (some d) first).map f := by
  have length : (lengthType? name).map f = lengthType? name := by
    unfold lengthType?
    split
    · exact congrArg some fixed
    · rfl
  cases d with
  | intrinsic keyword => cases keyword <;> simp [Descriptor.rename, propertyStep, length]
  | literal value => cases value <;> simp [Descriptor.rename, propertyStep, length]
  | object shape =>
      simp only [Descriptor.rename, ObjectShape.rename, propertyStep, List.find?_map,
        Option.map_map]
      rfl
  | array element => exact length.symm
  | tuple elements =>
      have chosen (declared : Option TypeId) : (lengthType? name <|> declared).map f =
          (lengthType? name <|> declared.map f) := by
        rw [Option.orElse_eq_orElse, Option.orElse_eq_or, Option.orElse_eq_or, Option.map_or,
          length]
      simp only [Descriptor.rename, propertyStep, chosen, List.getElem?_map, Option.map_bind]
      rfl
  | intersection members => exact findSome?_rename agree
  | typeParameter parameter constraint =>
      cases constraint with
      | none => rfl
      | some constraint => exact agree constraint (List.mem_singleton_self _)
  | _ => rfl

theorem indexKindsStep_rename {first second : TypeId → List IndexKind}
    (agree : ∀ target ∈ d.references, second (f target) = first target) :
    indexKindsStep (f id) (some (d.rename f)) second = indexKindsStep id (some d) first := by
  cases d with
  | object shape =>
      simp only [Descriptor.rename, ObjectShape.rename, indexKindsStep, List.map_map]
      rfl
  | intersection members =>
      have same : (members.map f).flatMap second = members.flatMap first := by
        rw [List.flatMap_map]
        exact List.flatMap_congr agree
      exact congrArg distinct same
  | _ => rfl

theorem indexStep_rename (kind : IndexKind) {first second : TypeId → Option TypeId}
    (agree : ∀ target ∈ d.references, second (f target) = (first target).map f) :
    indexStep kind (f id) (some (d.rename f)) second =
      (indexStep kind id (some d) first).map f := by
  cases d with
  | object shape =>
      simp only [Descriptor.rename, ObjectShape.rename, indexStep, List.find?_map, Option.map_map]
      rfl
  | array element =>
      simp only [Descriptor.rename, indexStep]
      split <;> rfl
  | intersection members => exact findSome?_rename agree
  | _ => rfl

theorem callSignaturesStep_rename {first second : TypeId → List Signature}
    (agree : ∀ target ∈ d.references, second (f target) = (first target).map (Signature.rename f)) :
    callSignaturesStep (f id) (some (d.rename f)) second =
      (callSignaturesStep id (some d) first).map (Signature.rename f) := by
  cases d with
  | object shape => rfl
  | union members =>
      have each : (members.map f).map second =
          (members.map first).map (List.map (Signature.rename f)) := by
        rw [List.map_map, List.map_map]
        exact List.map_congr_left agree
      have empty : List.isEmpty ∘ List.map (Signature.rename f) = List.isEmpty := by
        funext signatures
        exact List.isEmpty_map
      simp only [Descriptor.rename, callSignaturesStep, each, allCallable, List.any_map, empty]
      split
      · rfl
      · exact List.map_flatten.symm
  | intersection members =>
      simp only [Descriptor.rename, callSignaturesStep, List.flatMap_map, List.map_flatMap]
      exact List.flatMap_congr agree
  | typeParameter parameter constraint =>
      cases constraint with
      | none => rfl
      | some constraint => exact agree constraint (List.mem_singleton_self _)
  | _ => rfl

/-!
## The text of a type
-/

/-- The renaming keeps the well-known ids, and none of the given ids becomes one of them. -/
def KeepsWellKnown (f : TypeId → TypeId) (ids : List TypeId) : Prop :=
  ∀ known : TypeId, known.index < wellKnown.length →
    f known = known ∧ ∀ id ∈ ids, f id = known → id = known

theorem KeepsWellKnown.eq_iff {ids : List TypeId} (keeps : KeepsWellKnown f ids) {known : TypeId}
    (small : known.index < wellKnown.length) (included : id ∈ ids) : f id = known ↔ id = known := by
  obtain ⟨fixed, reflects⟩ := keeps known small
  constructor
  · exact reflects id included
  · rintro rfl
    exact fixed

theorem KeepsWellKnown.beq_eq {ids : List TypeId} (keeps : KeepsWellKnown f ids) (known : TypeId)
    (small : known.index < wellKnown.length) (included : id ∈ ids) :
    (f id == known) = (id == known) := by
  rw [Bool.eq_iff_iff, beq_iff_eq, beq_iff_eq, keeps.eq_iff small included]

theorem KeepsWellKnown.contains_map {ids : List TypeId} (keeps : KeepsWellKnown f ids)
    (known : TypeId) (small : known.index < wellKnown.length) :
    (ids.map f).contains known = ids.contains known := by
  rw [Bool.eq_iff_iff, List.contains_iff_mem, List.contains_iff_mem, List.mem_map]
  constructor
  · rintro ⟨id, included, same⟩
    exact (keeps.eq_iff small included).mp same ▸ included
  · intro included
    exact ⟨known, included, (keeps known small).1⟩

/-- The id is one of the two literals that a union shows as `boolean`. -/
def isBooleanHalf (members : List TypeId) (id : TypeId) : Bool :=
  members.contains .true && members.contains .false && (id == .true || id == .false)

/-- One more member of a union in the order of display. -/
def showMember (isHalf : TypeId → Bool) (shown : List (Option TypeId)) (id : TypeId) :
    List (Option TypeId) :=
  if isHalf id then (if shown.contains none then shown else shown ++ [none])
  else shown ++ [some id]

private theorem foldl_showMember_map {isHalf isHalf' : TypeId → Bool} {members : List TypeId}
    (agree : ∀ id ∈ members, isHalf' (f id) = isHalf id) (shown : List (Option TypeId)) :
    (members.map f).foldl (showMember isHalf') (shown.map (Option.map f)) =
      (members.foldl (showMember isHalf) shown).map (Option.map f) := by
  induction members generalizing shown with
  | nil => rfl
  | cons member rest ih =>
      obtain ⟨atMember, atRest⟩ := List.forall_mem_cons.mp agree
      have placed : (shown.map (Option.map f)).contains none = shown.contains none := by
        rw [Bool.eq_iff_iff, List.contains_iff_mem, List.contains_iff_mem, List.mem_map]
        simp
      have step : showMember isHalf' (shown.map (Option.map f)) (f member) =
          (showMember isHalf shown member).map (Option.map f) := by
        unfold showMember
        rw [atMember, placed]
        split
        · split <;> simp
        · simp
      rw [List.map_cons, List.foldl_cons, List.foldl_cons, step]
      exact ih atRest _

private theorem mem_showMember_iff {isHalf : TypeId → Bool} {shown : List (Option TypeId)}
    {entry : Option TypeId} : entry ∈ showMember isHalf shown id ↔
      entry ∈ shown ∨ entry = if isHalf id then none else some id := by
  unfold showMember
  split
  · split
    · rename_i placed
      have member : none ∈ shown := List.contains_iff_mem.mp placed
      refine ⟨.inl, ?_⟩
      rintro (here | rfl)
      · exact here
      · exact member
    · rw [List.mem_append, List.mem_singleton]
  · rw [List.mem_append, List.mem_singleton]

private theorem mem_foldl_showMember_iff {isHalf : TypeId → Bool} {members : List TypeId}
    {shown : List (Option TypeId)} {entry : Option TypeId} :
    entry ∈ members.foldl (showMember isHalf) shown ↔
      entry ∈ shown ∨ ∃ id ∈ members, entry = if isHalf id then none else some id := by
  induction members generalizing shown with
  | nil => simp
  | cons member rest ih =>
      rw [List.foldl_cons, ih, mem_showMember_iff, or_assoc, List.exists_mem_cons_iff]

theorem isBooleanHalf_iff {members : List TypeId} : isBooleanHalf members id = true ↔
    (.true ∈ members ∧ .false ∈ members) ∧ (id = .true ∨ id = .false) := by
  simp [isBooleanHalf]

theorem unionDisplayOrder_eq (members : List TypeId) :
    unionDisplayOrder members =
      (members.filter fun id => id != .null && id != .undefined).foldl
          (showMember (isBooleanHalf members)) [] ++
        ([TypeId.null, TypeId.undefined].filter members.contains).map some := rfl

/-- A union shows its members other than the two literals that it shows as `boolean`. -/
theorem mem_unionDisplayOrder_iff {members : List TypeId} {entry : Option TypeId} :
    entry ∈ unionDisplayOrder members ↔
      ∃ id ∈ members, entry = if isBooleanHalf members id then none else some id := by
  rw [unionDisplayOrder_eq, List.mem_append, mem_foldl_showMember_iff]
  have notHalf : ∀ id ∈ [TypeId.null, TypeId.undefined], isBooleanHalf members id = false := by
    intro id nullish
    rw [Bool.eq_false_iff, ne_eq, isBooleanHalf_iff]
    rintro ⟨_, half⟩
    rcases half with rfl | rfl <;> exact absurd nullish (by decide)
  constructor
  · rintro ((none | ⟨id, kept, rfl⟩) | nullish)
    · cases none
    · exact ⟨id, List.mem_of_mem_filter kept, rfl⟩
    · obtain ⟨id, kept, rfl⟩ := List.mem_map.mp nullish
      obtain ⟨isNullish, member⟩ := List.mem_filter.mp kept
      refine ⟨id, List.contains_iff_mem.mp member, ?_⟩
      rw [notHalf id isNullish]
      rfl
  · rintro ⟨id, member, rfl⟩
    by_cases nullish : id ∈ [TypeId.null, TypeId.undefined]
    · refine .inr (List.mem_map.mpr ⟨id, List.mem_filter.mpr ⟨nullish, ?_⟩, ?_⟩)
      · exact List.contains_iff_mem.mpr member
      · rw [notHalf id nullish]
        rfl
    · refine .inl (.inr ⟨id, List.mem_filter.mpr ⟨member, ?_⟩, rfl⟩)
      simpa using nullish

theorem mem_of_mem_unionDisplayOrder {members : List TypeId}
    (included : some id ∈ unionDisplayOrder members) : id ∈ members := by
  obtain ⟨member, isMember, shown⟩ := mem_unionDisplayOrder_iff.mp included
  split at shown
  · cases shown
  · exact Option.some.inj shown ▸ isMember

theorem KeepsWellKnown.isBooleanHalf_map {members : List TypeId}
    (keeps : KeepsWellKnown f members) (included : id ∈ members) :
    isBooleanHalf (members.map f) (f id) = isBooleanHalf members id := by
  unfold isBooleanHalf
  rw [keeps.contains_map .true (by decide),
    keeps.contains_map .false (by decide),
    keeps.beq_eq .true (by decide) included,
    keeps.beq_eq .false (by decide) included]

theorem unionDisplayOrder_rename {members : List TypeId} (keeps : KeepsWellKnown f members) :
    unionDisplayOrder (members.map f) = (unionDisplayOrder members).map (Option.map f) := by
  have plain : (members.map f).filter (fun id => id != .null && id != .undefined) =
      (members.filter fun id => id != .null && id != .undefined).map f := by
    rw [List.filter_map]
    refine congrArg _ (List.filter_congr fun id included => ?_)
    simp only [Function.comp_apply, bne, keeps.beq_eq .null (by decide) included,
      keeps.beq_eq .undefined (by decide) included]
  have nullish : [TypeId.null, TypeId.undefined].filter (members.map f).contains =
      [TypeId.null, TypeId.undefined].filter members.contains := by
    simp only [List.filter, keeps.contains_map .null (by decide),
      keeps.contains_map .undefined (by decide)]
  have fixed : (([TypeId.null, TypeId.undefined].filter members.contains).map some).map
      (Option.map f) = ([TypeId.null, TypeId.undefined].filter members.contains).map some := by
    rw [List.map_map]
    refine List.map_congr_left fun known kept => ?_
    have small : known.index < wellKnown.length := by
      rcases List.mem_pair.mp (List.mem_of_mem_filter kept) with rfl | rfl <;> decide
    exact congrArg some (keeps known small).1
  rw [unionDisplayOrder_eq, unionDisplayOrder_eq, List.map_append, fixed, nullish, plain]
  refine congrArg (· ++ _) ?_
  exact foldl_showMember_map (fun id kept =>
    keeps.isBooleanHalf_map (List.mem_of_mem_filter kept)) []

variable {first second : TypeId → Bool → String}

theorem unionText_rename {members : List TypeId} (keeps : KeepsWellKnown f members)
    (agree : ∀ target ∈ members, second (f target) = first target) (nested : Bool) :
    unionText (members.map f) second nested = unionText members first nested := by
  unfold unionText
  simp only [unionDisplayOrder_rename keeps, List.length_map, List.map_map]
  refine congrArg (fun texts => parenthesized _ (" | ".intercalate texts)) ?_
  refine List.map_congr_left fun shown included => ?_
  cases shown with
  | none => rfl
  | some id => exact congrFun (agree id (mem_of_mem_unionDisplayOrder included)) true

private theorem map_text_rename {ids : List TypeId}
    (agree : ∀ target ∈ ids, second (f target) = first target) (nested : Bool) :
    (ids.map f).map (second · nested) = ids.map (first · nested) := by
  rw [List.map_map]
  exact List.map_congr_left fun id included => congrFun (agree id included) nested

theorem functionText_eq (signature : Signature) (textOf : TypeId → Bool → String)
    (nested : Bool) :
    functionText signature textOf nested =
      parenthesized nested ("(" ++ ", ".intercalate (signature.params.zipIdx.map fun param =>
        "arg" ++ toString param.2 ++ ": " ++ textOf param.1 false) ++ ") => " ++
          textOf signature.returnType false) := rfl

theorem functionText_rename {signature : Signature}
    (agree : ∀ target ∈ signature.references, second (f target) = first target) (nested : Bool) :
    functionText (signature.rename f) second nested = functionText signature first nested := by
  have params : (signature.params.map f).zipIdx.map (fun param =>
        "arg" ++ toString param.2 ++ ": " ++ second param.1 false) =
      signature.params.zipIdx.map (fun param =>
        "arg" ++ toString param.2 ++ ": " ++ first param.1 false) := by
    rw [List.zipIdx_map, List.map_map]
    refine List.map_congr_left fun param included => ?_
    have member := List.fst_mem_of_mem_zipIdx included
    simp only [Function.comp_apply, Prod.map_fst, Prod.map_snd,
      agree param.1 (List.mem_append_left _ member)]
    rfl
  have result := agree signature.returnType (List.mem_append_right _ (List.mem_singleton_self _))
  rw [functionText_eq, functionText_eq]
  simp only [Signature.rename, params, result]

theorem memberTexts_rename {shape : ObjectShape}
    (agree : ∀ target ∈ shape.references, second (f target) = first target) :
    (shape.rename f).memberTexts second = shape.memberTexts first := by
  have properties {property : Property} (included : property ∈ shape.properties) :
      second (f property.type) = first property.type :=
    agree _ (List.mem_append_left _ (List.mem_append_left _ (List.mem_map_of_mem included)))
  have indices {index : IndexSignature} (included : index ∈ shape.indexSignatures) :
      second (f index.type) = first index.type :=
    agree _ (List.mem_append_left _ (List.mem_append_right _ (List.mem_map_of_mem included)))
  have calls {signature : Signature} (included : signature ∈ shape.callSignatures)
      {target : TypeId} (reference : target ∈ signature.references) :
      second (f target) = first target :=
    agree _ (List.mem_append_right _ (List.mem_flatMap.mpr ⟨signature, included, reference⟩))
  unfold ObjectShape.memberTexts
  simp only [ObjectShape.rename, List.map_map]
  refine congrArg₂ (· ++ ·) (congrArg₂ (· ++ ·) ?_ ?_) ?_
  · refine List.map_congr_left fun property included => ?_
    simp only [Function.comp_apply, Property.rename, properties included]
  · refine List.map_congr_left fun index included => ?_
    simp only [Function.comp_apply, IndexSignature.rename, indices included]
  · refine List.map_congr_left fun signature included => ?_
    have params : (signature.params.map f).map (second · true) =
        signature.params.map (first · true) :=
      map_text_rename (fun target member =>
        calls included (List.mem_append_left _ member)) true
    have result := calls included (List.mem_append_right _ (List.mem_singleton_self _))
    simp only [Function.comp_apply, Signature.rename, params, result]

theorem shapeText_rename {shape : ObjectShape}
    (agree : ∀ target ∈ shape.references, second (f target) = first target) (nested : Bool) :
    (shape.rename f).text second nested = shape.text first nested := by
  have members := memberTexts_rename agree
  obtain ⟨properties, indices, calls⟩ := shape
  rcases properties with _ | ⟨property, properties⟩
  · rcases indices with _ | ⟨index, indices⟩
    · rcases calls with _ | ⟨signature, _ | ⟨other, calls⟩⟩
      · rfl
      · refine functionText_rename (fun target reference => agree target ?_) nested
        exact List.mem_append_right _ (List.mem_flatMap.mpr
          ⟨signature, List.mem_singleton_self _, reference⟩)
      · exact congrArg (fun texts => "\x7b " ++ "; ".intercalate texts ++ " \x7d") members
    · exact congrArg (fun texts => "\x7b " ++ "; ".intercalate texts ++ " \x7d") members
  · exact congrArg (fun texts => "\x7b " ++ "; ".intercalate texts ++ " \x7d") members

theorem displayStep_rename (keeps : KeepsWellKnown f d.references)
    (agree : ∀ target ∈ d.references, second (f target) = first target) :
    displayStep (f id) (some (d.rename f)) second = displayStep id (some d) first := by
  funext nested
  cases d with
  | array element =>
      have inner := agree element (List.mem_singleton_self _)
      simp only [Descriptor.rename, displayStep, inner]
  | tuple elements | intersection elements =>
      have inner : (elements.map f).map (second · true) = elements.map (first · true) :=
        map_text_rename agree true
      simp only [Descriptor.rename, displayStep, inner]
  | union members => exact unionText_rename keeps agree nested
  | object shape => exact shapeText_rename agree nested
  | indexedAccess target index =>
      have object := agree target (by simp [Descriptor.references])
      have key := agree index (by simp [Descriptor.references])
      simp only [Descriptor.rename, displayStep, object, key]
  | _ => rfl

end Table

end ConditionLint
