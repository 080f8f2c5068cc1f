import ConditionLint.Proofs.Json.Written
import ConditionLint.Types.Coding

/-!
# Descriptors are read back

A descriptor whose ids fit and whose number is finite is read from its written form. What is read
fits, because an integer in place of a double is rounded to a finite one.
-/

set_option autoImplicit false

namespace ConditionLint

open Json Decimal

variable {limit : Nat} {form : Form} {j : Json}

/-- The ids of the descriptor fit 32 bits, and its number is finite. -/
structure Descriptor.Fits (d : Descriptor) : Prop where
  references : ∀ id ∈ d.references, id.index < idLimit
  finite : ∀ x, d = .literal (.number x) → x.isFinite = true

/-!
## Written forms
-/

theorem TypeId.written {id : TypeId} (fits : id.index < idLimit) :
    WrittenAs TypeId.ofJson? limit id.toJson id :=
  (WrittenAs.nat fits (by decide)).map

theorem TypeId.written_list {ids : List TypeId} (fits : ∀ id ∈ ids, id.index < idLimit) :
    WrittenAs (Json.list? TypeId.ofJson?) (limit + 1) (.array (ids.map TypeId.toJson)) ids :=
  .list fun id member => TypeId.written (fits id member)

theorem Intrinsic.ofKeyword?_keyword (i : Intrinsic) : Intrinsic.ofKeyword? i.keyword = some i := by
  cases i <;> rfl

theorem IndexKind.ofKeyword?_keyword (k : IndexKind) : IndexKind.ofKeyword? k.keyword = some k := by
  cases k <;> rfl

theorem LiteralValue.written {value : LiteralValue}
    (finite : ∀ x, value = .number x → x.isFinite = true) :
    WrittenAs LiteralValue.ofJson? (limit + 1) value.toJson value := by
  cases value with
  | string text => exact ⟨rfl, .tag .string⟩
  | number x => exact ⟨rfl, .tag (.number (finite x rfl))⟩
  | bigint digits => exact ⟨rfl, .tag .string⟩
  | boolean value => exact ⟨rfl, .tag .bool⟩

theorem Property.written {p : Property} (fits : p.type.index < idLimit) :
    WrittenAs Property.ofJson? (limit + 1) p.toJson p := by
  have type : WrittenAs TypeId.ofJson? limit p.type.toJson p.type := TypeId.written fits
  constructor
  · simp [Property.ofJson?, Property.toJson, type.read]
  · refine .object ?_
    simp only [List.forall_mem_cons]
    exact ⟨.string, type.within, List.forall_mem_nil _⟩

theorem IndexSignature.written {s : IndexSignature} (fits : s.type.index < idLimit) :
    WrittenAs (IndexSignature.ofJson? form) (limit + 1) s.toJson s := by
  have key : WrittenAs (word? form IndexKind.ofKeyword?) limit (.string s.key.keyword) s.key :=
    .word s.key.ofKeyword?_keyword
  have type : WrittenAs TypeId.ofJson? limit s.type.toJson s.type := TypeId.written fits
  constructor
  · simp [IndexSignature.ofJson?, IndexSignature.toJson, key.read, type.read]
  · refine .object ?_
    simp only [List.forall_mem_cons]
    exact ⟨key.within, type.within, List.forall_mem_nil _⟩

theorem Signature.written {s : Signature} (paramsFit : ∀ id ∈ s.params, id.index < idLimit)
    (returnFits : s.returnType.index < idLimit) :
    WrittenAs Signature.ofJson? (limit + 2) s.toJson s := by
  have params : WrittenAs (Json.list? TypeId.ofJson?) (limit + 1)
      (.array (s.params.map TypeId.toJson)) s.params := TypeId.written_list paramsFit
  have returnType : WrittenAs TypeId.ofJson? (limit + 1) s.returnType.toJson s.returnType :=
    TypeId.written returnFits
  constructor
  · simp [Signature.ofJson?, Signature.toJson, params.read, returnType.read]
  · refine .object ?_
    simp only [List.forall_mem_cons]
    exact ⟨params.within, returnType.within, List.forall_mem_nil _⟩

theorem ObjectShape.written {s : ObjectShape} (fits : ∀ id ∈ s.references, id.index < idLimit) :
    WrittenAs (ObjectShape.ofJson? form) (limit + 4) s.toJson s := by
  simp only [ObjectShape.references, List.forall_mem_append, List.forall_mem_map,
    List.forall_mem_flatMap, List.forall_mem_singleton] at fits
  obtain ⟨⟨properties, indexSignatures⟩, callSignatures⟩ := fits
  have properties : WrittenAs (Json.list? Property.ofJson?) (limit + 3)
      (.array (s.properties.map Property.toJson)) s.properties :=
    .list fun p member => Property.written (properties p member)
  have indexSignatures : WrittenAs (Json.list? (IndexSignature.ofJson? form)) (limit + 3)
      (.array (s.indexSignatures.map IndexSignature.toJson)) s.indexSignatures :=
    .list fun i member => IndexSignature.written (indexSignatures i member)
  have callSignatures : WrittenAs (Json.list? Signature.ofJson?) (limit + 3)
      (.array (s.callSignatures.map Signature.toJson)) s.callSignatures :=
    .list fun c member =>
      Signature.written (callSignatures c member).1 (callSignatures c member).2
  constructor
  · simp [ObjectShape.ofJson?, ObjectShape.toJson, properties.read, indexSignatures.read,
      callSignatures.read]
  · refine .object ?_
    simp only [List.forall_mem_cons]
    exact ⟨properties.within, indexSignatures.within, callSignatures.within,
      List.forall_mem_nil _⟩

namespace Descriptor

private theorem written_typeParameter {name : String} {constraint : Option TypeId}
    (fits : ∀ id ∈ constraint.toList, id.index < idLimit) :
    WrittenAs (ofJson? form) (limit + 2) (typeParameter name constraint).toJson
      (typeParameter name constraint) := by
  have written : WrittenAs (fun j => optional? TypeId.ofJson? (some j)) limit
      (ofOption TypeId.toJson constraint) constraint :=
    .option (by rintro _ ⟨⟩) fun id given => TypeId.written (fits id (Option.mem_toList.mpr given))
  constructor
  · change typeParameterOfJson? (.object
      [("name", .string name), ("constraint", ofOption TypeId.toJson constraint)]) = _
    simp [typeParameterOfJson?, written.read]
  · refine .tag (.object ?_)
    simp only [List.forall_mem_cons]
    exact ⟨.string, written.within, List.forall_mem_nil _⟩

private theorem written_indexedAccess {target index : TypeId} (targetFits : target.index < idLimit)
    (indexFits : index.index < idLimit) :
    WrittenAs (ofJson? form) (limit + 2) (indexedAccess target index).toJson
      (indexedAccess target index) := by
  have targetWritten : WrittenAs TypeId.ofJson? limit target.toJson target :=
    TypeId.written targetFits
  have indexWritten : WrittenAs TypeId.ofJson? limit index.toJson index :=
    TypeId.written indexFits
  constructor
  · change indexedAccessOfJson? form (.object
      [("object", target.toJson), ("index", index.toJson)]) = _
    simp [indexedAccessOfJson?, targetWritten.read, indexWritten.read]
  · refine .tag (.object ?_)
    simp only [List.forall_mem_cons]
    exact ⟨targetWritten.within, indexWritten.within, List.forall_mem_nil _⟩

theorem Fits.written {d : Descriptor} (fits : d.Fits) :
    WrittenAs (ofJson? form) (limit + 5) d.toJson d := by
  obtain ⟨references, finite⟩ := fits
  cases d with
  | intrinsic keyword =>
      exact ⟨congrArg (Option.map intrinsic) keyword.ofKeyword?_keyword, .tag .string⟩
  | literal value =>
      have written : WrittenAs LiteralValue.ofJson? (limit + 4) value.toJson value :=
        LiteralValue.written fun x same => finite x (congrArg literal same)
      exact ⟨congrArg (Option.map literal) written.read, .tag written.within⟩
  | object shape =>
      have written : WrittenAs (ObjectShape.ofJson? form) (limit + 4) shape.toJson shape :=
        ObjectShape.written references
      exact ⟨congrArg (Option.map object) written.read, .tag written.within⟩
  | array element =>
      have written : WrittenAs TypeId.ofJson? (limit + 4) element.toJson element :=
        TypeId.written (references element List.mem_cons_self)
      exact ⟨congrArg (Option.map array) written.read, .tag written.within⟩
  | tuple elements =>
      have written : WrittenAs (Json.list? TypeId.ofJson?) (limit + 4) (idsToJson elements)
          elements := TypeId.written_list references
      exact ⟨congrArg (Option.map tuple) written.read, .tag written.within⟩
  | union members =>
      have written : WrittenAs (Json.list? TypeId.ofJson?) (limit + 4) (idsToJson members)
          members := TypeId.written_list references
      exact ⟨congrArg (Option.map union) written.read, .tag written.within⟩
  | intersection members =>
      have written : WrittenAs (Json.list? TypeId.ofJson?) (limit + 4) (idsToJson members)
          members := TypeId.written_list references
      exact ⟨congrArg (Option.map intersection) written.read, .tag written.within⟩
  | typeParameter name constraint => exact written_typeParameter references
  | indexedAccess target index =>
      exact written_indexedAccess (references target List.mem_cons_self)
        (references index (List.mem_cons_of_mem _ List.mem_cons_self))

end Descriptor

/-!
## What is read
-/

theorem TypeId.fits_of_ofJson? {id : TypeId} (read : TypeId.ofJson? j = some id) :
    id.index < idLimit := by
  obtain ⟨index, indexRead, rfl⟩ := Option.map_eq_some_iff.mp read
  exact lt_of_natBelow? indexRead

theorem TypeId.forall_fits_of_list? {ids : List TypeId}
    (read : j.list? TypeId.ofJson? = some ids) : ∀ id ∈ ids, id.index < idLimit :=
  forall_mem_of_list? read fun _ _ => TypeId.fits_of_ofJson?

theorem LiteralValue.isFinite_of_ofJson? {x : Binary64} (inRange : j.NumbersInRange)
    (read : LiteralValue.ofJson? j = some (.number x)) : x.isFinite = true := by
  unfold LiteralValue.ofJson? at read
  split at read
  · obtain ⟨_, _, same⟩ := Option.map_eq_some_iff.mp read
    cases same
  · rename_i choice
    obtain ⟨_, doubleRead, same⟩ := Option.map_eq_some_iff.mp read
    cases same
    exact (inRange.of_choice? choice).isFinite doubleRead
  · obtain ⟨_, _, same⟩ := Option.map_eq_some_iff.mp read
    cases same
  · obtain ⟨_, _, same⟩ := Option.map_eq_some_iff.mp read
    cases same
  · cases read

theorem Property.fits_of_ofJson? {p : Property} (read : Property.ofJson? j = some p) :
    p.type.index < idLimit := by
  unfold Property.ofJson? at read
  split at read
  · simp only [Option.bind_eq_bind, Option.bind_eq_some_iff, Option.pure_def, Option.some.injEq,
      required?] at read
    obtain ⟨name, _, type, ⟨_, _, typeRead⟩, rfl⟩ := read
    exact TypeId.fits_of_ofJson? typeRead
  · cases read

theorem IndexSignature.fits_of_ofJson? {s : IndexSignature}
    (read : IndexSignature.ofJson? form j = some s) : s.type.index < idLimit := by
  unfold IndexSignature.ofJson? at read
  split at read
  · simp only [Option.bind_eq_bind, Option.bind_eq_some_iff, Option.pure_def, Option.some.injEq,
      required?] at read
    obtain ⟨key, _, type, ⟨_, _, typeRead⟩, rfl⟩ := read
    exact TypeId.fits_of_ofJson? typeRead
  · cases read

theorem Signature.fits_of_ofJson? {s : Signature} (read : Signature.ofJson? j = some s) :
    ∀ id ∈ s.params ++ [s.returnType], id.index < idLimit := by
  unfold Signature.ofJson? at read
  split at read
  · simp only [Option.bind_eq_bind, Option.bind_eq_some_iff, Option.pure_def, Option.some.injEq,
      required?] at read
    obtain ⟨params, paramsRead, returnType, ⟨_, _, returnRead⟩, rfl⟩ := read
    refine List.forall_mem_append.mpr ⟨?_, List.forall_mem_singleton.mpr ?_⟩
    · exact forall_mem_of_defaulted? paramsRead fun _ _ => TypeId.fits_of_ofJson?
    · exact TypeId.fits_of_ofJson? returnRead
  · cases read

theorem ObjectShape.fits_of_ofJson? {s : ObjectShape} (read : ObjectShape.ofJson? form j = some s) :
    ∀ id ∈ s.references, id.index < idLimit := by
  unfold ObjectShape.ofJson? at read
  split at read
  · simp only [Option.bind_eq_bind, Option.bind_eq_some_iff, Option.pure_def, Option.some.injEq]
      at read
    obtain ⟨properties, propertiesRead, indexSignatures, indexRead, callSignatures, callRead,
      rfl⟩ := read
    simp only [ObjectShape.references, List.forall_mem_append, List.forall_mem_map,
      List.forall_mem_flatMap]
    refine ⟨⟨?_, ?_⟩, ?_⟩
    · exact forall_mem_of_defaulted? propertiesRead fun _ _ => Property.fits_of_ofJson?
    · exact forall_mem_of_defaulted? indexRead fun _ _ => IndexSignature.fits_of_ofJson?
    · intro signature member
      exact List.forall_mem_append.mp
        (forall_mem_of_defaulted? callRead (fun _ _ => Signature.fits_of_ofJson?) signature member)
  · cases read

namespace Descriptor

private theorem fits_of_typeParameterOfJson? {d : Descriptor}
    (read : typeParameterOfJson? j = some d) :
    d.Fits := by
  unfold typeParameterOfJson? at read
  split at read
  · simp only [Option.bind_eq_bind, Option.bind_eq_some_iff, Option.pure_def, Option.some.injEq]
      at read
    obtain ⟨name, _, constraint, constraintRead, rfl⟩ := read
    refine ⟨fun id reference => ?_, by rintro _ ⟨⟩⟩
    cases Option.mem_toList.mp reference
    unfold optional? at constraintRead
    split at constraintRead
    · cases constraintRead
    · cases constraintRead
    · obtain ⟨_, idRead, same⟩ := Option.map_eq_some_iff.mp constraintRead
      cases same
      exact TypeId.fits_of_ofJson? idRead
  · cases read

private theorem fits_of_indexedAccessOfJson? {d : Descriptor}
    (read : indexedAccessOfJson? form j = some d) : d.Fits := by
  unfold indexedAccessOfJson? at read
  split at read
  · simp only [Option.bind_eq_bind, Option.bind_eq_some_iff, Option.pure_def, Option.some.injEq,
      required?] at read
    obtain ⟨target, ⟨_, _, targetRead⟩, index, ⟨_, _, indexRead⟩, rfl⟩ := read
    refine ⟨?_, by rintro _ ⟨⟩⟩
    simp only [Descriptor.references, List.forall_mem_cons]
    exact ⟨TypeId.fits_of_ofJson? targetRead, TypeId.fits_of_ofJson? indexRead,
      List.forall_mem_nil _⟩
  · cases read

theorem fits_of_ofJson? {d : Descriptor} (inRange : j.NumbersInRange)
    (read : ofJson? form j = some d) : d.Fits := by
  unfold ofJson? at read
  split at read
  · obtain ⟨keyword, _, rfl⟩ := Option.map_eq_some_iff.mp read
    exact ⟨List.forall_mem_nil _, by rintro _ ⟨⟩⟩
  · rename_i choice
    obtain ⟨value, valueRead, rfl⟩ := Option.map_eq_some_iff.mp read
    refine ⟨List.forall_mem_nil _, fun x same => ?_⟩
    cases same
    exact LiteralValue.isFinite_of_ofJson? (inRange.of_choice? choice) valueRead
  · obtain ⟨shape, shapeRead, rfl⟩ := Option.map_eq_some_iff.mp read
    exact ⟨ObjectShape.fits_of_ofJson? shapeRead, by rintro _ ⟨⟩⟩
  · obtain ⟨element, elementRead, rfl⟩ := Option.map_eq_some_iff.mp read
    exact ⟨List.forall_mem_singleton.mpr (TypeId.fits_of_ofJson? elementRead), by rintro _ ⟨⟩⟩
  · obtain ⟨ids, idsRead, rfl⟩ := Option.map_eq_some_iff.mp read
    exact ⟨TypeId.forall_fits_of_list? idsRead, by rintro _ ⟨⟩⟩
  · obtain ⟨ids, idsRead, rfl⟩ := Option.map_eq_some_iff.mp read
    exact ⟨TypeId.forall_fits_of_list? idsRead, by rintro _ ⟨⟩⟩
  · obtain ⟨ids, idsRead, rfl⟩ := Option.map_eq_some_iff.mp read
    exact ⟨TypeId.forall_fits_of_list? idsRead, by rintro _ ⟨⟩⟩
  · exact fits_of_typeParameterOfJson? read
  · exact fits_of_indexedAccessOfJson? read
  · cases read

end Descriptor

end ConditionLint
