import ConditionLint.Proofs.Json.Text
import ConditionLint.Proofs.TypedSource.Loading
import ConditionLint.Proofs.Syntax.Decoding
import ConditionLint.Proofs.Types.Coding

/-!
# Decoding undoes encoding

A typed source that can be written is read back from its written form, as a value and as text. Every
source that was read can be written. As text this needs the doubles of the source to be read back
from their own texts, which the reader of numbers does not promise for the last bit of each double.
-/

set_option autoImplicit false

namespace ConditionLint

open Json Decimal

/-!
## Node types
-/

/-- The ids of the node type fit the form in which they are written. -/
structure NodeType.Fits (n : NodeType) : Prop where
  node : n.node.index < 0x100000000
  type : n.type.index < idLimit

theorem NodeType.Fits.written {n : NodeType} {limit : Nat} (fits : n.Fits) :
    WrittenAs NodeType.ofJson? (limit + 1) n.toJson n := by
  have node : WrittenAs NodeId.ofJson? limit n.node.toJson n.node := NodeId.written fits.node
  have type : WrittenAs TypeId.ofJson? limit n.type.toJson n.type := TypeId.written fits.type
  constructor
  · simp [NodeType.ofJson?, NodeType.toJson, node.read, type.read]
  · refine .object ?_
    simp only [List.forall_mem_cons]
    exact ⟨node.within, type.within, List.forall_mem_nil _⟩

theorem NodeType.fits_of_ofJson? {j : Json} {n : NodeType} (read : NodeType.ofJson? j = some n) :
    n.Fits := by
  unfold NodeType.ofJson? at read
  split at read
  · simp only [Option.bind_eq_bind, Option.bind_eq_some_iff, Option.pure_def, Option.some.injEq,
      required?] at read
    obtain ⟨node, ⟨_, _, nodeRead⟩, type, ⟨_, _, typeRead⟩, rfl⟩ := read
    obtain ⟨index, indexRead, rfl⟩ := Option.map_eq_some_iff.mp nodeRead
    exact ⟨lt_of_natBelow? indexRead, TypeId.fits_of_ofJson? typeRead⟩
  · cases read

namespace TypedSource

variable {s : TypedSource}

/-- All ids, spans and literal numbers of the source fit the form in which they are written, and its
table is one that is accepted. -/
structure Fits (s : TypedSource) : Prop where
  accepted : Table.ofDescriptors? s.table.entries.toList = .ok s.table
  descriptors : ∀ d ∈ s.table.entries.toList, d.Fits
  places : ∀ visit ∈ s.file.tree.visits, visit.Fits
  tokens : ∀ token ∈ s.file.tokens.toList, token.span.Fits
  nodeTypes : ∀ entry ∈ s.nodeTypes, entry.Fits

/-- The source fits, and its written form nests no deeper than a document may. -/
structure Writable (s : TypedSource) : Prop extends s.Fits where
  nesting : s.toJson.isKeepable nestingLimit = true

/-- The source is read back from its written form, and if its doubles are read back from their
texts, from the text of its written form. -/
structure RoundTrips (s : TypedSource) : Prop where
  value : ofJson s.toJson = .ok s
  text : (∀ x, s.toJson.Holds (.double x) → (Number.double x).ReadsBack) →
    ofText s.toJson.toText = .ok s

/-!
## Written sources
-/

theorem Fits.written_types (fits : s.Fits) :
    WrittenAs (Json.list? (Descriptor.ofJson? .document)) 6 s.table.toJson s.table.entries.toList :=
  .list fun d member => (fits.descriptors d member).written

theorem Fits.written_tokens (fits : s.Fits) :
    WrittenAs (TokenStream.ofJson? .kept) 3 s.file.tokens.toJson s.file.tokens :=
  TokenStream.written fits.tokens

theorem Fits.written_nodeTypes (fits : s.Fits) :
    WrittenAs (Json.list? NodeType.ofJson?) 2 (.array (s.nodeTypes.map NodeType.toJson))
      s.nodeTypes :=
  .list fun entry member => (fits.nodeTypes entry member).written

/-- Only the tree can nest deep. -/
theorem Fits.within_toJson (fits : s.Fits) (nests : s.file.tree.toJson.Nests (nestingLimit - 1)) :
    s.toJson.Within Number.IsWritten nestingLimit := by
  have tree := SyntaxTree.written nests (Nat.le_refl _) fits.places
  refine .object ?_
  simp only [List.forall_mem_cons]
  exact ⟨.string, .string, tree.within, fits.written_tokens.within.mono (by decide), .tag .bool,
    fits.written_types.within.mono (by decide), fits.written_nodeTypes.within.mono (by decide),
    List.forall_mem_nil _⟩

private theorem Writable.nests_tree (writable : s.Writable) :
    s.file.tree.toJson.Nests (nestingLimit - 1) := by
  have whole : s.toJson.Nests nestingLimit :=
    within_of_isKeepable writable.nesting fun _ _ => trivial
  obtain ⟨below, same, each⟩ := whole.of_object
  cases same
  simp only [List.forall_mem_cons] at each
  exact each.2.2.1

def fileMembers (file : SourceFile) : List (String × Json) :=
  [("path", .string file.path), ("source", .string file.source), ("module", file.tree.toJson),
    ("tokens", file.tokens.toJson)]

theorem ofMembers?_fileMembers {file : SourceFile}
    (tree : SyntaxTree.ofJson? nestingLimit file.tree.toJson = some file.tree)
    (tokens : TokenStream.ofJson? .kept file.tokens.toJson = some file.tokens) :
    SourceFile.ofMembers? (fileMembers file) = some file := by
  simp [SourceFile.ofMembers?, fileMembers, tree, tokens]

/-!
## Members one after the other
-/

namespace Draft

private theorem add_other {draft : Draft} {name : String} {value : Json}
    (other : name ∉ ["compiler_options", "types", "node_types"])
    (keepable : value.isKeepable (nestingLimit - 1) = true) :
    draft.add name value = .ok { draft with kept := (name, value) :: draft.kept } := by
  unfold Draft.add
  split
  · simp at other
  · simp at other
  · simp at other
  · rw [if_pos keepable]

private theorem addAll_cons {draft next last : Draft} {name : String} {value : Json}
    {others : List (String × Json)} (judged : draft.add name value = .ok next)
    (later : next.addAll others = .ok last) : draft.addAll ((name, value) :: others) = .ok last :=
  List.foldlM_cons.trans (bind_eq_ok_iff.mpr ⟨next, judged, later⟩)

private theorem addAll_other {draft : Draft} {members : List (String × Json)}
    (each : ∀ member ∈ members, member.1 ∉ ["compiler_options", "types", "node_types"] ∧
      member.2.isKeepable (nestingLimit - 1) = true) :
    draft.addAll members = .ok { draft with kept := members.reverse ++ draft.kept } := by
  induction members generalizing draft with
  | nil => rfl
  | cons member members ih =>
      obtain ⟨⟨other, keepable⟩, others⟩ := List.forall_mem_cons.mp each
      rw [addAll_cons (add_other other keepable) (ih others), List.reverse_cons, List.append_assoc]
      rfl

private theorem add_options {draft : Draft} (fresh : draft.strictNullChecks = none)
    (strict : Bool) :
    draft.add "compiler_options" (.object [("strict_null_checks", .bool strict)]) =
      .ok { draft with strictNullChecks := some strict } := by
  simp [Draft.add, fresh, strictNullChecksOfJson?, shaped]

private theorem add_nodeTypes {draft : Draft} {value : Json} {entries : List NodeType}
    (fresh : draft.nodeTypes = none) (read : value.list? NodeType.ofJson? = some entries) :
    draft.add "node_types" value = .ok { draft with nodeTypes := some entries } := by
  simp only [Draft.add, fresh, read, shaped]
  rfl

private theorem addAll_append {draft next last : Draft} {first others : List (String × Json)}
    (judged : draft.addAll first = .ok next) (later : next.addAll others = .ok last) :
    draft.addAll (first ++ others) = .ok last :=
  List.foldlM_append.trans (bind_eq_ok_iff.mpr ⟨next, judged, later⟩)

theorem finish_eq {file : SourceFile} {table : Table} {nodeTypes : List NodeType} {strict : Bool}
    {kept : List (String × Json)} (read : SourceFile.ofMembers? kept.reverse = some file) :
    finish ⟨some strict, some table, some nodeTypes, kept⟩ =
      .ok ⟨file, strict, table, nodeTypes⟩ := by
  simp only [finish, read, shaped]
  rfl

end Draft

theorem Writable.ofReading_toJson {members : List (String × Json)} (writable : s.Writable)
    (object : s.toJson = .object members) : ofReading ⟨members, true⟩ = .ok s := by
  have fits := writable.toFits
  have tree := SyntaxTree.written writable.nests_tree (Nat.sub_le nestingLimit 1) fits.places
  have tokens : WrittenAs (TokenStream.ofJson? .kept) (nestingLimit - 1) s.file.tokens.toJson
      s.file.tokens := TokenStream.written fits.tokens
  have others : ∀ member ∈ fileMembers s.file,
      member.1 ∉ ["compiler_options", "types", "node_types"] ∧
        member.2.isKeepable (nestingLimit - 1) = true := by
    simp only [fileMembers, List.forall_mem_cons]
    exact ⟨⟨by decide, rfl⟩, ⟨by decide, rfl⟩, ⟨by decide, tree.within.isKeepable⟩,
      ⟨by decide, tokens.within.isKeepable⟩, List.forall_mem_nil _⟩
  have judged : Draft.empty.addAll members =
      .ok ⟨some s.strictNullChecks, some s.table, some s.nodeTypes,
        (fileMembers s.file).reverse⟩ := by
    have same : members = fileMembers s.file ++
        [("compiler_options", .object [("strict_null_checks", .bool s.strictNullChecks)]),
          ("types", s.table.toJson), ("node_types", .array (s.nodeTypes.map NodeType.toJson))] :=
      (Json.object.inj object).symm
    rw [same]
    refine Draft.addAll_append (Draft.addAll_other others) ?_
    refine Draft.addAll_cons (Draft.add_options rfl s.strictNullChecks) ?_
    refine Draft.addAll_cons (Draft.add_types rfl fits.written_types.read fits.accepted) ?_
    exact Draft.addAll_cons (Draft.add_nodeTypes rfl fits.written_nodeTypes.read) rfl
  have file : SourceFile.ofMembers? (fileMembers s.file).reverse.reverse = some s.file := by
    rw [List.reverse_reverse]
    exact ofMembers?_fileMembers tree.read tokens.read
  rw [ofReading_eq, judged]
  exact Draft.finish_eq file

theorem Writable.roundTrips (writable : s.Writable) : s.RoundTrips where
  value := writable.ofReading_toJson rfl
  text readsBack := by
    have written := writable.within_toJson writable.nests_tree
    have numbers : s.toJson.Within Number.ReadsBack nestingLimit := by
      refine within_of_isKeepable written.isKeepable fun n holds => ?_
      cases n with
      | integer value =>
          obtain ⟨natural, fits, rfl⟩ := written.good_of_holds holds
          exact readsBack_nat fits
      | double x => exact readsBack x holds
    rw [ofText, toJson, objectOfText_toText numbers]
    exact writable.ofReading_toJson rfl

/-!
## Sources that were read
-/

private theorem shaped_eq_ok_iff {α : Type} {part : Option α} {value : α} :
    shaped part = .ok value ↔ part = some value := by
  cases part <;> simp [shaped]

private theorem descriptors_fit {j : Json} {ds : List Descriptor} {form : Form}
    (inRange : j.NumbersInRange) (read : j.list? (Descriptor.ofJson? form) = some ds) :
    ∀ d ∈ ds, d.Fits := by
  obtain ⟨items, rfl, each⟩ := exists_items_of_list? read
  intro d member
  obtain ⟨item, inside, decoded⟩ := each d member
  exact Descriptor.fits_of_ofJson? (fun n holds => inRange n (.item inside holds)) decoded

/-- What was read of a document fits, and so does what was kept of it. -/
structure Draft.Fits (draft : Draft) : Prop where
  accepted : ∀ table, draft.table = some table →
    Table.ofDescriptors? table.entries.toList = .ok table
  descriptors : ∀ table, draft.table = some table → ∀ d ∈ table.entries.toList, d.Fits
  nodeTypes : ∀ entries, draft.nodeTypes = some entries → ∀ entry ∈ entries, entry.Fits
  kept : ∀ member ∈ draft.kept, member.2.Within Number.InRange (nestingLimit - 1)

private theorem Draft.fits_empty : Draft.empty.Fits :=
  ⟨nofun, nofun, nofun, nofun⟩

theorem Draft.Fits.add {draft next : Draft} {name : String} {value : Json} (fits : draft.Fits)
    (inRange : value.NumbersInRange) (judged : draft.add name value = .ok next) : next.Fits := by
  unfold Draft.add at judged
  split at judged
  · -- the options
    split at judged
    · cases judged
    · obtain ⟨strict, _, same⟩ := bind_eq_ok_iff.mp judged
      cases same
      exact ⟨fits.accepted, fits.descriptors, fits.nodeTypes, fits.kept⟩
  · -- the type table
    split at judged
    · cases judged
    · obtain ⟨ds, shapedRead, rest⟩ := bind_eq_ok_iff.mp judged
      obtain ⟨table, tableRead, same⟩ := bind_eq_ok_iff.mp rest
      cases same
      have accepted := exists_descriptors_of_mapError tableRead
      have entries := Table.entries_of_ofDescriptors? accepted
      refine ⟨fun _ same => ?_, fun _ same => ?_, fits.nodeTypes, fits.kept⟩
      · cases same
        rwa [entries]
      · cases same
        rw [entries]
        exact descriptors_fit inRange (shaped_eq_ok_iff.mp shapedRead)
  · -- the node types
    split at judged
    · cases judged
    · obtain ⟨entries, shapedRead, same⟩ := bind_eq_ok_iff.mp judged
      cases same
      refine ⟨fits.accepted, fits.descriptors, fun _ same => ?_, fits.kept⟩
      cases same
      exact forall_mem_of_list? (shaped_eq_ok_iff.mp shapedRead)
        fun _ _ => NodeType.fits_of_ofJson?
  · -- any other member
    split at judged
    · rename_i keepable
      cases judged
      refine ⟨fits.accepted, fits.descriptors, fits.nodeTypes, ?_⟩
      exact List.forall_mem_cons.mpr ⟨within_of_isKeepable keepable inRange, fits.kept⟩
    · cases judged

theorem Draft.Fits.addAll {draft last : Draft} {members : List (String × Json)} (fits : draft.Fits)
    (inRange : ∀ member ∈ members, member.2.NumbersInRange)
    (judged : draft.addAll members = .ok last) : last.Fits := by
  induction members generalizing draft with
  | nil =>
      cases judged
      exact fits
  | cons member members ih =>
      obtain ⟨first, others⟩ := List.forall_mem_cons.mp inRange
      obtain ⟨next, added, later⟩ := bind_eq_ok_iff.mp judged
      exact ih (fits.add first added) others later

/-- The tree and the tokens that are read when the document has ended. -/
theorem fits_of_ofMembers? {kept : List (String × Json)} {file : SourceFile}
    (within : ∀ member ∈ kept, member.2.Within Number.InRange (nestingLimit - 1))
    (read : SourceFile.ofMembers? kept = some file) :
    file.tree.toJson.Nests (nestingLimit - 1) ∧ (∀ visit ∈ file.tree.visits, visit.Fits) ∧
      ∀ token ∈ file.tokens.toList, token.span.Fits := by
  unfold SourceFile.ofMembers? at read
  split at read
  · rename_i fields
    simp only [Option.bind_eq_bind, Option.bind_eq_some_iff, Option.pure_def, Option.some.injEq]
      at read
    obtain ⟨path, _, source, _, tree, treeRead, tokens, tokensRead, rfl⟩ := read
    obtain ⟨below, same, each⟩ := (Within.object within).of_fields? fields
    cases same
    simp only [List.forall_mem_cons] at each
    obtain ⟨_, _, treeIn, tokensIn, _⟩ := each
    obtain ⟨nests, places⟩ := (SyntaxTree.keeps nestingLimit).required treeIn treeRead
    refine ⟨nests, places, ?_⟩
    unfold defaulted? at tokensRead
    split at tokensRead
    · cases tokensRead
      intro token member
      cases TokenStream.mem_toList_ofList.mp member
    · exact TokenStream.fits_of_ofJson? tokensRead
  · cases read

theorem writable_of_ofReading {reading : ObjectReading}
    (inRange : ∀ member ∈ reading.members, member.2.NumbersInRange)
    (read : ofReading reading = .ok s) : s.Writable := by
  rw [ofReading_eq] at read
  obtain ⟨draft, judged, ended⟩ := bind_eq_ok_iff.mp read
  have fits : draft.Fits := Draft.fits_empty.addAll inRange judged
  split at ended
  · obtain ⟨file, fileRead, rest⟩ := bind_eq_ok_iff.mp ended
    obtain ⟨table, tableRead, same⟩ := bind_eq_ok_iff.mp rest
    cases same
    have found := shaped_eq_ok_iff.mp tableRead
    obtain ⟨nests, places, tokens⟩ := fits_of_ofMembers?
      (fun member included => fits.kept member (List.mem_reverse.mp included))
      (shaped_eq_ok_iff.mp fileRead)
    have nodeTypes : ∀ entry ∈ draft.nodeTypes.getD [], entry.Fits := by
      cases given : draft.nodeTypes with
      | none => exact List.forall_mem_nil _
      | some entries => exact fits.nodeTypes entries given
    have source : TypedSource.Fits ⟨file, draft.strictNullChecks.getD true, table,
        draft.nodeTypes.getD []⟩ :=
      ⟨fits.accepted table found, fits.descriptors table found, places, tokens, nodeTypes⟩
    exact ⟨source, (source.within_toJson nests).isKeepable⟩
  · cases ended

end TypedSource

/-- Whatever can be written is read back, and whatever was read can be written. -/
theorem decoding_undoes_encoding :
    (∀ s : TypedSource, s.Writable → s.RoundTrips) ∧
      ∀ text s, TypedSource.ofText text = .ok s → s.Writable ∧ s.RoundTrips := by
  refine ⟨fun s writable => writable.roundTrips, fun text s read => ?_⟩
  have writable : s.Writable :=
    TypedSource.writable_of_ofReading (numbersInRange_objectOfText text) read
  exact ⟨writable, writable.roundTrips⟩

namespace ReturnedHalf

/-!
The file `return 0.5;` with the well-known types and the literal type of `0.5`.
-/

def half : Binary64 :=
  ⟨0x3FE0000000000000⟩

def descriptors : List Descriptor :=
  wellKnown ++ [.literal (.number half)]

def statement : Stmt :=
  .returning (some (.literal ⟨⟨3⟩, ⟨7, 10, 1, 8⟩⟩ (.number half))) ⟨0, 11, 1, 1⟩

def tokens : List Token :=
  [⟨.keyword, "return", ⟨0, 6, 1, 1⟩⟩, ⟨.numeric, "0.5", ⟨7, 10, 1, 8⟩⟩,
    ⟨.punctuator, ";", ⟨10, 11, 1, 11⟩⟩]

def file : SourceFile :=
  ⟨"a.ts", "return 0.5;", ⟨[statement], ⟨0, 11, 1, 1⟩⟩, .ofList tokens⟩

def source : TypedSource :=
  ⟨file, false, .ofList descriptors, [⟨⟨3⟩, ⟨14⟩⟩]⟩

private theorem ofDescriptors?_descriptors : Table.ofDescriptors? descriptors = .ok source.table :=
  Table.ofDescriptors?_eq_ok_iff.mpr ⟨by decide, by decide, rfl⟩

private theorem entries : source.table.entries.toList = descriptors :=
  Table.entries_of_ofDescriptors? ofDescriptors?_descriptors

private theorem toList_tokens : source.file.tokens.toList = tokens :=
  List.mergeSort_of_pairwise (by decide)

private theorem descriptors_fit : ∀ d ∈ descriptors, d.Fits := by
  have references : ∀ d ∈ descriptors, ∀ id ∈ d.references, id.index < idLimit := by decide
  intro d member
  refine ⟨references d member, ?_⟩
  rintro x rfl
  have same : x = half := by simpa [descriptors, wellKnown] using member
  rw [same]
  decide

private theorem fits : source.Fits where
  accepted := by
    rw [entries]
    exact ofDescriptors?_descriptors
  descriptors := by
    rw [entries]
    exact descriptors_fit
  places := by
    have whole : Span.Fits ⟨0, 11, 1, 1⟩ := by constructor <;> decide
    have literal : Span.Fits ⟨7, 10, 1, 8⟩ := by constructor <;> decide
    simp only [source, file, statement, SyntaxTree.visits, visitsOfStmts, Stmt.visits,
      visitsOfExpr?, Expr.visits, List.append_nil, List.forall_mem_cons]
    exact ⟨whole, whole, ⟨⟨by decide, literal⟩, rfl⟩, List.forall_mem_nil _⟩
  tokens := by
    rw [toList_tokens]
    simp only [tokens, List.forall_mem_cons]
    refine ⟨?_, ?_, ?_, List.forall_mem_nil _⟩ <;> constructor <;> decide
  nodeTypes := List.forall_mem_singleton.mpr ⟨by decide, by decide⟩

private theorem writable : source.Writable where
  toFits := fits
  nesting := by
    refine (fits.within_toJson ?_).isKeepable
    refine within_of_isKeepable ?_ fun _ _ => trivial
    rfl

private theorem eq_half_of_holds {x : Binary64} (holds : source.toJson.Holds (.double x)) :
    x = half := by
  rw [TypedSource.toJson, Table.toJson, entries, TokenStream.toJson, toList_tokens] at holds
  simpa [source, file, statement, tokens, descriptors, wellKnown, SyntaxTree.toJson, Stmt.toJson,
    tagged, exprToJson?, Expr.toJson, NodeId.toJson, nat, Literal.toJson, Token.toJson,
    Span.toJson, Descriptor.toJson, LiteralValue.toJson, Descriptor.idsToJson, TypeId.toJson,
    NodeType.toJson] using holds

private theorem toList_writeNumber : (writeNumber (.double half)).toList = ['0', '.', '5'] := by
  have finite : half.isFinite = true := by decide
  have positive : half.isNegative = false := by decide
  have nonzero : half.isZero = false := by decide
  have numeral : writeNumeral half.shortest = ['0', '.', '5'] := by decide +kernel
  simp [writeNumber, finite, positive, nonzero, numeral]

private theorem value_parts :
    (NumberParts.mk false ['0'] (some ['5']) none).value = .number (.double half) := by
  have digits : Significand.pushFraction (Significand.pushWhole ⟨0, 0⟩ ['0']) ['5'] =
      ⟨5, -1⟩ := by decide +kernel
  have rounded : Significand.value? ⟨5, -1⟩ = some half := by decide +kernel
  have positive : half.withSign false = half := by decide
  simp [NumberParts.value, digits, rounded, positive]

private theorem readsBack_half : (Number.double half).ReadsBack := by
  rw [Number.ReadsBack, toList_writeNumber, readNumber_of_ne (by decide), readUnsigned_eq_some_iff]
  exact ⟨by decide, some ['5'], [], none, rfl, rfl, value_parts.symm⟩

end ReturnedHalf

theorem returned_half_is_read_back :
    ReturnedHalf.source.Writable ∧
      TypedSource.ofText ReturnedHalf.source.toJson.toText = .ok ReturnedHalf.source ∧
      TypedSource.ofJson ReturnedHalf.source.toJson = .ok ReturnedHalf.source := by
  have writable := ReturnedHalf.writable
  obtain ⟨value, text⟩ := decoding_undoes_encoding.1 ReturnedHalf.source writable
  refine ⟨writable, text fun x holds => ?_, value⟩
  rw [ReturnedHalf.eq_half_of_holds holds]
  exact ReturnedHalf.readsBack_half

end ConditionLint
