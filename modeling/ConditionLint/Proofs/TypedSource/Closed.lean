import ConditionLint.Proofs.Sites.Findings
import ConditionLint.Proofs.TypedSource.Loading

/-!
# Loaded sources are closed

After a source has been read and its node types have been recorded, no question about a type runs
on forever and no id leads out of the table: neither one that a question is answered with nor one
that a finding shows.
-/

set_option autoImplicit false

namespace ConditionLint

namespace Program

variable {p : Program} {e : Expr} {f : Finding} {type : TypeId}

/-!
## The types of findings
-/

theorem judgeCondition_type (found : (p.judgeCondition e).finding? = some f)
    (shown : f.type = some type) : ∃ e, p.constrainedType? e = some type := by
  obtain ⟨_, decided⟩ := judgeCondition_finding?_eq_some_iff.mp found
  obtain ⟨other, _, typed, _, _, rfl⟩ := judgeTruth_finding?_eq_some_iff.mp decided
  cases shown
  exact ⟨_, typed⟩

theorem judgeNullish_type (found : (p.judgeNullish e).finding? = some f)
    (shown : f.type = some type) : ∃ e, p.constrainedType? e = some type := by
  obtain ⟨other, _, typed, _, _, rfl⟩ := judgeNullish_finding?_eq_some_iff.mp found
  cases shown
  exact ⟨e, typed⟩

theorem judgeStep_type {tokens : TokenStream} (judged : p.judgeStep tokens e = .ok (.decided f))
    (shown : f.type = some type) : ∃ e, p.constrainedType? e = some type := by
  obtain ⟨base, _, other, _, _, _, typed, _, _, rfl⟩ := judgeStep_eq_decided_iff.mp judged
  cases shown
  exact ⟨base, typed⟩

theorem judgeSignatures_type (found : (p.judgeSignatures e).finding? = some f) :
    f.type = none := by
  unfold judgeSignatures at found
  split at found
  · cases found
  · split at found
    · cases found
    · split at found
      · cases found
        rfl
      · cases found

theorem judgeComparison_type {node : Node} {operator : BinaryOperator} {left right : Expr}
    (found : (p.judgeComparison node operator left right).finding? = some f) :
    f.type = none := by
  unfold judgeComparison at found
  split at found
  · split at found
    · split at found
      · cases found
        rfl
      · cases found
    · cases found
  · cases found

theorem judgeCallback_type (found : (p.judgeCallback e).finding? = some f)
    (shown : f.type = some type) : ∃ e, p.constrainedType? e = some type := by
  unfold judgeCallback at found
  split at found
  · exact judgeCondition_type found shown
  · rw [judgeSignatures_type found] at shown
    cases shown

/-- The type that a finding shows is the constrained type of an expression. -/
theorem judge_type {tokens : TokenStream} {site : Site}
    (judged : p.judge tokens site = .ok (.decided f)) (shown : f.type = some type) :
    ∃ e, p.constrainedType? e = some type := by
  cases site with
  | condition test | loopCondition test =>
      exact judgeCondition_type (congrArg Judgement.finding? (Except.ok.inj judged)) shown
  | nullish operand =>
      exact judgeNullish_type (congrArg Judgement.finding? (Except.ok.inj judged)) shown
  | comparison node operator left right =>
      have found := congrArg Judgement.finding? (Except.ok.inj judged)
      rw [judgeComparison_type found] at shown
      cases shown
  | predicateCall callee arguments =>
      have found := congrArg Judgement.finding? (Except.ok.inj judged)
      unfold judgePredicateCall at found
      split at found
      · exact judgeCallback_type found shown
      · cases found
  | step step => exact judgeStep_type judged shown

/-- What a program made from the source keeps to: types are recorded as the last entries say, all
questions about types of the table end and are answered with types of the table, and so are the
types that findings show. -/
structure Closed (p : Program) (s : TypedSource) : Prop where
  table : p.table = s.table
  recorded : ∀ node, p.typeOf? node = (s.nodeTypes.findRev? (·.node == node)).map NodeType.type
  ends : ∀ type, p.table.contains type = true → p.table.QuestionsEnd type
  inside : ∀ type, p.table.contains type = true → p.table.AnswersInside type
  found : ∀ {tokens site f}, p.judge tokens site = .ok (.decided f) →
    ∀ type, f.type = some type → p.table.contains type = true
  shown : ∀ {tokens site f}, p.judge tokens site = .ok (.decided f) →
    ∀ type, f.type = some type → ∀ unknown, p.table.displayOr unknown type = p.table.display type

theorem Consistent.closed {s : TypedSource} (consistent : p.Consistent)
    (made : s.program = .ok p) : p.Closed s where
  table := TypedSource.program_table made
  recorded := TypedSource.typeOf?_program made
  ends _ contained := consistent.wellFormed.questionsEnd contained
  inside _ contained := consistent.wellFormed.answersInside contained
  found judged _ shown := by
    obtain ⟨e, typed⟩ := judge_type judged shown
    exact consistent.contains_constrainedType? typed
  shown judged _ shown := by
    obtain ⟨e, typed⟩ := judge_type judged shown
    exact consistent.wellFormed.displayOr_eq (consistent.contains_constrainedType? typed)

end Program

/-- A source that was read gives a program exactly if every node type is in the table, and the
fault otherwise names the first one that is not; the program is closed. -/
theorem loaded_source_closed {text : String} {s : TypedSource}
    (loaded : TypedSource.ofText text = .ok s) :
    ((∃ p, s.program = .ok p) ↔ ∀ entry ∈ s.nodeTypes, s.table.contains entry.type = true) ∧
      (∀ fault, s.program = .error fault ↔
        s.nodeTypes.find? (fun entry => !s.table.contains entry.type) =
          some ⟨fault.node, fault.type⟩) ∧
      ∀ p, s.program = .ok p → p.Closed s := by
  have wellFormed := TypedSource.wellFormed_of_ofText loaded
  refine ⟨?_, fun fault => TypedSource.recordAll_eq_error_iff, fun p made => ?_⟩
  · constructor
    · rintro ⟨p, made⟩
      exact (TypedSource.program_eq_ok_iff.mp made).1
    · intro contained
      exact ⟨_, TypedSource.program_eq_ok_iff.mpr ⟨contained, rfl⟩⟩
  · exact (TypedSource.consistent_of_program wellFormed made).closed made

namespace Labelled

/-- The well-known types, an object without members, one whose label is such an object, and what a
key that can only be `label` reads from it. -/
def descriptors : List Descriptor :=
  wellKnown ++
    [.object ⟨[], [], []⟩, .object ⟨[⟨"label", ⟨14⟩⟩], [], []⟩, .literal (.string "label"),
      .typeParameter "K" (some ⟨16⟩), .indexedAccess ⟨15⟩ ⟨17⟩]

/-- A document that records two types for the node of `x`. -/
def text : String :=
  "\x7b\"path\": \"a.ts\", \"source\": \"x;\", \"module\": [[], [0, 2, 1, 1]],
    \"types\": [\x7b\"intrinsic\": \"any\"\x7d, \x7b\"intrinsic\": \"unknown\"\x7d,
      \x7b\"intrinsic\": \"never\"\x7d, \x7b\"intrinsic\": \"void\"\x7d,
      \x7b\"intrinsic\": \"undefined\"\x7d, \x7b\"intrinsic\": \"null\"\x7d,
      \x7b\"intrinsic\": \"string\"\x7d, \x7b\"intrinsic\": \"number\"\x7d,
      \x7b\"intrinsic\": \"bigint\"\x7d, \x7b\"intrinsic\": \"symbol\"\x7d,
      \x7b\"literal\": \x7b\"boolean\": true\x7d\x7d,
      \x7b\"literal\": \x7b\"boolean\": false\x7d\x7d, \x7b\"union\": [10, 11]\x7d,
      \x7b\"intrinsic\": \"object\"\x7d, \x7b\"object\": []\x7d,
      \x7b\"object\": [[[\"label\", 14]]]\x7d,
      \x7b\"literal\": \x7b\"string\": \"label\"\x7d\x7d,
      \x7b\"type_parameter\": [\"K\", 16]\x7d, \x7b\"indexed_access\": [15, 17]\x7d],
    \"node_types\": [[1, 6], [1, 18]]\x7d"

def file : SourceFile :=
  ⟨"a.ts", "x;", ⟨[], ⟨0, 2, 1, 1⟩⟩, .ofList []⟩

def source : TypedSource :=
  ⟨file, true, .ofList descriptors, [⟨⟨1⟩, .string⟩, ⟨⟨1⟩, ⟨18⟩⟩]⟩

def fileMembers : List (String × Json) :=
  [("path", .string "a.ts"), ("source", .string "x;"),
    ("module", .array [.array [], .array [.nat 0, .nat 2, .nat 1, .nat 1]])]

def types : Json :=
  .array (wellKnown.map Descriptor.toJson ++
    [.object [("object", .array [])],
      .object [("object", .array [.array [.array [.string "label", .nat 14]]])],
      .object [("literal", .object [("string", .string "label")])],
      .object [("type_parameter", .array [.string "K", .nat 16])],
      .object [("indexed_access", .array [.nat 15, .nat 17])]])

def nodeTypes : Json :=
  .array [.array [.nat 1, .nat 6], .array [.nat 1, .nat 18]]

set_option maxRecDepth 10000 in
private theorem objectOfText_text : Json.objectOfText text =
    ⟨fileMembers ++ [("types", types), ("node_types", nodeTypes)], true⟩ := by
  have spelled : text.toList = _ := String.toList_ofList
  rw [Json.objectOfText, spelled]
  rfl

private theorem ofDescriptors?_descriptors : Table.ofDescriptors? descriptors = .ok source.table :=
  Table.ofDescriptors?_eq_ok_iff.mpr ⟨by decide, by decide, rfl⟩

private theorem list?_types : types.list? (Descriptor.ofJson? .document) = some descriptors := by
  decide +kernel

private theorem ofText_text : TypedSource.ofText text = .ok source := by
  have typed : TypedSource.Draft.add ⟨none, none, none, fileMembers.reverse⟩ "types" types =
      .ok ⟨none, some source.table, none, fileMembers.reverse⟩ :=
    TypedSource.Draft.add_types rfl list?_types ofDescriptors?_descriptors
  have judged : TypedSource.Draft.empty.addAll
      (fileMembers ++ [("types", types), ("node_types", nodeTypes)]) =
      .ok ⟨none, some source.table, some source.nodeTypes, fileMembers.reverse⟩ := by
    change (TypedSource.Draft.add ⟨none, none, none, fileMembers.reverse⟩ "types" types).bind _ = _
    rw [typed]
    rfl
  rw [TypedSource.ofText, objectOfText_text, TypedSource.ofReading_eq, judged]
  rfl

end Labelled

theorem labelled_source_closed :
    TypedSource.ofText Labelled.text = .ok Labelled.source ∧
      ∃ p, Labelled.source.program = .ok p ∧ p.Closed Labelled.source := by
  obtain ⟨succeeds, _, closed⟩ := loaded_source_closed Labelled.ofText_text
  obtain ⟨p, made⟩ := succeeds.mpr (by decide)
  exact ⟨Labelled.ofText_text, p, made, closed p made⟩

end ConditionLint
