import ConditionLint.Proofs.Lint.Renaming
import Mathlib.Logic.Equiv.Basic

/-!
# Numbering does not matter

The ids of types and of nodes are names only. A source whose type table is given in another order,
or goes on with further entries, and whose nodes have other ids, is linted to the same end.
-/

set_option autoImplicit false

namespace ConditionLint

/-- The second list has the entries of the first one in the order that a permutation of their ids
asks for, and refers to them by their new ids. The well-known ids stay as they are. -/
structure Permutes (f : TypeId → TypeId) (ds ds' : List Descriptor) : Prop where
  length : ds'.length = ds.length
  inside : ∀ id : TypeId, id.index < ds.length → (f id).index < ds.length
  injective : ∀ a b : TypeId, a.index < ds.length → b.index < ds.length → f a = f b → a = b
  known : ∀ id : TypeId, id.index < wellKnown.length → f id = id
  entry : ∀ (id : TypeId) (d : Descriptor), ds[id.index]? = some d →
    ds'[(f id).index]? = some (d.rename f)

def SourceFile.rename (g : NodeId → NodeId) (file : SourceFile) : SourceFile :=
  { file with tree := file.tree.rename g }

def NodeType.rename (f : TypeId → TypeId) (g : NodeId → NodeId) (entry : NodeType) : NodeType :=
  ⟨g entry.node, f entry.type⟩

def TypedSource.rename (f : TypeId → TypeId) (g : NodeId → NodeId) (table : Table)
    (s : TypedSource) : TypedSource :=
  { s with
    file := s.file.rename g
    table := table
    nodeTypes := s.nodeTypes.map (NodeType.rename f g) }

variable {f : TypeId → TypeId} {g : NodeId → NodeId} {ds ds' : List Descriptor} {t u : Table}

/-!
## Tables
-/

namespace Table

private theorem get?_of_ofDescriptors? (accepted : ofDescriptors? ds = .ok t) (id : TypeId) :
    t.get? id = ds[id.index]? := by
  rw [get?, ← Array.getElem?_toList, entries_of_ofDescriptors? accepted]

theorem embeds_of_permutes (accepted : ofDescriptors? ds = .ok t)
    (accepted' : ofDescriptors? ds' = .ok u) (permutes : Permutes f ds ds') : Embeds f t u where
  source := wellFormed_of_ofDescriptors? accepted
  target := wellFormed_of_ofDescriptors? accepted'
  entry := by
    intro id d found
    rw [get?_of_ofDescriptors? accepted] at found
    rw [get?_of_ofDescriptors? accepted']
    exact permutes.entry id d found
  injective := by
    have size : t.size = ds.length := by
      rw [Table.size, ← Array.length_toList, entries_of_ofDescriptors? accepted]
    intro a b first second
    rw [contains_iff, size] at first second
    exact permutes.injective a b first second
  known := permutes.known

theorem embeds_of_append {more : List Descriptor} (accepted : ofDescriptors? ds = .ok t)
    (accepted' : ofDescriptors? (ds ++ more) = .ok u) : Embeds id t u := by
  refine (wellFormed_of_ofDescriptors? accepted).embeds_of_grown
    (wellFormed_of_ofDescriptors? accepted') ?_
  rw [entries_of_ofDescriptors? accepted, entries_of_ofDescriptors? accepted']
  exact List.prefix_append ds more

end Table

/-!
## Programs
-/

namespace TypedSource

variable {s : TypedSource} {p : Program}

theorem rename_id (s : TypedSource) (table : Table) :
    s.rename id id table = { s with table := table } := by
  have file : s.file.rename id = s.file := by
    rw [SourceFile.rename, SyntaxTree.rename_id]
  have nodeTypes : s.nodeTypes.map (NodeType.rename id id) = s.nodeTypes :=
    List.map_id s.nodeTypes
  rw [TypedSource.rename, file, nodeTypes]

private theorem findRev?_map_rename (injective : Function.Injective g) (entries : List NodeType)
    (node : NodeId) :
    (entries.map (NodeType.rename f g)).findRev? (·.node == g node) =
      (entries.findRev? (·.node == node)).map (NodeType.rename f g) := by
  have same : (fun entry : NodeType => entry.node == g node) ∘ NodeType.rename f g =
      fun entry => entry.node == node := by
    funext entry
    rw [Function.comp_apply, Bool.eq_iff_iff, beq_iff_eq, beq_iff_eq]
    exact injective.eq_iff
  rw [List.findRev?_eq_find?_reverse, List.findRev?_eq_find?_reverse, ← List.map_reverse,
    List.find?_map, same]

/-- A source with other ids has the program with these ids. -/
theorem exists_program_rename (made : s.program = .ok p) (embeds : s.table.Embeds f t)
    (injective : Function.Injective g) :
    ∃ q, (s.rename f g t).program = .ok q ∧ p.Renames f g q := by
  have consistent := consistent_of_program embeds.source made
  have contained : ∀ entry ∈ s.nodeTypes.map (NodeType.rename f g),
      t.contains entry.type = true := by
    intro entry included
    obtain ⟨original, member, rfl⟩ := List.mem_map.mp included
    exact embeds.contains ((program_eq_ok_iff.mp made).1 original member)
  have remade : (s.rename f g t).program = .ok _ := program_eq_ok_iff.mpr ⟨contained, rfl⟩
  refine ⟨_, remade, consistent, ?_, ?_, ?_⟩
  · rwa [program_table made, program_table remade]
  · obtain ⟨_, rfl⟩ := program_eq_ok_iff.mp made
    rw [recordEach_strictNullChecks, recordEach_strictNullChecks]
    rfl
  · intro node
    rw [typeOf?_program made, typeOf?_program remade]
    change ((s.nodeTypes.map (NodeType.rename f g)).findRev? (·.node == g node)).map _ = _
    rw [findRev?_map_rename injective, Option.map_map, Option.map_map]
    rfl

end TypedSource

/-- A source is linted to the same end, diagnostics or fault, if its types are permuted with the
well-known ones in place and its nodes get other ids, and if further entries follow its table. -/
theorem lint_renumbered {s : TypedSource} {p : Program}
    (accepted : Table.ofDescriptors? ds = .ok s.table) (made : s.program = .ok p) :
    (∀ (f : TypeId → TypeId) (g : NodeId → NodeId) (ds' : List Descriptor) (table : Table),
      Permutes f ds ds' → Function.Injective g → Table.ofDescriptors? ds' = .ok table →
        ∃ q, (s.rename f g table).program = .ok q ∧
          ∀ c : Lint.Config,
            (c.lint (s.file.rename g) q).outcome = (c.lint s.file p).outcome) ∧
      ∀ (more : List Descriptor) (table : Table), Table.ofDescriptors? (ds ++ more) = .ok table →
        ∃ q, { s with table := table }.program = .ok q ∧
          ∀ c : Lint.Config, (c.lint s.file q).outcome = (c.lint s.file p).outcome := by
  constructor
  · intro f g ds' table permutes injective accepted'
    have embeds := Table.embeds_of_permutes accepted accepted' permutes
    obtain ⟨q, remade, renames⟩ := TypedSource.exists_program_rename made embeds injective
    exact ⟨q, remade, fun c => Lint.Config.outcome_lint_rename renames c s.file⟩
  · intro more table accepted'
    have embeds := Table.embeds_of_append accepted accepted'
    obtain ⟨q, remade, renames⟩ :=
      TypedSource.exists_program_rename made embeds Function.injective_id
    rw [TypedSource.rename_id] at remade
    refine ⟨q, remade, fun c => ?_⟩
    have same := Lint.Config.outcome_lint_rename renames c s.file
    rwa [SyntaxTree.rename_id] at same

namespace Swapped

/-- The well-known types, an object without members, an array, and the union of the two. -/
def before : List Descriptor :=
  wellKnown ++ [.object ⟨[], [], []⟩, .array .string, .union [⟨15⟩, ⟨14⟩]]

/-- The same types with the array first. -/
def after : List Descriptor :=
  wellKnown ++ [.array .string, .object ⟨[], [], []⟩, .union [⟨14⟩, ⟨15⟩]]

def more : List Descriptor :=
  [.array ⟨16⟩]

def swap : TypeId → TypeId :=
  Equiv.swap ⟨14⟩ ⟨15⟩

def next (node : NodeId) : NodeId :=
  ⟨node.index + 1⟩

def condition : Expr :=
  .identifier ⟨⟨⟨1⟩, ⟨4, 5, 1, 5⟩⟩, "x"⟩

def file : SourceFile where
  path := "a.ts"
  source := "if (x) \x7b\x7d"
  tree := ⟨[.ifElse condition (.block ⟨[], ⟨7, 9, 1, 8⟩⟩) none ⟨0, 9, 1, 1⟩], ⟨0, 9, 1, 1⟩⟩
  tokens := .ofList []

def source : TypedSource :=
  ⟨file, true, .ofList before, [⟨⟨1⟩, ⟨16⟩⟩]⟩

def program : Program :=
  Program.record ⟨.ofList before, ∅, true⟩ ⟨1⟩ ⟨16⟩

def diagnostic : Lint.Diagnostic :=
  { Lint.Diagnostic.plain (Verdict.message .alwaysTruthy) condition.span with
    notes := ["type is `string[] | \x7b\x7d`"] }

private theorem permutes : Permutes swap before after where
  length := rfl
  inside := by
    intro id inside
    change (Equiv.swap _ _ id).index < 17
    rw [Equiv.swap_apply_def]
    split_ifs
    · decide
    · decide
    · exact inside
  injective _ _ _ _ same := (Equiv.swap _ _).injective same
  known := by
    intro id small
    refine Equiv.swap_apply_of_ne_of_ne ?_ ?_
    · rintro rfl
      exact absurd small (by decide)
    · rintro rfl
      exact absurd small (by decide)
  entry := by
    intro id d found
    obtain ⟨inside, _⟩ := List.getElem?_eq_some_iff.mp found
    have moved : ∀ index < before.length,
        after[(swap ⟨index⟩).index]? = before[index]?.map (Descriptor.rename swap) := by
      decide +kernel
    rw [moved id.index inside, found]
    rfl

private theorem ofDescriptors?_before : Table.ofDescriptors? before = .ok source.table :=
  Table.ofDescriptors?_eq_ok_iff.mpr ⟨by decide, by decide, rfl⟩

private theorem ofDescriptors?_after : Table.ofDescriptors? after = .ok (.ofList after) :=
  Table.ofDescriptors?_eq_ok_iff.mpr ⟨by decide, by decide, rfl⟩

private theorem ofDescriptors?_more :
    Table.ofDescriptors? (before ++ more) = .ok (.ofList (before ++ more)) :=
  Table.ofDescriptors?_eq_ok_iff.mpr ⟨by decide, by decide, rfl⟩

private theorem program_source : source.program = .ok program :=
  TypedSource.program_eq_ok_iff.mpr ⟨by decide, rfl⟩

private theorem judgeCondition_condition : program.judgeCondition condition =
    .decided ⟨.alwaysTruthy, condition.span, some ⟨16⟩⟩ := by
  have typed : program.constrainedType? condition = some ⟨16⟩ := by
    have recorded : program.typeOf? condition.id = some ⟨16⟩ := by
      simp [program, condition, Expr.id, Expr.node]
    rw [Program.constrainedType?, recorded]
    decide +kernel
  have indeterminate : program.table.isIndeterminate ⟨16⟩ = false := by decide +kernel
  have verdict : program.table.truthVerdict? ⟨16⟩ = some .alwaysTruthy := by decide +kernel
  change program.judgeTruth condition false = _
  simp [Program.judgeTruth, typed, indeterminate, verdict]

private theorem checkSite_condition :
    Lint.checkSite .default program file.tokens (.condition condition) = .ok [diagnostic] := by
  have judged : program.judge file.tokens (.condition condition) =
      .ok (.decided ⟨.alwaysTruthy, condition.span, some ⟨16⟩⟩) :=
    congrArg Except.ok judgeCondition_condition
  have shown : Lint.Diagnostic.ofFinding program.table
      ⟨.alwaysTruthy, condition.span, some ⟨16⟩⟩ = diagnostic := by
    decide +kernel
  change (program.judge file.tokens (.condition condition)).map (Lint.reports program.table) = _
  rw [judged, ← shown]
  rfl

private theorem lint_outcome :
    (Lint.Config.default.lint file program).outcome = .ok [diagnostic] := by
  have enabled : Lint.Config.default.isDisabled Lint.fixedConditionRule.name = false := rfl
  have nodes : file.tree.nodes =
      [.statement (.ifElse condition (.block ⟨[], ⟨7, 9, 1, 8⟩⟩) none ⟨0, 9, 1, 1⟩),
        .expression condition, .statement (.block ⟨[], ⟨7, 9, 1, 8⟩⟩)] := rfl
  have first : Lint.checkNode .default program file.tokens
      (.statement (.ifElse condition (.block ⟨[], ⟨7, 9, 1, 8⟩⟩) none ⟨0, 9, 1, 1⟩)) =
      .ok [diagnostic] := by
    rw [Lint.checkNode_eq]
    change Lint.collect _ [Site.condition condition] = _
    rw [Lint.collect_cons, checkSite_condition]
    rfl
  have options : Lint.Config.default.options = .default := rfl
  rw [Lint.Config.outcome_lint, enabled, options, nodes, Lint.collect_cons, first]
  rfl

end Swapped

/-- Another order, other nodes and another table that goes on: the text of the type in the one
diagnostic stays the same. -/
theorem swapped_reports_same :
    Table.ofDescriptors? Swapped.before = .ok Swapped.source.table ∧
      Swapped.source.program = .ok Swapped.program ∧
      (Lint.Config.default.lint Swapped.file Swapped.program).outcome =
        .ok [Swapped.diagnostic] ∧
      (∃ q, (Swapped.source.rename Swapped.swap Swapped.next (.ofList Swapped.after)).program =
          .ok q ∧
        (Lint.Config.default.lint (Swapped.file.rename Swapped.next) q).outcome =
          .ok [Swapped.diagnostic]) ∧
      ∃ q, { Swapped.source with table := .ofList (Swapped.before ++ Swapped.more) }.program =
          .ok q ∧
        (Lint.Config.default.lint Swapped.file q).outcome = .ok [Swapped.diagnostic] := by
  have injective : Function.Injective Swapped.next := by
    rintro ⟨first⟩ ⟨second⟩ same
    exact congrArg NodeId.mk (Nat.succ.inj (congrArg NodeId.index same))
  obtain ⟨permuted, continued⟩ :=
    lint_renumbered Swapped.ofDescriptors?_before Swapped.program_source
  obtain ⟨p, made, same⟩ := permuted Swapped.swap Swapped.next Swapped.after _ Swapped.permutes
    injective Swapped.ofDescriptors?_after
  obtain ⟨q, remade, kept⟩ := continued Swapped.more _ Swapped.ofDescriptors?_more
  refine ⟨Swapped.ofDescriptors?_before, Swapped.program_source, Swapped.lint_outcome,
    ⟨p, made, ?_⟩, ⟨q, remade, ?_⟩⟩
  · exact (same _).trans Swapped.lint_outcome
  · exact (kept _).trans Swapped.lint_outcome

end ConditionLint
