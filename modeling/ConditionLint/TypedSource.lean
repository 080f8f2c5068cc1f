import ConditionLint.Program
import ConditionLint.Types.Coding
import ConditionLint.Syntax.Coding
import ConditionLint.Source.Token
import ConditionLint.Json.Read

/-!
# Typed sources

The document the linter works on: a source file with its tree and tokens, the type table, and the
type of each node. Its members are judged in the order of the text. The type table, the options and
the node types are read when they are met; all other members are only checked to be values that can
be kept, and are read once the document has ended. So a type table that is refused is reported even
if the text breaks off later.
-/

set_option autoImplicit false

namespace ConditionLint

structure SourceFile where
  path : String
  source : String
  tree : SyntaxTree
  tokens : TokenStream

structure NodeType where
  node : NodeId
  type : TypeId
deriving DecidableEq, Repr, Inhabited

structure TypedSource where
  file : SourceFile
  strictNullChecks : Bool
  table : Table
  nodeTypes : List NodeType

/-- Why a document is no typed source: its text or its shape, or its type table. -/
inductive SourceFault where
  | malformed
  | table (fault : TableFault)
deriving DecidableEq, Repr, Inhabited

structure UnknownType where
  node : NodeId
  type : TypeId
deriving DecidableEq, Repr, Inhabited

def UnknownType.message (u : UnknownType) : String :=
  u.node.text ++ " refers to unknown type " ++ u.type.text

def NodeType.toJson (n : NodeType) : Json :=
  .object [("node", n.node.toJson), ("ty", n.type.toJson)]

def NodeType.ofJson? (j : Json) : Option NodeType :=
  match j.fields? ["node", "ty"] with
  | some [node, type] => do
    return { node := ← Json.required? NodeId.ofJson? node
             type := ← Json.required? TypeId.ofJson? type }
  | _ => none

def strictNullChecksOfJson? (j : Json) : Option Bool :=
  match j.fields? ["strict_null_checks"] with
  | some [strict] => Json.defaulted? true Json.bool? strict
  | _ => none

/-- The containers that a document may nest. -/
def nestingLimit : Nat :=
  127

def SourceFile.ofMembers? (kept : List (String × Json)) : Option SourceFile :=
  match (Json.object kept).fields? ["path", "source", "module", "tokens"] with
  | some [path, source, tree, tokens] => do
    return { path := ← Json.required? Json.string? path
             source := ← Json.required? Json.string? source
             tree := ← Json.required? (SyntaxTree.ofJson? nestingLimit) tree
             tokens :=
               ← Json.defaulted? (TokenStream.ofList []) (TokenStream.ofJson? .kept) tokens }
  | _ => none

namespace TypedSource

structure Draft where
  strictNullChecks : Option Bool
  table : Option Table
  nodeTypes : Option (List NodeType)
  /-- The other members, last first. -/
  kept : List (String × Json)

def Draft.empty : Draft :=
  ⟨none, none, none, []⟩

def shaped {α : Type} : Option α → Except SourceFault α
  | some value => .ok value
  | none => .error .malformed

def Draft.add (d : Draft) (name : String) (value : Json) : Except SourceFault Draft :=
  match name with
  | "compiler_options" => do
    if d.strictNullChecks.isSome then throw .malformed
    return { d with strictNullChecks := ← shaped (strictNullChecksOfJson? value) }
  | "types" => do
    if d.table.isSome then throw .malformed
    let descriptors ← shaped (value.list? (Descriptor.ofJson? .document))
    return { d with table := ← (Table.ofDescriptors? descriptors).mapError .table }
  | "node_types" => do
    if d.nodeTypes.isSome then throw .malformed
    return { d with nodeTypes := ← shaped (value.list? NodeType.ofJson?) }
  | _ =>
    if value.isKeepable (nestingLimit - 1) then .ok { d with kept := (name, value) :: d.kept }
    else .error .malformed

def Draft.finish (d : Draft) : Except SourceFault TypedSource := do
  return { file := ← shaped (SourceFile.ofMembers? d.kept.reverse)
           strictNullChecks := d.strictNullChecks.getD true
           table := ← shaped d.table
           nodeTypes := d.nodeTypes.getD [] }

def ofReading (reading : Json.ObjectReading) : Except SourceFault TypedSource := do
  let draft ← reading.members.foldlM (fun draft (name, value) => draft.add name value) Draft.empty
  if reading.intact then draft.finish else throw .malformed

def ofJson : Json → Except SourceFault TypedSource
  | .object members => ofReading ⟨members, true⟩
  | _ => .error .malformed

def ofText (text : String) : Except SourceFault TypedSource :=
  ofReading (Json.objectOfText text)

def toJson (s : TypedSource) : Json :=
  .object
    [("path", .string s.file.path), ("source", .string s.file.source),
      ("module", s.file.tree.toJson), ("tokens", s.file.tokens.toJson),
      ("compiler_options", .object [("strict_null_checks", .bool s.strictNullChecks)]),
      ("types", s.table.toJson), ("node_types", .array (s.nodeTypes.map NodeType.toJson))]

/-- Record node types one after the other; each must be in the table. -/
def recordAll (p : Program) : List NodeType → Except UnknownType Program
  | [] => .ok p
  | ⟨node, type⟩ :: rest =>
    if p.table.contains type then recordAll (p.record node type) rest
    else .error ⟨node, type⟩

def program (s : TypedSource) : Except UnknownType Program :=
  recordAll ⟨s.table, ∅, s.strictNullChecks⟩ s.nodeTypes

end TypedSource

end ConditionLint
