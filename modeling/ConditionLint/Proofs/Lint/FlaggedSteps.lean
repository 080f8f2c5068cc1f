import ConditionLint.Proofs.Lint.Edits
import ConditionLint.Proofs.Lint.Outcome
import ConditionLint.Proofs.Sites.Findings
import ConditionLint.Proofs.Table.Regular
import Mathlib.Data.List.Pairwise
import Mathlib.Data.List.Sort

/-!
# Fixing a file edits the flagged tokens

The fixes of a run are for optional steps and have the spans of their `?.` tokens. Where the tokens
of a file do not overlap and are parts of its source, applying the fixes replaces each flagged token
once, by what the first diagnostic on it asks for, and leaves the rest of the source alone.
-/

set_option autoImplicit false

namespace ConditionLint

open Lint

/-!
## The fixes of a run
-/

/-- The token that an optional step is reported on is a `?.` of the stream, and the step is spelled
without it either with a point or with nothing. -/
theorem Program.judge_redundantStep {p : Program} {tokens : TokenStream} {site : Site}
    {f : Finding} {operator : Span} {replacement : String}
    (judged : p.judge tokens site = .ok (.decided f))
    (redundant : f.verdict = .redundantStep operator replacement) :
    ∃ token ∈ tokens.toList, token.isPunctuator "?." = true ∧ operator = token.span ∧
      (replacement = "." ∨ replacement = "") := by
  have isStep : f.verdict.isStep = true := by rw [redundant]; rfl
  cases site with
  | step e =>
      obtain ⟨base, spelling, type, token, optional, _, _, _, spelled, rfl⟩ :=
        judgeStep_eq_decided_iff.mp judged
      cases redundant
      have member := List.mem_of_mem_drop (List.mem_of_find?_eq_some spelled)
      have punctuator : (token.isPunctuator "?.") = true := by
        simpa using List.find?_some spelled
      refine ⟨token, member, punctuator, rfl, ?_⟩
      unfold Expr.optionalStep? at optional
      split at optional <;> cases optional
      · exact .inl rfl
      · exact .inr rfl
      · exact .inr rfl
  | condition test | loopCondition test =>
      have about := judgeCondition_isAbout (congrArg Judgement.finding? (Except.ok.inj judged))
      rw [about.noStep] at isStep
      cases isStep
  | nullish operand =>
      have about := judgeNullish_isAbout (congrArg Judgement.finding? (Except.ok.inj judged))
      rw [about.noStep] at isStep
      cases isStep
  | comparison node operator left right =>
      have found := judgeComparison_found (congrArg Judgement.finding? (Except.ok.inj judged))
      rw [redundant] at found
      cases found.2
  | predicateCall callee arguments =>
      have found := congrArg Judgement.finding? (Except.ok.inj judged)
      unfold judgePredicateCall at found
      split at found
      · rw [(judgeCallback_isAbout found).noStep] at isStep
        cases isStep
      · cases found

namespace Lint

private theorem Config.exists_of_mem_relabel {c : Config} {ds : List Diagnostic} {d : Diagnostic}
    (member : d ∈ c.relabel ds) : ∃ original ∈ ds, d.fix = original.fix := by
  obtain ⟨original, included, rfl⟩ := List.mem_map.mp (List.mem_of_mem_filter member)
  exact ⟨original, included, rfl⟩

private theorem eq_redundantStep_of_fixFor? {verdict : Verdict} {fix : Fix}
    (fixes : fixFor? verdict = some fix) : verdict = .redundantStep fix.span fix.replacement := by
  cases verdict with
  | redundantStep operator replacement =>
      cases fixes
      rfl
  | _ => cases fixes

/-- A fix of a completed run comes from a finding at a site of the tree. -/
private theorem exists_finding_of_fix {c : Config} {file : SourceFile} {p : Program}
    {ds : List Diagnostic} (completed : (c.lint file p).outcome = .ok ds) {d : Diagnostic}
    (member : d ∈ ds) {fix : Fix} (fixes : d.fix = some fix) :
    ∃ site ∈ file.tree.sites, ∃ f, p.judge file.tokens site = .ok (.decided f) ∧
      f.verdict = .redundantStep fix.span fix.replacement := by
  unfold Config.lint at completed
  split at completed
  · cases completed
    cases member
  · cases outcome : (trailOfTree c.options p file.tokens file.tree).outcome with
    | error fault => simp [Trail.map, outcome, Except.map] at completed
    | ok findings =>
        simp only [Trail.map, outcome, Except.map, Except.ok.injEq] at completed
        subst completed
        obtain ⟨original, included, same⟩ := Config.exists_of_mem_relabel member
        rw [fixes] at same
        rcases List.mem_append.mp included with isFile | isFinding
        · unfold fileDiagnostics at isFile
          split at isFile
          · cases isFile
          · cases List.mem_singleton.mp isFile
            cases same
        · obtain ⟨f, found, rfl⟩ := List.mem_map.mp isFinding
          rw [(trailOfTree_outcome.mp outcome).2] at found
          obtain ⟨site, belongs, found⟩ := List.mem_filterMap.mp found
          unfold findingAt? at found
          split at found
          · rename_i judgement _ judged
            cases judgement with
            | undecided => cases found
            | decided other =>
                cases found
                exact ⟨site, belongs, f, judged, eq_redundantStep_of_fixFor? same.symm⟩
          · cases found

/-- A fix of a completed run takes a `?.` token out, or leaves a point of it. -/
private theorem exists_token_of_fix {c : Config} {file : SourceFile} {p : Program}
    {ds : List Diagnostic} (completed : (c.lint file p).outcome = .ok ds) {d : Diagnostic}
    (member : d ∈ ds) {fix : Fix} (fixes : d.fix = some fix) :
    (∃ token ∈ file.tokens.toList, token.isPunctuator "?." = true ∧ fix.span = token.span) ∧
      (fix.replacement = "." ∨ fix.replacement = "") := by
  obtain ⟨site, _, f, judged, redundant⟩ := exists_finding_of_fix completed member fixes
  obtain ⟨token, included, punctuator, same, replacement⟩ :=
    Program.judge_redundantStep judged redundant
  exact ⟨⟨token, included, punctuator, same⟩, replacement⟩

/-!
## Fixes in order
-/

private theorem find?_order (fixes : List Fix) (span : Span) :
    (FixedSource.order fixes).find? (·.span == span) = fixes.find? (·.span == span) := by
  have equal : (fixes.filter (·.span == span)).Pairwise fun a b =>
      decide (b.span.start ≤ a.span.start) = true := by
    refine List.pairwise_of_forall_mem_list fun a first b second => ?_
    have one : a.span = span := by simpa using (List.mem_filter.mp first).2
    have other : b.span = span := by simpa using (List.mem_filter.mp second).2
    simp [one, other]
  have kept : (fixes.filter (·.span == span)).Sublist (FixedSource.order fixes) :=
    List.sublist_mergeSort falling_trans falling_total equal List.filter_sublist
  have part := kept.filter (·.span == span)
  rw [List.filter_filter] at part
  simp only [Bool.and_self] at part
  have perm : ((FixedSource.order fixes).filter (·.span == span)).Perm
      (fixes.filter (·.span == span)) := (List.mergeSort_perm fixes _).filter _
  rw [← List.head?_filter, ← List.head?_filter, part.eq_of_length perm.length_eq.symm]

/-!
## Flagged tokens
-/

/-- The first fix of the diagnostics that is for a token. -/
def firstFix? (ds : List Diagnostic) (token : Token) : Option Fix :=
  (ds.filterMap Diagnostic.fix).find? (·.span == token.span)

theorem firstFix?_eq_some_iff {ds : List Diagnostic} {token : Token} {fix : Fix} :
    firstFix? ds token = some fix ↔
      FixedSource.IsFirst (ds.filterMap Diagnostic.fix) fix ∧ fix.span = token.span := by
  unfold firstFix? FixedSource.IsFirst
  constructor
  · intro first
    have same : fix.span = token.span := by simpa using List.find?_some first
    exact ⟨same ▸ first, same⟩
  · rintro ⟨first, same⟩
    exact same ▸ first

end Lint

theorem Span.Disjoint.symm {first second : Span} (disjoint : first.Disjoint second) :
    second.Disjoint first :=
  fun offset both => disjoint offset ⟨both.2, both.1⟩

/-- The tokens of a file have no byte in common, and each is the part of the source under its
span. -/
structure SourceFile.TokensFit (file : SourceFile) : Prop where
  apart : file.tokens.toList.Pairwise fun a b => a.span.Disjoint b.span
  spelled : ∀ token ∈ file.tokens.toList, token.span.slice? file.source = some token.value

/-- The fixes have spans of `?.` tokens of the file. -/
def SourceFile.Flags (file : SourceFile) (fixes : List Fix) : Prop :=
  ∀ fix ∈ fixes, ∃ token ∈ file.tokens.toList,
    token.isPunctuator "?." = true ∧ fix.span = token.span

namespace SourceFile.TokensFit

variable {file : SourceFile} {fixes : List Fix} {ds : List Diagnostic}

theorem eq_or_disjoint (fit : file.TokensFit) {first second : Token}
    (one : first ∈ file.tokens.toList) (other : second ∈ file.tokens.toList) :
    first = second ∨ first.span.Disjoint second.span := by
  have : Std.Symm fun a b : Token => a.span.Disjoint b.span :=
    ⟨fun _ _ disjoint => disjoint.symm⟩
  by_cases same : first = second
  · exact .inl same
  · exact .inr (fit.apart.forall one other same)

theorem slice?_punctuator (fit : file.TokensFit) {token : Token}
    (member : token ∈ file.tokens.toList) (punctuator : token.isPunctuator "?." = true) :
    ∃ part, Text.slice? file.source.toList token.span.start token.span.stop = some part ∧
      token.span.start < token.span.stop := by
  have spelled := fit.spelled token member
  obtain ⟨part, sliced, value⟩ := Option.map_eq_some_iff.mp spelled
  obtain ⟨_, _, _, _, size⟩ := Text.slice?_eq_some_iff.mp sliced
  refine ⟨part, sliced, ?_⟩
  have filled : Text.byteSize part ≠ 0 := by
    intro empty
    rw [Text.byteSize_eq_zero.mp empty] at value
    have spelling : token.value = "?." := by
      have both := Bool.and_eq_true_iff.mp punctuator
      exact beq_iff_eq.mp both.2
    rw [spelling] at value
    exact absurd value (by decide)
  omega

/-- Fixes that all have spans of `?.` tokens are separate. -/
theorem separate (fit : file.TokensFit) (flags : file.Flags fixes) :
    FixedSource.Separate file.source.toList fixes where
  sliced fix member := by
    obtain ⟨token, included, punctuator, same⟩ := flags fix member
    obtain ⟨part, sliced, _⟩ := fit.slice?_punctuator included punctuator
    rw [same]
    exact ⟨part, sliced⟩
  nonempty fix member := by
    obtain ⟨token, included, punctuator, same⟩ := flags fix member
    obtain ⟨_, _, nonempty⟩ := fit.slice?_punctuator included punctuator
    rw [same]
    exact nonempty
  apart first one second other := by
    obtain ⟨token, included, _, same⟩ := flags first one
    obtain ⟨token', included', _, same'⟩ := flags second other
    rw [same, same']
    exact (fit.eq_or_disjoint included included').imp_left (congrArg Token.span)

/-- The first fixes of the flagged tokens start one after the other. -/
theorem rising (fit : file.TokensFit)
    (nonempty : ∀ fix ∈ ds.filterMap Diagnostic.fix, fix.span.start < fix.span.stop) :
    (file.tokens.toList.filterMap (firstFix? ds)).Pairwise fun a b =>
      a.span.start < b.span.start := by
  refine List.pairwise_filterMap.mpr ?_
  refine (file.tokens.ordered.and fit.apart).imp fun both a first b second => ?_
  obtain ⟨order, disjoint⟩ := both
  have order : _ ≤ _ := of_decide_eq_true order
  obtain ⟨isFirst, one⟩ := firstFix?_eq_some_iff.mp first
  obtain ⟨isFirst', other⟩ := firstFix?_eq_some_iff.mp second
  have filled := nonempty a isFirst.mem
  have filled' := nonempty b isFirst'.mem
  rw [← one, ← other] at order disjoint
  have free := disjoint b.span.start
  omega

/-- The edits that clear all fixes are the first fixes of the flagged tokens. -/
theorem edits_eq (fit : file.TokensFit) (flags : file.Flags (ds.filterMap Diagnostic.fix))
    {edits : List Fix} {fixed : FixedSource}
    (cleared : FixedSource.Cleared file.source.toList
      (FixedSource.order (ds.filterMap Diagnostic.fix)) edits fixed) :
    edits = file.tokens.toList.filterMap (firstFix? ds) := by
  have : Std.Antisymm fun a b : Fix => a.span.start < b.span.start :=
    ⟨fun _ _ less more => absurd more (Nat.lt_asymm less)⟩
  have : Std.Irrefl fun a b : Fix => a.span.start < b.span.start :=
    ⟨fun a => Nat.lt_irrefl a.span.start⟩
  -- both lists have rising starts, so it is enough that they have the same members
  have nonempty := (fit.separate flags).nonempty
  refine cleared.rising.eq_of_mem_iff (fit.rising nonempty) fun fix => ?_
  rw [cleared.firsts, FixedSource.IsFirst, find?_order, List.mem_filterMap]
  simp only [firstFix?_eq_some_iff]
  constructor
  · intro first
    obtain ⟨token, included, _, same⟩ := flags fix (List.mem_of_find?_eq_some first)
    exact ⟨token, included, first, same⟩
  · rintro ⟨_, _, first, _⟩
    exact first

theorem isPunctuator_of_flagged (fit : file.TokensFit)
    (flags : file.Flags (ds.filterMap Diagnostic.fix)) {token : Token}
    (member : token ∈ file.tokens.toList) (flagged : (firstFix? ds token).isSome = true) :
    token.isPunctuator "?." = true := by
  obtain ⟨fix, first⟩ := Option.isSome_iff_exists.mp flagged
  obtain ⟨isFirst, same⟩ := firstFix?_eq_some_iff.mp first
  obtain ⟨other, included, punctuator, same'⟩ := flags fix isFirst.mem
  obtain ⟨_, _, nonempty⟩ := fit.slice?_punctuator included punctuator
  rcases fit.eq_or_disjoint member included with rfl | disjoint
  · exact punctuator
  · rw [← same, ← same'] at disjoint
    rw [← same'] at nonempty
    have free := disjoint fix.span.start
    omega

end SourceFile.TokensFit

/-- The fixes of a completed run have the spans of `?.` tokens. Applying them edits the source at
the flagged tokens only, each as the first diagnostic on it says; the other fixes are skipped. -/
theorem lint_fixes_flagged_steps {c : Config} {file : SourceFile} {p : Program}
    {ds : List Diagnostic} (fit : file.TokensFit)
    (completed : (c.lint file p).outcome = .ok ds) :
    (∀ d ∈ ds, ∀ fix, d.fix = some fix →
      (∃ token ∈ file.tokens.toList, token.isPunctuator "?." = true ∧ fix.span = token.span) ∧
        (fix.replacement = "." ∨ fix.replacement = "")) ∧
      (∀ token ∈ file.tokens.toList, (firstFix? ds token).isSome = true →
        token.isPunctuator "?." = true) ∧
      Edited 0 (file.tokens.toList.filterMap (firstFix? ds)) file.source.toList
        (applyFixes file.source ds).source ∧
      (applyFixes file.source ds).applied =
        file.tokens.toList.countP (fun token => (firstFix? ds token).isSome) ∧
      (applyFixes file.source ds).applied + (applyFixes file.source ds).skipped =
        countFixable ds := by
  have flags : file.Flags (ds.filterMap Diagnostic.fix) := by
    intro fix member
    obtain ⟨d, included, fixes⟩ := List.mem_filterMap.mp member
    exact (exists_token_of_fix completed included fixes).1
  have perm : (FixedSource.order (ds.filterMap Diagnostic.fix)).Perm
      (ds.filterMap Diagnostic.fix) := List.mergeSort_perm _ _
  have separate := fit.separate fun fix member => flags fix (perm.mem_iff.mp member)
  obtain ⟨edits, cleared⟩ := FixedSource.exists_cleared separate (order_falling _)
  obtain rfl := fit.edits_eq flags cleared
  refine ⟨fun d member fix => exists_token_of_fix completed member,
    fun token => fit.isPunctuator_of_flagged flags, cleared.edited, ?_, ?_⟩
  · rw [← List.length_filterMap_eq_countP]
    exact cleared.applied
  · have total := cleared.total
    rw [perm.length_eq, List.length_filterMap_eq_countP] at total
    exact total

namespace Twice

/-!
The chain `o?.p?.[0]`, where everything is an object and the tokens hold the second `?.` only, so
that both steps are reported on it, the outer one first.
-/

def object : Expr :=
  .identifier ⟨⟨⟨0⟩, ⟨0, 1, 1, 1⟩⟩, "o"⟩

def inner : Expr :=
  .member ⟨⟨2⟩, ⟨0, 4, 1, 1⟩⟩ object (.named ⟨⟨⟨1⟩, ⟨3, 4, 1, 4⟩⟩, "p"⟩) true

def outer : Expr :=
  .member ⟨⟨4⟩, ⟨0, 9, 1, 1⟩⟩ inner
    (.computed (.literal ⟨⟨3⟩, ⟨7, 8, 1, 8⟩⟩ (.number (.ofInt 0)))) true

def operator : Token where
  kind := .punctuator
  value := "?."
  span := ⟨4, 6, 1, 5⟩

def file : SourceFile where
  path := "twice.ts"
  source := "o?.p?.[0];"
  tree := ⟨[.expression outer ⟨0, 10, 1, 1⟩], ⟨0, 10, 1, 1⟩⟩
  tokens := ⟨#[operator], List.pairwise_singleton _ _⟩

def program : Program :=
  (Program.record ⟨.ofList wellKnown, ∅, true⟩ object.id .object).record inner.id .object

private theorem constrainedType?_object : program.constrainedType? object = some .object := by
  have recorded : program.typeOf? object.id = some .object := by
    simp [program, object, inner, Expr.id, Expr.node]
  rw [Program.constrainedType?, recorded]
  decide +kernel

theorem constrainedType?_inner : program.constrainedType? inner = some .object := by
  have recorded : program.typeOf? inner.id = some .object := by
    simp [program]
  rw [Program.constrainedType?, recorded]
  decide +kernel

theorem isOptionable_object (base : Expr) : program.isOptionable base .object = false := by
  have known : program.table.hasKind .object (.any :: .unknown :: Kind.typeVariable) = false := by
    decide +kernel
  have nullable : program.table.isNullable .object = false := by decide +kernel
  have void : program.table.hasKind .object [.void] = false := by decide +kernel
  simp [Program.isOptionable, known, nullable, void]

private theorem tokenAfter?_operator {offset : Nat} (before : offset ≤ 4) :
    file.tokens.tokenAfter? offset (·.isPunctuator "?.") = some operator := by
  have start : ¬ 4 < offset := Nat.not_lt.mpr before
  simp [file, TokenStream.tokenAfter?, TokenStream.search, TokenStream.toList,
    TokenStream.size, operator, Token.isPunctuator, start]

def finding (replacement : String) : Finding :=
  ⟨.redundantStep operator.span replacement, operator.span, some .object⟩

private theorem judgeStep_outer :
    program.judgeStep file.tokens outer = .ok (.decided (finding "")) :=
  Program.judgeStep_eq_decided_iff.mpr ⟨inner, "", .object, operator, rfl, rfl,
    constrainedType?_inner, isOptionable_object inner, tokenAfter?_operator (by decide), rfl⟩

private theorem judgeStep_inner :
    program.judgeStep file.tokens inner = .ok (.decided (finding ".")) :=
  Program.judgeStep_eq_decided_iff.mpr ⟨object, ".", .object, operator, rfl, rfl,
    constrainedType?_object, isOptionable_object object, tokenAfter?_operator (by decide), rfl⟩

def diagnostics : List Diagnostic :=
  [.ofFinding program.table (finding ""), .ofFinding program.table (finding ".")]

theorem lint_outcome : (Config.default.lint file program).outcome = .ok diagnostics := by
  have sites : file.tree.sites = [.step outer, .step inner] := rfl
  have outcome : (trailOfTree .default program file.tokens file.tree).outcome =
      .ok [finding "", finding "."] := by
    rw [trailOfTree_outcome, sites]
    simp [faultAt?, findingAt?, exemption?, Program.judge, judgeStep_outer, judgeStep_inner,
      Judgement.finding?]
  have enabled : Config.default.isDisabled fixedConditionRule.name = false := rfl
  have options : Config.default.options = .default := rfl
  rw [Config.lint, enabled, options]
  simp only [Trail.map, outcome]
  rfl

private theorem tokensFit : file.TokensFit where
  apart := List.pairwise_singleton _ _
  spelled := by
    intro token member
    cases List.mem_singleton.mp member
    decide +kernel

private theorem edited_outer :
    Edited 0 [⟨operator.span, ""⟩] file.source.toList "o?.p[0];".toList := by
  have before : file.source.toList = "o?.p".toList ++ "?.".toList ++ "[0];".toList := by
    decide +kernel
  have after : "o?.p[0];".toList = "o?.p".toList ++ "".toList ++ "[0];".toList := by
    decide +kernel
  rw [before, after]
  exact .replaced (by decide +kernel) (by decide +kernel) .unchanged

end Twice

theorem twice_flagged_once :
    Twice.file.TokensFit ∧ (Config.default.lint Twice.file Twice.program).outcome =
      .ok Twice.diagnostics ∧
      (applyFixes Twice.file.source Twice.diagnostics).source = "o?.p[0];".toList ∧
      (applyFixes Twice.file.source Twice.diagnostics).applied = 1 ∧
      (applyFixes Twice.file.source Twice.diagnostics).applied +
        (applyFixes Twice.file.source Twice.diagnostics).skipped = 2 := by
  obtain ⟨_, _, edited, applied, total⟩ :=
    lint_fixes_flagged_steps Twice.tokensFit Twice.lint_outcome
  exact ⟨Twice.tokensFit, Twice.lint_outcome, edited.unique Twice.edited_outer, applied, total⟩

end ConditionLint
