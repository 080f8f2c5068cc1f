import ConditionLint.Proofs.Decimal.Texts
import ConditionLint.Proofs.Table.Joined
import ConditionLint.Proofs.Table.Renaming
import ConditionLint.Proofs.Types.Forms
import Mathlib.Data.Bool.AllAny

/-!
# Descriptors and their forms

The descriptors of structural types are shown in forms. A form tells the descriptor: keywords,
numbers and bigints are different words, and the shown members of a union tell its members.
-/

set_option autoImplicit false

namespace ConditionLint

open Text Decimal

/-!
## Words
-/

/-- The types that a keyword names. -/
def namedTypes : List (Descriptor × String) :=
  [(.intrinsic .any, "any"), (.intrinsic .unknown, "unknown"), (.intrinsic .never, "never"),
    (.intrinsic .void, "void"), (.intrinsic .undefined, "undefined"), (.intrinsic .null, "null"),
    (.intrinsic .string, "string"), (.intrinsic .number, "number"),
    (.intrinsic .bigint, "bigint"), (.intrinsic .symbol, "symbol"),
    (.intrinsic .object, "object"), (.literal (.boolean true), "true"),
    (.literal (.boolean false), "false"), (.union [.true, .false], "boolean")]

/-- Digits in base ten, possibly with a minus in front. -/
def IsDecimal (digits : String) : Prop :=
  ∃ minus body, digits.toList = minus ++ body ∧ (minus = [] ∨ minus = ['-']) ∧ body ≠ [] ∧
    ∀ c ∈ body, c.isDigit = true

/-- The descriptor is shown as one word. -/
inductive ShownWord : Descriptor → String → Prop where
  | named {d : Descriptor} {word : String} : (d, word) ∈ namedTypes → ShownWord d word
  | number {x : Binary64} : x.isNaN = false → ShownWord (.literal (.number x)) x.toText
  | bigint {digits : String} : IsDecimal digits →
      ShownWord (.literal (.bigint digits)) (digits ++ "n")

private theorem isLetter_of_isDigit {c : Char} (digit : c.isDigit = true) :
    TypeForm.IsLetter c := by
  intro member
  simp only [List.mem_cons, List.not_mem_nil, or_false] at member
  rcases member with rfl | rfl | rfl | rfl | rfl | rfl | rfl <;> exact absurd digit (by decide)

/-- The characters that keywords start with. -/
def keywordStarts : List Char :=
  ['a', 'u', 'n', 'v', 's', 'b', 'o', 't', 'f']

private theorem named_injective : ∀ pair ∈ namedTypes, ∀ other ∈ namedTypes, pair.2 = other.2 →
    pair.1 = other.1 := by
  decide

private theorem named_starts {pair : Descriptor × String} (listed : pair ∈ namedTypes) :
    ∃ c, pair.2.toList.head? = some c ∧ c ∈ keywordStarts := by
  have starts : ∀ pair ∈ namedTypes, pair.2.toList.head?.any (keywordStarts.contains ·) = true := by
    decide
  obtain ⟨c, first, start⟩ := (Option.any_eq_true _ _).mp (starts pair listed)
  exact ⟨c, first, List.contains_iff_mem.mp start⟩

private theorem named_letters {pair : Descriptor × String} (listed : pair ∈ namedTypes) :
    pair.2.toList ≠ [] ∧ ∀ c ∈ pair.2.toList, TypeForm.IsLetter c := by
  have letters : ∀ pair ∈ namedTypes, pair.2.toList ≠ [] ∧
      pair.2.toList.all (TypeForm.IsLetter ·) = true := by
    decide
  exact (letters pair listed).imp_right List.all_iff_forall_prop.mp

private theorem not_keywordStart_of_isDigit {c : Char} (digit : c.isDigit = true) :
    c ∉ keywordStarts := by
  have letters : ∀ c ∈ keywordStarts, c.isDigit = false :=
    List.all_iff_forall_prop.mp (by decide)
  intro member
  rw [letters c member] at digit
  cases digit

theorem IsDecimal.head {digits : String} (decimal : IsDecimal digits) :
    ∃ c, (digits ++ "n").toList.head? = some c ∧ c ∉ keywordStarts := by
  obtain ⟨minus, body, whole, signs, nonempty, areDigits⟩ := decimal
  rw [String.toList_append, whole]
  rcases signs with rfl | rfl
  · cases body with
    | nil => exact absurd rfl nonempty
    | cons c rest =>
        exact ⟨c, rfl, not_keywordStart_of_isDigit (areDigits c List.mem_cons_self)⟩
  · exact ⟨'-', rfl, by decide⟩

private theorem number_head {x : Binary64} (number : x.isNaN = false) {c : Char}
    (first : x.toText.toList.head? = some c) : c ∉ keywordStarts := by
  rcases Binary64.head_toText number first with digit | sign
  · exact not_keywordStart_of_isDigit digit
  · have signs : ∀ c ∈ ['-', '.', 'i'], c ∉ keywordStarts :=
      List.all_iff_forall_prop.mp (by decide)
    exact signs c sign

theorem IsDecimal.letters {digits : String} (decimal : IsDecimal digits) :
    ∀ c ∈ (digits ++ "n").toList, TypeForm.IsLetter c := by
  obtain ⟨minus, body, whole, signs, _, areDigits⟩ := decimal
  intro c member
  rw [String.toList_append, whole, List.mem_append, List.mem_append] at member
  rcases member with (sign | digit) | last
  · rcases signs with rfl | rfl
    · cases sign
    · rw [List.mem_singleton.mp sign]
      decide
  · exact isLetter_of_isDigit (areDigits c digit)
  · have letter : ∀ c ∈ "n".toList, TypeForm.IsLetter c :=
      List.all_iff_forall_prop.mp (by decide)
    exact letter c last

namespace ShownWord

variable {d e : Descriptor} {word : String}

theorem proper (shown : ShownWord d word) : (TypeForm.word word.toList).Proper := by
  cases shown with
  | named listed => exact named_letters listed
  | @number x number =>
      refine ⟨?_, fun c member => ?_⟩
      · rw [Binary64.toList_toText number]
        exact List.append_ne_nil_of_right_ne_nil _ (Binary64.unsignedText_ne_nil x)
      · have letters : ∀ c ∈ ['-', '.', 'i', 'n', 'f'], TypeForm.IsLetter c :=
          List.all_iff_forall_prop.mp (by decide)
        exact (Binary64.mem_toText number member).elim isLetter_of_isDigit (letters c)
  | bigint decimal =>
      refine ⟨?_, decimal.letters⟩
      rw [String.toList_append]
      exact List.append_ne_nil_of_right_ne_nil _ (by decide)

/-- A keyword is neither a number nor a bigint. -/
theorem eq_of_named (listed : (d, word) ∈ namedTypes) (shown : ShownWord e word) : d = e := by
  obtain ⟨c, first, start⟩ := named_starts listed
  cases shown with
  | named listed' => exact named_injective _ listed _ listed' rfl
  | number number => exact absurd start (number_head number first)
  | bigint decimal =>
      obtain ⟨c', first', notStart⟩ := decimal.head
      rw [first] at first'
      cases first'
      exact absurd start notStart

theorem number_ne_bigint {x : Binary64} (number : x.isNaN = false) (digits : String) :
    x.toText ≠ digits ++ "n" := by
  intro same
  refine Binary64.last_toText number ?_
  rw [same, String.toList_append]
  simp

theorem injective (first : ShownWord d word) (second : ShownWord e word) : d = e := by
  cases first with
  | named listed => exact eq_of_named listed second
  | number number =>
      generalize same : Binary64.toText _ = word at second
      cases second with
      | named listed => exact (eq_of_named listed (same ▸ .number number)).symm
      | number number' => rw [Binary64.eq_of_toText_eq number number' same]
      | bigint => exact absurd same (number_ne_bigint number _)
  | bigint decimal =>
      generalize same : _ ++ "n" = word at second
      cases second with
      | named listed => exact (eq_of_named listed (same ▸ .bigint decimal)).symm
      | number number => exact absurd same.symm (number_ne_bigint number _)
      | bigint =>
          have lists := congrArg String.toList same
          rw [String.toList_append, String.toList_append] at lists
          rw [String.toList_inj.mp (List.append_cancel_right lists)]

end ShownWord

/-!
## Unions
-/

namespace Table

variable {members others : List TypeId} {id : TypeId}

/-- The types that a union shows. -/
def shownMembers (members : List TypeId) : List TypeId :=
  (unionDisplayOrder members).map (·.getD .boolean)

theorem mem_shownMembers_iff : id ∈ shownMembers members ↔
    ∃ member ∈ members, id = if isBooleanHalf members member then .boolean else member := by
  simp only [shownMembers, List.mem_map, mem_unionDisplayOrder_iff]
  constructor
  · rintro ⟨entry, ⟨member, included, rfl⟩, rfl⟩
    refine ⟨member, included, ?_⟩
    split <;> rfl
  · rintro ⟨member, included, rfl⟩
    refine ⟨_, ⟨member, included, rfl⟩, ?_⟩
    split <;> rfl

/-- The shown members of a union tell its members, unless `boolean` is one of them. -/
theorem mem_iff_of_shownMembers (plain : TypeId.boolean ∉ members) : id ∈ members ↔
    (id ∈ shownMembers members ∧ id ≠ .boolean) ∨
      (.boolean ∈ shownMembers members ∧ (id = .true ∨ id = .false)) := by
  rw [mem_shownMembers_iff, mem_shownMembers_iff]
  constructor
  · intro member
    by_cases half : isBooleanHalf members id = true
    · refine .inr ⟨⟨id, member, by rw [if_pos half]⟩, (isBooleanHalf_iff.mp half).2⟩
    · refine .inl ⟨⟨id, member, by rw [if_neg half]⟩, ?_⟩
      rintro rfl
      exact plain member
  · rintro (⟨⟨member, included, same⟩, notBoolean⟩ | ⟨⟨member, included, same⟩, half⟩)
    · split at same
      · exact absurd same notBoolean
      · exact same ▸ included
    · split at same
      · rename_i isHalf
        obtain ⟨⟨hasTrue, hasFalse⟩, _⟩ := isBooleanHalf_iff.mp isHalf
        rcases half with rfl | rfl
        · exact hasTrue
        · exact hasFalse
      · exact absurd (same ▸ included) plain

theorem shownMembers_injective (increasing : members.Pairwise (·.index < ·.index))
    (increasing' : others.Pairwise (·.index < ·.index)) (plain : TypeId.boolean ∉ members)
    (plain' : TypeId.boolean ∉ others) (same : shownMembers members = shownMembers others) :
    members = others := by
  refine eq_of_increasing increasing increasing' fun id => ?_
  rw [mem_iff_of_shownMembers plain, mem_iff_of_shownMembers plain', same]

private theorem two_le_length_of_ne {α : Type} {xs : List α} {x y : α} (first : x ∈ xs)
    (second : y ∈ xs)
    (different : x ≠ y) : 2 ≤ xs.length := by
  rcases xs with _ | ⟨z, _ | ⟨w, rest⟩⟩
  · cases first
  · exact absurd ((List.mem_singleton.mp first).trans (List.mem_singleton.mp second).symm) different
  · exact Nat.le_add_left 2 rest.length

private theorem exists_ne_of_increasing (several : 2 ≤ members.length)
    (increasing : members.Pairwise (·.index < ·.index)) (id : TypeId) :
    ∃ other ∈ members, other ≠ id := by
  rcases members with _ | ⟨first, _ | ⟨second, rest⟩⟩
  · exact absurd several (by decide)
  · exact absurd several (by simp)
  · have before := (List.pairwise_cons.mp increasing).1 second List.mem_cons_self
    by_cases same : first = id
    · refine ⟨second, by simp, ?_⟩
      rintro rfl
      rw [same] at before
      exact Nat.lt_irrefl _ before
    · exact ⟨first, List.mem_cons_self, same⟩

theorem two_le_length_shownMembers (several : 2 ≤ members.length)
    (increasing : members.Pairwise (·.index < ·.index)) (plain : TypeId.boolean ∉ members)
    (other : members ≠ [.true, .false]) : 2 ≤ (shownMembers members).length := by
  by_cases halves : ∀ member ∈ members, isBooleanHalf members member = true
  · -- a union of nothing but the two literals is `boolean`
    obtain ⟨first, included, _⟩ := exists_ne_of_increasing several increasing .boolean
    obtain ⟨⟨hasTrue, hasFalse⟩, _⟩ := isBooleanHalf_iff.mp (halves first included)
    refine absurd (eq_of_increasing increasing (by decide) fun id => ?_) other
    rw [List.mem_pair]
    constructor
    · intro member
      exact (isBooleanHalf_iff.mp (halves id member)).2
    · rintro (rfl | rfl)
      · exact hasTrue
      · exact hasFalse
  · obtain ⟨member, included, notHalf⟩ :
        ∃ member ∈ members, ¬ isBooleanHalf members member = true := by
      simpa using halves
    obtain ⟨another, included', different⟩ := exists_ne_of_increasing several increasing member
    have shown := mem_shownMembers_iff.mpr ⟨member, included, rfl⟩
    have shown' := mem_shownMembers_iff.mpr ⟨another, included', rfl⟩
    rw [if_neg notHalf] at shown
    refine two_le_length_of_ne shown shown' ?_
    split
    · rintro rfl
      exact plain included
    · exact different.symm

end Table

/-!
## Forms
-/

open Table

/-- A descriptor is shown in a form. -/
inductive Shows : Descriptor → TypeForm → Prop where
  | word {d : Descriptor} {word : String} : ShownWord d word → Shows d (.word word.toList)
  | quoted (value : String) :
      Shows (.literal (.string value)) (.quoted (value.toList.flatMap escape))
  | array (element : TypeId) : Shows (.array element) (.array element)
  | access (object index : TypeId) : Shows (.indexedAccess object index) (.access object index)
  | tuple (elements : List TypeId) : Shows (.tuple elements) (.tuple elements)
  | union {members : List TypeId} : members.Pairwise (·.index < ·.index) →
      TypeId.boolean ∉ members → 2 ≤ (shownMembers members).length →
      Shows (.union members) (.joined .union (shownMembers members))
  | intersection {members : List TypeId} : 2 ≤ members.length →
      Shows (.intersection members) (.joined .intersection members)
  | function (params : List TypeId) (result : TypeId) :
      Shows (.object ⟨[], [], [⟨params, result⟩]⟩) (.function params result)

namespace Shows

variable {d e : Descriptor} {f : TypeForm} {id : TypeId}

theorem proper (shows : Shows d f) : f.Proper := by
  cases shows with
  | word shown => exact shown.proper
  | union _ _ several => exact several
  | intersection several => exact several
  | _ => trivial

theorem injective (first : Shows d f) (second : Shows e f) : d = e := by
  cases first with
  | word shown =>
      generalize same : TypeForm.word _ = f at second
      cases second with
      | word shown' =>
          obtain rfl := String.toList_inj.mp (TypeForm.word.inj same)
          exact shown.injective shown'
      | _ => cases same
  | quoted value =>
      generalize same : TypeForm.quoted _ = f at second
      cases second with
      | quoted other =>
          rw [String.toList_inj.mp (flatMap_escape_injective (TypeForm.quoted.inj same))]
      | _ => cases same
  | array | access | tuple | function => cases second; rfl
  | union increasing plain =>
      generalize same : TypeForm.joined _ _ = f at second
      cases second with
      | union increasing' plain' =>
          have shown := (TypeForm.joined.inj same).2
          rw [shownMembers_injective increasing increasing' plain plain' shown]
      | _ => cases same
  | intersection =>
      generalize same : TypeForm.joined _ _ = f at second
      cases second with
      | intersection => rw [(TypeForm.joined.inj same).2]
      | _ => cases same

theorem references (shows : Shows d f) {target : TypeId} (inside : target ∈ f.references) :
    target ∈ d.references ∨ target = .boolean := by
  cases shows with
  | word | quoted => cases inside
  | array | access | tuple | intersection => exact .inl inside
  | union =>
      obtain ⟨member, included, rfl⟩ := mem_shownMembers_iff.mp inside
      split
      · exact .inr rfl
      · exact .inl included
  | function params result =>
      exact .inl (by simpa [Descriptor.references, ObjectShape.references, TypeForm.references]
        using inside)

/-!
## Texts
-/

theorem reads_parenthesized {text : String} {ps : List Piece} (reads : Reads text.toList ps)
    (nested : Bool) :
    Reads (parenthesized nested text).toList (if nested then [.round ps] else ps) := by
  cases nested with
  | true => simpa [parenthesized] using reads.round
  | false => exact reads

theorem displayStep_of_named {word : String} (listed : (d, word) ∈ namedTypes)
    (answer : TypeId → Bool → String) (nested : Bool) :
    displayStep id (some d) answer nested = word := by
  have boolean : unionText [.true, .false] answer nested = "boolean" := by
    have shown : unionDisplayOrder [.true, .false] = [none] := by decide
    simp [unionText, shown, parenthesized]
  simp only [namedTypes, List.mem_cons, List.not_mem_nil, or_false, Prod.mk.injEq] at listed
  rcases listed with ⟨rfl, rfl⟩ | ⟨rfl, rfl⟩ | ⟨rfl, rfl⟩ | ⟨rfl, rfl⟩ | ⟨rfl, rfl⟩ | ⟨rfl, rfl⟩ |
    ⟨rfl, rfl⟩ | ⟨rfl, rfl⟩ | ⟨rfl, rfl⟩ | ⟨rfl, rfl⟩ | ⟨rfl, rfl⟩ | ⟨rfl, rfl⟩ | ⟨rfl, rfl⟩ |
    ⟨rfl, rfl⟩
  all_goals first | rfl | exact boolean

theorem displayStep_of_shownWord {word : String} (shown : ShownWord d word)
    (answer : TypeId → Bool → String) (nested : Bool) :
    displayStep id (some d) answer nested = word := by
  cases shown with
  | named listed => exact displayStep_of_named listed answer nested
  | number | bigint => rfl

theorem reads_list {α : Type} {items : List α} {separator : String} {letters : List Char}
    {text : α → String} {pieces : α → List Piece} (same : separator.toList = letters)
    (plain : letters.all (· ∉ ['"', '(', '[', ')', ']']) = true)
    (inside : ∀ item ∈ items, Reads (text item).toList (pieces item)) :
    Reads (separator.intercalate (items.map text)).toList
      ((letters.map .char).intercalate (items.map pieces)) := by
  rw [String.toList_intercalate, List.map_map, same]
  exact Reads.intercalate (List.all_iff_forall_prop.mp plain) inside

theorem reads_label (position : Nat) :
    Reads (TypeForm.label position) ((TypeForm.label position).map .char) := by
  refine Reads.chars fun c member bracket => ?_
  rcases TypeForm.mem_label member with digit | listed
  · exact isLetter_of_isDigit digit (List.mem_append_left [',', ' '] bracket)
  · have plain : ∀ c ∈ ['a', 'r', 'g', ':', ' '], c ∉ ['"', '(', '[', ')', ']'] :=
      List.all_iff_forall_prop.mp (by decide)
    exact plain c listed bracket

theorem reads_params {answer : TypeId → Bool → String} {parts : TypeId → Bool → List Piece}
    {params : List TypeId} (inside : ∀ param ∈ params, ∀ nested,
      Reads (answer param nested).toList (parts param nested)) :
    Reads (", ".intercalate (params.zipIdx.map fun param =>
        "arg" ++ toString param.2 ++ ": " ++ answer param.1 false)).toList
      ((TypeForm.listSeparator.map .char).intercalate (TypeForm.paramPieces parts params)) := by
  refine reads_list rfl (by decide) fun param placed => ?_
  have included := List.mem_of_getElem? (List.mem_zipIdx_iff_getElem?.mp placed)
  rw [String.toList_append]
  exact (reads_label param.2).append (inside param.1 included false)

/-- The shown members of a union are written like those of an intersection. -/
theorem unionText_eq {members : List TypeId} {answer : TypeId → Bool → String}
    (several : 2 ≤ (shownMembers members).length) (boolean : answer .boolean true = "boolean")
    (nested : Bool) : unionText members answer nested =
      parenthesized nested (" | ".intercalate ((shownMembers members).map (answer · true))) := by
  have several : 1 < (unionDisplayOrder members).length := by
    rwa [shownMembers, List.length_map] at several
  have needed : (nested && decide (1 < (unionDisplayOrder members).length)) = nested := by
    rw [decide_eq_true several, Bool.and_true]
  rw [unionText, needed, shownMembers, List.map_map]
  refine congrArg (fun texts => parenthesized nested (" | ".intercalate texts))
    (List.map_congr_left fun entry _ => ?_)
  cases entry with
  | none => exact boolean.symm
  | some id => rfl

/-- The text of a type is read as the pieces of its form. -/
theorem reads (shows : Shows d f) {answer : TypeId → Bool → String}
    {parts : TypeId → Bool → List Piece} (boolean : answer .boolean true = "boolean")
    (inside : ∀ target ∈ f.references, ∀ nested,
      Reads (answer target nested).toList (parts target nested)) (nested : Bool) :
    Reads (displayStep id (some d) answer nested).toList (f.pieces parts nested) := by
  cases shows with
  | word shown =>
      rw [displayStep_of_shownWord shown, TypeForm.pieces_of_single rfl]
      refine Reads.chars fun c member bracket => shown.proper.2 c member ?_
      exact List.mem_append_left [',', ' '] bracket
  | quoted value =>
      rw [TypeForm.pieces_of_single rfl]
      exact reads_quoted value
  | array element =>
      have brackets : Reads ['[', ']'] [.square []] := Reads.nil.square
      rw [TypeForm.pieces_of_single rfl, displayStep, String.toList_append]
      exact (inside element (by simp [TypeForm.references]) true).append brackets
  | access object index =>
      have first := inside object (by simp [TypeForm.references]) true
      have second := inside index (by simp [TypeForm.references]) false
      rw [TypeForm.pieces_of_single rfl, TypeForm.openPieces]
      simpa [displayStep] using first.append second.square
  | tuple elements =>
      have list : Reads (", ".intercalate (elements.map (answer · true))).toList
          ((TypeForm.listSeparator.map .char).intercalate (elements.map (parts · true))) :=
        reads_list rfl (by decide) fun target included => inside target included true
      rw [TypeForm.pieces_of_single rfl, TypeForm.openPieces]
      simpa [displayStep] using list.square
  | @union members increasing plain several =>
      have list : Reads (" | ".intercalate ((shownMembers members).map (answer · true))).toList
          ((TypeForm.joined .union (shownMembers members)).openPieces parts) :=
        reads_list rfl (by decide) fun target included => inside target included true
      rw [TypeForm.pieces_of_composite rfl, displayStep, unionText_eq several boolean]
      exact reads_parenthesized list nested
  | @intersection members =>
      have list : Reads (" & ".intercalate (members.map (answer · true))).toList
          ((TypeForm.joined .intersection members).openPieces parts) :=
        reads_list rfl (by decide) fun target included => inside target included true
      rw [TypeForm.pieces_of_composite rfl]
      exact reads_parenthesized list nested
  | function params result =>
      rw [TypeForm.pieces_of_composite rfl]
      refine reads_parenthesized ?_ nested
      have list := reads_params fun param included =>
        inside param (List.mem_append_left [result] included)
      have arrow : Reads [' ', '=', '>', ' '] ([' ', '=', '>', ' '].map .char) :=
        Reads.chars (List.all_iff_forall_prop.mp (by decide))
      have whole := list.round.append
        (arrow.append (inside result (by simp [TypeForm.references]) false))
      rw [TypeForm.openPieces]
      simpa using whole

end Shows

end ConditionLint
