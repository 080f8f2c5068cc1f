import ConditionLint.Proofs.Json.Written

/-!
# Written text is read back

The reader of documents takes the text of a value, and no more, for the value, provided its numbers
are read back. What is read from any text has numbers in range only.
-/

set_option autoImplicit false

namespace ConditionLint.Json

open Decimal

/-!
## Texts
-/

private theorem toNat_lt_of_control {c : Char} (control : c < ' ') : c.toNat < 32 :=
  UInt32.lt_iff_toNat_lt.mp control

private theorem codeUnit?_digitChar : ∀ n < 32,
    codeUnit? '0' '0' (Nat.digitChar (n / 16)) (Nat.digitChar (n % 16)) = some n := by
  decide

private theorem pushUnit_of_control {c : Char} (control : c < ' ') (reversed : List Char) :
    TextSoFar.pushUnit ⟨reversed, none, true⟩ c.toNat = ⟨c :: reversed, none, true⟩ := by
  have small := toNat_lt_of_control control
  have high : (decide (0xD800 ≤ c.toNat) && decide (c.toNat < 0xDC00)) = false := by
    simp only [Bool.and_eq_false_iff, decide_eq_false_iff_not]
    omega
  have low : (decide (0xDC00 ≤ c.toNat) && decide (c.toNat < 0xE000)) = false := by
    simp only [Bool.and_eq_false_iff, decide_eq_false_iff_not]
    omega
  simp [TextSoFar.pushUnit, high, low, TextSoFar.push, Char.ofNat_toNat]

private theorem readText_plain {c : Char} (noQuote : c ≠ '"') (noBackslash : c ≠ '\\')
    (printed : ¬ c < ' ') (t : TextSoFar) (rest : List Char) :
    readText t (c :: rest) = readText (t.push c) rest := by
  have plain : ¬ (c < ' ' ∨ c = '\\') := not_or.mpr ⟨printed, noBackslash⟩
  rw [readText.eq_def]
  split
  · rename_i same
    cases same
  · rename_i same
    cases same
    exact absurd rfl noQuote
  · rename_i same
    cases same
    exact absurd rfl noBackslash
  · rename_i same
    cases same
    exact absurd rfl noBackslash
  · rename_i same
    cases same
    simp [plain]

/-- The escaped form of a character is read as the character. -/
private theorem readText_escape (reversed : List Char) (c : Char) (rest : List Char) :
    readText ⟨reversed, none, true⟩ (escape c ++ rest) =
      readText ⟨c :: reversed, none, true⟩ rest := by
  unfold escape
  split
  · rfl
  · rfl
  · rfl
  · rfl
  · rfl
  · rfl
  · rfl
  · rename_i noQuote noBackslash _ _ _ _ _
    split
    · rename_i control
      have unit := codeUnit?_digitChar c.toNat (toNat_lt_of_control control)
      simp only [List.cons_append, List.nil_append]
      rw [readText, unit]
      simp only [pushUnit_of_control control]
    · rename_i printed
      exact readText_plain noQuote noBackslash printed _ rest

private theorem readText_flatMap (reversed cs rest : List Char) :
    readText ⟨reversed, none, true⟩ (cs.flatMap escape ++ '"' :: rest) =
      some (some (String.ofList (reversed.reverse ++ cs)), rest) := by
  induction cs generalizing reversed with
  | nil =>
      rw [List.flatMap_nil, List.nil_append, List.append_nil]
      rfl
  | cons c cs ih =>
      rw [List.flatMap_cons, List.append_assoc, readText_escape, ih, List.reverse_cons,
        List.append_assoc]
      rfl

theorem toList_writeText (s : String) :
    (writeText s).toList = '"' :: (s.toList.flatMap escape ++ ['"']) := by
  rw [writeText, String.toList_ofList]
  rfl

theorem readText_writeText (s : String) (rest : List Char) :
    ∃ quoted, (writeText s).toList ++ rest = '"' :: quoted ∧
      readText .empty quoted = some (some s, rest) := by
  refine ⟨s.toList.flatMap escape ++ '"' :: rest, ?_, ?_⟩
  · rw [toList_writeText, List.cons_append, List.append_assoc]
    rfl
  · have read := readText_flatMap [] s.toList rest
    rwa [List.reverse_nil, List.nil_append, String.ofList_toList] at read

/-!
## Values
-/

/-- The value is read from its text, whatever comes after it. -/
def IsRead (j : Json) : Prop :=
  ∀ fuel rest, (toText j).toList.length < fuel → Stops rest →
    readValue fuel ((toText j).toList ++ rest) = some (j, rest)

theorem toList_toText_array (items : List Json) :
    (toText (.array items)).toList = '[' :: ((itemsText items).toList ++ [']']) := by
  simp [toText]

theorem toList_toText_object (members : List (String × Json)) :
    (toText (.object members)).toList = '\x7b' :: ((membersText members).toList ++ ['\x7d']) := by
  simp [toText]

private theorem toList_itemsText_cons (item next : Json) (items : List Json) :
    (itemsText (item :: next :: items)).toList =
      (toText item).toList ++ ',' :: (itemsText (next :: items)).toList := by
  simp [itemsText]

private theorem readItems_comma {item : Json} (isRead : item.IsRead) {below : Nat}
    (room : (toText item).toList.length < below) {others rest : List Char} {items : List Json}
    (later : readItems below others = some (items, rest)) :
    readItems (below + 1) ((toText item).toList ++ ',' :: others) = some (item :: items, rest) := by
  have comma : skipBlanks (',' :: others) = ',' :: others := rfl
  rw [readItems, isRead below _ room (stops_comma others)]
  simp only [comma, later]

private theorem readItems_bracket {item : Json} (isRead : item.IsRead) {below : Nat}
    (room : (toText item).toList.length < below) (rest : List Char) :
    readItems (below + 1) ((toText item).toList ++ ']' :: rest) = some ([item], rest) := by
  have bracket : skipBlanks (']' :: rest) = ']' :: rest := rfl
  rw [readItems, isRead below _ room (stops_bracket rest)]
  simp only [bracket]

theorem readItems_itemsText {items : List Json} (nonempty : items ≠ [])
    (each : ∀ item ∈ items, item.IsRead) {fuel : Nat}
    (enough : (itemsText items).toList.length + 1 < fuel) (rest : List Char) :
    readItems fuel ((itemsText items).toList ++ ']' :: rest) = some (items, rest) := by
  induction items generalizing fuel with
  | nil => exact absurd rfl nonempty
  | cons item items ih =>
      obtain ⟨first, others⟩ := List.forall_mem_cons.mp each
      obtain ⟨below, rfl⟩ : ∃ below, fuel = below + 1 := ⟨fuel - 1, by omega⟩
      cases items with
      | nil =>
          rw [itemsText] at enough ⊢
          exact readItems_bracket first (by omega) rest
      | cons next items =>
          rw [toList_itemsText_cons, List.length_append, List.length_cons] at enough
          have room : (itemsText (next :: items)).toList.length + 1 < below := by omega
          rw [toList_itemsText_cons, List.append_assoc, List.cons_append]
          exact readItems_comma first (by omega) (ih (List.cons_ne_nil _ _) others room)

private theorem toList_membersText_single (name : String) (value : Json) :
    (membersText [(name, value)]).toList =
      (writeText name).toList ++ ':' :: (toText value).toList := by
  simp [membersText]

private theorem toList_membersText_cons (name : String) (value : Json) (next : String × Json)
    (members : List (String × Json)) :
    (membersText ((name, value) :: next :: members)).toList =
      (writeText name).toList ++
        ':' :: ((toText value).toList ++ ',' :: (membersText (next :: members)).toList) := by
  simp [membersText]

private theorem readMembers_comma {name : String} {value : Json} (isRead : value.IsRead)
    {below : Nat}
    (room : (toText value).toList.length < below) (others : List Char) :
    readMembers (below + 1)
        ((writeText name).toList ++ ':' :: ((toText value).toList ++ ',' :: others)) =
      ⟨(some name, value) :: (readMembers below others).found,
        (readMembers below others).rest⟩ := by
  obtain ⟨quoted, opens, readName⟩ :=
    readText_writeText name (':' :: ((toText value).toList ++ ',' :: others))
  have quote : skipBlanks ('"' :: quoted) = '"' :: quoted := rfl
  have colon (text : List Char) : skipBlanks (':' :: text) = ':' :: text := rfl
  have comma : skipBlanks (',' :: others) = ',' :: others := rfl
  rw [opens, readMembers]
  simp only [quote, readName, colon, isRead below _ room (stops_comma others), comma]

private theorem readMembers_brace {name : String} {value : Json} (isRead : value.IsRead)
    {below : Nat}
    (room : (toText value).toList.length < below) (rest : List Char) :
    readMembers (below + 1)
        ((writeText name).toList ++ ':' :: ((toText value).toList ++ '\x7d' :: rest)) =
      ⟨[(some name, value)], some rest⟩ := by
  obtain ⟨quoted, opens, readName⟩ :=
    readText_writeText name (':' :: ((toText value).toList ++ '\x7d' :: rest))
  have quote : skipBlanks ('"' :: quoted) = '"' :: quoted := rfl
  have colon (text : List Char) : skipBlanks (':' :: text) = ':' :: text := rfl
  have brace : skipBlanks ('\x7d' :: rest) = '\x7d' :: rest := rfl
  rw [opens, readMembers]
  simp only [quote, readName, colon, isRead below _ room (stops_brace rest), brace]

theorem readMembers_membersText {members : List (String × Json)} (nonempty : members ≠ [])
    (each : ∀ member ∈ members, member.2.IsRead) {fuel : Nat}
    (enough : (membersText members).toList.length + 1 < fuel) (rest : List Char) :
    readMembers fuel ((membersText members).toList ++ '\x7d' :: rest) =
      ⟨members.map fun member => (some member.1, member.2), some rest⟩ := by
  induction members generalizing fuel with
  | nil => exact absurd rfl nonempty
  | cons member members ih =>
      obtain ⟨below, rfl⟩ : ∃ below, fuel = below + 1 := ⟨fuel - 1, by omega⟩
      obtain ⟨name, value⟩ := member
      have first : value.IsRead := each (name, value) List.mem_cons_self
      have others := (List.forall_mem_cons.mp each).2
      cases members with
      | nil =>
          rw [toList_membersText_single, List.length_append, List.length_cons] at enough
          rw [toList_membersText_single, List.append_assoc, List.cons_append]
          exact readMembers_brace first (by omega) rest
      | cons next members =>
          rw [toList_membersText_cons, List.length_append, List.length_cons, List.length_append,
            List.length_cons] at enough
          have room : (membersText (next :: members)).toList.length + 1 < below := by omega
          have later := ih (List.cons_ne_nil _ _) others room
          rw [toList_membersText_cons, List.append_assoc, List.cons_append, List.append_assoc,
            List.cons_append, readMembers_comma first (by omega), later]
          rfl

/-!
## Documents
-/

private theorem mapM_map_some {name : Option String × Json → Option (String × Json)}
    (named : ∀ text value, name (some text, value) = some (text, value))
    (members : List (String × Json)) :
    (members.map fun member => (some member.1, member.2)).mapM name = some members := by
  induction members with
  | nil => rfl
  | cons member members ih =>
      rw [List.map_cons, List.mapM_cons, named, ih]
      rfl

private theorem value_map_some (members : List (String × Json)) :
    Members.value (members.map fun member => (some member.1, member.2)) = .object members := by
  rw [Members.value, mapM_map_some fun _ _ => rfl]

private theorem skipBlanks_cons {c : Char} (printed : c ≠ ' ' ∧ c ≠ '\t' ∧ c ≠ '\n' ∧ c ≠ '\r')
    (rest : List Char) : skipBlanks (c :: rest) = c :: rest := by
  simp [skipBlanks, printed]

def StartsNumber (c : Char) : Prop :=
  c = '-' ∨ c.isDigit = true

theorem StartsNumber.ne {c other : Char} (starts : StartsNumber c)
    (differs : other ≠ '-' ∧ other.isDigit = false) : c ≠ other := by
  rintro rfl
  rcases starts with minus | digit
  · exact differs.1 minus
  · rw [differs.2] at digit
    cases digit

theorem StartsNumber.skipBlanks {c : Char} (starts : StartsNumber c) (rest : List Char) :
    Json.skipBlanks (c :: rest) = c :: rest :=
  skipBlanks_cons ⟨starts.ne (by decide), starts.ne (by decide), starts.ne (by decide),
    starts.ne (by decide)⟩ rest

private theorem readValue_of_startsNumber {c : Char} (starts : StartsNumber c) (fuel : Nat)
    (tail : List Char) : readValue (fuel + 1) (c :: tail) = readNumber (c :: tail) := by
  rw [readValue, starts.skipBlanks]
  split
  all_goals first
    | rfl
    | rename_i same
      cases same
      exact absurd rfl (starts.ne (by decide))

/-- The text of a value starts with no blank and no closing bracket. -/
private theorem exists_toList_toText {j : Json} {limit : Nat}
    (within : j.Within Number.ReadsBack limit) :
    ∃ c tail, (toText j).toList = c :: tail ∧ c ≠ ']' ∧
      ∀ rest, skipBlanks (c :: rest) = c :: rest := by
  cases within with
  | null => exact ⟨'n', ['u', 'l', 'l'], rfl, by decide, fun _ => rfl⟩
  | @bool _ value =>
      cases value with
      | true => exact ⟨'t', ['r', 'u', 'e'], rfl, by decide, fun _ => rfl⟩
      | false => exact ⟨'f', ['a', 'l', 's', 'e'], rfl, by decide, fun _ => rfl⟩
  | string => exact ⟨'"', _, toList_writeText _, by decide, fun _ => rfl⟩
  | number readsBack =>
      obtain ⟨c, tail, text, starts⟩ := exists_eq_cons_of_readNumber readsBack
      exact ⟨c, tail, text, StartsNumber.ne starts (by decide), StartsNumber.skipBlanks starts⟩
  | array => exact ⟨'[', _, toList_toText_array _, by decide, fun _ => rfl⟩
  | object => exact ⟨'\x7b', _, toList_toText_object _, by decide, fun _ => rfl⟩

private theorem readValue_bracket {fuel : Nat} {cs rest : List Char} {items : List Json}
    (unblank : skipBlanks cs = cs) (notClosed : ∀ tail, cs ≠ ']' :: tail)
    (read : readItems fuel cs = some (items, rest)) :
    readValue (fuel + 1) ('[' :: cs) = some (.array items, rest) := by
  have bracket : skipBlanks ('[' :: cs) = '[' :: cs := rfl
  rw [readValue]
  simp only [bracket, unblank]
  rw [read]

private theorem readValue_brace {fuel : Nat} {cs rest : List Char}
    {found : List (Option String × Json)}
    (unblank : skipBlanks cs = cs) (notClosed : ∀ tail, cs ≠ '\x7d' :: tail)
    (read : readMembers fuel cs = ⟨found, some rest⟩) :
    readValue (fuel + 1) ('\x7b' :: cs) = some (Members.value found, rest) := by
  have brace : skipBlanks ('\x7b' :: cs) = '\x7b' :: cs := rfl
  rw [readValue]
  simp only [brace, unblank]
  rw [read]

private theorem exists_toList_itemsText {items : List Json} {limit : Nat} (nonempty : items ≠ [])
    (each : ∀ item ∈ items, item.Within Number.ReadsBack limit) :
    ∃ c tail, (itemsText items).toList = c :: tail ∧ c ≠ ']' ∧
      ∀ rest, skipBlanks (c :: rest) = c :: rest := by
  cases items with
  | nil => exact absurd rfl nonempty
  | cons item items =>
      obtain ⟨c, tail, text, starts⟩ := exists_toList_toText (each item List.mem_cons_self)
      cases items with
      | nil => exact ⟨c, tail, text, starts⟩
      | cons next items =>
          refine ⟨c, tail ++ ',' :: (itemsText (next :: items)).toList, ?_, starts⟩
          rw [toList_itemsText_cons, text, List.cons_append]

private theorem exists_toList_membersText {members : List (String × Json)}
    (nonempty : members ≠ []) :
    ∃ tail, (membersText members).toList = '"' :: tail := by
  cases members with
  | nil => exact absurd rfl nonempty
  | cons member members =>
      obtain ⟨name, value⟩ := member
      cases members with
      | nil => exact ⟨_, by rw [toList_membersText_single, toList_writeText, List.cons_append]⟩
      | cons next members =>
          exact ⟨_, by rw [toList_membersText_cons, toList_writeText, List.cons_append]⟩

theorem Within.isRead {j : Json} {limit : Nat} (within : j.Within Number.ReadsBack limit) :
    j.IsRead := by
  -- one unit of fuel goes to the value itself, the rest covers the text between its brackets
  induction within with
  | null =>
      intro fuel rest enough stops
      obtain ⟨below, rfl⟩ : ∃ below, fuel = below + 1 := ⟨fuel - 1, by omega⟩
      rfl
  | @bool _ value =>
      intro fuel rest enough stops
      obtain ⟨below, rfl⟩ : ∃ below, fuel = below + 1 := ⟨fuel - 1, by omega⟩
      cases value <;> rfl
  | @string _ text =>
      intro fuel rest enough stops
      obtain ⟨below, rfl⟩ : ∃ below, fuel = below + 1 := ⟨fuel - 1, by omega⟩
      obtain ⟨quoted, opens, read⟩ := readText_writeText text rest
      have quote : skipBlanks ('"' :: quoted) = '"' :: quoted := rfl
      rw [toText, opens, readValue]
      simp only [quote, read]
  | @number _ n readsBack =>
      intro fuel rest enough stops
      obtain ⟨below, rfl⟩ : ∃ below, fuel = below + 1 := ⟨fuel - 1, by omega⟩
      obtain ⟨c, tail, text, starts⟩ := exists_eq_cons_of_readNumber readsBack
      have read := readNumber_append stops readsBack
      rw [toText, text, List.cons_append, readValue_of_startsNumber starts, ← List.cons_append,
        ← text, read, List.nil_append]
  | @array limit items each ih =>
      intro fuel rest enough stops
      obtain ⟨below, rfl⟩ : ∃ below, fuel = below + 1 := ⟨fuel - 1, by omega⟩
      rw [toList_toText_array, List.length_cons, List.length_append, List.length_singleton]
        at enough
      rw [toList_toText_array, List.cons_append, List.append_assoc, List.singleton_append]
      cases items with
      | nil => rfl
      | cons item items =>
          have room : (itemsText (item :: items)).toList.length + 1 < below := by omega
          have read := readItems_itemsText (List.cons_ne_nil item items) ih room rest
          obtain ⟨c, tail, text, notClosed, unblank⟩ :=
            exists_toList_itemsText (List.cons_ne_nil item items) each
          rw [text, List.cons_append] at read ⊢
          refine readValue_bracket (unblank _) (fun other same => ?_) read
          exact notClosed (List.cons.inj same).1
  | @object limit members each ih =>
      intro fuel rest enough stops
      obtain ⟨below, rfl⟩ : ∃ below, fuel = below + 1 := ⟨fuel - 1, by omega⟩
      rw [toList_toText_object, List.length_cons, List.length_append, List.length_singleton]
        at enough
      rw [toList_toText_object, List.cons_append, List.append_assoc, List.singleton_append]
      cases members with
      | nil => rfl
      | cons member members =>
          have room : (membersText (member :: members)).toList.length + 1 < below := by omega
          have read := readMembers_membersText (List.cons_ne_nil member members) ih room rest
          obtain ⟨tail, text⟩ := exists_toList_membersText (List.cons_ne_nil member members)
          rw [text, List.cons_append] at read ⊢
          rw [readValue_brace rfl (fun other same => ?_) read, value_map_some]
          cases same

private theorem namedPrefix_map_some (members : List (String × Json)) :
    namedPrefix (members.map fun member => (some member.1, member.2)) = members := by
  induction members with
  | nil => rfl
  | cons member members ih => rw [List.map_cons, namedPrefix, ih]

private theorem objectOfText_brace {text : String} {cs rest : List Char}
    {members : List (String × Json)}
    (opens : text.toList = '\x7b' :: cs) (unblank : skipBlanks cs = cs)
    (notClosed : ∀ tail, cs ≠ '\x7d' :: tail) (ends : (skipBlanks rest).isEmpty = true)
    (read : readMembers (text.toList.length + 1) cs =
      ⟨members.map fun member => (some member.1, member.2), some rest⟩) :
    objectOfText text = ⟨members, true⟩ := by
  have brace : skipBlanks ('\x7b' :: cs) = '\x7b' :: cs := rfl
  have named : ((members.map fun member => (some member.1, member.2)).all
      fun member => member.1.isSome) = true := by
    rw [List.all_map, List.all_eq_true]
    intro member _
    rfl
  rw [opens] at read
  rw [objectOfText, opens]
  simp only [brace, unblank]
  rw [read, namedPrefix_map_some, named]
  simp [ends]

/-- A document that is one object is read from its text. -/
theorem objectOfText_toText {members : List (String × Json)} {limit : Nat}
    (within : (Json.object members).Within Number.ReadsBack limit) :
    objectOfText (toText (.object members)) = ⟨members, true⟩ := by
  cases within with
  | object each =>
      cases members with
      | nil => rfl
      | cons member members =>
          have room : (membersText (member :: members)).toList.length + 1 <
              (toText (.object (member :: members))).toList.length + 1 := by
            rw [toList_toText_object, List.length_cons, List.length_append]
            omega
          have read := readMembers_membersText (List.cons_ne_nil member members)
            (fun other included => (each other included).isRead) room []
          obtain ⟨tail, text⟩ := exists_toList_membersText (List.cons_ne_nil member members)
          refine objectOfText_brace (toList_toText_object _) ?_ (fun other same => ?_) rfl read
          · rw [text]
            rfl
          · rw [text] at same
            cases same

/-!
## Documents that were read
-/

private theorem numbersInRange_array {items : List Json}
    (each : ∀ item ∈ items, item.NumbersInRange) :
    (Json.array items).NumbersInRange := by
  intro n holds
  cases holds with
  | item included inner => exact each _ included n inner

private theorem numbersInRange_object {members : List (String × Json)}
    (each : ∀ member ∈ members, member.2.NumbersInRange) :
    (Json.object members).NumbersInRange := by
  intro n holds
  cases holds with
  | member included inner => exact each _ included n inner

theorem numbersInRange_of_readNumber {cs rest : List Char} {j : Json}
    (read : readNumber cs = some (j, rest)) : j.NumbersInRange := by
  intro n holds
  rcases number_of_readNumber read with rfl | ⟨_, rfl, inRange⟩
  · cases holds
  · cases holds
    exact inRange

private theorem mem_of_mem_namedPrefix {found : List (Option String × Json)}
    {member : String × Json}
    (included : member ∈ namedPrefix found) : (some member.1, member.2) ∈ found := by
  induction found with
  | nil => cases included
  | cons head found ih =>
      obtain ⟨name, value⟩ := head
      cases name with
      | none => cases included
      | some name =>
          rw [namedPrefix] at included
          rcases List.mem_cons.mp included with rfl | later
          · exact List.mem_cons_self
          · exact List.mem_cons_of_mem _ (ih later)

private theorem numbersInRange_value {found : List (Option String × Json)}
    (each : ∀ member ∈ found, member.2.NumbersInRange) : (Members.value found).NumbersInRange := by
  rw [Members.value]
  split
  · rename_i members named
    refine numbersInRange_object fun member included => ?_
    induction found generalizing members with
    | nil =>
        cases named
        cases included
    | cons head found ih =>
        obtain ⟨first, others⟩ := List.forall_mem_cons.mp each
        rw [List.mapM_cons] at named
        obtain ⟨named, isNamed, rest⟩ := Option.bind_eq_some_iff.mp named
        obtain ⟨later, laterNamed, same⟩ := Option.bind_eq_some_iff.mp rest
        cases same
        rcases List.mem_cons.mp included with rfl | later
        · obtain ⟨name, _, rfl⟩ := Option.map_eq_some_iff.mp isNamed
          exact first
        · exact ih others _ laterNamed later
  · intro n holds
    cases holds

private theorem numbersInRange_of_not_holds {j : Json} (scalar : ∀ n, ¬ j.Holds n) :
    j.NumbersInRange :=
  fun n holds => absurd holds (scalar n)

section

-- what is read with less fuel is known
variable {fuel : Nat}
  (values : ∀ cs j rest, readValue fuel cs = some (j, rest) → j.NumbersInRange)
  (items : ∀ cs items rest, readItems fuel cs = some (items, rest) →
    ∀ item ∈ items, item.NumbersInRange)
  (members : ∀ cs, ∀ member ∈ (readMembers fuel cs).found, member.2.NumbersInRange)

include items members in
theorem numbersInRange_readValue {cs rest : List Char} {j : Json}
    (read : readValue (fuel + 1) cs = some (j, rest)) : j.NumbersInRange := by
  rw [readValue] at read
  split at read
  · cases read
    exact numbersInRange_of_not_holds nofun
  · cases read
    exact numbersInRange_of_not_holds nofun
  · cases read
    exact numbersInRange_of_not_holds nofun
  · split at read
    · cases read
      exact numbersInRange_of_not_holds nofun
    · cases read
      exact numbersInRange_of_not_holds nofun
    · cases read
  · split at read
    · cases read
      exact numbersInRange_array nofun
    · split at read
      · rename_i found
        cases read
        exact numbersInRange_array (items _ _ _ found)
      · cases read
  · split at read
    · cases read
      exact numbersInRange_object nofun
    · split at read
      · rename_i body _ _ _ _ _ _ found
        cases read
        have each := members (skipBlanks body)
        rw [found] at each
        exact numbersInRange_value each
      · cases read
  · exact numbersInRange_of_readNumber read

include values items in
theorem numbersInRange_readItems {cs rest : List Char} {read : List Json}
    (same : readItems (fuel + 1) cs = some (read, rest)) :
    ∀ item ∈ read, item.NumbersInRange := by
  intro item included
  rw [readItems] at same
  split at same
  · cases same
  · rename_i first
    split at same
    · split at same
      · rename_i later
        cases same
        rcases List.mem_cons.mp included with rfl | other
        · exact values _ _ _ first
        · exact items _ _ _ later _ other
      · cases same
    · cases same
      rw [List.mem_singleton.mp included]
      exact values _ _ _ first
    · cases same

include values members in
theorem numbersInRange_readMembers (cs : List Char) :
    ∀ member ∈ (readMembers (fuel + 1) cs).found, member.2.NumbersInRange := by
  intro member included
  rw [readMembers] at included
  split at included
  · split at included
    · cases included
    · split at included
      · split at included
        · cases included
        · rename_i first
          have last := values _ _ _ first
          split at included
          · rcases List.mem_cons.mp included with rfl | other
            · exact last
            · exact members _ _ other
          · rwa [List.mem_singleton.mp included]
          · rwa [List.mem_singleton.mp included]
      · cases included
  · cases included

end

/-- The readers of one value, of items and of members keep to numbers in range. -/
theorem numbersInRange_read (fuel : Nat) :
    (∀ cs j rest, readValue fuel cs = some (j, rest) → j.NumbersInRange) ∧
      (∀ cs items rest, readItems fuel cs = some (items, rest) →
        ∀ item ∈ items, item.NumbersInRange) ∧
      ∀ cs, ∀ member ∈ (readMembers fuel cs).found, member.2.NumbersInRange := by
  induction fuel with
  | zero =>
      refine ⟨fun cs j rest read => ?_, fun cs items rest read => ?_, fun cs member found => ?_⟩
      · cases read
      · cases read
      · cases found
  | succ fuel ih =>
      obtain ⟨values, items, members⟩ := ih
      exact ⟨fun _ _ _ => numbersInRange_readValue items members,
        fun _ _ _ => numbersInRange_readItems values items,
        numbersInRange_readMembers values members⟩

theorem numbersInRange_objectOfText (text : String) :
    ∀ member ∈ (objectOfText text).members, member.2.NumbersInRange := by
  intro member included
  rw [objectOfText] at included
  split at included
  · split at included
    · cases included
    · exact (numbersInRange_read _).2.2 _ _ (mem_of_mem_namedPrefix included)
  · cases included

end ConditionLint.Json
