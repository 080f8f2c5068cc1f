import ConditionLint.Text.Utf8

/-!
# Reading bytes as text

Bytes are read as the characters of a text exactly if they are the bytes of that text. What is shown
of them tells as much, unless it has marks.
-/

set_option autoImplicit false

namespace ConditionLint.Text

variable {bytes : List UInt8} {c : Char} {cs : List Char}

private theorem startOf?_encoded (c : Char) (rest : List UInt8) :
    startOf? (String.utf8EncodeChar c ++ rest) = some c := by
  rw [startOf?, List.toByteArray_append]
  exact ByteArray.utf8DecodeChar?_utf8EncodeChar_append

private theorem exists_rest_of_startOf? (starts : startOf? bytes = some c) :
    ∃ rest, bytes = String.utf8EncodeChar c ++ rest := by
  obtain ⟨rest, whole⟩ := ByteArray.exists_of_utf8DecodeChar?_eq_some starts
  refine ⟨rest.data.toList, ?_⟩
  have lists := congrArg (fun array : ByteArray => array.data.toList) whole
  simpa using lists

theorem decode_encoded (c : Char) (rest : List UInt8) :
    decode (String.utf8EncodeChar c ++ rest) = some c :: decode rest := by
  have starts := startOf?_encoded c rest
  cases encoded : String.utf8EncodeChar c with
  | nil => exact absurd encoded String.utf8EncodeChar_ne_nil
  | cons first more =>
      have size : c.utf8Size - 1 = more.length := by
        have length := String.length_utf8EncodeChar c
        rw [encoded, List.length_cons] at length
        omega
      rw [encoded] at starts
      rw [List.cons_append] at starts ⊢
      rw [decode, starts]
      simp [size]

theorem decode_encode (cs : List Char) : decode (encode cs) = cs.map some := by
  induction cs with
  | nil => simp [encode, decode]
  | cons c rest ih =>
      have front : encode (c :: rest) = String.utf8EncodeChar c ++ encode rest := rfl
      rw [front, decode_encoded, ih, List.map_cons]

theorem decode_eq_iff : decode bytes = cs.map some ↔ bytes = encode cs := by
  constructor
  · intro read
    induction cs generalizing bytes with
    | nil =>
        cases bytes with
        | nil => rfl
        | cons first rest =>
            rw [decode] at read
            split at read <;> cases read
    | cons c cs ih =>
        cases bytes with
        | nil => simp [decode] at read
        | cons first rest =>
            cases starts : startOf? (first :: rest) with
            | none => simp [decode, starts] at read
            | some d =>
                obtain ⟨more, whole⟩ := exists_rest_of_startOf? starts
                rw [whole, decode_encoded, List.map_cons, List.cons.injEq] at read
                obtain ⟨same, read⟩ := read
                cases same
                rw [whole, ih read]
                rfl
  · rintro rfl
    exact decode_encode cs

private theorem mapM_id_eq_some_iff {read : List (Option Char)} :
    read.mapM id = some cs ↔ read = cs.map some := by
  induction read generalizing cs with
  | nil => cases cs <;> simp
  | cons first rest ih =>
      cases first with
      | none => cases cs <;> simp
      | some c =>
          cases cs with
          | nil => simp [Option.bind_eq_some_iff]
          | cons => simpa [Option.bind_eq_some_iff, ih] using and_comm

theorem ofBytes?_eq_some_iff {text : String} :
    ofBytes? bytes = some text ↔ bytes = encode text.toList := by
  rw [ofBytes?, Option.map_eq_some_iff, ← decode_eq_iff, ← mapM_id_eq_some_iff]
  constructor
  · rintro ⟨cs, whole, rfl⟩
    rwa [String.toList_ofList]
  · intro whole
    exact ⟨text.toList, whole, String.ofList_toList⟩

theorem shown_encode (text : String) : shown (encode text.toList) = text := by
  simp [shown, decode_encode, Function.comp_def, String.ofList_toList]

/-- Bytes are shown as a text without marks only if they are that text. -/
theorem shown_eq_iff {text : String} (unmarked : '\uFFFD' ∉ text.toList) :
    shown bytes = text ↔ bytes = encode text.toList := by
  constructor
  · intro same
    have marks : (decode bytes).map (·.getD '\uFFFD') = text.toList := by
      rw [← same, shown, String.toList_ofList]
    rw [← decode_eq_iff, ← marks, List.map_map]
    refine (List.map_id _).symm.trans (List.map_congr_left fun read member => ?_)
    cases read with
    | some c => rfl
    | none =>
        have marked : '\uFFFD' ∈ text.toList := marks ▸ List.mem_map_of_mem member
        exact absurd marked unmarked
  · rintro rfl
    exact shown_encode text

theorem head?_shown_iff {c : Char} (noMark : c ≠ '\uFFFD') :
    (shown bytes).toList.head? = some c ↔ String.utf8EncodeChar c <+: bytes := by
  rw [shown, String.toList_ofList]
  constructor
  · intro first
    cases bytes with
    | nil => simp [decode] at first
    | cons b rest =>
        cases starts : startOf? (b :: rest) with
        | none => simp [decode, starts, Ne.symm noMark] at first
        | some d =>
            have same : d = c := by simpa [decode, starts] using first
            subst same
            obtain ⟨more, whole⟩ := exists_rest_of_startOf? starts
            exact ⟨more, whole.symm⟩
  · rintro ⟨rest, rfl⟩
    rw [decode_encoded]
    rfl

end ConditionLint.Text
