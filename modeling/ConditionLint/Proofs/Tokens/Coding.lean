import ConditionLint.Proofs.Json.Written
import ConditionLint.Source.Token

/-!
# Spans and tokens are read back

A span whose numbers fit is read from its written form, and so are a token and a stream of tokens:
sorting tokens that are in order leaves them. What is read fits.
-/

set_option autoImplicit false

namespace ConditionLint

open Json

variable {limit : Nat} {j : Json}

/-- The numbers of the span fit the form in which they are written. -/
structure Span.Fits (s : Span) : Prop where
  start : s.start < Span.offsetLimit
  stop : s.stop < Span.offsetLimit
  line : s.line < Span.placeLimit
  column : s.column < Span.placeLimit

theorem Span.Fits.written {s : Span} (fits : s.Fits) :
    WrittenAs Span.ofJson? (limit + 1) s.toJson s := by
  have start : WrittenAs (natBelow? Span.offsetLimit) limit (.nat s.start) s.start :=
    .nat fits.start (by decide)
  have stop : WrittenAs (natBelow? Span.offsetLimit) limit (.nat s.stop) s.stop :=
    .nat fits.stop (by decide)
  have line : WrittenAs (natBelow? Span.placeLimit) limit (.nat s.line) s.line :=
    .nat fits.line (by decide)
  have column : WrittenAs (natBelow? Span.placeLimit) limit (.nat s.column) s.column :=
    .nat fits.column (by decide)
  constructor
  · simp [Span.ofJson?, Span.toJson, start.read, stop.read, line.read, column.read]
  · refine .object ?_
    simp only [List.forall_mem_cons]
    exact ⟨start.within, stop.within, line.within, column.within, List.forall_mem_nil _⟩

theorem Span.fits_of_ofJson? {s : Span} (read : Span.ofJson? j = some s) : s.Fits := by
  unfold Span.ofJson? at read
  split at read
  · simp only [Option.bind_eq_bind, Option.bind_eq_some_iff, Option.pure_def, Option.some.injEq,
      required?] at read
    obtain ⟨start, ⟨_, _, startRead⟩, stop, ⟨_, _, stopRead⟩, line, ⟨_, _, lineRead⟩, column,
      ⟨_, _, columnRead⟩, rfl⟩ := read
    exact ⟨lt_of_natBelow? startRead, lt_of_natBelow? stopRead, lt_of_natBelow? lineRead,
      lt_of_natBelow? columnRead⟩
  · cases read

theorem TokenKind.ofName?_name (kind : TokenKind) : TokenKind.ofName? kind.name = some kind := by
  cases kind <;> rfl

theorem Token.written {form : Form} {t : Token} (fits : t.span.Fits) :
    WrittenAs (Token.ofJson? form) (limit + 2) t.toJson t := by
  have kind : WrittenAs (word? form TokenKind.ofName?) (limit + 1) (.string t.kind.name) t.kind :=
    .word t.kind.ofName?_name
  have value : WrittenAs string? (limit + 1) (.string t.value) t.value := .string t.value
  have span : WrittenAs Span.ofJson? (limit + 1) t.span.toJson t.span := fits.written
  constructor
  · simp [Token.ofJson?, Token.toJson, kind.read, value.read, span.read]
  · refine .object ?_
    simp only [List.forall_mem_cons]
    exact ⟨kind.within, value.within, span.within, List.forall_mem_nil _⟩

theorem Token.fits_of_ofJson? {form : Form} {t : Token} (read : Token.ofJson? form j = some t) :
    t.span.Fits := by
  unfold Token.ofJson? at read
  split at read
  · simp only [Option.bind_eq_bind, Option.bind_eq_some_iff, Option.pure_def, Option.some.injEq,
      required?] at read
    obtain ⟨kind, _, value, _, span, ⟨_, _, spanRead⟩, rfl⟩ := read
    exact Span.fits_of_ofJson? spanRead
  · cases read

namespace TokenStream

theorem ofList_toList (s : TokenStream) : ofList s.toList = s := by
  obtain ⟨tokens, ordered⟩ := s
  have sorted : tokens.toList.mergeSort Token.startsBy = tokens.toList :=
    List.mergeSort_of_pairwise ordered
  simp only [ofList, toList, sorted, Array.toArray_toList]

theorem mem_toList_ofList {tokens : List Token} {t : Token} :
    t ∈ (ofList tokens).toList ↔ t ∈ tokens :=
  List.mem_mergeSort

theorem written {form : Form} {s : TokenStream} (fits : ∀ t ∈ s.toList, t.span.Fits) :
    WrittenAs (ofJson? form) (limit + 3) s.toJson s := by
  have tokens : WrittenAs (Json.list? (Token.ofJson? form)) (limit + 3) s.toJson s.toList :=
    .list fun t member => Token.written (fits t member)
  have stream := tokens.map (f := ofList)
  rwa [ofList_toList] at stream

theorem fits_of_ofJson? {form : Form} {s : TokenStream} (read : ofJson? form j = some s) :
    ∀ t ∈ s.toList, t.span.Fits := by
  obtain ⟨tokens, tokensRead, rfl⟩ := Option.map_eq_some_iff.mp read
  intro t member
  exact forall_mem_of_list? tokensRead (fun _ _ => Token.fits_of_ofJson?) t
    (mem_toList_ofList.mp member)

end TokenStream

end ConditionLint
