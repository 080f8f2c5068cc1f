import ConditionLint.Source.Span

/-!
# Tokens

A token is a piece of source text with its lexical class. A token stream holds the tokens of a
file in the order of their starts; tokens that start together keep the order they were given in.
Looking for a token after an offset starts with a binary search for the first place.
-/

set_option autoImplicit false

namespace ConditionLint

inductive TokenKind where
  | punctuator
  | identifier
  | keyword
  | string
  | numeric
  | template
  | other
deriving DecidableEq, Repr, Inhabited

namespace TokenKind

def name : TokenKind → String
  | punctuator => "punctuator"
  | identifier => "identifier"
  | keyword => "keyword"
  | string => "string"
  | numeric => "numeric"
  | template => "template"
  | other => "other"

def ofName? : String → Option TokenKind
  | "punctuator" => some punctuator
  | "identifier" => some identifier
  | "keyword" => some keyword
  | "string" => some string
  | "numeric" => some numeric
  | "template" => some template
  | "other" => some other
  | _ => none

end TokenKind

structure Token where
  kind : TokenKind
  value : String
  span : Span
deriving DecidableEq, Repr, Inhabited

namespace Token

def isPunctuator (t : Token) (spelling : String) : Bool :=
  t.kind == .punctuator && t.value == spelling

def startsBy (a b : Token) : Bool :=
  a.span.start ≤ b.span.start

def toJson (t : Token) : Json :=
  .object
    [("kind", .string t.kind.name), ("value", .string t.value), ("span", t.span.toJson)]

def ofJson? (form : Json.Form) (j : Json) : Option Token :=
  match j.fields? ["kind", "value", "span"] with
  | some [kind, value, span] => do
    return { kind := ← Json.required? (Json.word? form TokenKind.ofName?) kind
             value := ← Json.required? Json.string? value
             span := ← Json.required? Span.ofJson? span }
  | _ => none

end Token

/-- The tokens of a file, ordered by where they start. -/
structure TokenStream where
  tokens : Array Token
  ordered : tokens.toList.Pairwise fun a b => a.startsBy b = true

namespace TokenStream

def ofList (tokens : List Token) : TokenStream where
  tokens := (tokens.mergeSort Token.startsBy).toArray
  ordered := by
    refine List.pairwise_mergeSort ?_ ?_ tokens
    · intro a b c first second
      simp only [Token.startsBy, decide_eq_true_eq] at first second ⊢
      omega
    · intro a b
      simp only [Token.startsBy, Bool.or_eq_true, decide_eq_true_eq]
      omega

def toList (s : TokenStream) : List Token :=
  s.tokens.toList

def size (s : TokenStream) : Nat :=
  s.tokens.size

/-- Narrow the places from `low` to `high` down to the first token that does not start before the
offset. -/
def search (tokens : Array Token) (offset low high : Nat) : Nat :=
  if low < high then
    let middle := (low + high) / 2
    match tokens[middle]? with
    | some token =>
      if token.span.start < offset then search tokens offset (middle + 1) high
      else search tokens offset low middle
    | none => search tokens offset low middle
  else
    low
termination_by high - low

/-- The first token from an offset on that satisfies a condition. -/
def tokenAfter? (s : TokenStream) (offset : Nat) (condition : Token → Bool) : Option Token :=
  (s.toList.drop (search s.tokens offset 0 s.size)).find? condition

def toJson (s : TokenStream) : Json :=
  .array (s.toList.map Token.toJson)

/-- Read a stream; the tokens may come in any order. -/
def ofJson? (form : Json.Form) (j : Json) : Option TokenStream :=
  (j.list? (Token.ofJson? form)).map ofList

end TokenStream

end ConditionLint
