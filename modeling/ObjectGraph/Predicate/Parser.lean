/-
# Predicates from text

`or` binds loosest, then `and`, then `not`.  A comparison has its field on either side; a field
alone stands for `field == true`; equality with null is a null check, and no other operator
takes null.  `in` and `not in` take a list between parentheses or brackets, with a comma after
the last value allowed.

Every function reads from the front of the tokens and gives back what is left; that fewer are
left than before is part of its type.
-/
import ObjectGraph.Predicate.Token

namespace ObjectGraph.Predicate

/-- A value read from the front of some tokens, and what is left of them. -/
structure Parsed (α : Type) (tokens : List Placed) where
  value : α
  rest : List Placed
  shorter : rest.length < tokens.length

/-- Values read from the front of some tokens, perhaps none, and what is left of them. -/
structure ParsedMany (α : Type) (tokens : List Placed) where
  values : List α
  rest : List Placed
  notLonger : rest.length ≤ tokens.length

/-- The error at a token that does not fit. -/
def Placed.unexpected (t : Placed) : ParseError :=
  .unexpectedToken t.token.describe t.position

/-- The name of the field a reference means: what follows the variable. -/
def fieldName (reference : String) : Except ParseError String :=
  let field := unqualified reference
  if field = "" ∨ '.' ∈ field.toList then .error (.nestedField reference) else .ok field

/-- The predicate of a comparison. -/
def compareWith (field : String) (operator : ComparisonOperator) (value : Literal) :
    Except ParseError Predicate :=
  match operator, value with
  | .equals, .null => .ok (.isNull field)
  | .notEquals, .null => .ok (.negation (.isNull field))
  | operator, .null => .error (.nullComparison operator)
  | operator, value => .ok (.comparison field operator value)

/-- A chain of one is its only link. -/
def chain (connect : List Predicate → Predicate) : List Predicate → Predicate
  | [p] => p
  | ps => connect ps

/-- The values of a list up to its closing token. -/
def listItems (close : Token) : List Placed → Except ParseError (List Literal × List Placed)
  | [] => .error .unexpectedEnd
  | t :: rest =>
    if t.token = close then .ok ([], rest)
    else
      match t.token, rest with
      | .literal _, [] => .error .unexpectedEnd
      | .literal value, next :: rest =>
        if next.token = .comma then
          match listItems close rest with
          | .ok (values, rest) => .ok (value :: values, rest)
          | .error e => .error e
        else if next.token = close then .ok ([value], rest)
        else .error next.unexpected
      | _, _ => .error t.unexpected

theorem length_listItems {close : Token} {ts rest : List Placed} {values : List Literal}
    (h : listItems close ts = .ok (values, rest)) : rest.length < ts.length := by
  fun_induction listItems close ts generalizing values rest with
  | case1 => simp at h
  | case2 t ts =>
    simp only [Except.ok.injEq, Prod.mk.injEq] at h
    rw [← h.2]
    exact Nat.lt_succ_self _
  | case3 => simp at h
  | case4 =>
    rename_i h' ih
    have := ih h'
    simp only [Except.ok.injEq, Prod.mk.injEq] at h
    rw [← h.2]
    simp only [List.length_cons]
    omega
  | case5 => simp at h
  | case6 =>
    simp only [Except.ok.injEq, Prod.mk.injEq] at h
    rw [← h.2]
    simp only [List.length_cons]
    omega
  | case7 => simp at h
  | case8 => simp at h

/-- A list of values between parentheses or brackets. -/
def literalList (ts : List Placed) : Except ParseError (Parsed (List Literal) ts) :=
  match ts with
  | [] => .error .unexpectedEnd
  | t :: rest =>
    let items := fun close =>
      match h : listItems close rest with
      | .ok (values, after) =>
        .ok ⟨values, after, Nat.lt_succ_of_lt (length_listItems h)⟩
      | .error e => .error e
    match t.token with
    | .openParen => items .closeParen
    | .openBracket => items .closeBracket
    | _ => .error t.unexpected

/-- What may follow a field. -/
def afterField (field : String) (ts : List Placed) :
    Except ParseError (Predicate × { rest : List Placed // rest.length ≤ ts.length }) :=
  match ts with
  | ⟨.operator _, _⟩ :: [] => .error .unexpectedEnd
  | ⟨.operator op, _⟩ :: ⟨.literal value, _⟩ :: rest =>
    (compareWith field op value).map fun p =>
      (p, ⟨rest, by simp only [List.length_cons]; omega⟩)
  | ⟨.operator _, _⟩ :: t :: _ => .error t.unexpected
  | ⟨.in, _⟩ :: rest =>
    (literalList rest).map fun list =>
      (.oneOf field list.value,
        ⟨list.rest, by have := list.shorter; simp only [List.length_cons]; omega⟩)
  | ⟨.not, _⟩ :: ⟨.in, _⟩ :: rest =>
    (literalList rest).map fun list =>
      (.negation (.oneOf field list.value),
        ⟨list.rest, by have := list.shorter; simp only [List.length_cons]; omega⟩)
  | ts => (compareWith field .equals (.boolean true)).map fun p => (p, ⟨ts, Nat.le_refl _⟩)

/-- What must follow a literal: an operator and a field. -/
def afterLiteral (value : Literal) (ts : List Placed) :
    Except ParseError (Parsed Predicate ts) :=
  match ts with
  | [] => .error .unexpectedEnd
  | ⟨.operator _, _⟩ :: [] => .error .unexpectedEnd
  | ⟨.operator op, _⟩ :: ⟨.identifier name, _⟩ :: rest =>
    match fieldName name with
    | .error e => .error e
    | .ok field =>
      (compareWith field op.swap value).map fun p =>
        ⟨p, rest, by simp only [List.length_cons]; omega⟩
  | ⟨.operator _, _⟩ :: t :: _ => .error t.unexpected
  | t :: _ => .error t.unexpected

mutual

/-- A chain of conjunctions joined by `or`. -/
def disjunction (ts : List Placed) : Except ParseError (Parsed Predicate ts) :=
  match conjunction ts with
  | .error e => .error e
  | .ok ⟨first, rest, h⟩ =>
    match moreDisjuncts rest with
    | .error e => .error e
    | .ok ⟨more, rest', h'⟩ => .ok ⟨chain .any (first :: more), rest', by omega⟩
termination_by (ts.length, 4)

/-- The parts of a disjunction behind the first one. -/
def moreDisjuncts (ts : List Placed) : Except ParseError (ParsedMany Predicate ts) :=
  match ts with
  | ⟨.or, _⟩ :: rest =>
    match conjunction rest with
    | .error e => .error e
    | .ok ⟨first, rest', h⟩ =>
      match moreDisjuncts rest' with
      | .error e => .error e
      | .ok ⟨more, rest'', h'⟩ =>
        .ok ⟨first :: more, rest'', by simp only [List.length_cons]; omega⟩
  | ts => .ok ⟨[], ts, Nat.le_refl _⟩
termination_by (ts.length, 0)

/-- A chain of negations joined by `and`. -/
def conjunction (ts : List Placed) : Except ParseError (Parsed Predicate ts) :=
  match negated ts with
  | .error e => .error e
  | .ok ⟨first, rest, h⟩ =>
    match moreConjuncts rest with
    | .error e => .error e
    | .ok ⟨more, rest', h'⟩ => .ok ⟨chain .all (first :: more), rest', by omega⟩
termination_by (ts.length, 3)

/-- The parts of a conjunction behind the first one. -/
def moreConjuncts (ts : List Placed) : Except ParseError (ParsedMany Predicate ts) :=
  match ts with
  | ⟨.and, _⟩ :: rest =>
    match negated rest with
    | .error e => .error e
    | .ok ⟨first, rest', h⟩ =>
      match moreConjuncts rest' with
      | .error e => .error e
      | .ok ⟨more, rest'', h'⟩ =>
        .ok ⟨first :: more, rest'', by simp only [List.length_cons]; omega⟩
  | ts => .ok ⟨[], ts, Nat.le_refl _⟩
termination_by (ts.length, 0)

/-- Any number of `not`s before a primary predicate. -/
def negated (ts : List Placed) : Except ParseError (Parsed Predicate ts) :=
  match ts with
  | ⟨.not, _⟩ :: rest =>
    match negated rest with
    | .error e => .error e
    | .ok ⟨p, rest', h⟩ => .ok ⟨.negation p, rest', by simp only [List.length_cons]; omega⟩
  | ts => primary ts
termination_by (ts.length, 2)

/-- A predicate in parentheses, or a comparison. -/
def primary (ts : List Placed) : Except ParseError (Parsed Predicate ts) :=
  match ts with
  | [] => .error .unexpectedEnd
  | ⟨.openParen, _⟩ :: rest =>
    match disjunction rest with
    | .error e => .error e
    | .ok ⟨_, [], _⟩ => .error .unexpectedEnd
    | .ok ⟨p, t :: rest', h⟩ =>
      if t.token = .closeParen then
        .ok ⟨p, rest', by simp only [List.length_cons] at *; omega⟩
      else .error t.unexpected
  | ⟨.identifier name, _⟩ :: rest =>
    match fieldName name with
    | .error e => .error e
    | .ok field =>
      (afterField field rest).map fun (p, after) =>
        ⟨p, after.1, by have := after.2; simp only [List.length_cons]; omega⟩
  | ⟨.literal value, _⟩ :: rest =>
    (afterLiteral value rest).map fun parsed =>
      ⟨parsed.value, parsed.rest, by
        have := parsed.shorter; simp only [List.length_cons]; omega⟩
  | t :: _ => .error t.unexpected
termination_by (ts.length, 1)

end

/-- The predicate of a list of tokens. -/
def ofTokens (ts : List Placed) : Except ParseError Predicate :=
  match disjunction ts with
  | .error e => .error e
  | .ok ⟨p, [], _⟩ => .ok p
  | .ok ⟨_, t :: _, _⟩ => .error t.unexpected

/-- The predicate of a text. -/
def parse (text : String) : Except ParseError Predicate :=
  (tokenize text).bind ofTokens

end ObjectGraph.Predicate
