/-
# Texts behind other texts

Cutting looks at the characters that are left and at none before them; the byte at which they begin
only goes into the positions of tokens and errors.  So a text that stands behind some bytes is cut
into the same tokens, or refused for the same reason, that many bytes later.  A printed string is
read to its end by itself, whatever follows it, and what follows is then such a text.
-/
import ObjectGraph.Proofs.Predicate.Slices

namespace ObjectGraph.Predicate

variable {c : Char} {cs after : List Char} {position : Nat} {token : Token}

/-! ### Later positions -/

/-- The token some bytes later. -/
def Placed.shift (n : Nat) (t : Placed) : Placed := ⟨t.token, n + t.position⟩

/-- The error some bytes later; some errors are nowhere in particular. -/
def ParseError.shift (n : Nat) : ParseError → ParseError
  | unexpectedCharacter c position => unexpectedCharacter c (n + position)
  | unterminatedString position => unterminatedString (n + position)
  | invalidNumber text position => invalidNumber text (n + position)
  | unexpectedToken found position => unexpectedToken found (n + position)
  | unexpectedEnd => unexpectedEnd
  | nestedField reference => nestedField reference
  | nullComparison operator => nullComparison operator

/-- The tokens of a text, or what is wrong with it, if the text stands some bytes later. -/
def shifted (n : Nat) (cut : Except ParseError (List Placed)) : Except ParseError (List Placed) :=
  (cut.map (List.map (Placed.shift n))).mapError (ParseError.shift n)

lemma shifted_map_cons (n : Nat) (t : Placed) (cut : Except ParseError (List Placed)) :
    shifted n (cut.map (t :: ·)) = (shifted n cut).map (t.shift n :: ·) := by
  cases cut <;> rfl

/-! ### Cutting later -/

lemma readToken_shift (n position : Nat) (c : Char) (cs : List Char) :
    readToken (n + position) c cs = (readToken position c cs).mapError (ParseError.shift n) := by
  unfold readToken
  cases punctuation? c with
  | some => rfl
  | none =>
    dsimp only
    split_ifs
    · cases readOperator (c :: cs) <;> rfl
    · cases readString c cs <;> rfl
    · cases number? (c :: cs.takeWhile continuesNumber) <;> rfl
    · rfl
    · rfl

lemma tokensFrom_shift (n position : Nat) (cs : List Char) :
    tokensFrom (n + position) cs = shifted n (tokensFrom position cs) := by
  fun_induction tokensFrom position cs with
  | case1 position => exact tokensFrom_nil _
  | case2 position c rest hblank ih =>
    -- What is behind the blank begins later by the same number of bytes.
    rw [tokensFrom_blank hblank, Nat.add_assoc]
    exact ih
  | case3 position c rest hblank e hread =>
    have hshifted : readToken (n + position) c rest = .error (e.shift n) := by
      rw [readToken_shift, hread]
      rfl
    exact tokensFrom_refused (by simpa using hblank) hshifted
  | case4 position c rest hblank token after hread _ consumed ih =>
    have hshifted : readToken (n + position) c rest = .ok (token, after) := by
      rw [readToken_shift, hread]
      rfl
    rw [tokensFrom_token (by simpa using hblank) hshifted, Nat.add_assoc, ih, shifted_map_cons]
    rfl

/-! ### Printed strings -/

/-- A printed string is one token, and what follows is cut as if it stood alone, so many bytes
later. -/
lemma tokenize_string_append (s rest : String) :
    tokenize ((Literal.string s).text ++ rest) =
      (shifted (Literal.string s).text.utf8ByteSize (tokenize rest)).map
        (⟨.literal (.string s), 0⟩ :: ·) := by
  have hread := readToken_string 0 s rest.toList
  have hsize : (Literal.string s).text.utf8ByteSize
      = byteBehind 0 '\'' (Text.escapeSingle s.toList ++ '\'' :: rest.toList) rest.toList := by
    rw [byteBehind_eq (List.append_cons ..), ← String.ofList_toList (s := (Literal.string s).text),
      utf8ByteSize_ofList, text_string, byteLength, Nat.zero_add]
  have hchars : ((Literal.string s).text ++ rest).toList
      = '\'' :: (Text.escapeSingle s.toList ++ '\'' :: rest.toList) := by
    rw [String.toList_append, text_string, List.cons_append, List.append_assoc,
      List.singleton_append]
  rw [tokenize, tokenize, hchars, tokensFrom_token (by decide) hread, hsize, byteBehind,
    Nat.zero_add]
  exact congrArg (Except.map _) (tokensFrom_shift _ 0 rest.toList)

end ObjectGraph.Predicate
