/-
# The lexemes of a written value

How a text is cut into lexemes when it is made of pieces: a piece spells certain lexemes when,
whatever stops it, a text that begins with it is cut into these lexemes first.  Only numerals
have to be stopped; everything else in a written value ends by itself.

The text of a value spells the lexemes of the value, on one line or on many.  Doubles are left
out here, since the nearest double is not always what is read.
-/
import ObjectGraph.Json.Lexeme
import ObjectGraph.Json.Writer
import ObjectGraph.Proofs.Double.Shortest
import Mathlib.Tactic.Lemma

namespace ObjectGraph.Json

variable {c d : Char} {cs rest : List Char} {p start : Position} {scan scan' scan'' : Scan}
  {lexemes lexemes' : List Lexeme} {read : List Char} {ok ok' : List Char → Prop}

/-! ### Scanning a piece -/

/-- The lexemes of a text, wherever they begin. -/
abbrev bare (ls : List Located) : List Lexeme :=
  ls.map Located.lexeme

/-- From a scan on, a piece is cut into certain lexemes wherever it stands, and another scan is
under way behind it, if what follows the piece is as it should be. -/
def Runs (ok : List Char → Prop) (scan : Scan) (piece : List Char) (lexemes : List Lexeme)
    (scan' : Scan) : Prop :=
  ∀ p, ∃ ls q, bare ls = lexemes ∧ ∀ rest, ok rest → lexemesFrom scan p (piece ++ rest) =
    (ls ++ (lexemesFrom scan' q rest).1, (lexemesFrom scan' q rest).2)

lemma runs_nil : Runs ok scan [] [] scan := fun p => ⟨[], p, rfl, fun _ _ => rfl⟩

lemma Runs.cons (h : ∀ p, ∃ ls scan', scan.step p c = .next ls scan' ∧ bare ls = lexemes ∧
    Runs ok scan' cs lexemes' scan'') : Runs ok scan (c :: cs) (lexemes ++ lexemes') scan'' := by
  intro p
  obtain ⟨ls, scan', hstep, hls, hrest⟩ := h p
  obtain ⟨ls', q, hls', hrest⟩ := hrest (p.advance c)
  refine ⟨ls ++ ls', q, by rw [bare, List.map_append, ← hls, ← hls'], fun rest hok => ?_⟩
  simp only [List.cons_append, lexemesFrom, hstep, hrest rest hok, List.append_assoc]

/-- A character that completes nothing. -/
lemma Runs.enter (h : ∀ p, ∃ scan', scan.step p c = .next [] scan' ∧
    Runs ok scan' cs lexemes scan'') : Runs ok scan (c :: cs) lexemes scan'' :=
  .cons fun p =>
    let ⟨scan', hstep, hrest⟩ := h p
    ⟨[], scan', hstep, rfl, hrest⟩

lemma Runs.silent (scan' : Scan) (h : ∀ p, scan.step p c = .next [] scan')
    (h' : Runs ok scan' cs lexemes scan'') : Runs ok scan (c :: cs) lexemes scan'' :=
  .enter fun p => ⟨scan', h p, h'⟩

/-- A character that completes a lexeme. -/
lemma Runs.last {lexeme : Lexeme}
    (h : ∀ p, ∃ start, scan.step p c = .next [⟨start, lexeme⟩] scan') :
    Runs ok scan [c] [lexeme] scan' := by
  have hstep : ∀ p, ∃ ls scan'', scan.step p c = .next ls scan'' ∧ bare ls = [lexeme] ∧
      Runs ok scan'' [] [] scan' := fun p =>
    let ⟨start, hstep⟩ := h p
    ⟨[⟨start, lexeme⟩], scan', hstep, rfl, runs_nil⟩
  exact .cons hstep

lemma Runs.trans {cs' : List Char} (h : Runs ok scan cs lexemes scan')
    (h' : Runs ok' scan' cs' lexemes' scan'') (hok : ∀ rest, ok' rest → ok (cs' ++ rest)) :
    Runs ok' scan (cs ++ cs') (lexemes ++ lexemes') scan'' := by
  intro p
  obtain ⟨ls, q, hls, h⟩ := h p
  obtain ⟨ls', r, hls', h'⟩ := h' q
  refine ⟨ls ++ ls', r, by rw [bare, List.map_append, ← hls, ← hls'], fun rest hrest => ?_⟩
  rw [List.append_assoc, h _ (hok rest hrest), h' rest hrest, List.append_assoc]

/-- Nothing is asked of what follows. -/
abbrev Always (_ : List Char) : Prop := True

/-- A piece that ends by itself may stand before any other. -/
lemma Runs.before {cs' : List Char} (h : Runs Always scan cs lexemes scan')
    (h' : Runs ok scan' cs' lexemes' scan'') :
    Runs ok scan (cs ++ cs') (lexemes ++ lexemes') scan'' :=
  h.trans h' fun _ _ => trivial

lemma Runs.through {cs' : List Char} (h : Runs Always scan cs [] scan')
    (h' : Runs ok scan' cs' lexemes scan'') : Runs ok scan (cs ++ cs') lexemes scan'' :=
  h.before h'

/-! ### Strings -/

/-- A string under way in which nothing was wrong. -/
abbrev plainString (start : Position) (read : List Char) : Scan :=
  .string start .plain none read

lemma runs_escape (hu : d ≠ 'u') (hd : escaped? d = some c) :
    Runs ok (plainString start read) ['\\', d] [] (plainString start (c :: read)) :=
  .silent (.string start .escape none read) (fun _ => rfl) <|
    .silent _ (fun p => by simp [Scan.step, stepString, stepEscape, hu, hd]) runs_nil

lemma hexValue?_digitChar : ∀ n < 16, hexValue? (Nat.digitChar n) = some n := by decide

lemma utf8Size_digitChar : ∀ n < 16, (Nat.digitChar n).utf8Size = 1 := by decide

/-- A control character without a letter of its own is written with four hexadecimal digits. -/
lemma runs_code (hc : c.toNat < 0x20) :
    Runs ok (plainString start read)
      ['\\', 'u', '0', '0', Nat.digitChar (c.toNat / 16), Nat.digitChar (c.toNat % 16)] []
      (plainString start (c :: read)) := by
  have hhigh := hexValue?_digitChar (c.toNat / 16) (by omega)
  have hlow := hexValue?_digitChar (c.toNat % 16) (by omega)
  have hhigh' := utf8Size_digitChar (c.toNat / 16) (by omega)
  have hlow' := utf8Size_digitChar (c.toNat % 16) (by omega)
  -- a control code is not half of a pair, so the fourth digit completes a character
  have hcode : 16 * (c.toNat / 16) + c.toNat % 16 = c.toNat := by omega
  refine .silent (.string start .escape none read) (fun _ => rfl) <|
    .silent (.string start (.hex 0 (some 0) none) none read) (fun _ => rfl) <|
    .silent (.string start (.hex 1 (some 0) none) none read) (fun _ => rfl) <|
    .silent (.string start (.hex 2 (some 0) none) none read) (fun _ => rfl) <|
    .silent (.string start (.hex 3 (some (c.toNat / 16)) none) none read) (fun _ => ?_) <|
    .silent _ (fun p => ?_) runs_nil
  · simp [Scan.step, stepString, hhigh, hhigh']
  · have hsurrogate : ¬(0xdc00 ≤ c.toNat ∧ c.toNat ≤ 0xdfff) := by omega
    have hlead : ¬(0xd800 ≤ c.toNat ∧ c.toNat ≤ 0xdbff) := by omega
    simp [Scan.step, stepString, hlow, hlow', hcode, stepCode, hsurrogate, hlead]

lemma runs_escapeChar (c : Char) :
    Runs ok (plainString start read) (escapeChar c) [] (plainString start (c :: read)) := by
  unfold escapeChar
  split
  · rename_i h
    obtain rfl | rfl := h <;> exact runs_escape (by decide) rfl
  iterate 5
    split
    · subst_vars
      exact runs_escape (by decide) rfl
  split
  · rename_i hc
    exact runs_code hc
  · rename_i hquote _ _ _ _ _ hc
    rw [not_or] at hquote
    exact .silent _ (fun p => by simp [Scan.step, stepString, stepPlain, hquote, hc]) runs_nil

lemma runs_escaped (cs : List Char) :
    Runs ok (plainString start read) (cs.flatMap escapeChar) []
      (plainString start (cs.reverse ++ read)) := by
  induction cs generalizing read with
  | nil => exact runs_nil
  | cons c rest ih =>
    rw [List.flatMap_cons, List.reverse_cons, List.append_assoc]
    exact (runs_escapeChar c).through ih

lemma runs_quote (s : String) : Runs ok .between (quote s).toList [.string s] .between := by
  rw [quote, String.toList_ofList]
  refine .enter fun p => ⟨plainString p [], rfl, (runs_escaped s.toList).through ?_⟩
  refine .last fun _ => ⟨p, ?_⟩
  simp [Scan.step, stepString, stepPlain, finishString]

/-! ### Words -/

lemma runs_ident {result : Lexeme} (hne : cs ≠ []) :
    Runs ok (.ident start cs result) cs [result] .between := by
  induction cs with
  | nil => exact absurd rfl hne
  | cons c rest ih =>
    cases rest with
    | nil =>
      exact .last fun _ => ⟨start, by simp [Scan.step]⟩
    | cons d rest => exact .silent _ (fun p => by simp [Scan.step]) (ih nofun)

lemma runs_null : Runs ok .between "null".toList [.null] .between :=
  .enter fun p => ⟨.ident p ['u', 'l', 'l'] .null, rfl, runs_ident nofun⟩

lemma runs_boolean (b : Bool) :
    Runs ok .between (if b then "true" else "false").toList [.boolean b] .between := by
  cases b with
  | false =>
    exact .enter fun p =>
      ⟨.ident p ['a', 'l', 's', 'e'] (.boolean false), rfl, runs_ident nofun⟩
  | true =>
    exact .enter fun p => ⟨.ident p ['r', 'u', 'e'] (.boolean true), rfl, runs_ident nofun⟩

/-! ### Pieces -/

/-- The characters that may follow a numeral in a written value. -/
def stopMarks : List Char := [',', '\n', ']', '\x7d']

/-- A numeral does not go on. -/
def Stops (rest : List Char) : Prop :=
  ∀ c ∈ rest.head?, c ∈ stopMarks

lemma stops_nil : Stops [] := nofun

lemma stops_cons (h : c ∈ stopMarks) : Stops (c :: rest) := by
  simpa [Stops] using h

/-- A text that begins with a piece is cut into the lexemes of the piece and those of the rest,
if the rest stops numerals. -/
abbrev Spells (piece : List Char) (lexemes : List Lexeme) : Prop :=
  Runs Stops .between piece lexemes .between

lemma stops_append {mark : Char} (h : cs.head? = some mark) (hm : mark ∈ stopMarks) :
    Stops (cs ++ rest) := by
  cases cs with
  | nil => cases h
  | cons c cs =>
    cases h
    exact stops_cons hm

/-- Any piece may stand before one that stops numerals. -/
lemma Spells.append {piece : List Char} {mark : Char} (h : Spells cs lexemes)
    (hp : Spells piece lexemes') (hhead : piece.head? = some mark) (hm : mark ∈ stopMarks) :
    Spells (cs ++ piece) (lexemes ++ lexemes') :=
  h.trans hp fun _ _ => stops_append hhead hm

/-! ### Numerals -/

/-- A numeral under way that is a whole number so far. -/
abbrev wholeNumeral (start : Position) (stage : NumeralStage) (ds : List Char) : Scan :=
  .numeral start stage ⟨false, ds, none, none⟩

lemma runs_digits {ds more : List Char} (h : ∀ d ∈ more, d.isDigit = true) :
    Runs ok (wholeNumeral start .whole ds) more [] (wholeNumeral start .whole (ds ++ more)) := by
  induction more generalizing ds with
  | nil =>
    rw [List.append_nil]
    exact runs_nil
  | cons d rest ih =>
    obtain ⟨hd, hrest⟩ := List.forall_mem_cons.1 h
    rw [List.append_cons]
    exact .silent _ (fun p => by simp [Scan.step, stepNumeral, hd]) (ih hrest)

lemma head_toDigits_ne_zero {n : Nat} (hn : n ≠ 0) : (Nat.toDigits 10 n).head? ≠ some '0' := by
  induction n using Nat.strongRecOn with
  | ind n ih =>
    by_cases hlt : n < 10
    · have hdigit : ∀ n < 10, n ≠ 0 → Nat.digitChar n ≠ '0' := by decide
      rw [Nat.toDigits_of_lt_base hlt, List.head?_cons]
      exact fun h => hdigit n hlt hn (Option.some.inj h)
    · have hhead := ih (n / 10) (by omega) (by omega)
      rw [Nat.toDigits_of_base_le (by decide) (Nat.le_of_not_lt hlt),
        List.head?_append_of_ne_nil _ Nat.toDigits_ne_nil]
      exact hhead

/-- A digit other than zero begins a whole number. -/
lemma begin_digit (hd : d.isDigit = true) (hzero : d ≠ '0') :
    begin p d = .next [] (wholeNumeral p .whole [d]) := by
  have hmark : ∀ mark : Char, mark.isDigit = false → d ≠ mark := fun mark hm he => by
    rw [he, hm] at hd
    cases hd
  simp (disch := decide) [begin, hmark, hzero, hd]

/-- The marks that may follow a numeral end it and begin something else. -/
lemma exists_begin (hc : c ∈ stopMarks) : c.isDigit = false ∧ c ≠ '.' ∧ c ≠ 'e' ∧ c ≠ 'E' ∧
    ∀ p, ∃ ls scan, begin p c = .next ls scan := by
  simp only [stopMarks, List.mem_cons, List.not_mem_nil, or_false] at hc
  obtain rfl | rfl | rfl | rfl := hc <;>
    exact ⟨by decide, by decide, by decide, by decide, fun p => ⟨_, _, rfl⟩⟩

/-- A whole number that is stopped is complete. -/
lemma runs_finish {stage : NumeralStage} {ds : List Char} {n : Number}
    (hstage : stage = .zero ∨ stage = .whole)
    (hn : Numeral.number? ⟨false, ds, none, none⟩ = some n) :
    Runs Stops (wholeNumeral start stage ds) [] [.number n] .between := by
  intro p
  refine ⟨[⟨start, .number n⟩], p, rfl, fun rest hs => ?_⟩
  have hfinish : finishNumeral start p ⟨false, ds, none, none⟩ = ⟨start, .number n⟩ := by
    rw [finishNumeral, hn]
  cases rest with
  | nil => obtain rfl | rfl := hstage <;> simp [lexemesFrom, Scan.finish, hfinish]
  | cons c rest =>
    obtain ⟨hdigit, hpoint, he, he', hbegin⟩ := exists_begin (hs c rfl)
    obtain ⟨ls, scan, hbegin⟩ := hbegin p
    have hnext : stepNumeral start p stage ⟨false, ds, none, none⟩ c =
        .next (⟨start, .number n⟩ :: ls) scan := by
      obtain rfl | rfl := hstage <;>
        simp [stepNumeral, hdigit, hpoint, he, he', hbegin, hfinish]
    simp [lexemesFrom, Scan.step, hnext, hbegin]

lemma number?_toDigits {n : Nat} (hn : n < UInt64.size) :
    Numeral.number? ⟨false, Nat.toDigits 10 n, none, none⟩ = some (.int n) := by
  simp [Numeral.number?, digitsValue_toDigits, hn]

lemma spells_number {n : Nat} (hn : n < UInt64.size) :
    Spells (numberText (.int n)).toList [.number (.int n)] := by
  have hnumber := number?_toDigits hn
  have htext : (numberText (.int n)).toList = Nat.toDigits 10 n := by simp [numberText, Int.repr]
  rw [htext]
  -- no digit may come behind a leading zero
  by_cases hzero : n = 0
  · subst hzero
    exact .enter fun p => ⟨wholeNumeral p .zero ['0'], rfl, runs_finish (.inl rfl) hnumber⟩
  · have hhead := head_toDigits_ne_zero hzero
    have hds : ∀ d ∈ Nat.toDigits 10 n, d.isDigit = true := fun _ => isDigit_toDigits
    cases hdigits : Nat.toDigits 10 n with
    | nil => exact absurd hdigits Nat.toDigits_ne_nil
    | cons d ds =>
      rw [hdigits] at hhead hds hnumber
      obtain ⟨hd, hds⟩ := List.forall_mem_cons.1 hds
      refine .enter fun p => ⟨wholeNumeral p .whole [d], ?_, ?_⟩
      · exact begin_digit hd fun h => hhead (congrArg some h)
      · rw [← List.append_nil ds]
        exact (runs_digits hds).through (runs_finish (.inr rfl) hnumber)

/-! ### Lists of pieces -/

lemma runs_spaces (n : Nat) : Runs ok .between (List.replicate n ' ') [] .between := by
  induction n with
  | zero => exact runs_nil
  | succ n ih => exact .silent _ (fun _ => rfl) ih

lemma runs_newline (level : Nat) : Runs ok .between (newline level).toList [] .between := by
  have htext : (newline level).toList = '\n' :: List.replicate (2 * level) ' ' := by
    simp [newline]
  rw [htext]
  exact .silent _ (fun _ => rfl) (runs_spaces _)

lemma head_newline (level : Nat) (text : String) :
    (newline level ++ text).toList.head? = some '\n' := by
  simp [newline]

/-- The lexemes of several values with commas between them. -/
def separated : List (List Lexeme) → List Lexeme
  | [] => []
  | first :: others => first ++ others.flatMap (.comma :: ·)

/-- Texts that spell the lexemes of values. -/
abbrev SpellAll (parts : List String) (spellings : List (List Lexeme)) : Prop :=
  List.Forall₂ (fun part spelling => Spells part.toList spelling) parts spellings

variable {parts : List String} {spellings : List (List Lexeme)}

lemma spells_intercalate {separator : String} (hhead : separator.toList.head? = some ',')
    (hsep : Runs Always .between separator.toList [.comma] .between)
    (h : SpellAll parts spellings) :
    Spells (separator.intercalate parts).toList (separated spellings) := by
  induction h with
  | nil => exact runs_nil
  | @cons part spelling parts spellings hpart hrest ih =>
    cases hrest with
    | nil =>
      rw [String.intercalate_singleton, separated, List.flatMap_nil, List.append_nil]
      exact hpart
    | @cons next spelling' parts spellings =>
      have hspelling : separated (spelling :: spelling' :: spellings) =
          spelling ++ ([.comma] ++ separated (spelling' :: spellings)) := by simp [separated]
      rw [String.intercalate_cons_cons, String.append_assoc, String.toList_append,
        String.toList_append, hspelling]
      exact hpart.append (hsep.before ih) (by rw [List.head?_append, hhead]; rfl) (by decide)

/-- A character that is a lexeme by itself. -/
lemma runs_single {lexeme : Lexeme} (h : ∀ p, begin p c = .next [⟨p, lexeme⟩] .between) :
    Runs ok .between [c] [lexeme] .between :=
  .last fun p => ⟨p, h p⟩

lemma spells_between {before inner after : String} {first last : Lexeme} {mark : Char}
    (hbefore : Runs Always .between before.toList [first] .between)
    (hinner : Spells inner.toList lexemes)
    (hafter : Runs Stops .between after.toList [last] .between)
    (hhead : after.toList.head? = some mark) (hm : mark ∈ stopMarks) :
    Spells (before ++ inner ++ after).toList ([first] ++ (lexemes ++ [last])) := by
  rw [String.append_assoc, String.toList_append, String.toList_append]
  exact hbefore.before (hinner.append hafter hhead hm)

/-- What is enclosed in brackets spells their lexemes around its own. -/
lemma spells_enclose {opening closing : String} {first last : Lexeme} {mark : Char}
    {level : Option Nat} (hopen : ∀ {ok}, Runs ok .between opening.toList [first] .between)
    (hclose : ∀ {ok}, Runs ok .between closing.toList [last] .between)
    (hhead : closing.toList.head? = some mark) (hm : mark ∈ stopMarks)
    (h : SpellAll parts spellings) :
    Spells (enclose opening closing level parts).toList
      ([first] ++ (separated spellings ++ [last])) := by
  match level, parts, spellings, h with
  | _, [], [], .nil =>
    rw [enclose, String.toList_append]
    exact hopen.before hclose
  | none, _ :: _, _ :: _, h =>
    have hcomma : Runs Always .between [','] [.comma] .between := runs_single fun _ => rfl
    exact spells_between hopen (spells_intercalate rfl hcomma h) hclose hhead hm
  | some level, part :: parts, _ :: _, h =>
    have htext : enclose opening closing (some level) (part :: parts) =
        (opening ++ newline (level + 1))
          ++ ("," ++ newline (level + 1)).intercalate (part :: parts)
          ++ (newline level ++ closing) := by
      have hlast (text : String) :
          text ++ newline level ++ closing = text ++ (newline level ++ closing) :=
        String.append_assoc
      rw [enclose, hlast]
      nofun
    have hbefore : Runs Always .between (opening ++ newline (level + 1)).toList [first]
        .between := by
      rw [String.toList_append]
      exact Runs.before hopen (runs_newline _)
    have hcomma : Runs Always .between ("," ++ newline (level + 1)).toList [.comma] .between := by
      rw [String.toList_append]
      exact (runs_single fun _ => rfl).before (runs_newline _)
    have hafter : Spells (newline level ++ closing).toList [last] := by
      rw [String.toList_append]
      exact (runs_newline level).before hclose
    have hsep : ("," ++ newline (level + 1)).toList.head? = some ',' := by simp
    rw [htext]
    exact spells_between hbefore (spells_intercalate hsep hcomma h) hafter (head_newline _ _)
      (by decide)

/-! ### Values -/

/-- A value whose numbers are whole numbers of 64 bits and in which there is room for `room`
arrays and objects inside each other at most. -/
inductive Readable : Nat → Json → Prop
  | null {room} : Readable room .null
  | boolean {room b} : Readable room (.boolean b)
  | int {room} {n : Nat} : n < UInt64.size → Readable room (.int n)
  | string {room s} : Readable room (.string s)
  | array {room items} : (∀ item ∈ items, Readable room item) → Readable (room + 1) (.array items)
  | object {room members} : (∀ member ∈ members, Readable room member.2) →
      Readable (room + 1) (.object members)

mutual

/-- The lexemes of a value. -/
def spelling : Json → List Lexeme
  | null => [.null]
  | boolean b => [.boolean b]
  | number n => [.number n]
  | string s => [.string s]
  | array items => [.openList] ++ (separated (itemSpellings items) ++ [.closeList])
  | object members => [.openObject] ++ (separated (memberSpellings members) ++ [.closeObject])

/-- The spellings of the items of a list. -/
def itemSpellings : List Json → List (List Lexeme)
  | [] => []
  | item :: rest => spelling item :: itemSpellings rest

/-- The spellings of members, each with its name and a colon in front. -/
def memberSpellings : List (String × Json) → List (List Lexeme)
  | [] => []
  | (name, value) :: rest =>
    ([.string name] ++ ([.colon] ++ spelling value)) :: memberSpellings rest

end

lemma spellAll_items {items : List Json} {level : Option Nat}
    (h : ∀ item ∈ items, Spells (item.write level).toList item.spelling) :
    SpellAll (writeItems level items) (itemSpellings items) := by
  induction items with
  | nil => exact .nil
  | cons item rest ih =>
    obtain ⟨hitem, hrest⟩ := List.forall_mem_cons.1 h
    exact .cons hitem (ih hrest)

lemma spellAll_members {members : List (String × Json)} {level : Option Nat}
    (h : ∀ member ∈ members, Spells (member.2.write level).toList member.2.spelling) :
    SpellAll (writeMembers level members) (memberSpellings members) := by
  induction members with
  | nil => exact .nil
  | cons member rest ih =>
    obtain ⟨hmember, hrest⟩ := List.forall_mem_cons.1 h
    refine .cons ?_ (ih hrest)
    rw [String.toList_append, String.toList_append, List.append_assoc]
    have hcolon : Runs Always .between (if level.isSome then ": " else ":").toList [.colon]
        .between := by
      split
      · exact (runs_single fun _ => rfl).before (runs_spaces 1)
      · exact runs_single fun _ => rfl
    exact (runs_quote _).before (hcolon.before hmember)

/-- The text of a value spells its lexemes. -/
lemma Readable.spells {room : Nat} {v : Json} (h : Readable room v) :
    ∀ level, Spells (v.write level).toList v.spelling := by
  induction h with
  | null => exact fun _ => runs_null
  | boolean => exact fun _ => runs_boolean _
  | int hn => exact fun _ => spells_number hn
  | string => exact fun _ => runs_quote _
  | array _ ih =>
    intro level
    rw [write]
    exact spells_enclose (runs_single fun _ => rfl) (runs_single fun _ => rfl) rfl (by decide)
      (spellAll_items fun item hm => ih item hm _)
  | object _ ih =>
    intro level
    rw [write]
    exact spells_enclose (runs_single fun _ => rfl) (runs_single fun _ => rfl) rfl (by decide)
      (spellAll_members fun member hm => ih member hm _)

end ObjectGraph.Json
