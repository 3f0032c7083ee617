/-
# Which predicates are read back

A predicate is read as itself from its own text exactly if it is in normal form, the name of every
field is a word that means nothing else, and every double is written without a minus behind its
sign.

That no other predicate is read back is seen from the tokens of its text.  A field without a dot
may be cut into whatever it looks like, but no name among the tokens has a dot then, so that the
names that the reader finds are the fields themselves.  Once the fields are known to be words, the
doubles among the tokens can only come from doubles, and a double that is not legible is read as a
name or not at all.
-/
import ObjectGraph.Proofs.Predicate.Printing

namespace ObjectGraph.Predicate

variable {Q : Token → Prop} {c : Char} {a b cs : List Char} {p : Predicate} {ps : List Predicate}

/-! ### The tokens of a piece -/

/-- Whatever stops a piece, a text that begins with it is cut only if the rest is, and the tokens
that stand before those of the rest have a property. -/
def Yields (Q : Token → Prop) (piece : List Char) : Prop :=
  ∀ position rest ts, Stops rest → tokensFrom position (piece ++ rest) = .ok ts →
    ∃ position' ts', tokensFrom position' rest = .ok ts' ∧ ∀ t ∈ bare ts, Q t ∨ t ∈ bare ts'

lemma Spells.yields {tokens : List Token} (h : Spells cs tokens) (hq : ∀ t ∈ tokens, Q t) :
    Yields Q cs := by
  intro position rest ts hs hts
  obtain ⟨position', h⟩ := h position rest hs
  rw [hts] at h
  obtain ⟨ts', hts', hbare⟩ := map_eq_ok.1 h.symm
  refine ⟨position', ts', hts', fun t ht => ?_⟩
  rw [← hbare] at ht
  exact (List.mem_append.1 ht).imp_left (hq t)

namespace Yields

/-- A piece that is a whole text. -/
lemma of_mem {ts : List Placed} {t : Token} (h : Yields Q cs) (hts : tokensFrom 0 cs = .ok ts)
    (ht : t ∈ bare ts) : Q t := by
  obtain ⟨position, ts', hts', hall⟩ := h 0 [] ts stops_nil (by rwa [List.append_nil])
  rw [tokensFrom_nil] at hts'
  cases hts'
  exact (hall t ht).resolve_right nofun

lemma append (ha : Yields Q a) (hb : Yields Q (c :: b)) (hc : c ∈ stopMarks) :
    Yields Q (a ++ c :: b) := by
  intro position rest ts hs hts
  rw [List.append_assoc] at hts
  obtain ⟨between, us, hus, hall⟩ := ha position (c :: b ++ rest) ts (stops_cons hc) hts
  obtain ⟨position', ts', hts', hall'⟩ := hb between rest us hs hus
  exact ⟨position', ts', hts', fun t ht => (hall t ht).elim .inl (hall' t)⟩

lemma afterBlank (hb : Yields Q b) : Yields Q (' ' :: b) := by
  intro position rest ts hs hts
  rw [List.cons_append, tokensFrom_blank (by decide)] at hts
  exact hb _ rest ts hs hts

/-- A character that is a token by itself. -/
lemma cons {token : Token} (hb : Yields Q b) (hc : Text.isWhitespace c = false)
    (hr : ∀ position rest, readToken position c rest = .ok (token, rest)) (hq : Q token) :
    Yields Q (c :: b) := by
  intro position rest ts hs hts
  obtain ⟨token', after, between, us, hread, hus, hbare⟩ := exists_readToken hc hts
  cases (hr position (b ++ rest)).symm.trans hread
  obtain ⟨position', ts', hts', hall⟩ := hb between rest us hs hus
  refine ⟨position', ts', hts', fun t ht => ?_⟩
  rw [hbare] at ht
  rcases List.mem_cons.1 ht with rfl | ht
  · exact .inl hq
  · exact hall t ht

lemma blank (ha : Yields Q a) (hb : Yields Q b) : Yields Q (a ++ ' ' :: b) :=
  ha.append hb.afterBlank (by decide)

end Yields

/-! ### Fields -/

/-- A token that is no name with a dot. -/
def Undotted (t : Token) : Prop :=
  ∀ name, t = .identifier name → '.' ∉ name.toList

lemma dropWhile_append {rest : List Char} {f : Char → Bool}
    (hrest : ∀ d ∈ rest.head?, f d = false) :
    (cs ++ rest).dropWhile f = cs.dropWhile f ++ rest := by
  induction cs with
  | nil => cases rest <;> simp_all
  | cons c cs ih =>
    rw [List.cons_append, List.dropWhile_cons, List.dropWhile_cons]
    split
    · exact ih
    · rfl

/-- A token of a field leaves the end of the field. -/
lemma readToken_field {position : Nat} {token : Token} {rest after : List Char}
    (hcs : ∀ d ∈ c :: cs, continuesWord d = true) (hdot : '.' ∉ c :: cs) (hs : Stops rest)
    (h : readToken position c (cs ++ rest) = .ok (token, after)) :
    Undotted token ∧ ∃ cs', cs' <:+ cs ∧ after = cs' ++ rest := by
  obtain ⟨hc, hcs⟩ := List.forall_mem_cons.1 hcs
  obtain ⟨hpunctuation, hoperator, hquote⟩ :=
    of_not_mem_otherMarks (not_mem_otherMarks hc (by decide))
  rw [readToken, hpunctuation] at h
  simp only [if_neg hoperator, if_neg hquote] at h
  split at h
  · split at h
    · obtain ⟨rfl, rfl⟩ := Prod.mk.inj (Except.ok.inj h)
      exact ⟨by rintro _ ⟨⟩, _, List.dropWhile_suffix _, dropWhile_append
        (hs.head?_eq_false (by decide))⟩
    · cases h
  split at h
  · obtain ⟨htake, hdrop⟩ := span_append hcs (hs.head?_eq_false (by decide))
    obtain ⟨rfl, rfl⟩ := Prod.mk.inj (Except.ok.inj h)
    rw [htake, hdrop]
    refine ⟨fun name hname => ?_, [], List.nil_suffix, rfl⟩
    rw [← eq_of_wordToken hname, String.toList_ofList]
    exact hdot
  · cases h

/-- A field without a dot yields no name with one, whatever it is cut into. -/
lemma yields_field (hcs : ∀ d ∈ cs, continuesWord d = true) (hdot : '.' ∉ cs) :
    Yields Undotted cs := by
  induction hlen : cs.length using Nat.strong_induction_on generalizing cs with
  | h length ih =>
    subst hlen
    intro position rest ts hs hts
    cases cs with
    | nil => exact ⟨position, ts, hts, fun t ht => .inr ht⟩
    | cons c cs =>
      cases hblank : Text.isWhitespace c with
      | true =>
        rw [List.cons_append, tokensFrom_blank hblank] at hts
        exact ih cs.length (Nat.lt_succ_self _) (fun d hd => hcs d (List.mem_cons_of_mem _ hd))
          (fun hd => hdot (List.mem_cons_of_mem _ hd)) rfl _ rest ts hs hts
      | false =>
        obtain ⟨token, after, between, us, hread, hus, hbare⟩ := exists_readToken hblank hts
        obtain ⟨hq, cs', hsuffix, rfl⟩ := readToken_field hcs hdot hs hread
        have hmem : ∀ d ∈ cs', d ∈ c :: cs := fun d hd => List.mem_cons_of_mem _ (hsuffix.mem hd)
        obtain ⟨position', ts', hts', hall⟩ := ih cs'.length
          (Nat.lt_succ_of_le hsuffix.length_le) (fun d hd => hcs d (hmem d hd))
          (fun hd => hdot (hmem _ hd)) rfl between rest us hs hus
        refine ⟨position', ts', hts', fun t ht => ?_⟩
        rw [hbare] at ht
        rcases List.mem_cons.1 ht with rfl | ht
        · exact .inl hq
        · exact hall t ht

/-! ### Doubles -/

/-- A token that is no double but a legible one. -/
def Legibly (t : Token) : Prop :=
  ∀ x, t = .literal (.float x) → Legible x

/-- A finite double that is not legible is not read at all: what stands in front of the minus of its
exponent is no number. -/
lemma yields_illegible {x : Double} (hfinite : x.isFinite = true) (hx : ¬ Legible x) :
    Yields Q (x.render Double.plainStyle).toList := by
  obtain ⟨n, after, hmarked, hopen, htext⟩ := exists_open hfinite hx
  obtain ⟨c, cs, hcs, hc, hcontinues⟩ := n.exists_text hmarked
  obtain ⟨d, ds, hword, hbegins⟩ := exists_number x.negative hc hcontinues
  have hnumber : number? (d :: ds) = none := by
    have hmark : (sign x.negative ++ n.text).any isMark = true := by
      rw [List.any_append, n.any_isMark hmarked, Bool.or_true]
    rw [← hword, ← hcs, number?_eq, if_pos hmark, n.double?_text hmarked, if_pos hopen]
    rfl
  have hpiece : (x.render Double.plainStyle).toList = d :: (ds ++ '-' :: after) := by
    rw [toList_float, htext, ← List.append_assoc, hcs, hword, List.cons_append]
  intro position rest ts _ hts
  rw [hpiece, List.cons_append, List.append_assoc] at hts
  obtain ⟨token, after', -, -, hread, -⟩ := exists_readToken hbegins.notBlank hts
  have hminus : continuesNumber '-' = false := by decide
  rw [readToken_number hbegins (by simp [hminus]), hnumber] at hread
  cases hread

/-- Infinity is read as a name, and minus infinity not at all. -/
lemma yields_infinite {x : Double} (hfinite : ¬ x.isFinite = true)
    (hinfinite : Q (.identifier "inf")) : Yields Q (x.render Double.plainStyle).toList := by
  have hzero : x.rank ≠ 0 := by
    intro hzero
    exact hfinite (decide_eq_true (by rw [hzero]; decide))
  have hinf : x.magnitudeText Double.plainStyle = "inf".toList := by
    rw [Double.magnitudeText, if_neg hzero, if_pos (by simp [hfinite])]
    rfl
  rw [toList_float, hinf]
  cases x.negative with
  | false =>
    have hspells : Spells "inf".toList [.identifier "inf"] := spells_word (by decide)
    exact hspells.yields (List.forall_mem_singleton.2 hinfinite)
  | true =>
    intro position rest ts _ hts
    obtain ⟨token, after, -, -, hread, -⟩ := exists_readToken (by decide) hts
    cases hread

lemma yields_float (hlegible : ∀ x, Legible x → Q (.literal (.float x)))
    (hinfinite : Q (.identifier "inf")) (x : Double) :
    Yields Q (x.render Double.plainStyle).toList := by
  by_cases hx : Legible x
  · exact (spells_float hx).yields (List.forall_mem_singleton.2 (hlegible x hx))
  by_cases hfinite : x.isFinite = true
  · exact yields_illegible hfinite hx
  · exact yields_infinite hfinite hinfinite

/-! ### Predicates -/

/-- A property that all tokens of texts of predicates have, except perhaps those of fields. -/
structure Common (Q : Token → Prop) : Prop where
  token : ∀ t, (∀ name, t ≠ .identifier name) → (∀ x, t ≠ .literal (.float x)) → Q t
  float : ∀ x : Double, Yields Q (x.render Double.plainStyle).toList

lemma common_undotted : Common Undotted where
  token t ht _ name hname := absurd hname (ht name)
  float := yields_float (fun _ _ => nofun) fun _ hname => by
    cases hname
    decide

lemma common_legibly : Common Legibly where
  token t _ ht x hx := absurd hx (ht x)
  float := yields_float (fun x hx y hy => by cases hy; exact hx) nofun

/-- A keyword or an operator between blanks. -/
lemma Yields.between {word : List Char} {t : Token} (ha : Yields Q a) (hb : Yields Q b)
    (hw : Spells word [t]) (ht : Q t) : Yields Q (a ++ ' ' :: (word ++ ' ' :: b)) :=
  ha.blank ((hw.yields (List.forall_mem_singleton.2 ht)).blank hb)

/-- Texts between which something is written. -/
lemma yields_intercalate {separator : String} (hjoin : ∀ a b : String, Yields Q a.toList →
      Yields Q b.toList → Yields Q (a ++ separator ++ b).toList) :
    ∀ texts : List String, (∀ t ∈ texts, Yields Q t.toList) →
      Yields Q (separator.intercalate texts).toList
  | [], _ => spells_nil.yields nofun
  | [_], h => by
    rw [String.intercalate_singleton]
    exact h _ List.mem_cons_self
  | _ :: next :: rest, h => by
    obtain ⟨hfirst, hrest⟩ := List.forall_mem_cons.1 h
    rw [String.intercalate_cons_cons]
    exact hjoin _ _ hfirst (yields_intercalate hjoin (next :: rest) hrest)

section Common

variable (hq : Common Q)
include hq

lemma Yields.openParen (hb : Yields Q b) : Yields Q ('(' :: b) :=
  hb.cons (by decide) (fun _ _ => rfl) (hq.token .openParen nofun nofun)

lemma Yields.closeParen (ha : Yields Q a) : Yields Q (a ++ [')']) := by
  have hnil : Yields Q [] := spells_nil.yields nofun
  exact ha.append (hnil.cons (by decide) (fun _ _ => rfl) (hq.token .closeParen nofun nofun))
    (by decide)

lemma Yields.comma (ha : Yields Q a) (hb : Yields Q b) : Yields Q (a ++ ',' :: ' ' :: b) :=
  ha.append (hb.afterBlank.cons (by decide) (fun _ _ => rfl) (hq.token .comma nofun nofun))
    (by decide)

lemma yields_literal (value : Literal) : Yields Q value.text.toList := by
  by_cases hx : ∃ x, value = .float x
  · obtain ⟨x, rfl⟩ := hx
    exact hq.float x
  · have hspells := spells_literal value fun x hx' => absurd ⟨x, hx'⟩ hx
    refine hspells.yields (List.forall_mem_singleton.2 (hq.token _ nofun fun x hx' => ?_))
    exact hx ⟨x, Token.literal.inj hx'⟩

lemma yields_comparison {field : String} {op : ComparisonOperator} {value : Literal}
    (hf : Yields Q field.toList) : Yields Q (comparison field op value).text.toList := by
  have hyields := hf.between (yields_literal hq value) (spells_operator op)
    (hq.token _ nofun nofun)
  simpa [text] using hyields

lemma yields_oneOf {field : String} {values : List Literal} (hf : Yields Q field.toList) :
    Yields Q (oneOf field values).text.toList := by
  have hvalues : Yields Q (", ".intercalate (values.map Literal.text)).toList := by
    refine yields_intercalate (fun a b ha hb => ?_) _ fun t ht => ?_
    · simpa using ha.comma hq hb
    · obtain ⟨value, -, rfl⟩ := List.mem_map.1 ht
      exact yields_literal hq value
  have hyields := hf.between ((hvalues.closeParen hq).openParen hq) spells_in
    (hq.token .in nofun nofun)
  simpa [text] using hyields

lemma yields_guarded (h : Yields Q p.text.toList) : Yields Q (p.guarded p.text).toList := by
  cases hp : p.isCompound with
  | true =>
    rw [guarded_compound hp]
    simpa using (h.closeParen hq).openParen hq
  | false =>
    rw [guarded_simple hp]
    exact h

mutual

/-- The tokens of the text of a predicate have a common property if those of its fields do. -/
lemma yields_text : ∀ {p : Predicate}, (∀ test ∈ p.tests, Yields Q test.1.toList) →
    Yields Q p.text.toList
  | all ps, h => by
    refine yields_intercalate (fun a b ha hb => ?_) _ (yields_partTexts h)
    simpa using ha.between hb spells_and (hq.token .and nofun nofun)
  | any ps, h => by
    refine yields_intercalate (fun a b ha hb => ?_) _ (yields_partTexts h)
    simpa using ha.between hb spells_or (hq.token .or nofun nofun)
  | negation part, h => by
    have hnot := spells_not.yields (List.forall_mem_singleton.2 (hq.token .not nofun nofun))
    have hyields := hnot.blank (yields_guarded hq (yields_text (p := part) h))
    simpa [text] using hyields
  | comparison field op value, h => yields_comparison hq (h _ List.mem_cons_self)
  | oneOf field values, h => yields_oneOf hq (h _ List.mem_cons_self)
  | isNull field, h => by
    rw [text_isNull]
    exact yields_comparison hq (h _ List.mem_cons_self)

lemma yields_partTexts : ∀ {ps : List Predicate},
    (∀ test ∈ partTests ps, Yields Q test.1.toList) →
      ∀ t ∈ partTexts ps, Yields Q t.toList
  | [], _ => nofun
  | _ :: _, h => List.forall_mem_cons.2
    ⟨yields_guarded hq (yields_text fun test ht => h test (List.mem_append_left _ ht)),
      yields_partTexts fun test ht => h test (List.mem_append_right _ ht)⟩

end

end Common

/-! ### Reading back -/

variable {source : String}

/-- What is read is in normal form, and its tests occur among the tokens it is read from. -/
lemma exists_occurs (h : parse source = .ok p) : ∃ ts, tokenize source = .ok ts ∧ p.Normal ∧
    ∀ test ∈ p.tests, Occurs (bare ts) test := by
  obtain ⟨ts, d, hts, htokens, hd⟩ := exists_tree h
  obtain ⟨hnormal, hoccurs⟩ := d.derives hd
  rw [htokens] at hoccurs
  exact ⟨ts, hts, hnormal, hoccurs⟩

/-- The field that a word names is made of its characters. -/
lemma Names.continues {reference field : String} (hn : Names reference field)
    (hr : IsWord reference.toList) : ∀ c ∈ field.toList, continuesWord c = true := by
  rcases hn.2.2 with rfl | ⟨object, -, rfl⟩
  · exact hr.continues
  · intro c hc
    refine hr.continues c ?_
    rw [String.toList_append]
    exact List.mem_append_right _ hc

/-- A word without a dot names itself. -/
lemma Names.plain {reference field : String} {ts : List Placed} (hn : Names reference field)
    (hdot : '.' ∉ reference.toList) (hts : tokenize source = .ok ts)
    (hr : .identifier reference ∈ bare ts) : Plain field := by
  obtain ⟨hword, hidentifier⟩ := identifier_of_mem hts hr
  obtain rfl | ⟨object, -, rfl⟩ := hn.2.2
  · exact ⟨hword, hn.2.1, hidentifier⟩
  · exact absurd (by simp) hdot

lemma printable_of_parse_text (h : parse source = .ok p) (hback : parse p.text = .ok p) :
    ∀ test ∈ p.tests, Printable test := by
  obtain ⟨ts, hts, -, hoccurs⟩ := exists_occurs h
  obtain ⟨us, hus, -, hoccurs'⟩ := exists_occurs hback
  have hundotted : Yields Undotted p.text.toList := by
    refine yields_text common_undotted fun test ht => ?_
    obtain ⟨reference, hr, hn⟩ := (hoccurs test ht).named
    exact yields_field (hn.continues (identifier_of_mem hts hr).1) hn.2.1
  have hplain : ∀ test ∈ p.tests, Plain test.1 := by
    intro test ht
    obtain ⟨reference, hr, hn⟩ := (hoccurs' test ht).named
    exact hn.plain (hundotted.of_mem hus hr reference rfl) hus hr
  have hlegibly : Yields Legibly p.text.toList := by
    refine yields_text common_legibly fun test ht => ?_
    exact (hplain test ht).spells.yields (List.forall_mem_singleton.2 nofun)
  intro test ht
  exact ⟨hplain test ht, fun x hx =>
    hlegibly.of_mem hus ((hoccurs' test ht).floats x hx) x rfl⟩

/-- A predicate that was read is read back from its own text exactly if every field of it can
stand without the variable that was in front of it and every double is written without a minus in
its exponent. -/
theorem parse_text_eq_iff (h : parse source = .ok p) :
    parse p.text = .ok p ↔ ∀ test ∈ p.tests, Printable test := by
  refine ⟨printable_of_parse_text h, fun hprintable => ?_⟩
  obtain ⟨-, -, hnormal, -⟩ := exists_occurs h
  have hsays := says_text hnormal.expressible hprintable
  rw [hnormal.norm_eq] at hsays
  exact hsays.parse_eq

/-- Three halves. -/
def threeHalves : Double := ⟨false, 0x3ff8000000000000, by decide⟩

/-- The variable of a field is not printed, and a number in front of its operator is printed behind
it. -/
theorem parse_text_eq_iff_mirrored :
    parse "16 <= user.age and not rating == 1.5" =
        .ok (all [comparison "age" .greaterOrEqual (.integer 16),
          negation (comparison "rating" .equals (.float threeHalves))]) ∧
      parse (all [comparison "age" .greaterOrEqual (.integer 16),
          negation (comparison "rating" .equals (.float threeHalves))]).text =
        .ok (all [comparison "age" .greaterOrEqual (.integer 16),
          negation (comparison "rating" .equals (.float threeHalves))]) := by
  have hlegible : Legible threeHalves := by decide +kernel
  have hsixteen : Spells "16".toList [.literal (.integer 16)] := spells_integer 16
  have hage : Spells "user.age".toList [.identifier "user.age"] := spells_word (by decide)
  have hrating : Spells "rating".toList [.identifier "rating"] := spells_word (by decide)
  have hvalue : Spells "1.5".toList [.literal (.float threeHalves)] :=
    spells_number (c := '1') false (by decide) (by decide) (by decide +kernel)
  have hspells := (hsixteen.blank ((spells_operator .lessOrEqual).blank hage)).blank
    (spells_and.blank (spells_not.blank (hrating.blank ((spells_operator .equals).blank hvalue))))
  have hparse : parse "16 <= user.age and not rating == 1.5" =
      .ok (all [comparison "age" .greaterOrEqual (.integer 16),
        negation (comparison "rating" .equals (.float threeHalves))]) := by
    refine Says.parse_eq ⟨.last (.more
      (.primary (.atom (.flipped (.integer 16) .lessOrEqual "user.age")))
      (.last (.not (.primary (.atom (.comparison "rating" .equals (.float threeHalves))))))),
      hspells, _, _, ?_, ⟨_, ⟨_, ?_, rfl⟩, rfl⟩, rfl⟩
    · exact .flipped ⟨by decide, by decide, .inr ⟨"user", by decide, by decide⟩⟩ (.comparison nofun)
    · exact .comparison ⟨by decide, by decide, .inl rfl⟩ (.comparison nofun)
  refine ⟨hparse, (parse_text_eq_iff hparse).2 (List.forall_mem_cons.2
    ⟨⟨⟨by decide, by decide, by decide⟩, by simp⟩, List.forall_mem_singleton.2
      ⟨⟨by decide, by decide, by decide⟩, fun x hx => ?_⟩⟩)⟩
  obtain rfl : x = threeHalves := by simpa using hx
  exact hlegible

/-- The name of a field can be a keyword behind a variable, but not without one. -/
theorem parse_text_ne_keyword :
    parse "user.and == 1" = .ok (comparison "and" .equals (.integer 1)) ∧
      parse (comparison "and" .equals (.integer 1)).text ≠
        .ok (comparison "and" .equals (.integer 1)) := by
  have hfield : Spells "user.and".toList [.identifier "user.and"] := spells_word (by decide)
  have hone : Spells "1".toList [.literal (.integer 1)] := spells_integer 1
  have hparse : parse "user.and == 1" = .ok (comparison "and" .equals (.integer 1)) := by
    refine Says.parse_eq ⟨.last (.last (.primary (.atom (.comparison "user.and" .equals
      (.integer 1))))), hfield.blank ((spells_operator .equals).blank hone), ?_⟩
    exact .comparison ⟨by decide, by decide, .inr ⟨"user", by decide, by decide⟩⟩
      (.comparison nofun)
  refine ⟨hparse, fun hback => ?_⟩
  have hprintable := printable_of_parse_text hparse hback ("and", [.integer 1]) List.mem_cons_self
  exact absurd hprintable.field.identifier (by decide)

end ObjectGraph.Predicate
