/-
# Written values are read back

The document that is read from the text of a value holds the value.  Its lexemes are followed one
by one: a value is complete with its last lexeme, wherever it may begin, and is then put into the
innermost array or object that is open.  That there are not too many of these is what the room in
a value is for.
-/
import ObjectGraph.Proofs.Json.Holding
import ObjectGraph.Proofs.Json.Spelling

namespace ObjectGraph.Json

open Document (Holds)

variable {room : Nat} {expecting : Expecting} {frame : Frame} {frames : List Frame}
  {finish start : Position} {l : Located} {ls rest : List Located}

/-- Read on where something was completed or begun. -/
def Progress.resume (progress : Progress) (finish : Position) (rest : List Located) : Reading :=
  match progress with
  | .on expecting frames => readLexemes expecting frames finish rest
  | .stop document => ⟨document, none⟩

lemma readLexemes_cons (h : ∀ doc, expecting ≠ .nothing doc) :
    readLexemes expecting frames finish (l :: rest) =
      (readLexeme expecting frames l).resume finish rest := by
  cases expecting with
  | nothing doc => exact absurd rfl (h doc)
  | _ =>
    rw [readLexemes]
    · rfl
    · nofun

/-- Where a value may begin. -/
def Expecting.opens : Expecting → Prop
  | value | firstItem | item => True
  | _ => False

/-- A lexeme that closes no array is read as the beginning of a value where one may begin. -/
lemma readLexemes_opens (h : expecting.opens) (hl : l.lexeme ≠ .closeList) :
    readLexemes expecting frames finish (l :: rest) = (readValue l frames).resume finish rest := by
  rw [readLexemes_cons (by rintro doc rfl; exact h)]
  cases expecting with
  | value => rfl
  | firstItem | item =>
    cases hlexeme : l.lexeme with
    | closeList => exact absurd hlexeme hl
    | _ => simp [readLexeme, hlexeme]
  | _ => exact absurd h id

lemma not_isDeep (h : frames.length + (room + 1) ≤ depthLimit) : Frame.isDeep frames = false := by
  have hdrop : frames.drop (depthLimit - 1) = [] := List.drop_eq_nil_of_le (by omega)
  rw [Frame.isDeep, hdrop]
  rfl

/-- Lexemes between two others. -/
lemma exists_between {first last : Lexeme} {lexemes : List Lexeme}
    (h : bare ls = [first] ++ (lexemes ++ [last])) : ∃ l inner l', ls = l :: (inner ++ [l']) ∧
      l.lexeme = first ∧ bare inner = lexemes ∧ l'.lexeme = last := by
  rw [List.singleton_append] at h
  obtain ⟨l, ls, rfl, hl, h⟩ := List.map_eq_cons_iff.1 h
  obtain ⟨inner, ls, rfl, hinner, h⟩ := List.map_eq_append_iff.1 h
  obtain ⟨l', ls, rfl, hl', h⟩ := List.map_eq_cons_iff.1 h
  obtain rfl := List.map_eq_nil_iff.1 h
  exact ⟨l, inner, l', rfl, hl, hinner, hl'⟩

/-- The value is read in the lexemes that spell it, wherever a value may begin. -/
def Reads (room : Nat) (v : Json) : Prop :=
  ∀ {ls}, bare ls = v.spelling → ∀ expecting : Expecting, expecting.opens →
    ∀ frames : List Frame, frames.length + room ≤ depthLimit → ∃ doc, doc.Holds v ∧
      ∀ finish rest, readLexemes expecting frames finish (ls ++ rest) =
        (Progress.complete doc frames).resume finish rest

/-! ### Arrays -/

section Arrays

variable {items : List Json} {docs before : List Document}

/-- The items of an array behind the first one, each after a comma. -/
lemma exists_items (start : Position) (before : List Document)
    (h : ∀ item ∈ items, Reads room item)
    (hls : bare ls = (itemSpellings items).flatMap (.comma :: ·))
    (hroom : frames.length + (room + 1) ≤ depthLimit) : ∃ docs, HoldsItems docs items ∧
      ∀ finish rest,
        readLexemes .listCommaOrEnd (.list start before :: frames) finish (ls ++ rest) =
          readLexemes .listCommaOrEnd (.list start (docs.reverse ++ before) :: frames) finish
            rest := by
  -- items that were read are in the frame already, the last one first
  induction items generalizing ls before with
  | nil =>
    obtain rfl := List.map_eq_nil_iff.1 hls
    exact ⟨[], .nil, fun _ _ => rfl⟩
  | cons item others ih =>
    obtain ⟨hitem, hothers⟩ := List.forall_mem_cons.1 h
    rw [itemSpellings, List.flatMap_cons, List.cons_append] at hls
    obtain ⟨comma, ls, rfl, hcomma, hls⟩ := List.map_eq_cons_iff.1 hls
    obtain ⟨first, ls, rfl, hfirst, hls⟩ := List.map_eq_append_iff.1 hls
    obtain ⟨doc, hdoc, hread⟩ := hitem hfirst .item trivial
      (.list start before :: frames) (by simp only [List.length_cons]; omega)
    obtain ⟨docs, hdocs, hmore⟩ := ih (doc :: before) hothers hls
    refine ⟨doc :: docs, .cons hdoc hdocs, fun finish rest => ?_⟩
    rw [List.cons_append, readLexemes_cons (by nofun), List.append_assoc]
    simp only [readLexeme, hcomma, Progress.resume, hread, Progress.complete, Frame.expecting,
      Frame.add, hmore, List.reverse_cons, List.append_assoc, List.cons_append, List.nil_append]

/-- The last lexeme of an array completes it. -/
lemma closes_array (start : Position) (hdocs : HoldsItems docs items) (hl : l.lexeme = .closeList)
    (he : expecting = .firstItem ∨ expecting = .listCommaOrEnd)
    (hroom : frames.length + (room + 1) ≤ depthLimit) : ∃ doc, doc.Holds (.array items) ∧
      ∀ finish rest, readLexemes expecting (.list start docs.reverse :: frames) finish (l :: rest) =
        (Progress.complete doc frames).resume finish rest := by
  refine ⟨.list start false docs {}, .array hdocs, fun finish rest => ?_⟩
  rw [readLexemes_cons (by rintro doc rfl; simp at he)]
  obtain rfl | rfl := he <;>
    simp [readLexeme, hl, Progress.leave, Frame.close, not_isDeep hroom]

lemma reads_array (h : ∀ item ∈ items, Reads room item) : Reads (room + 1) (.array items) := by
  intro ls hls expecting he frames hroom
  obtain ⟨first, ls, last, rfl, hfirst, hls, hlast⟩ := exists_between hls
  have hopen (finish rest) : readLexemes expecting frames finish (first :: rest) =
      readLexemes .firstItem (.list first.start [] :: frames) finish rest := by
    rw [readLexemes_opens he (by rw [hfirst]; nofun), readValue, hfirst]
    rfl
  cases items with
  | nil =>
    obtain rfl := List.map_eq_nil_iff.1 hls
    obtain ⟨doc, hdoc, hclose⟩ := closes_array first.start .nil hlast (.inl rfl) hroom
    exact ⟨doc, hdoc, fun finish rest => (hopen _ _).trans (hclose finish rest)⟩
  | cons item others =>
    obtain ⟨hitem, hothers⟩ := List.forall_mem_cons.1 h
    obtain ⟨ls, more, rfl, hls, hmore⟩ := List.map_eq_append_iff.1 hls
    obtain ⟨inner, hinner, hread⟩ := hitem hls .firstItem trivial
      (.list first.start [] :: frames) (by simp only [List.length_cons]; omega)
    obtain ⟨docs, hdocs, hreadMore⟩ := exists_items first.start [inner]
      hothers hmore hroom
    obtain ⟨doc, hdoc, hclose⟩ := closes_array first.start (.cons hinner hdocs) hlast
      (.inr rfl) hroom
    refine ⟨doc, hdoc, fun finish rest => ?_⟩
    rw [← hclose finish rest]
    simp only [List.cons_append, List.append_assoc, hopen, hread, Progress.complete,
      Progress.resume, Frame.expecting, Frame.add, hreadMore, List.reverse_cons, List.nil_append]

end Arrays

/-! ### Objects -/

section Objects

variable {members : List (String × Json)} {docs : List (String × Document)} {r : OpenRecord}
  {name : String} {v : Json}

/-- A member is read where a name may come. -/
lemma exists_member (h : Reads room v) (hls : bare ls = [.string name] ++ ([.colon] ++ v.spelling))
    (he : expecting = .firstKey ∨ expecting = .key) (hr : r.flaw = none)
    (hroom : frames.length + (room + 1) ≤ depthLimit) : ∃ doc, doc.Holds v ∧
      ∃ r' : OpenRecord, r'.start = r.start ∧ r'.flaw = none ∧
        r'.members = (name, doc) :: r.members ∧
        ∀ finish rest, readLexemes expecting (.record r :: frames) finish (ls ++ rest) =
          readLexemes .objectCommaOrEnd (.record r' :: frames) finish rest := by
  obtain ⟨key, ls, rfl, hkey, hls⟩ := List.map_eq_cons_iff.1 hls
  obtain ⟨colon, ls, rfl, hcolon, hls⟩ := List.map_eq_cons_iff.1 hls
  obtain ⟨start, members, pending, sole, flaw⟩ := r
  obtain rfl : flaw = none := hr
  obtain ⟨doc, hdoc, hread⟩ := h hls .value trivial
    (.record ⟨start, members, name, sole, none⟩ :: frames)
    (by simp only [List.length_cons]; omega)
  refine ⟨doc, hdoc, ⟨start, (name, doc) :: members, name, sole, none⟩, rfl, rfl, rfl,
    fun finish rest => ?_⟩
  have hname : readLexeme expecting (.record ⟨start, members, pending, sole, none⟩ :: frames) key =
      .on .colon (.record ⟨start, members, name, sole, none⟩ :: frames) := by
    obtain rfl | rfl := he <;> simp [readLexeme, readFirstKey, readKey, hkey, Frame.name]
  rw [List.cons_append, readLexemes_cons (by rintro doc rfl; simp at he), hname, Progress.resume,
    List.cons_append, readLexemes_cons (by nofun)]
  simp only [readLexeme, hcolon, Progress.resume, hread, Progress.complete, Frame.expecting,
    Frame.add]

/-- What is noted for those who expect a single member touches no member. -/
lemma exists_settled (frames : List Frame) (hr : r.flaw = none) (sole : Sole) : ∃ r' : OpenRecord,
    r'.start = r.start ∧ r'.flaw = none ∧ r'.members = r.members ∧
      settleFirst sole (.record r :: frames) = .record r' :: frames := by
  obtain ⟨start, members, pending, noted, flaw⟩ := r
  cases noted <;> refine ⟨_, ?_, ?_, ?_, rfl⟩ <;> first | exact hr | rfl

/-- The members of an object behind the first one, each after a comma. -/
lemma exists_members (h : ∀ member ∈ members, Reads room member.2)
    (hls : bare ls = (memberSpellings members).flatMap (.comma :: ·)) (hr : r.flaw = none)
    (hroom : frames.length + (room + 1) ≤ depthLimit) : ∃ docs, HoldsMembers docs members ∧
      ∃ r' : OpenRecord, r'.start = r.start ∧ r'.flaw = none ∧
        r'.members = docs.reverse ++ r.members ∧
        ∀ finish rest, readLexemes .objectCommaOrEnd (.record r :: frames) finish (ls ++ rest) =
          readLexemes .objectCommaOrEnd (.record r' :: frames) finish rest := by
  -- every comma changes what is noted of a single member, so the open object is not fixed
  induction members generalizing ls r with
  | nil =>
    obtain rfl := List.map_eq_nil_iff.1 hls
    exact ⟨[], .nil, r, rfl, hr, rfl, fun _ _ => rfl⟩
  | cons member others ih =>
    obtain ⟨name, v⟩ := member
    obtain ⟨hmember, hothers⟩ := List.forall_mem_cons.1 h
    rw [memberSpellings, List.flatMap_cons, List.cons_append] at hls
    obtain ⟨comma, ls, rfl, hcomma, hls⟩ := List.map_eq_cons_iff.1 hls
    obtain ⟨first, ls, rfl, hfirst, hls⟩ := List.map_eq_append_iff.1 hls
    obtain ⟨r₀, hstart, hflaw, hbefore, hsettled⟩ :=
      exists_settled frames hr (.continued ⟨.expectedValue, comma.start⟩)
    obtain ⟨doc, hdoc, r₁, hstart₁, hflaw₁, hmembers₁, hread⟩ :=
      exists_member hmember hfirst (.inr rfl) hflaw hroom
    obtain ⟨docs, hdocs, r', hstart', hflaw', hmembers', hmore⟩ := ih hothers hls hflaw₁
    refine ⟨(name, doc) :: docs, .cons hdoc hdocs, r', by rw [hstart', hstart₁, hstart], hflaw', ?_,
      fun finish rest => ?_⟩
    · rw [hmembers', hmembers₁, hbefore, List.reverse_cons, List.append_assoc]
      rfl
    · rw [List.cons_append, readLexemes_cons (by nofun), List.append_assoc]
      simp only [readLexeme, hcomma, Progress.resume, hsettled, hread, hmore]

/-- The last lexeme of an object completes it. -/
lemma closes_object (hdocs : HoldsMembers docs members) (hl : l.lexeme = .closeObject)
    (he : expecting = .firstKey ∨ expecting = .objectCommaOrEnd) (hr : r.flaw = none)
    (hmembers : r.members = docs.reverse) (hroom : frames.length + (room + 1) ≤ depthLimit) :
    ∃ doc, doc.Holds (.object members) ∧
      ∀ finish rest, readLexemes expecting (.record r :: frames) finish (l :: rest) =
        (Progress.complete doc frames).resume finish rest := by
  have hclose (r : OpenRecord) (hr : r.flaw = none) (hmembers : r.members = docs.reverse) :
      (Frame.record r).close frames none = .record r.start false docs r.sole {} := by
    simp [Frame.close, hr, hmembers, not_isDeep hroom]
  obtain rfl | rfl := he
  -- an object without members is noted as such before it is closed
  · obtain ⟨r', hstart, hflaw, hbefore, hsettled⟩ :=
      exists_settled frames hr (.nameless l.found)
    refine ⟨.record r'.start false docs r'.sole {}, .object hdocs, fun finish rest => ?_⟩
    rw [readLexemes_cons (by nofun), ← hclose r' hflaw (hbefore.trans hmembers)]
    simp [readLexeme, readFirstKey, hl, Progress.leave, hsettled]
  · refine ⟨.record r.start false docs r.sole {}, .object hdocs, fun finish rest => ?_⟩
    rw [readLexemes_cons (by nofun), ← hclose r hr hmembers]
    simp [readLexeme, hl, Progress.leave]

lemma reads_object (h : ∀ member ∈ members, Reads room member.2) :
    Reads (room + 1) (.object members) := by
  intro ls hls expecting he frames hroom
  obtain ⟨first, ls, last, rfl, hfirst, hls, hlast⟩ := exists_between hls
  have hopen (finish rest) : readLexemes expecting frames finish (first :: rest) =
      readLexemes .firstKey (.record { start := first.start } :: frames) finish rest := by
    rw [readLexemes_opens he (by rw [hfirst]; nofun), readValue, hfirst]
    rfl
  cases members with
  | nil =>
    obtain rfl := List.map_eq_nil_iff.1 hls
    obtain ⟨doc, hdoc, hclose⟩ := closes_object (r := { start := first.start }) .nil hlast
      (.inl rfl) rfl rfl hroom
    exact ⟨doc, hdoc, fun finish rest => (hopen _ _).trans (hclose finish rest)⟩
  | cons member others =>
    obtain ⟨hmember, hothers⟩ := List.forall_mem_cons.1 h
    obtain ⟨ls, more, rfl, hls, hmore⟩ := List.map_eq_append_iff.1 hls
    obtain ⟨inner, hinner, r, -, hflaw, hmembers, hread⟩ :=
      exists_member (r := { start := first.start }) hmember hls (.inl rfl) rfl hroom
    obtain ⟨docs, hdocs, r', -, hflaw', hmembers', hreadMore⟩ :=
      exists_members hothers hmore hflaw hroom
    obtain ⟨doc, hdoc, hclose⟩ := closes_object (.cons hinner hdocs) hlast (.inr rfl) hflaw'
      (by rw [hmembers', hmembers, List.reverse_cons]) hroom
    refine ⟨doc, hdoc, fun finish rest => ?_⟩
    rw [← hclose finish rest]
    simp only [List.cons_append, List.append_assoc, hopen, hread, hreadMore, List.nil_append]

end Objects

/-! ### Texts -/

lemma reads_simple {v : Json} {lexeme : Lexeme} (doc : Position → Document)
    (hv : v.spelling = [lexeme]) (hd : ∀ start, (doc start).Holds v) (hne : lexeme ≠ .closeList)
    (hread : ∀ l frames, l.lexeme = lexeme → readValue l frames = .complete (doc l.start) frames) :
    Reads room v := by
  intro ls hls expecting he frames _
  rw [hv] at hls
  obtain ⟨l, ls, rfl, hl, hls⟩ := List.map_eq_cons_iff.1 hls
  obtain rfl := List.map_eq_nil_iff.1 hls
  refine ⟨doc l.start, hd _, fun finish rest => ?_⟩
  rw [List.singleton_append, readLexemes_opens he (by rwa [hl]), hread l frames hl]

lemma Readable.reads {v : Json} (h : Readable room v) : Reads room v := by
  induction h with
  | null =>
    exact reads_simple .null rfl (fun _ => .null) nofun fun _ _ hl => by simp [readValue, hl]
  | @boolean _ b =>
    exact reads_simple (.boolean · b) rfl (fun _ => .boolean) nofun
      fun _ _ hl => by simp [readValue, hl]
  | @int _ n =>
    exact reads_simple (.number · (.int n)) rfl (fun _ => .number) nofun
      fun _ _ hl => by simp [readValue, hl]
  | @string _ s =>
    exact reads_simple (.string · s) rfl (fun _ => .string) nofun
      fun _ _ hl => by simp [readValue, hl]
  | array _ ih => exact reads_array ih
  | object _ ih => exact reads_object ih

/-- The document that is read from the text of a value holds the value, and nothing is left over
but a line break. -/
theorem Readable.read_write {v : Json} (h : Readable depthLimit v) (level : Option Nat) :
    ∃ doc, doc.Holds v ∧ Json.read (v.write level ++ "\n") = ⟨doc, none⟩ := by
  obtain ⟨ls, q, hls, hspells⟩ := h.spells level ⟨1, 0⟩
  obtain ⟨doc, hdoc, hread⟩ := h.reads hls .value trivial []
    (Nat.zero_add _).le
  refine ⟨doc, hdoc, ?_⟩
  -- the line break only ends a numeral, if the value is one
  have hlexemes : lexemes (v.write level ++ "\n") = (ls, q.advance '\n') := by
    rw [lexemes, String.toList_append]
    refine (hspells ['\n'] (stops_cons (by decide))).trans ?_
    simp [lexemesFrom, Scan.step, begin, Scan.finish]
  have hdone := hread (q.advance '\n') []
  rw [List.append_nil] at hdone
  rw [Json.read, hlexemes]
  exact hdone

end ObjectGraph.Json
