/-
# Files that were written

A file that was written is read back, also after a file at another place was written.  A path is
followed as long as every place on the way is a directory, and writing makes them directories.
-/
import ObjectGraph.Command.Files
import Mathlib.Tactic.Lemma

namespace ObjectGraph

/-- The place of a path. -/
def Path.place (path : String) : Place :=
  (Path.names path).foldl Place.enter []

namespace Files

variable {files : Files} {place place' : Place} {names : List String}
  {path path' text text' : String}

/-! ### Following a path -/

/-- Every place on the way along some names is a directory. -/
def Open (files : Files) (place : Place) (names : List String) : Prop :=
  ∀ on ∈ place.through names, on = [] ∨ on ∈ files.directories

lemma follow_eq_ok_iff {name : String} : files.follow place name = .ok place' ↔
    (place = [] ∨ place ∈ files.directories) ∧ place.enter name = place' := by
  unfold follow
  split
  · rename_i h
    simp [h]
  · rename_i h
    split <;> simp [h]

/-- Names lead somewhere just when the way is open. -/
lemma foldlM_follow_eq_ok_iff : names.foldlM files.follow place = .ok place' ↔
    files.Open place names ∧ names.foldl Place.enter place = place' := by
  induction names generalizing place with
  | nil => simp [Open, Place.through, pure, Except.pure]
  | cons name rest ih =>
    have hopen : files.Open place (name :: rest) ↔
        (place = [] ∨ place ∈ files.directories) ∧ files.Open (place.enter name) rest :=
      List.forall_mem_cons
    rw [List.foldlM_cons, List.foldl_cons, hopen, and_assoc, ← ih]
    constructor
    · intro h
      cases hfollow : files.follow place name with
      | error => rw [hfollow] at h; cases h
      | ok next =>
        obtain ⟨hplace, rfl⟩ := follow_eq_ok_iff.1 hfollow
        rw [hfollow] at h
        exact ⟨hplace, h⟩
    · rintro ⟨hplace, h⟩
      rw [follow_eq_ok_iff.2 ⟨hplace, rfl⟩]
      exact h

lemma read_eq_ok_iff : files.read path = .ok text ↔
    files.Open [] (Path.names path) ∧ files.texts.lookup (Path.place path) = some text := by
  constructor
  · intro h
    cases hfollow : (Path.names path).foldlM files.follow [] with
    | error => simp [read, hfollow, bind, Except.bind] at h
    | ok place =>
      obtain ⟨hopen, hplace⟩ := foldlM_follow_eq_ok_iff.1 hfollow
      cases hlookup : files.texts.lookup place with
      | none => simp [read, hfollow, hlookup, bind, Except.bind] at h
      | some found =>
        simp only [read, hfollow, hlookup, bind, Except.bind, pure, Except.pure,
          Except.ok.injEq] at h
        rw [Path.place, hplace, hlookup, h]
        exact ⟨hopen, rfl⟩
  · rintro ⟨hopen, hlookup⟩
    rw [Path.place] at hlookup
    simp [read, foldlM_follow_eq_ok_iff.2 ⟨hopen, rfl⟩, hlookup, bind, Except.bind, pure,
      Except.pure]

/-! ### Writing -/

lemma open_write (h : files.Open place names) : (files.write path text).Open place names :=
  fun on hm => (h on hm).imp_right (List.mem_append_right _)

/-- A file that was written is read back. -/
lemma read_write : (files.write path text).read path = .ok text := by
  refine read_eq_ok_iff.2 ⟨fun on hm => .inr (List.mem_append_left _ hm), ?_⟩
  simp [write, Path.place]

/-- Writing elsewhere changes nothing about it. -/
lemma read_write_of_ne (hne : Path.place path ≠ Path.place path') (h : files.read path = .ok text) :
    (files.write path' text').read path = .ok text := by
  obtain ⟨hopen, hlookup⟩ := read_eq_ok_iff.1 h
  refine read_eq_ok_iff.2 ⟨open_write hopen, ?_⟩
  obtain ⟨before, behind, htexts, hbefore⟩ := List.lookup_eq_some_iff.1 hlookup
  refine List.lookup_eq_some_iff.2
    ⟨(Path.place path', text') :: before.filter (·.1 ≠ Path.place path'),
      behind.filter (·.1 ≠ Path.place path'), ?_, List.forall_mem_cons.2 ⟨by simpa using hne, ?_⟩⟩
  · have hkept : (Path.place path, text).1 ≠ Path.place path' := hne
    rw [List.cons_append, ← List.filter_cons_of_pos (by simpa using hkept), ← List.filter_append,
      ← htexts]
    rfl
  · exact fun entry hm => hbefore entry ((List.mem_filter.1 hm).1)

end Files

/-! ### Paths of different files -/

namespace Path

lemma exists_splitOn_append (base : List Char) : ∃ before last, ∀ cs, '/' ∉ cs →
    (base ++ cs).splitOn '/' = before ++ [last ++ cs] := by
  induction base with
  | nil => exact ⟨[], [], fun cs hcs => List.splitOn_eq_singleton hcs⟩
  | cons c rest ih =>
    obtain ⟨before, last, h⟩ := ih
    by_cases hc : c = '/'
    · refine ⟨[] :: before, last, fun cs hcs => ?_⟩
      simp [List.splitOn_cons_eq_if_modifyHead, hc, h cs hcs]
    · cases before with
      | nil =>
        refine ⟨[], c :: last, fun cs hcs => ?_⟩
        simp [List.splitOn_cons_eq_if_modifyHead, hc, h cs hcs]
      | cons first before =>
        refine ⟨(c :: first) :: before, last, fun cs hcs => ?_⟩
        simp [List.splitOn_cons_eq_if_modifyHead, hc, h cs hcs]

/-- The last name in a directory's path takes up what is appended to the path. -/
lemma exists_place_append (base : String) : ∃ place last, ∀ file : String, '/' ∉ file.toList →
    Path.place (base ++ file) = Place.enter place (last ++ file) := by
  obtain ⟨before, last, h⟩ := exists_splitOn_append base.toList
  refine ⟨(before.map String.ofList).foldl Place.enter [], String.ofList last, fun file hfile => ?_⟩
  simp [Path.place, names, h file.toList hfile, String.ofList_append]

/-- A path that does not begin with a slash is appended to its directory. -/
lemma exists_join (directory : String) : ∃ base, ∀ file : String, file.startsWith "/" = false →
    join directory file = base ++ file := by
  by_cases hempty : directory.isEmpty = true
  · exact ⟨"", fun file hfile => by simp [join, hempty]⟩
  · by_cases hslash : directory.endsWith "/" = true
    · exact ⟨directory, fun file hfile => by simp [join, hempty, hslash, hfile]⟩
    · exact ⟨directory ++ "/", fun file hfile => by simp [join, hempty, hslash, hfile]⟩

lemma enter_of_length {place : Place} {name : String} (h : 2 < name.length) :
    place.enter name = name :: place := by
  have hname (short : String) (hs : short.length ≤ 2) : name ≠ short := by
    rintro rfl
    omega
  have hempty := hname "" (by decide)
  have hdot := hname "." (by decide)
  have hdots := hname ".." (by decide)
  simp [Place.enter, hempty, hdot, hdots]

/-- Files of different names in a directory have different places. -/
lemma place_join_ne {directory file other : String} (hne : file ≠ other)
    (hfile : '/' ∉ file.toList ∧ file.startsWith "/" = false ∧ 2 < file.length)
    (hother : '/' ∉ other.toList ∧ other.startsWith "/" = false ∧ 2 < other.length) :
    Path.place (join directory file) ≠ Path.place (join directory other) := by
  obtain ⟨base, hbase⟩ := exists_join directory
  obtain ⟨place, last, hplace⟩ := exists_place_append base
  rw [hbase file hfile.2.1, hbase other hother.2.1, hplace file hfile.1, hplace other hother.1,
    enter_of_length (by rw [String.length_append]; omega),
    enter_of_length (by rw [String.length_append]; omega)]
  simpa using hne

end Path
end ObjectGraph
