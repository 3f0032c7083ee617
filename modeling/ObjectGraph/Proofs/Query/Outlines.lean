/-
# Outlines can be read back

The lines of an outline are those of a tree: every line is followed by the lines of its inputs, one
level deeper, and the last of the inputs is what an operation is applied to.  Since every line
shows how deep it is, the inputs of a line end where lines are no deeper than itself, and so the
tree can be told from the lines although no line says how many inputs it has.  Following the last
inputs down counts the operations.
-/
import ObjectGraph.Proofs.Query.Headlines

namespace ObjectGraph

/-! ### Lines -/

/-- Whether a text fills one line and shows where it begins. -/
def OneLine (text : String) : Prop :=
  '\n' ∉ text.toList ∧ ∀ c ∈ text.toList.head?, c ≠ ' '

namespace OneLine

variable {text : String}

lemma ne_newline (h : OneLine text) : ∀ c ∈ text.toList, (c != '\n') = true := by
  intro c hc
  exact bne_iff_ne.2 fun heq => h.1 (heq ▸ hc)

lemma head?_append (h : OneLine text) (rest : List Char) :
    ∀ c ∈ (text.toList ++ '\n' :: rest).head?, (c == ' ') = false := by
  intro c hc
  cases htext : text.toList with
  | nil =>
    rw [htext] at hc
    obtain rfl : '\n' = c := Option.some.inj hc
    rfl
  | cons first others =>
    have hfirst := h.2 c
    rw [htext] at hc hfirst
    exact beq_eq_false_iff_ne.2 (hfirst hc)

end OneLine

lemma oneLine_headline {step : Operation} (hp : step.WellNamed) : OneLine step.headline := by
  refine ⟨Operation.newline_not_mem_headline hp, ?_⟩
  intro c hc
  have hkeyword := Operation.solid_keyword step
  rw [Operation.toList_headline, List.head?_append_of_ne_nil] at hc
  · exact (hkeyword.2 c (List.mem_of_mem_head? hc)).1
  · exact fun hnil => hkeyword.1 (String.toList_eq_nil_iff.1 hnil)

lemma oneLine_source {source : Source} (hp : PlainName source.objectType) :
    OneLine source.text := by
  refine ⟨Source.newline_not_mem_text hp, ?_⟩
  intro c hc
  rw [Source.toList_text] at hc
  obtain rfl : 'L' = c := Option.some.inj hc
  decide

lemma oneLine_parent : OneLine "PARENT" := by
  constructor
  · decide
  · intro c hc
    obtain rfl : 'P' = c := Option.some.inj hc
    decide

namespace OutlineLine

variable {line other : OutlineLine} {u v : List Char}

lemma toList_render (line : OutlineLine) : line.render.toList =
    List.replicate (4 * line.depth) ' ' ++ (line.text.toList ++ ['\n']) := by
  simp [render]

/-- A line shows its depth, and it ends where the next one begins. -/
lemma render_append_inj (hl : OneLine line.text) (ho : OneLine other.text)
    (h : line.render.toList ++ u = other.render.toList ++ v) : line = other ∧ u = v := by
  have hspaces (n : Nat) : ∀ c ∈ List.replicate n ' ', (c == ' ') = true := by
    intro c hc
    rw [List.eq_of_mem_replicate hc]
    rfl
  rw [toList_render, toList_render] at h
  simp only [List.append_assoc, List.singleton_append] at h
  -- The spaces end where the text begins, and the text ends where the line does.
  obtain ⟨hdepth, htail⟩ :=
    append_inj_of_span (hspaces _) (hspaces _) (hl.head?_append u) (ho.head?_append v) h
  obtain ⟨htext, hrest⟩ := append_inj_of_span hl.ne_newline ho.ne_newline (by simp) (by simp) htail
  have hlength := congrArg List.length hdepth
  rw [List.length_replicate, List.length_replicate] at hlength
  obtain ⟨depth, text⟩ := line
  obtain ⟨depth', text'⟩ := other
  rw [mk.injEq]
  exact ⟨⟨by simpa using hlength, String.toList_inj.1 htext⟩, (List.cons.inj hrest).2⟩

end OutlineLine

/-- Lines can be told from their text. -/
lemma join_render_inj : ∀ {ls ls' : List OutlineLine}, (∀ line ∈ ls, OneLine line.text) →
    (∀ line ∈ ls', OneLine line.text) →
    String.join (ls.map OutlineLine.render) = String.join (ls'.map OutlineLine.render) → ls = ls'
  | [], [], _, _, _ => rfl
  | [], line :: ls, _, _, h => by
    have hlist := congrArg String.toList h
    simp [OutlineLine.toList_render] at hlist
  | line :: ls, [], _, _, h => by
    have hlist := congrArg String.toList h
    simp [OutlineLine.toList_render] at hlist
  | line :: ls, line' :: ls', hl, hl', h => by
    obtain ⟨hfirst, hrest⟩ := List.forall_mem_cons.1 hl
    obtain ⟨hfirst', hrest'⟩ := List.forall_mem_cons.1 hl'
    have hlist := congrArg String.toList h
    simp only [List.map_cons, String.join_cons, String.toList_append] at hlist
    obtain ⟨rfl, htail⟩ := OutlineLine.render_append_inj hfirst hfirst' hlist
    rw [join_render_inj hrest hrest' (String.toList_inj.1 htail)]

/-! ### Trees of lines -/

/-- A line and what is indented below it. -/
inductive OutlineTree
  | node (text : String) (inputs : List OutlineTree)

mutual

/-- The lines of a tree at a depth. -/
def OutlineTree.lines (depth : Nat) : OutlineTree → List OutlineLine
  | .node text inputs => ⟨depth, text⟩ :: forestLines (depth + 1) inputs

/-- The lines of trees at a depth. -/
def OutlineTree.forestLines (depth : Nat) : List OutlineTree → List OutlineLine
  | [] => []
  | tree :: rest => tree.lines depth ++ forestLines depth rest

end

mutual

/-- How many last inputs there are below a line. -/
def OutlineTree.spine : OutlineTree → Nat
  | .node _ inputs => forestSpine inputs

/-- How many last inputs there are below a line that has the trees as its inputs. -/
def OutlineTree.forestSpine : List OutlineTree → Nat
  | [] => 0
  | [tree] => tree.spine + 1
  | _ :: tree :: rest => forestSpine (tree :: rest)

end

namespace OutlineTree

variable {depth : Nat} {u v : List OutlineLine}

lemma head?_lines (tree : OutlineTree) : ∀ line ∈ (tree.lines depth ++ u).head?,
    line.depth = depth := by
  obtain ⟨text, inputs⟩ := tree
  intro line hline
  rw [lines, List.cons_append] at hline
  exact (Option.some.inj hline) ▸ rfl

lemma head?_forestLines {trees : List OutlineTree} (hu : ∀ line ∈ u.head?, line.depth < depth) :
    ∀ line ∈ (forestLines depth trees ++ u).head?, line.depth ≤ depth := by
  intro line hline
  cases trees with
  | nil => exact Nat.le_of_lt (hu line hline)
  | cons tree rest =>
    rw [forestLines, List.append_assoc] at hline
    exact Nat.le_of_eq (head?_lines tree line hline)

/-- Trees do not begin where a line is less deep. -/
lemma forestLines_cons_ne {tree : OutlineTree} {rest : List OutlineTree}
    (hu : ∀ line ∈ u.head?, line.depth < depth) : forestLines depth (tree :: rest) ++ v ≠ u := by
  rintro rfl
  obtain ⟨text, inputs⟩ := tree
  exact absurd (hu ⟨depth, text⟩ rfl) (Nat.lt_irrefl depth)

mutual

/-- A tree ends where lines are no deeper than its first. -/
lemma lines_append_inj : ∀ {tree tree' : OutlineTree} {depth : Nat} {u v : List OutlineLine},
    (∀ line ∈ u.head?, line.depth ≤ depth) → (∀ line ∈ v.head?, line.depth ≤ depth) →
    tree.lines depth ++ u = tree'.lines depth ++ v → tree = tree' ∧ u = v
  | .node text inputs, .node text' inputs', depth, u, v, hu, hv, h => by
    rw [lines, lines, List.cons_append, List.cons_append] at h
    obtain ⟨hline, h⟩ := List.cons.inj h
    obtain ⟨rfl, rfl⟩ := forestLines_append_inj
      (fun line hline => Nat.lt_succ_of_le (hu line hline))
      (fun line hline => Nat.lt_succ_of_le (hv line hline)) h
    rw [(OutlineLine.mk.inj hline).2]
    exact ⟨rfl, rfl⟩

lemma forestLines_append_inj : ∀ {trees trees' : List OutlineTree} {depth : Nat}
    {u v : List OutlineLine}, (∀ line ∈ u.head?, line.depth < depth) →
    (∀ line ∈ v.head?, line.depth < depth) →
    forestLines depth trees ++ u = forestLines depth trees' ++ v → trees = trees' ∧ u = v
  | [], [], depth, u, v, _, _, h => ⟨rfl, h⟩
  | [], tree' :: rest', depth, u, v, hu, _, h => absurd h.symm (forestLines_cons_ne hu)
  | tree :: rest, [], depth, u, v, _, hv, h => absurd h (forestLines_cons_ne hv)
  | tree :: rest, tree' :: rest', depth, u, v, hu, hv, h => by
    rw [forestLines, forestLines, List.append_assoc, List.append_assoc] at h
    obtain ⟨rfl, htail⟩ := lines_append_inj (head?_forestLines hu) (head?_forestLines hv) h
    obtain ⟨rfl, rfl⟩ := forestLines_append_inj hu hv htail
    exact ⟨rfl, rfl⟩

end

end OutlineTree

/-! ### The tree of a query -/

open OutlineTree (lines forestLines spine forestSpine)

mutual

/-- The inputs of an operation other than what it is applied to. -/
def Operation.inputs : Operation → List OutlineTree
  | .edge _ operations => [grown (.node "PARENT" []) operations]
  | .union queries => branchTrees queries
  | _ => []

/-- Operations above a tree, the last one on top. -/
def grown (tree : OutlineTree) : List Operation → OutlineTree
  | [] => tree
  | step :: rest => grown (.node step.headline (step.inputs ++ [tree])) rest

/-- The trees of the queries in a union, in order. -/
def branchTrees : List Query → List OutlineTree
  | [] => []
  | ⟨source, operations⟩ :: rest => grown (.node source.text []) operations :: branchTrees rest

end

lemma forestLines_append (depth : Nat) (trees others : List OutlineTree) :
    forestLines depth (trees ++ others) = forestLines depth trees ++ forestLines depth others := by
  induction trees with
  | nil => rfl
  | cons tree rest ih => rw [List.cons_append, forestLines, forestLines, ih, List.append_assoc]

mutual

lemma lines_inputs (depth : Nat) : ∀ step : Operation,
    ⟨depth, step.headline⟩ :: forestLines (depth + 1) step.inputs = step.outline depth
  | .edge name operations => by
    rw [Operation.inputs, forestLines, forestLines, lines_grown, Operation.outline]
    simp [lines, forestLines]
  | .union queries => by
    rw [Operation.inputs, forestLines_branchTrees, Operation.outline]
  | .project _ | .filter _ | .take _ | .skip _ | .count | .nest _ | .rename _ _ | .orderBy _ _
  | .groupBy _ => rfl

/-- The lines of operations stand above those of what they are applied to. -/
lemma lines_grown (depth : Nat) (tree : OutlineTree) (steps : List Operation) :
    (grown tree steps).lines depth =
      pipelineOutline depth steps ++ tree.lines (depth + steps.length) := by
  cases steps with
  | nil => rfl
  | cons step rest =>
    rw [grown, lines_grown depth _ rest, lines, forestLines_append, pipelineOutline,
      ← lines_inputs (depth + rest.length) step]
    simp [forestLines, Nat.add_assoc]

lemma forestLines_branchTrees (depth : Nat) : ∀ queries : List Query,
    forestLines depth (branchTrees queries) = branchOutlines depth queries
  | [] => rfl
  | ⟨source, operations⟩ :: rest => by
    rw [branchTrees, forestLines, lines_grown, forestLines_branchTrees depth rest, branchOutlines]
    rfl

end

lemma forestSpine_append (tree : OutlineTree) : ∀ trees : List OutlineTree,
    forestSpine (trees ++ [tree]) = tree.spine + 1
  | [] => rfl
  | [_] => rfl
  | _ :: next :: rest => by
    rw [List.cons_append, List.cons_append, forestSpine, ← List.cons_append,
      forestSpine_append tree (next :: rest)]

lemma spine_grown (tree : OutlineTree) (steps : List Operation) :
    (grown tree steps).spine = tree.spine + steps.length := by
  induction steps generalizing tree with
  | nil => rfl
  | cons step rest ih =>
    rw [grown, ih, spine, forestSpine_append, List.length_cons]
    omega

/-- As many operations stand above lines without inputs as there are last inputs below. -/
lemma length_eq_of_grown {text text' : String} {steps others : List Operation}
    (h : grown (.node text []) steps = grown (.node text' []) others) :
    steps.length = others.length := by
  have hspine := congrArg spine h
  rw [spine_grown, spine_grown] at hspine
  simpa [spine, forestSpine] using hspine

/-! ### Reading a tree -/

/-- Whether the names in a query are plain and its predicates are each written in one line. -/
def Query.WellNamed (query : Query) : Prop :=
  PlainName query.source.objectType ∧ query.Throughout Operation.WellNamed

mutual

/-- An operation is told by its line and its inputs. -/
lemma alike_of_inputs {step other : Operation} (hp : step.Throughout Operation.WellNamed)
    (hp' : other.Throughout Operation.WellNamed) (hline : step.headline = other.headline)
    (hinputs : step.inputs = other.inputs) : step.Alike other := by
  have hread := Operation.alike_of_headline hp.here hp'.here hline
  cases step with
  | edge name operations =>
    rcases hread with halike | ⟨_, _, operations', hstep, rfl⟩ | ⟨_, _, hstep, -⟩
    · exact halike
    · obtain ⟨rfl, rfl⟩ := Operation.edge.inj hstep
      have htree := (List.cons.inj hinputs).1
      exact .edge name (alike_of_grown hp.2 hp'.2 (length_eq_of_grown htree) htree).2
    · cases hstep
  | union queries =>
    rcases hread with halike | ⟨_, _, _, hstep, -⟩ | ⟨_, queries', hstep, rfl⟩
    · exact halike
    · cases hstep
    · obtain rfl := Operation.union.inj hstep
      exact .union (alike_of_branchTrees hp.1 hp'.1 hp.2 hp'.2 hinputs)
  | project | filter | take | skip | count | nest | rename | orderBy | groupBy =>
    exact hread.resolve_right (by simp)

/-- As many operations above two trees are told by the trees that they make. -/
lemma alike_of_grown : ∀ {steps others : List Operation} {tree tree' : OutlineTree},
    Operation.stepsThroughout Operation.WellNamed steps →
    Operation.stepsThroughout Operation.WellNamed others → steps.length = others.length →
    grown tree steps = grown tree' others →
    tree = tree' ∧ List.Forall₂ Operation.Alike steps others
  | [], [], tree, tree', _, _, _, h => ⟨h, .nil⟩
  | step :: rest, other :: rest', tree, tree', hp, hp', hlength, h => by
    -- The first operation stands deepest, so the others are told before it.
    obtain ⟨htree, hrest⟩ := alike_of_grown hp.2 hp'.2 (Nat.succ.inj hlength) h
    obtain ⟨hline, hinputs⟩ := OutlineTree.node.inj htree
    obtain ⟨hinputs, hlast⟩ := List.append_inj' hinputs rfl
    exact ⟨(List.cons.inj hlast).1, .cons (alike_of_inputs hp.1 hp'.1 hline hinputs) hrest⟩

lemma alike_of_branchTrees : ∀ {queries others : List Query},
    (∀ query ∈ queries, PlainName query.source.objectType) →
    (∀ query ∈ others, PlainName query.source.objectType) →
    Operation.branchesThroughout Operation.WellNamed queries →
    Operation.branchesThroughout Operation.WellNamed others →
    branchTrees queries = branchTrees others → List.Forall₂ Query.Alike queries others
  | [], [], _, _, _, _, _ => .nil
  | [], ⟨source, operations⟩ :: rest, _, _, _, _, h => nomatch h
  | ⟨source, operations⟩ :: rest, [], _, _, _, _, h => nomatch h
  | ⟨source, operations⟩ :: rest, ⟨source', operations'⟩ :: rest', hs, hs', hp, hp', h => by
    obtain ⟨htree, hrest⟩ := List.cons.inj h
    obtain ⟨hleaf, hsteps⟩ := alike_of_grown hp.1 hp'.1 (length_eq_of_grown htree) htree
    obtain ⟨hs, hsrest⟩ := List.forall_mem_cons.1 hs
    obtain ⟨hs', hsrest'⟩ := List.forall_mem_cons.1 hs'
    obtain rfl := Source.text_inj hs hs' (OutlineTree.node.inj hleaf).1
    exact .cons (.mk source hsteps) (alike_of_branchTrees hsrest hsrest' hp.2 hp'.2 hrest)

end

/-! ### Queries that are alike -/

lemma Operation.Alike.headline_eq {step other : Operation} (h : step.Alike other) :
    step.headline = other.headline := by
  cases h with
  | refl | edge | union => rfl
  | filter htext => rw [headline, headline, htext]

mutual

lemma outline_of_alike (depth : Nat) {step other : Operation} (h : step.Alike other) :
    step.outline depth = other.outline depth := by
  cases step with
  | edge name operations =>
    cases h with
    | refl => rfl
    | edge _ hsteps =>
      rw [Operation.outline, Operation.outline, pipelineOutline_of_alike (depth + 1) hsteps,
        hsteps.length_eq]
      rfl
  | union queries =>
    cases h with
    | refl => rfl
    | union hqueries =>
      rw [Operation.outline, Operation.outline, branchOutlines_of_alike (depth + 1) hqueries]
      rfl
  | filter predicate =>
    cases h with
    | refl => rfl
    | filter htext =>
      have hline := (Operation.Alike.filter htext).headline_eq
      simp only [Operation.outline, hline]
  | project | take | skip | count | nest | rename | orderBy | groupBy =>
    cases h
    rfl

lemma pipelineOutline_of_alike (depth : Nat) : ∀ {steps others : List Operation},
    List.Forall₂ Operation.Alike steps others →
    pipelineOutline depth steps = pipelineOutline depth others
  | [], _, .nil => rfl
  | step :: rest, _, .cons h hrest => by
    rw [pipelineOutline, pipelineOutline, pipelineOutline_of_alike depth hrest,
      outline_of_alike _ h, hrest.length_eq]

lemma branchOutlines_of_alike (depth : Nat) : ∀ {queries others : List Query},
    List.Forall₂ Query.Alike queries others →
    branchOutlines depth queries = branchOutlines depth others
  | [], _, .nil => rfl
  | ⟨source, operations⟩ :: rest, _, .cons (.mk _ hsteps) hrest => by
    rw [branchOutlines, branchOutlines, pipelineOutline_of_alike depth hsteps, hsteps.length_eq,
      branchOutlines_of_alike depth hrest]

end

/-! ### Plain lines -/

mutual

lemma oneLine_outline {depth : Nat} {step : Operation} (hp : step.Throughout Operation.WellNamed) :
    ∀ line ∈ step.outline depth, OneLine line.text := by
  cases step with
  | edge name operations =>
    rw [Operation.outline, List.cons_append, List.forall_mem_cons, List.forall_mem_append,
      List.forall_mem_singleton]
    exact ⟨oneLine_headline hp.here, oneLine_pipelineOutline hp.2, oneLine_parent⟩
  | union queries =>
    rw [Operation.outline, List.forall_mem_cons]
    exact ⟨oneLine_headline hp.here, oneLine_branchOutlines hp.1 hp.2⟩
  | project | filter | take | skip | count | nest | rename | orderBy | groupBy =>
    exact List.forall_mem_singleton.2 (oneLine_headline hp.here)

lemma oneLine_pipelineOutline {depth : Nat} : ∀ {steps : List Operation},
    Operation.stepsThroughout Operation.WellNamed steps →
    ∀ line ∈ pipelineOutline depth steps, OneLine line.text
  | [], _ => nofun
  | step :: rest, hp => by
    rw [pipelineOutline, List.forall_mem_append]
    exact ⟨oneLine_pipelineOutline hp.2, oneLine_outline hp.1⟩

lemma oneLine_branchOutlines {depth : Nat} : ∀ {queries : List Query},
    (∀ query ∈ queries, PlainName query.source.objectType) →
    Operation.branchesThroughout Operation.WellNamed queries →
    ∀ line ∈ branchOutlines depth queries, OneLine line.text
  | [], _, _ => nofun
  | ⟨source, operations⟩ :: rest, hs, hp => by
    obtain ⟨hs, hsrest⟩ := List.forall_mem_cons.1 hs
    rw [branchOutlines, List.forall_mem_append, List.forall_mem_append, List.forall_mem_singleton]
    exact ⟨⟨oneLine_pipelineOutline hp.1, oneLine_source hs⟩, oneLine_branchOutlines hsrest hp.2⟩

end

namespace Query

variable {query other : Query}

lemma oneLine_outline (hp : query.WellNamed) : ∀ line ∈ query.outline, OneLine line.text := by
  rw [outline, List.forall_mem_append, List.forall_mem_singleton]
  exact ⟨oneLine_pipelineOutline hp.2, oneLine_source hp.1⟩

/-- The tree that the outline of a query shows. -/
def tree (query : Query) : OutlineTree := grown (.node query.source.text []) query.operations

lemma lines_tree (query : Query) : query.tree.lines 0 = query.outline := by
  rw [tree, lines_grown, outline, Nat.zero_add]
  rfl

lemma alike_of_tree (hp : query.WellNamed) (hp' : other.WellNamed) (h : query.tree = other.tree) :
    query.Alike other := by
  obtain ⟨source, operations⟩ := query
  obtain ⟨source', operations'⟩ := other
  have hbranches := alike_of_branchTrees (List.forall_mem_singleton.2 hp.1)
    (List.forall_mem_singleton.2 hp'.1) ⟨hp.2, trivial⟩ ⟨hp'.2, trivial⟩ (congrArg (· :: []) h)
  exact (List.forall₂_cons.1 hbranches).1

/-- A dump determines its query, with edges and unions nested to any depth, up to predicates that
have the same text. -/
theorem dump_eq_iff_alike (hp : query.WellNamed) (hp' : other.WellNamed) :
    query.dump = other.dump ↔ query.Alike other := by
  constructor
  · intro h
    have hlines := join_render_inj (oneLine_outline hp) (oneLine_outline hp') h
    rw [← lines_tree, ← lines_tree, ← List.append_nil (lines 0 query.tree),
      ← List.append_nil (lines 0 other.tree)] at hlines
    exact alike_of_tree hp hp' (OutlineTree.lines_append_inj (by simp) (by simp) hlines).1
  · rintro ⟨source, hsteps⟩
    rw [dump, dump, outline, outline, pipelineOutline_of_alike 0 hsteps, hsteps.length_eq]

/-- The users with two identities, each with three friends that meet a condition, and the number
of reviews after the same edge. -/
def befriended (predicate : Predicate) : Query :=
  let friends := Operation.edge "friends" [.filter predicate, .take 3]
  ⟨⟨"User", some [1, 2]⟩, [friends, .union [⟨⟨"Review", none⟩, [friends, .count]⟩]]⟩

lemma befriended_wellNamed {predicate : Predicate} (hp : '\n' ∉ predicate.text.toList) :
    (befriended predicate).WellNamed := by
  have huser : PlainName "User" := by decide +kernel
  have hreview : PlainName "Review" := by decide +kernel
  have hname : PlainName "friends" := by decide +kernel
  have hfriends : (Operation.edge "friends" [.filter predicate, .take 3]).Throughout
      Operation.WellNamed := ⟨hname, hp, trivial, trivial⟩
  exact ⟨huser, hfriends,
    ⟨List.forall_mem_singleton.2 hreview, ⟨hfriends, trivial, trivial⟩, trivial⟩, trivial⟩

/-- A condition and the list that holds only this condition read the same. -/
theorem dump_eq_iff_alike_befriended :
    (befriended (.isNull "name")).WellNamed ∧ (befriended (.all [.isNull "name"])).WellNamed ∧
      (befriended (.isNull "name")).dump = (befriended (.all [.isNull "name"])).dump ∧
      (befriended (.isNull "name")).Alike (befriended (.all [.isNull "name"])) := by
  have hplain : (befriended (.isNull "name")).WellNamed := befriended_wellNamed (by decide)
  have hplain' : (befriended (.all [.isNull "name"])).WellNamed := befriended_wellNamed (by decide)
  have hdump : (befriended (.isNull "name")).dump = (befriended (.all [.isNull "name"])).dump := by
    decide +kernel
  exact ⟨hplain, hplain', hdump, (dump_eq_iff_alike hplain hplain').1 hdump⟩

/-- Names that hold an arrow can make two renames read the same. -/
example : dump ⟨⟨"User", none⟩, [.rename "a -> b" "c"]⟩ =
    dump ⟨⟨"User", none⟩, [.rename "a" "b -> c"]⟩ := by
  decide

end Query

end ObjectGraph
