/-
# Either spelling of the identity

Two queries that differ only in whether they spell the identity `id` or `:id` become the same when
they are marked, and nothing that is made of a query tells it from its marked form: pipelines
never, selects and statements unless the query gives a column the name of the identity or takes it
away, and runs in memory unless the query follows an edge called `id`.
-/
import ObjectGraph.Proofs.Compile.Marks
import ObjectGraph.Proofs.Cypher.Marks
import ObjectGraph.Proofs.Malloy.Marks
import ObjectGraph.Proofs.Memory.Marks
import ObjectGraph.Samples.SocialGraph

namespace ObjectGraph

/-- Over types with plain identities, a query and the same query with other spellings of the
identity are translated to the same pipeline or are both refused.  If no edge and no list of all
rows is stored under a spelling, the same is true of their selects; if no list of all rows is, and
no column has its name changed from or to a spelling, of their statements.  If no edge is called
`id`, runs on items that are made of members make the same calls and end alike. -/
theorem same_of_marked_eq (catalog : Catalog) (query other : Query)
    (h : query.marked = other.marked)
    (hplain : ∀ name type, catalog.type? name = some type → type.PlainIdentity) :
    (∀ connection, (Malloy.compile catalog query connection).toOption
      = (Malloy.compile catalog other connection).toOption) ∧
    (query.Throughout Operation.SparesIdentity →
      (Compile.plan catalog query).toOption = (Compile.plan catalog other).toOption) ∧
    (query.Throughout Operation.SparesColumns →
      (Cypher.compile catalog query naming).toOption.map Cypher.Statement.text
        = (Cypher.compile catalog other naming).toOption.map Cypher.Statement.text) ∧
    ∀ resolver validates, resolver.Normalized → query.Throughout Operation.SparesKey →
      Graph.run ⟨catalog, resolver, validates⟩ query
        = Graph.run ⟨catalog, resolver, validates⟩ other := by
  refine ⟨fun connection => ?_, fun hs => ?_, fun hs => ?_, fun resolver validates hr hs => ?_⟩
  · rw [← Malloy.compile_marked, h, Malloy.compile_marked]
  · have ho := (Query.throughout_congr sparesIdentity_marked h).1 hs
    rw [← Compile.plan_marked hplain hs, h, Compile.plan_marked hplain ho]
  · have ho := (Query.throughout_congr sparesColumns_marked h).1 hs
    rw [← Cypher.compile_marked hplain hs, h, Cypher.compile_marked hplain ho]
  · have ho := (Query.throughout_congr sparesKey_marked h).1 hs
    rw [← Graph.run_marked hr hs, h, Graph.run_marked hr ho]

/-- The names of users behind the first one, with the identity in a given spelling. -/
def behindFirst (identity : String) : Query :=
  ⟨{ objectType := "User" },
    [.filter (.comparison identity .greaterThan (.integer 0)), .orderBy identity .descending,
     .project [identity, "name"], .rename "name" "nick"]⟩

theorem same_of_marked_eq_behindFirst :
    (behindFirst "user.id").marked = (behindFirst ":id").marked ∧
      (∀ name type, SocialGraph.catalog.type? name = some type → type.PlainIdentity) ∧
      (SocialGraph.resolver 3).Normalized ∧
      (Malloy.compile SocialGraph.catalog (behindFirst ":id") "db").isOk = true ∧
      (Malloy.compile SocialGraph.catalog (behindFirst "user.id") "db").toOption
        = (Malloy.compile SocialGraph.catalog (behindFirst ":id") "db").toOption ∧
      (Compile.plan SocialGraph.catalog (behindFirst ":id")).isOk = true ∧
      (Compile.plan SocialGraph.catalog (behindFirst "user.id")).toOption
        = (Compile.plan SocialGraph.catalog (behindFirst ":id")).toOption ∧
      (Cypher.compile SocialGraph.catalog (behindFirst "user.id")).toOption.map
          Cypher.Statement.text
        = some "MATCH (u:User)\nWHERE u.id > 0\nRETURN u.id, u.name AS nick\nORDER BY u.id DESC" ∧
      Graph.run ⟨SocialGraph.catalog, SocialGraph.resolver 3, false⟩ (behindFirst "user.id")
        = Graph.run ⟨SocialGraph.catalog, SocialGraph.resolver 3, false⟩ (behindFirst ":id") := by
  have hmarked : (behindFirst "user.id").marked = (behindFirst ":id").marked := rfl
  have htypes : ∀ entry ∈ SocialGraph.catalog.types.entries,
      entry.2.idField = "id" ∧ idKey ∉ entry.2.fields.keys := by decide +kernel
  have hplain (name : String) (type : ObjectType)
      (htype : SocialGraph.catalog.type? name = some type) : type.PlainIdentity :=
    have htype := htypes _ (Named.mem_of_lookup htype)
    ⟨htype.1, htype.2⟩
  have hitems : (SocialGraph.resolver 3).Normalized := by
    intro history type id item hitem
    change SocialGraph.resolveObject 3 type id = .ok (some item) at hitem
    unfold SocialGraph.resolveObject at hitem
    split at hitem
    · split at hitem <;> cases hitem
      exact ⟨_, rfl⟩
    · split at hitem <;> cases hitem
      exact ⟨_, rfl⟩
    · cases hitem
  obtain ⟨hmalloy, hsql, hcypher, hrun⟩ := same_of_marked_eq SocialGraph.catalog
    (behindFirst "user.id") (behindFirst ":id") hmarked hplain
  have hidentity : (behindFirst "user.id").Throughout Operation.SparesIdentity :=
    show _ ∧ _ ∧ _ ∧ _ ∧ _ from ⟨trivial, trivial, trivial, trivial, trivial⟩
  have hcolumns : (behindFirst "user.id").Throughout Operation.SparesColumns :=
    show _ ∧ _ ∧ _ ∧ (_ ∧ _) ∧ _ from
      ⟨trivial, trivial, trivial, ⟨by decide +kernel, by decide +kernel⟩, trivial⟩
  have hkeys : (behindFirst "user.id").Throughout Operation.SparesKey :=
    show _ ∧ _ ∧ _ ∧ _ ∧ _ from ⟨trivial, trivial, trivial, trivial, trivial⟩
  exact ⟨hmarked, hplain, hitems, by decide +kernel, hmalloy "db", by decide +kernel,
    hsql hidentity, (hcypher hcolumns).trans (by decide +kernel), hrun _ false hitems hkeys⟩

/-- Users whose identity, in a given spelling, is called their key. -/
def keyed (identity : String) : Query :=
  ⟨{ objectType := "User" }, [.rename identity "key"]⟩

/-- A rename finds the column that remembers `id` by this spelling alone. -/
theorem same_of_marked_eq_keyed :
    (keyed "id").marked = (keyed ":id").marked ∧
      (Cypher.compile SocialGraph.catalog (keyed "id")).toOption.map
          Cypher.Statement.text
        = some "MATCH (u:User)\nRETURN u.id AS key, u.name, u.age" ∧
      Cypher.compile SocialGraph.catalog (keyed ":id")
        = .error (.fieldNotFound ":id" (.type "User")) :=
  ⟨rfl, by decide +kernel, rfl⟩

end ObjectGraph
