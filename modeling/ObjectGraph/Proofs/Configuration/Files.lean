/-
# The files of a configuration

The file that is written for a configuration is read back as that configuration, whatever lay in
its directory before.  A configuration of another version is written as well, and refused when it
is read.
-/
import ObjectGraph.Command
import ObjectGraph.Proofs.Command.Files
import ObjectGraph.Proofs.Configuration.Stored
import ObjectGraph.Proofs.Json.ReadingBack

namespace ObjectGraph

open Json (Readable)

variable {room : Nat} {ms ms' : List (String × Json)}

/-! ### What is written can be read -/

/-- Every member can be read. -/
def ReadableMembers (room : Nat) (members : List (String × Json)) : Prop :=
  ∀ member ∈ members, Readable room member.2

@[simp] lemma readableMembers_nil : ReadableMembers room [] := nofun

@[simp] lemma readableMembers_cons {name : String} {value : Json} :
    ReadableMembers room ((name, value) :: ms) ↔ Readable room value ∧ ReadableMembers room ms :=
  List.forall_mem_cons

@[simp] lemma readableMembers_append :
    ReadableMembers room (ms ++ ms') ↔ ReadableMembers room ms ∧ ReadableMembers room ms' :=
  List.forall_mem_append

@[simp] lemma readableMembers_optional {name : String} {text : Option String} :
    ReadableMembers room (optionalMember name text) := by
  cases text with
  | none => exact nofun
  | some s => exact List.forall_mem_singleton.2 .string

lemma readableMembers_leftOut {b : Bool} {name : String} {value : Json}
    (h : Readable room value) :
    ReadableMembers room (if b then [] else [(name, value)]) := by
  split
  · exact readableMembers_nil
  · exact List.forall_mem_singleton.2 h

lemma readable_entries {α : Type} {entries : List (String × α)} {encode : α → Json}
    (h : ∀ x, Readable room (encode x)) :
    Readable (room + 1) (.object (entries.map fun (name, x) => (name, encode x))) :=
  .object fun _ hm => by
    obtain ⟨entry, -, rfl⟩ := List.mem_map.1 hm
    exact h entry.2

lemma readable_object (h : ReadableMembers room ms) : Readable (room + 1) (.object ms) :=
  .object h

lemma Field.readable_toJson (field : Field) : Readable (room + 1) field.toJson :=
  readable_object (by simp [Readable.string])

lemma Join.readable_toJson (join : Join) : Readable (room + 2) join.toJson := by
  cases join with
  | columns mapping =>
    have hmapping : Readable (room + 1) (mapToJson .string mapping) :=
      readable_entries fun _ => .string
    exact readable_object (by simp [Readable.string, hmapping])
  | through => exact readable_object (by simp [Readable.string])

lemma Edge.readable_toJson (edge : Edge) : Readable (room + 3) edge.toJson :=
  readable_object (by simp [Readable.string, edge.join.readable_toJson])

lemma ObjectType.readable_toJson (type : ObjectType) : Readable (room + 5) type.toJson := by
  have hfields : Readable (room + 4) (mapToJson Field.toJson type.fields) :=
    readable_entries Field.readable_toJson
  have hedges : Readable (room + 4) (mapToJson Edge.toJson type.edges) :=
    readable_entries Edge.readable_toJson
  exact readable_object (by simp [Readable.string, hfields, readableMembers_leftOut hedges])

lemma Catalog.readable_toJson (catalog : Catalog) : Readable (room + 7) catalog.toJson := by
  refine readable_object (readableMembers_cons.2 ⟨?_, readableMembers_nil⟩)
  exact readable_entries ObjectType.readable_toJson

lemma Secret.readable_toJson (secret : Secret) : Readable (room + 1) secret.toJson := by
  cases secret with
  | plain => exact .string
  | fromEnvironment => exact readable_object (by simp [Readable.string])

lemma readable_seconds (n : Option UInt64) : Readable room (secondsToJson n) := by
  cases n with
  | none => exact .null
  | some n => exact .int n.toNat_lt_size

lemma readable_uint32 (n : UInt32) : Readable room (.int n.toNat) :=
  .int (Nat.lt_trans n.toNat_lt_size (by decide))

lemma PoolSettings.readable_toJson (settings : PoolSettings) :
    Readable (room + 1) settings.toJson :=
  readable_object (by
    simp [readable_seconds, readable_uint32, Readable.int settings.poolTimeout.toNat_lt_size])

lemma MalloySettings.readable_toJson (settings : MalloySettings) :
    Readable (room + 1) settings.toJson :=
  readable_object (by simp [Readable.string])

namespace Configuration

/-- A configuration lies within the limits of the reader. -/
lemma readable_toJson (room : Nat) (configuration : Configuration) :
    Readable (room + 8) configuration.toJson :=
  readable_object (by
    simp [readable_uint32, configuration.connectionUri.readable_toJson,
      readableMembers_leftOut configuration.poolSettings.readable_toJson,
      configuration.catalog.readable_toJson,
      readableMembers_leftOut configuration.malloy.readable_toJson])

/-! ### Texts and files -/

/-- The text of a configuration holds it, and is refused for its version alone. -/
lemma parse_text (configuration : Configuration) :
    parse configuration.text = checkVersion configuration := by
  obtain ⟨doc, hdoc, hread⟩ :=
    (configuration.readable_toJson 119).read_write (some 0)
  have hdecode : Json.decodeText (decode .text) configuration.text = .ok configuration := by
    have hread : Json.read configuration.text = ⟨doc, none⟩ := hread
    simp [Json.decodeText, hread, decode_of_holds hdoc, Json.unlessFault, bind, Except.bind,
      pure, Except.pure]
  rw [parse, hdecode]

end Configuration

namespace Command

/-- The file of the schema that is written next to a configuration lies at another place. -/
lemma read_configurationFiles (configuration : Configuration) (files : Files)
    (directory : String) :
    (files.writeAll (configurationFiles configuration directory)).read
      (Path.join directory configurationFile) = .ok configuration.text :=
  Files.read_write_of_ne
    (Path.place_join_ne (by decide) ⟨by decide, by simp [configurationFile], by decide⟩
      ⟨by decide, by simp [schemaFile], by decide⟩) Files.read_write

/-- The files that are written for a configuration are read back as that configuration if its
version is the current one, and are refused for their version if it is any other. -/
theorem readConfiguration_writeAll (configuration : Configuration) (files : Files)
    (directory : String) :
    readConfiguration (files.writeAll (configurationFiles configuration directory)) directory =
      if configuration.version = Configuration.currentVersion then .ok configuration
      else .error (.configuration (Path.join directory configurationFile)
        (.unsupportedVersion configuration.version)) := by
  rw [readConfiguration, read_configurationFiles]
  simp only [Except.mapError, bind, Except.bind, configuration.parse_text,
    Configuration.checkVersion]
  by_cases hversion : configuration.version = Configuration.currentVersion <;> simp [hversion]

end Command
end ObjectGraph
