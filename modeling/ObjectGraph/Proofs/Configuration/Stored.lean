/-
# Configurations that are stored as JSON

A configuration is read from any document that holds what it is written as.  Settings that are
left out are those that the reader fills in, and a time that is not limited is written as `null`,
since leaving it out would stand for the limit that holds otherwise.
-/
import ObjectGraph.Configuration.Format
import ObjectGraph.Proofs.Catalog.Stored

namespace ObjectGraph

open Json (Document Decoded Origin Encodes HoldsMembers)
open Json.Document (Holds)

variable {doc : Document} {origin : Origin}

namespace Configuration

/-! ### Secrets and settings -/

lemma decodeSecret_of_holds {secret : Secret} (h : doc.Holds secret.toJson) :
    decodeSecret doc = .ok secret := by
  have hfault := h.firstFault
  cases secret with
  | plain value =>
    cases h
    rfl
  | fromEnvironment name =>
    have hparts : Encodes (fun name => if name = "variable" then some Json.decodeString else none)
        [("variable", .string name)] [("variable", name)] := .single rfl Json.decodeString_of_holds
    cases h with
    | object h =>
      have hmembers := hparts.decodeMembers_of_sublist (.refl ["variable"]) (by decide) h
      simp [decodeSecret, hfault, Json.unlessFault, decodeVariable, hmembers, bind, Except.bind,
        pure, Except.pure]

lemma decodeSeconds_of_holds {n : Option UInt64} (h : doc.Holds (secondsToJson n)) :
    (Json.decodeOption Json.decodeUInt64 doc).map PoolPart.seconds = .ok (.seconds n) := by
  cases n with
  | none =>
    rw [Json.decodeOption_of_null h]
    rfl
  | some n =>
    rw [Json.decodeOption_of_holds h nofun (Json.decodeUInt64_of_holds h)]
    rfl

lemma decodePoolSettings_of_holds {settings : PoolSettings} (h : doc.Holds settings.toJson) :
    decodePoolSettings origin doc = .ok settings := by
  have hconnections : Encodes poolPart [("maxConnections", .int settings.maxConnections.toNat)]
      [("maxConnections", .connections settings.maxConnections)] := .single rfl fun h => by
    rw [Json.decodeUInt32_of_holds h]
    rfl
  have htimeout : Encodes poolPart [("poolTimeout", .int settings.poolTimeout.toNat)]
      [("poolTimeout", .seconds (some settings.poolTimeout))] := .single rfl fun h => by
    rw [Json.decodeUInt64_of_holds h]
    rfl
  have hlimits : Encodes poolPart
      [("idleTimeout", secondsToJson settings.idleTimeout),
        ("connectionLifetime", secondsToJson settings.connectionLifetime)]
      [("idleTimeout", .seconds settings.idleTimeout),
        ("connectionLifetime", .seconds settings.connectionLifetime)] :=
    .cons rfl decodeSeconds_of_holds (.single rfl decodeSeconds_of_holds)
  rw [decodePoolSettings, ((hconnections.append htimeout).append hlimits).decodeRecord
    poolShape _ (.refl _) (by decide) h]
  rfl

lemma decodeMalloySettings_of_holds {settings : MalloySettings} (h : doc.Holds settings.toJson) :
    decodeMalloySettings origin doc = .ok settings := by
  have hparts : Encodes (fun name => if name = "connection" then some Json.decodeString else none)
      [("connection", .string settings.connection)] [("connection", settings.connection)] :=
    .single rfl Json.decodeString_of_holds
  have hfields := hparts.decodeRecord malloyShape origin (.refl _) (by decide) h
  exact (congrArg (· >>= _) hfields).trans rfl

/-! ### Configurations -/

/-- A configuration is read from what it is written as, with the settings that are left out. -/
lemma decode_of_holds {configuration : Configuration} (h : doc.Holds configuration.toJson) :
    decode origin doc = .ok configuration := by
  have hversion : Encodes (part origin) [("version", .int configuration.version.toNat)]
      [("version", .version configuration.version)] := .single rfl fun h => by
    rw [Json.decodeUInt32_of_holds h]
    rfl
  have huri : Encodes (part origin) [("connectionUri", configuration.connectionUri.toJson)]
      [("connectionUri", .connectionUri configuration.connectionUri)] := .single rfl fun h => by
    rw [decodeSecret_of_holds h]
    rfl
  have hpool : Encodes (part origin)
      (if configuration.poolSettings.isDefault then []
        else [("poolSettings", configuration.poolSettings.toJson)])
      (if configuration.poolSettings.isDefault then []
        else [("poolSettings", .poolSettings configuration.poolSettings)]) :=
    .leftOut _ rfl fun h => by
      rw [decodePoolSettings_of_holds h]
      rfl
  have hcatalog : Encodes (part origin) [("metadata", configuration.catalog.toJson)]
      [("metadata", .catalog configuration.catalog)] := .single rfl fun h => by
    rw [Catalog.decode_of_holds h]
    rfl
  have hmalloy : Encodes (part origin)
      (if configuration.malloy.isDefault then []
        else [("malloy", configuration.malloy.toJson)])
      (if configuration.malloy.isDefault then [] else [("malloy", .malloy configuration.malloy)]) :=
    .leftOut _ rfl fun h => by
      rw [decodeMalloySettings_of_holds h]
      rfl
  have hparts := (((hversion.append huri).append hpool).append hcatalog).append hmalloy
  rw [decode, hparts.decodeRecord shape _ _ (by decide) h]
  · obtain ⟨version, uri, pool, catalog, malloy⟩ := configuration
    -- what is left out is read as its default, which it was left out for
    have hdefault : pool.isDefault = true → pool = {} := of_decide_eq_true
    have hdefault' : malloy.isDefault = true → malloy = {} := of_decide_eq_true
    dsimp only
    cases hp : pool.isDefault <;> cases hm : malloy.isDefault
    · rfl
    · rw [hdefault' hm]
      rfl
    · rw [hdefault hp]
      rfl
    · rw [hdefault hp, hdefault' hm]
      rfl
  · simp only [Named.keys_append]
    exact (((Json.keys_leftOut _ "poolSettings" _).append_left ["version", "connectionUri"]).append
      (.refl ["metadata"])).append (Json.keys_leftOut _ "malloy" _)

end Configuration
end ObjectGraph
