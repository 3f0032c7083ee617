/-
# Configurations in JSON

How a configuration is written down and read back.  Settings that are all default ones are left
out, and settings that are not given are the default ones.
-/
import ObjectGraph.Catalog.Format
import ObjectGraph.Configuration
import ObjectGraph.Json.Writer

namespace ObjectGraph

open Json (Decoded DecodeError Document Origin Shape decodeOption decodeRecord decodeString
  decodeUInt32 decodeUInt64)

/-! ### Writing -/

/-- A secret that is written out, or the name of the variable that holds it. -/
def Secret.toJson : Secret → Json
  | plain value => .string value
  | fromEnvironment name => .object [("variable", .string name)]

/-- A number of seconds, or `null` if there is no limit. -/
def secondsToJson : Option UInt64 → Json
  | some n => .int n.toNat
  | none => .null

/-- Pool settings as a record of all their members. -/
def PoolSettings.toJson (settings : PoolSettings) : Json :=
  .object
    [("maxConnections", .int settings.maxConnections.toNat),
     ("poolTimeout", .int settings.poolTimeout.toNat),
     ("idleTimeout", secondsToJson settings.idleTimeout),
     ("connectionLifetime", secondsToJson settings.connectionLifetime)]

/-- Settings for Malloy as a record. -/
def MalloySettings.toJson (settings : MalloySettings) : Json :=
  .object [("connection", .string settings.connection)]

namespace Configuration

/-- A configuration as a record; settings that are the default are left out. -/
def toJson (configuration : Configuration) : Json :=
  .object <|
    [("version", .int configuration.version.toNat),
     ("connectionUri", configuration.connectionUri.toJson)]
    ++ (if configuration.poolSettings.isDefault then []
        else [("poolSettings", configuration.poolSettings.toJson)])
    ++ [("metadata", configuration.catalog.toJson)]
    ++ (if configuration.malloy.isDefault then []
        else [("malloy", configuration.malloy.toJson)])

/-- The text of a configuration file. -/
def text (configuration : Configuration) : String :=
  configuration.toJson.pretty ++ "\n"

/-! ### Reading -/

/-- The variable that an object names. -/
def decodeVariable (members : List (String × Document)) : Decoded String := do
  let part := fun name => if name = "variable" then some decodeString else none
  let parts ← Json.decodeMembers part [] members
  match parts.lookup "variable" with
  | some name => return name
  | none => Json.refuse (.missingField "variable")

/-- Read a secret.  Whatever keeps it from being either kind, it is said to match neither. -/
def decodeSecret (doc : Document) : Decoded Secret := do
  Json.unlessFault doc.firstFault
  match doc with
  | .string _ s => return .plain s
  | .record _ _ members _ _ =>
    match decodeVariable members with
    | .ok name => return .fromEnvironment name
    | .error _ => Json.refuse (.noVariant "Secret")
  | _ => Json.refuse (.noVariant "Secret")

/-- What the members of pool settings may hold. -/
inductive PoolPart
  | connections (n : UInt32)
  | seconds (n : Option UInt64)

/-- The members that pool settings may have. -/
def poolShape : Shape where
  expected := "struct PoolSettings"
  names := ["maxConnections", "poolTimeout", "idleTimeout", "connectionLifetime"]

/-- How a member of pool settings is read. -/
def poolPart (name : String) : Option (Document → Decoded PoolPart) :=
  match name with
  | "maxConnections" => some fun doc => (decodeUInt32 doc).map .connections
  | "poolTimeout" => some fun doc => (decodeUInt64 doc).map fun n => .seconds (some n)
  | "idleTimeout" | "connectionLifetime" =>
    some fun doc => (decodeOption decodeUInt64 doc).map .seconds
  | _ => none

/-- Every member of pool settings may be left out. -/
def decodePoolSettings (origin : Origin) (doc : Document) : Decoded PoolSettings := do
  let fields ← decodeRecord poolShape origin poolPart doc
  let standard : PoolSettings := {}
  let seconds := fun | PoolPart.seconds n => some n | _ => none
  let connections := fun | PoolPart.connections n => some n | _ => none
  return {
    maxConnections := fields.optional "maxConnections" connections standard.maxConnections
    poolTimeout := (fields.optional "poolTimeout" seconds none).getD standard.poolTimeout
    idleTimeout := fields.optional "idleTimeout" seconds standard.idleTimeout
    connectionLifetime :=
      fields.optional "connectionLifetime" seconds standard.connectionLifetime
  }

/-- The only member of settings for Malloy. -/
def malloyShape : Shape where
  expected := "struct MalloySettings"
  names := ["connection"]

/-- The connection may be left out. -/
def decodeMalloySettings (origin : Origin) (doc : Document) : Decoded MalloySettings := do
  let part := fun name => if name = "connection" then some decodeString else none
  let fields ← decodeRecord malloyShape origin part doc
  let standard : MalloySettings := {}
  return { connection := fields.optional "connection" some standard.connection }

/-- What the members of a configuration may hold. -/
inductive Part
  | version (n : UInt32)
  | connectionUri (secret : Secret)
  | poolSettings (settings : PoolSettings)
  | catalog (c : Catalog)
  | malloy (settings : MalloySettings)

/-- The members that a configuration may have. -/
def shape : Shape where
  expected := "struct ParsedConfiguration"
  names := ["version", "connectionUri", "poolSettings", "metadata", "malloy"]

/-- How a member of a configuration is read. -/
def part (origin : Origin) (name : String) : Option (Document → Decoded Part) :=
  match name with
  | "version" => some fun doc => (decodeUInt32 doc).map .version
  | "connectionUri" => some fun doc => (decodeSecret doc).map .connectionUri
  | "poolSettings" => some fun doc => (decodePoolSettings origin doc).map .poolSettings
  | "metadata" => some fun doc => (Catalog.decode origin doc).map .catalog
  | "malloy" => some fun doc => (decodeMalloySettings origin doc).map .malloy
  | _ => none

/-- Read a configuration of any version. -/
def decode (origin : Origin) (doc : Document) : Decoded Configuration := do
  let fields ← decodeRecord shape origin (part origin) doc
  let version ← fields.require "version" fun | .version n => some n | _ => none
  let connectionUri ← fields.require "connectionUri" fun
    | .connectionUri secret => some secret
    | _ => none
  return {
    version, connectionUri
    poolSettings :=
      fields.optional "poolSettings" (fun | .poolSettings s => some s | _ => none) {}
    catalog := fields.optional "metadata" (fun | .catalog c => some c | _ => none) .empty
    malloy := fields.optional "malloy" (fun | .malloy s => some s | _ => none) {}
  }

/-- Why a text is no configuration. -/
inductive FormatError
  | unreadable (e : DecodeError)
  | unsupportedVersion (version : UInt32)
deriving DecidableEq

/-- Read a configuration of the current version. -/
def checkVersion (configuration : Configuration) : Except FormatError Configuration :=
  if configuration.version = currentVersion then .ok configuration
  else .error (.unsupportedVersion configuration.version)

/-- The configuration that a text holds. -/
def parse (text : String) : Except FormatError Configuration :=
  match Json.decodeText (decode .text) text with
  | .ok configuration => checkVersion configuration
  | .error e => .error (.unreadable e)

end Configuration
end ObjectGraph
