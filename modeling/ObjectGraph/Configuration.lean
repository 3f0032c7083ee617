/-
# Configurations

What an engine needs to know: how to reach the database, how the object types are stored, and
what the outputs for other tools should name.  A secret may be left to the environment.
-/
import ObjectGraph.Catalog

namespace ObjectGraph

/-- A value, or the name of the environment variable that holds it. -/
inductive Secret
  | plain (value : String)
  | fromEnvironment (name : String)
deriving DecidableEq

/-- The settings of a pool of database connections; all times are in seconds. -/
structure PoolSettings where
  maxConnections : UInt32 := 50
  /-- How long to wait for a connection. -/
  poolTimeout : UInt64 := 30
  /-- After which time an unused connection is closed. -/
  idleTimeout : Option UInt64 := some 180
  /-- After which time a connection is closed in any case. -/
  connectionLifetime : Option UInt64 := some 600
deriving DecidableEq

/-- Whether all settings are the default ones. -/
def PoolSettings.isDefault (settings : PoolSettings) : Bool := settings = {}

/-- Settings for Malloy output. -/
structure MalloySettings where
  /-- The connection through which Malloy reads the tables. -/
  connection : String := "duckdb"
deriving DecidableEq

/-- Whether all settings are the default ones. -/
def MalloySettings.isDefault (settings : MalloySettings) : Bool := settings = {}

/-- A configuration as it is written down. -/
structure Configuration where
  version : UInt32
  connectionUri : Secret
  poolSettings : PoolSettings := {}
  catalog : Catalog := .empty
  malloy : MalloySettings := {}
deriving DecidableEq

namespace Configuration

/-- The version of the format. -/
def currentVersion : UInt32 := 1

/-- The environment variable that holds the connection string unless told otherwise. -/
def defaultVariable : String := "OBJQUERY_CONNECTION_URI"

/-- A configuration without object types. -/
def initial : Configuration where
  version := currentVersion
  connectionUri := .fromEnvironment defaultVariable

end Configuration

/-! ### Resolved configurations -/

/-- Environment variables with their values. -/
abbrev Environment := List (String × String)

/-- Why a configuration cannot be used. -/
inductive ConfigurationFault
  | missingVariable (name : String)
  | missingIdentity (type field : String)
  | unknownTarget (type edge target : String)
deriving DecidableEq

/-- What is said of a fault. -/
def ConfigurationFault.message : ConfigurationFault → String
  | missingVariable name =>
    "invalid configuration environment: the environment variable " ++ name ++ " is not set"
  | missingIdentity type field =>
    "invalid metadata: object type '" ++ type ++ "' has no identity field '" ++ field ++ "'"
  | unknownTarget type edge target =>
    "invalid metadata: edge '" ++ edge ++ "' of object type '" ++ type
      ++ "' leads to unknown object type '" ++ target ++ "'"

/-- A configuration that can be used: secrets are known and the catalog is complete. -/
structure Settings where
  catalog : Catalog
  poolSettings : PoolSettings
  connectionUri : String
  malloy : MalloySettings

/-- The value of a secret. -/
def Secret.reveal (environment : Environment) : Secret → Except ConfigurationFault String
  | plain value => .ok value
  | fromEnvironment name =>
    match environment.lookup name with
    | some value => .ok value
    | none => .error (.missingVariable name)

namespace Catalog

/-- What is wrong with an object type: its identity field is missing, or one of its edges leads
nowhere. -/
def faultOf (catalog : Catalog) (name : String) (type : ObjectType) :
    Option ConfigurationFault :=
  if type.identity?.isNone then some (.missingIdentity name type.idField)
  else
    type.edges.entries.findSome? fun (edge, found) =>
      if catalog.types.contains found.target then none
      else some (.unknownTarget name edge found.target)

/-- The first problem of a catalog, in the order of its types. -/
def fault? (catalog : Catalog) : Option ConfigurationFault :=
  catalog.types.entries.findSome? fun (name, type) => catalog.faultOf name type

end Catalog

namespace Configuration

/-- Resolve the secrets of a configuration and check its catalog. -/
def resolve (configuration : Configuration) (environment : Environment) :
    Except ConfigurationFault Settings := do
  let connectionUri ← configuration.connectionUri.reveal environment
  match configuration.catalog.fault? with
  | some fault => throw fault
  | none =>
    return {
      catalog := configuration.catalog
      poolSettings := configuration.poolSettings
      connectionUri
      malloy := configuration.malloy
    }

end Configuration
end ObjectGraph
