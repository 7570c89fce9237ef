import LedgerWatch.Settings.Environment
import LedgerWatch.Text.Json

/-!
# Settings of a connection

Where the node is, which network it has to run, how often things are tried again, and how blocks are
mined. Settings come from the environment, where anything unset or unreadable stays at its default,
or from a JSON document, where anything unreadable is refused.

## Main definitions

- `MiningSettings`, `ConnectionSettings`
- `ConnectionSettings.ofEnvironment`, `ConnectionSettings.ofJson?`
-/

namespace LedgerWatch

/-- How many workers search for a nonce. -/
inductive Parallelism where
  /-- As many as the machine has processor cores. -/
  | everyCore
  | fixed (threads : UInt64)
  deriving DecidableEq

/-- The number of workers on a machine with the given number of cores. -/
def Parallelism.threads (cores : UInt64) : Parallelism → UInt64
  | everyCore => cores
  | fixed threads => threads

/-- How blocks are mined. -/
structure MiningSettings where
  parallelism : Parallelism := .everyCore
  /-- How long one set of parents is searched with. -/
  refreshSeconds : UInt64 := 5
  /-- How many tips are asked for. -/
  tipsCount : UInt32 := 8
  deriving DecidableEq

structure ConnectionSettings where
  address : String := "localhost:9029"
  /-- The network the node has to run. Without one, or with an empty one, any will do. -/
  targetNetwork : Option String := none
  /-- The least time between two statuses of the node. -/
  statusCooldownMs : UInt32 := 1000
  /-- The time between two checks for a capability of the node. -/
  retryIntervalMs : UInt64 := 1000
  mining : MiningSettings := {}
  deriving DecidableEq

namespace ConnectionSettings

/-- Short intervals and a single search thread. -/
def brisk : ConnectionSettings where
  statusCooldownMs := 10
  retryIntervalMs := 10
  mining := { parallelism := .fixed 1, refreshSeconds := 1, tipsCount := 2 }

/-- The network the node has to run, if it matters. -/
def requiredNetwork? (settings : ConnectionSettings) : Option String :=
  settings.targetNetwork.filter fun name => !name.isEmpty

def ofEnvironment (env : Environment) : ConnectionSettings :=
  let number (bound : Nat) (name : String) : Option Nat := do
    Decimal.read? bound (← env.get? name)
  let defaults : ConnectionSettings := {}
  { defaults with
    address := (env.get? "NODE_BRIDGE_ADDRESS").getD defaults.address
    targetNetwork := (env.get? "NODE_BRIDGE_TARGET_NETWORK").filter fun name => !name.isEmpty
    statusCooldownMs := ((number UInt32.size "NODE_BRIDGE_STATUS_COOLDOWN_MS").map
      UInt32.ofNat).getD defaults.statusCooldownMs
    mining := { defaults.mining with
      parallelism := ((number UInt64.size "NODE_BRIDGE_POW_PARALLELISM").map
        fun n => .fixed (UInt64.ofNat n)).getD defaults.mining.parallelism
      refreshSeconds := ((number UInt64.size "NODE_BRIDGE_POW_REFRESH_SECS").map
        UInt64.ofNat).getD defaults.mining.refreshSeconds } }

def uint32? (json : Json) : Option UInt32 := (json.natBelow? UInt32.size).map UInt32.ofNat

def uint64? (json : Json) : Option UInt64 := (json.natBelow? UInt64.size).map UInt64.ofNat

def miningOfJson? (json : Json) : Option MiningSettings := do
  let defaults : MiningSettings := {}
  match ← json.fields? ["parallelism", "refresh_tips_interval_secs", "tips_count"] with
  | [parallelism, refresh, tips] =>
    return {
      parallelism := ← Json.fieldOr defaults.parallelism
        (fun json => (uint64? json).map .fixed) parallelism
      refreshSeconds := ← Json.fieldOr defaults.refreshSeconds uint64? refresh
      tipsCount := ← Json.fieldOr defaults.tipsCount uint32? tips }
  | _ => none

def ofJson? (document : String) : Option ConnectionSettings := do
  let json ← Json.parse? document
  let defaults : ConnectionSettings := {}
  match ← json.fields? ["address", "target_network_name", "status_cooldown_ms",
      "capability_retry_interval_ms", "pow"] with
  | [address, target, cooldown, retry, mining] =>
    return {
      address := ← Json.fieldOr defaults.address Json.text? address
      targetNetwork := ← Json.fieldOr defaults.targetNetwork (Json.optional? Json.text?) target
      statusCooldownMs := ← Json.fieldOr defaults.statusCooldownMs uint32? cooldown
      retryIntervalMs := ← Json.fieldOr defaults.retryIntervalMs uint64? retry
      mining := ← Json.fieldOr defaults.mining miningOfJson? mining }
  | _ => none

end ConnectionSettings

end LedgerWatch
