import LedgerWatch.Ledger.Assembler

/-!
# The status cache

The latest picture of the node: its last status, its latest commitment and its latest finalized
commitment. A status under parameters of another version, or whose parameters do not decode, is
refused as a whole. Each commitment moves forward only, on its own, and stays where it is if the
new one does not decode.

## Main definitions

- `NodeStatus`: an accepted status
- `StatusCache`: the picture
- `StatusCache.apply`: the picture after a status, and the commitments that moved
- `Progress.events`, `Progress.latestChanged`, `Progress.finalizedChanged`: what is announced of
  them, and what the caller is told
- `StatusCache.context`: the picture as a batch sees it

## Design notes

Applying a status has two moments: the picture changes as a whole, and the commitments that moved
are announced afterwards. `apply` is the first moment, and what it returns is announced in the
second, so that both may be interleaved with other steps.
-/

namespace LedgerWatch

/-- The protocol version that this library decodes. -/
def supportedVersion : UInt8 := 3

/-- A status of the node that was accepted. The identifiers are those announced, whether or not the
commitments under them were taken over. -/
structure NodeStatus where
  isHealthy : Bool
  latestId : Option CommitmentId
  finalizedId : Option CommitmentId
  pruningEpoch : Epoch
  parameters : Parameters
  deriving DecidableEq

/-- The picture of the node. -/
structure StatusCache where
  status : Option NodeStatus := none
  latest : Option Commitment := none
  finalized : Option Commitment := none
  deriving DecidableEq

/-- Decodes parameters after checking their version tag. The version inside is not compared. -/
def decodeRawParameters (codec : Codec) (raw : RawParameters) : Except Fault Parameters :=
  if raw.protocolVersion = supportedVersion then codec.decodeParameters raw.params
  else .error (.unsupportedVersion raw.protocolVersion supportedVersion)

/-- Decodes a commitment and keeps the identifier that the node claims for it. -/
def decodeRawCommitment (codec : Codec) (api : Parameters) (raw : RawCommitment) :
    Except Fault Commitment := do
  let content ← codec.decodeCommitment raw.data api
  return { id := raw.id, content }

/-- Whether a commitment lies strictly ahead of the one known, if one is known. -/
def advances (known : Option Commitment) (raw : RawCommitment) : Bool :=
  match known with
  | none => true
  | some commitment => commitment.slot < raw.id.slot

/-- The commitment that replaces the one known: the announced one, if it lies ahead and decodes. -/
def replacement? (codec : Codec) (api : Parameters) (known : Option Commitment)
    (raw : Option RawCommitment) : Option Commitment :=
  match raw with
  | none => none
  | some raw =>
    if advances known raw then (decodeRawCommitment codec api raw).toOption else none

/-- The commitments that an update moved. -/
structure Progress where
  latest : Option Commitment
  finalized : Option Commitment
  deriving DecidableEq

/-- Whether the latest commitment moved, as the caller of an update is told. -/
def Progress.latestChanged (progress : Progress) : Bool := progress.latest.isSome

/-- Whether the finalized commitment moved, as the caller of an update is told. -/
def Progress.finalizedChanged (progress : Progress) : Bool := progress.finalized.isSome

/-- A commitment moved. -/
inductive StatusEvent where
  | latestChanged (commitment : Commitment)
  | finalizedChanged (commitment : Commitment)
  deriving DecidableEq

/-- What is announced after an update: the latest commitment before the finalized one. -/
def Progress.events (progress : Progress) : List StatusEvent :=
  (progress.latest.map .latestChanged).toList ++
    (progress.finalized.map .finalizedChanged).toList

namespace StatusCache

def empty : StatusCache := {}

/-- The picture after a status, and what moved. -/
def apply (codec : Codec) (raw : RawStatus) (cache : StatusCache) :
    Except Fault (StatusCache × Progress) := do
  let api ← decodeRawParameters codec raw.parameters
  let latest := replacement? codec api cache.latest raw.latest
  let finalized := replacement? codec api cache.finalized raw.finalized
  let status : NodeStatus := {
    isHealthy := raw.isHealthy
    latestId := raw.latest.map (·.id)
    finalizedId := raw.finalized.map (·.id)
    pruningEpoch := raw.pruningEpoch
    parameters := api }
  return ({
    status := some status
    latest := latest.or cache.latest
    finalized := finalized.or cache.finalized }, { latest, finalized })

def parameters? (cache : StatusCache) : Option Parameters :=
  cache.status.map (·.parameters)

/-- The parameters of the last status, which must be known. -/
def parameters (cache : StatusCache) : Except Fault Parameters :=
  match cache.parameters? with
  | some api => .ok api
  | none => .error .statusUnavailable

/-- The parameters for objects of a slot, which are those of the last status for every slot. -/
def apiForSlot (cache : StatusCache) (_slot : Slot) : Except Fault Parameters :=
  cache.parameters

/-- The identifier of the latest commitment, or the empty one. -/
def latestCommitmentId (cache : StatusCache) : CommitmentId :=
  match cache.latest with
  | some commitment => commitment.id
  | none => .empty

/-- The slot of the latest commitment, or zero. -/
def latestSlot (cache : StatusCache) : Slot :=
  match cache.latest with
  | some commitment => commitment.slot
  | none => 0

/-- The slot of the latest finalized commitment, or zero. -/
def finalizedSlot (cache : StatusCache) : Slot :=
  match cache.finalized with
  | some commitment => commitment.slot
  | none => 0

/-- Whether the node called itself healthy in its last status. -/
def isHealthy (cache : StatusCache) : Bool :=
  cache.status.any (·.isHealthy)

/-- The picture as a batch sees it. -/
def context (cache : StatusCache) : BatchContext where
  apiForSlot := cache.apiForSlot
  latestCommitmentId := cache.latestCommitmentId

end StatusCache

end LedgerWatch
