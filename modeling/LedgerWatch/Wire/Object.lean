import LedgerWatch.OutputProof
import LedgerWatch.Wire.Format

/-!
# Encoded objects

The layout of the five kinds of object that the node sends in encoded form. Each is a record
written field by field in the order given here. A block ends with its nonce, so that the nonce can
be searched without encoding the block anew.

## Main definitions

- `Wire.ObjectKind`: the kinds
- `Wire.parameters`, `Wire.commitment`, `Wire.output`, `Wire.proof`, `Wire.block`: their formats
- `Wire.commitmentId`: the identifier of a commitment
-/

namespace LedgerWatch.Wire

inductive ObjectKind where
  | parameters
  | commitment
  | output
  | proof
  | block
  deriving DecidableEq

def ObjectKind.name : ObjectKind → String
  | parameters => "protocol parameters"
  | commitment => "commitment"
  | output => "output"
  | proof => "output ID proof"
  | block => "block"

def parameters : Format Parameters :=
  Format.via (.pair .uint8 <| .pair .text <| .pair .text <| .pair .uint8 <| .pair .uint32 .uint64)
    (fun p => (p.version, p.networkName, p.bech32Hrp, p.slotsPerEpochExponent, p.minPowScore,
      p.tokenSupply))
    (fun (version, networkName, bech32Hrp, exponent, score, supply) =>
      ⟨version, networkName, bech32Hrp, exponent, score, supply⟩)

def commitment : Format SlotCommitment :=
  Format.via (.pair .uint8 <| .pair .uint32 <| .pair .slotId <| .pair .hash <|
    .pair .uint64 .uint64)
    (fun c => (c.protocolVersion, c.slot, c.previousId, c.rootsId, c.cumulativeWeight,
      c.referenceManaCost))
    (fun (version, slot, previousId, rootsId, weight, cost) =>
      ⟨version, slot, previousId, rootsId, weight, cost⟩)

def output : Format TransactionOutput :=
  Format.via (.pair .uint64 <| .pair .uint64 <| .pair .hash <| .list .uint8)
    (fun o => (o.amount, o.mana, o.owner, o.features))
    (fun (amount, mana, owner, features) => ⟨amount, mana, owner, features⟩)

/-- Sides of a sibling, as a tag of four bytes: 0 for the left, 1 for the right. -/
def side : Format Merkle.Side where
  write
    | .left => Format.uint32.write 0
    | .right => Format.uint32.write 1
  read data := do
    let (tag, rest) ← Format.uint32.read data
    if tag = 0 then .ok (.left, rest)
    else if tag = 1 then .ok (.right, rest)
    else .error (.unknownTag tag 2)

def step : Format (Merkle.Step Hash) :=
  (Format.hash.pair side).via (fun s => (s.sibling, s.side))
    (fun (sibling, side) => ⟨sibling, side⟩)

def proof : Format OutputProof :=
  Format.via (.pair .uint32 <| .pair .hash <| .pair .uint16 <| .list step)
    (fun p => (p.slot, p.transactionCommitment, p.outputIndex, p.path))
    (fun (slot, commitment, index, path) => ⟨slot, commitment, index, path⟩)

def block : Format Block :=
  Format.via (.pair .uint8 <| .pair .uint64 <| .pair .uint64 <| .pair .slotId <| .pair .uint32 <|
    .pair (.list .slotId) <| .pair (.list .slotId) <| .pair (.list .slotId) <|
    .pair (.list .uint8) .uint64)
    (fun b => (b.protocolVersion, b.networkId, b.issuingTime, b.slotCommitmentId,
      b.latestFinalizedSlot, b.strongParents, b.weakParents, b.shallowLikeParents, b.payload,
      b.nonce))
    (fun (version, network, time, commitmentId, finalized, strong, weak, shallow, payload, nonce) =>
      ⟨version, network, time, commitmentId, finalized, strong, weak, shallow, payload, nonce⟩)

/-- The identifier of a commitment: the hash of its encoding, with its slot. -/
def commitmentId (c : SlotCommitment) : CommitmentId :=
  ⟨sha256 (commitment.encode c), c.slot⟩

end LedgerWatch.Wire
