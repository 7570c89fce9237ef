import LedgerWatch.Mining.Seal

/-!
# Encoded blocks end with their nonce

The nonce takes up the last eight bytes of an encoded block, and the bytes before it do not depend
on it.

## Main definitions

- `Wire.blockBody`: the bytes before the nonce

## Main results

- `Wire.encode_block`: an encoded block is its body with the nonce at the end
- `Wire.length_blockBody`: how long the body is
- `blockHead_standard`: the head over which a nonce is searched is the body
- `encodeBlock_splits`: encodings of one block with different nonces
-/

namespace LedgerWatch

namespace Wire

/-- The encoding of everything in a block but its nonce. -/
def blockBody (b : Block) : Bytes :=
  Format.uint8.write b.protocolVersion ++ (Format.uint64.write b.networkId ++
    (Format.uint64.write b.issuingTime ++ (Format.slotId.write b.slotCommitmentId ++
      (Format.uint32.write b.latestFinalizedSlot ++ ((Format.list .slotId).write b.strongParents ++
        ((Format.list .slotId).write b.weakParents ++
          ((Format.list .slotId).write b.shallowLikeParents ++
            (Format.list .uint8).write b.payload)))))))

/-- The body does not depend on the nonce. -/
@[simp] theorem blockBody_nonce (b : Block) (nonce : UInt64) :
    blockBody { b with nonce } = blockBody b := rfl

/-- An encoded block is its body with the nonce at the end. -/
theorem encode_block (b : Block) : block.encode b = withNonce (blockBody b) b.nonce := by
  simp only [Format.encode, block, Format.via, Format.pair, blockBody, withNonce, List.append_assoc]
  rfl

/-- The length of the body is that of its lists and of what stands between them. -/
theorem length_blockBody (b : Block) : (blockBody b).length =
    89 + 36 * (b.strongParents.length + b.weakParents.length + b.shallowLikeParents.length) +
      b.payload.length := by
  simp only [blockBody, List.length_append, Format.length_write_uint8, Format.length_write_uint32,
    Format.length_write_uint64, Format.length_write_slotId,
    Format.length_write_list Format.length_write_slotId,
    Format.length_write_list Format.length_write_uint8]
  omega

end Wire

@[simp] theorem length_withNonce (head : Bytes) (nonce : UInt64) :
    (withNonce head nonce).length = head.length + nonceLength := by
  simp [withNonce]

/-- The head over which a block's nonce is searched is its body, which every block has. -/
theorem blockHead_standard (api : Parameters) (b : Block) :
    blockHead Codec.standard api b = .ok (Wire.blockBody b) := by
  have hencode : Codec.standard.encodeBlock b api = .ok (withNonce (Wire.blockBody b) b.nonce) :=
    congrArg Except.ok (Wire.encode_block b)
  have hlong : ¬ (Wire.blockBody b).length + nonceLength < nonceLength := by omega
  simp only [blockHead, hencode, length_withNonce, if_neg hlong, Nat.add_sub_cancel]
  simp [withNonce]

/-- With every nonce, and under all parameters, a block is encoded as the same bytes and then the
eight of the nonce, lowest first. The bytes before the nonce are always found, and the parents and
the payload alone decide how many there are. -/
theorem encodeBlock_splits (b : Block) :
    ∃ body : Bytes, ∀ (api : Parameters) (nonce : UInt64),
      Codec.standard.encodeBlock { b with nonce } api = .ok (body ++ leBytes 8 nonce.toNat) ∧
      blockHead Codec.standard api { b with nonce } = .ok body ∧
      (body ++ leBytes 8 nonce.toNat).length =
        97 + 36 * (b.strongParents.length + b.weakParents.length + b.shallowLikeParents.length) +
          b.payload.length := by
  refine ⟨Wire.blockBody b, fun api nonce => ⟨?_, ?_, ?_⟩⟩
  · exact congrArg Except.ok (Wire.encode_block { b with nonce })
  · rw [blockHead_standard, Wire.blockBody_nonce]
  · rw [List.length_append, length_leBytes, Wire.length_blockBody]
    omega

end LedgerWatch
