import LedgerWatch.Codec
import LedgerWatch.Mining.Score

/-!
# Sealing blocks

A block is sealed by a nonce for which its encoding reaches the score asked for. The encoding ends
with the nonce, so the nonce is searched over the bytes before it. When a search takes too long, the
block is given fresh parents, encoded anew and searched again.

## Main definitions

- `SealEnv`: searches, cancellation and fresh parents, as they come from outside
- `SealPhase`: searching, or done
- `blockHead`: an encoded block without its nonce
- `beginSeal`, `sealStep`, `sealBlock`: the procedure

## Design notes

How a search ends and what a refresh brings is decided by the environment, which may keep a state of
its own. Sealing need not end, as parents may be refreshed for ever, so `sealBlock` runs a given
number of searches. Each step leaves a block, also when it fails, because parents once refreshed
stay.
-/

namespace LedgerWatch

/-- How a search ends. -/
inductive SearchEnd where
  | found (nonce : UInt64)
  | timedOut
  | cancelled
  /-- The workers came to grief. -/
  | failed (reason : String)
  deriving DecidableEq

/-- What sealing needs from outside. -/
structure SealEnv (ω : Type) where
  isCancelled : ω → Bool
  search : Bytes → UInt32 → ω → ω × SearchEnd
  /-- Fetches fresh parents, if there is a way to. -/
  refresh? : Option (ω → ω × Except Fault (List BlockId))

/-- Where sealing stands. -/
inductive SealPhase where
  | searching (block : Block) (head : Bytes)
  /-- The size of the encoded block, or why there is none. -/
  | done (block : Block) (result : Except Fault Nat)

def SealPhase.block : SealPhase → Block
  | searching block _ => block
  | done block _ => block

def blockHead (codec : Codec) (api : Parameters) (block : Block) : Except Fault Bytes :=
  match codec.encodeBlock block api with
  | .error fault => .error (.unencodable (.blockToMine fault.message))
  | .ok data =>
    if data.length < nonceLength then .error (.unencodable .shorterThanNonce)
    else .ok (data.take (data.length - nonceLength))

/-- The phase in which a block is to be searched. -/
def searchOver (codec : Codec) (api : Parameters) (block : Block) : SealPhase :=
  match blockHead codec api block with
  | .ok head => .searching block head
  | .error fault => .done block (.error fault)

variable {ω : Type}

/-- Seals a block that has its parents. A score of zero asks for no search, and only then does
sealing not heed cancellation. -/
def sealWithParents (env : SealEnv ω) (codec : Codec) (api : Parameters) (block : Block) (w : ω) :
    SealPhase :=
  if api.minPowScore = 0 then
    let block := { block with nonce := 0 }
    .done block ((codec.encodeBlock block api).map List.length)
  else if env.isCancelled w then .done block (.error .aborted)
  else searchOver codec api block

/-- The start of sealing. A block without parents is given some first. -/
def beginSeal (env : SealEnv ω) (codec : Codec) (api : Parameters) (block : Block) (w : ω) :
    ω × SealPhase :=
  if block.strongParents.isEmpty then
    match env.refresh? with
    | none => (w, .done block (.error .parentsNotGiven))
    | some refresh =>
      match refresh w with
      | (w, .error fault) => (w, .done block (.error fault))
      | (w, .ok parents) =>
        (w, sealWithParents env codec api { block with strongParents := parents } w)
  else (w, sealWithParents env codec api block w)

/-- Fresh parents after a search that took too long. -/
def retarget (env : SealEnv ω) (codec : Codec) (api : Parameters) (block : Block) (w : ω) :
    ω × SealPhase :=
  if env.isCancelled w then (w, .done block (.error .aborted))
  else
    match env.refresh? with
    | none => (w, .done block (.error (.internal "PoW timed out without a tip refresher")))
    | some refresh =>
      match refresh w with
      | (w, .error fault) =>
        (w, .done block (.error (if env.isCancelled w then .aborted else fault)))
      | (w, .ok parents) => (w, searchOver codec api { block with strongParents := parents })

/-- One search and what follows from its end. -/
def sealStep (env : SealEnv ω) (codec : Codec) (api : Parameters) :
    ω × SealPhase → ω × SealPhase
  | (w, .done block result) => (w, .done block result)
  | (w, .searching block head) =>
    match env.search head api.minPowScore w with
    | (w, .found nonce) =>
      (w, .done { block with nonce := nonce } (.ok (head.length + nonceLength)))
    | (w, .cancelled) => (w, .done block (.error .aborted))
    | (w, .failed reason) => (w, .done block (.error (.internal ("PoW worker failed: " ++ reason))))
    | (w, .timedOut) => retarget env codec api block w

/-- Sealing with at most `searches` searches. -/
def sealBlock (env : SealEnv ω) (codec : Codec) (api : Parameters) (block : Block) (searches : Nat)
    (w : ω) : ω × SealPhase :=
  Nat.repeat (sealStep env codec api) searches (beginSeal env codec api block w)

end LedgerWatch
