import LedgerWatch.Mining.Seal
import LedgerWatch.Mining.Search

/-!
# Searches under a clock

An environment for sealing in which time is counted in steps of a search. A search ends when it
finds a nonce, when its interval is over, or when the clock reaches the moment of cancellation,
whichever comes first.

## Main definitions

- `Clock`: the time, and when cancellation comes
- `Clock.search`: a search that the clock may end
- `clockedEnv`: the environment
-/

namespace LedgerWatch

/-- Time in steps of a search. -/
structure Clock where
  now : Nat := 0
  cancelled : Bool := false
  /-- When cancellation comes, if it comes by itself. -/
  cancelAt : Option Nat := none

namespace Clock

/-- The number of search steps in a millisecond. -/
def stepsPerMillisecond : Nat := 256

/-- What ends a search that has found nothing yet, and after how many steps. -/
inductive Limit where
  | interval (steps : Nat)
  | cancellation (steps : Nat)
  | unlimited

/-- The first event that ends a search with the given interval. -/
def limit (interval : Option Nat) (clock : Clock) : Limit :=
  match interval, clock.cancelAt with
  | none, none => .unlimited
  | some steps, none => .interval steps
  | none, some moment => .cancellation (moment - clock.now)
  | some steps, some moment =>
    if steps < moment - clock.now then .interval steps else .cancellation (moment - clock.now)

/-- A search. An interval that runs out raises the stop flag, and the search may still find a nonce
before its workers notice; after a cancellation nothing it finds counts. -/
def search (miner : Miner) (interval : Option Nat) (head : Bytes) (target : UInt32)
    (clock : Clock) : Clock × SearchEnd :=
  if clock.cancelled then (clock, .cancelled)
  else
    let begun := miner.start head target false
    match clock.limit interval with
    | .unlimited => (clock, ending begun.finish)
    | .interval steps =>
      ({ clock with now := clock.now + steps }, ending (begun.run 0 steps).raiseStop.finish)
    | .cancellation steps =>
      match (begun.run 0 steps).winner with
      | some nonce => (clock, .found nonce)
      | none => ({ clock with now := clock.now + steps, cancelled := true }, .cancelled)
where
  /-- How a search has ended. -/
  ending (s : NonceSearch) : SearchEnd :=
    match s.winner with
    | some nonce => .found nonce
    | none => .timedOut

end Clock

/-- Sealing under a clock. A search is bounded by the interval only if parents can be refreshed. -/
def clockedEnv {τ : Type} (miner : Miner) (interval : Nat)
    (refresh? : Option (Clock × τ → (Clock × τ) × Except Fault (List BlockId))) :
    SealEnv (Clock × τ) where
  isCancelled w := w.1.cancelled
  search head target w :=
    let (clock, ending) := w.1.search miner (refresh?.map fun _ => interval) head target
    ((clock, w.2), ending)
  refresh? := refresh?

/-- One answer of a scripted refresher. -/
structure RefreshAnswer where
  answer : Except RpcStatus (List BlockId)
  /-- Whether sealing is cancelled while the answer is fetched. -/
  cancels : Bool := false

/-- A refresher that gives its answers one after the other, and counts how often it was asked. -/
structure RefreshScript where
  answers : List RefreshAnswer
  calls : Nat := 0

namespace RefreshScript

/-- The next answer of a script. A script that has no more answers fails. -/
def refresh (w : Clock × RefreshScript) :
    (Clock × RefreshScript) × Except Fault (List BlockId) :=
  let (clock, script) := w
  match script.answers with
  | [] => ((clock, { script with calls := script.calls + 1 }),
      .error (.rpc (.unavailable "script exhausted")))
  | next :: answers =>
    (({ clock with cancelled := clock.cancelled || next.cancels },
      { answers, calls := script.calls + 1 }), next.answer.mapError .rpc)

end RefreshScript

/-- Seals a block with a scripted refresher, or without one. -/
def sealScripted (codec : Codec) (api : Parameters) (block : Block) (threads : UInt64)
    (interval : Nat) (script : Option (List RefreshAnswer)) (clock : Clock) :
    (Clock × RefreshScript) × SealPhase :=
  let answers := script.getD []
  let env := clockedEnv (Miner.ofThreads threads) (interval * Clock.stepsPerMillisecond)
    (script.map fun _ => RefreshScript.refresh)
  -- Every search but the last is followed by a call of the refresher.
  sealBlock env codec api block (answers.length + 2) (clock, { answers })

end LedgerWatch
