import LedgerWatch.Mining.Score

/-!
# The nonce search

Several workers search disjoint ranges of nonces. The first to claim a nonce wins, and the others
notice at their next check, which comes every few thousand nonces. The search can be stopped from
outside, which workers notice in the same way.

## Main definitions

- `Miner`: how many workers there are, and the range of each
- `Worker`: where a worker stands in its range
- `NonceSearch`: a search in progress
- `NonceSearch.step`: one step of one worker
- `NonceSearch.run`: steps of one worker until it has stopped
- `Miner.mine`: a whole search

## Design notes

`step` takes the number of the worker that moves, so every interleaving of the workers is a list of
such numbers. `mine` is the interleaving in which each worker runs until it stops.
-/

namespace LedgerWatch

/-- How many workers search. -/
structure Miner where
  threads : UInt64
  threads_pos : 0 < threads

/-- A miner with the wanted number of workers, and at least one. -/
def Miner.ofThreads (wanted : UInt64) : Miner :=
  if h : wanted = 0 then ⟨1, UInt64.zero_lt_one⟩ else ⟨wanted, by
    rw [UInt64.lt_iff_toNat_lt]
    have : wanted.toNat ≠ 0 := fun h' => h (UInt64.toNat_inj.mp h')
    simpa using Nat.pos_of_ne_zero this⟩

namespace Miner

/-- The largest nonce. It is in nobody's range. -/
def lastNonce : UInt64 := 0xFFFFFFFFFFFFFFFF

/-- The length of every range but the last. -/
def rangeLength (m : Miner) : UInt64 := lastNonce / m.threads

/-- The first nonce of a worker's range. -/
def rangeStart (m : Miner) (worker : UInt64) : UInt64 := worker * m.rangeLength

/-- The nonce after a worker's range. The last range takes what the division leaves over. -/
def rangeEnd (m : Miner) (worker : UInt64) : UInt64 :=
  if worker = m.threads - 1 then lastNonce else m.rangeStart worker + m.rangeLength

end Miner

/-- What a worker does next. -/
inductive WorkerState where
  /-- It tries its next nonce. -/
  | searching
  /-- It claims a nonce that reaches the target. -/
  | claiming (nonce : UInt64)
  | stopped
  deriving DecidableEq

/-- A worker and its range. -/
structure Worker where
  first : UInt64
  next : UInt64
  limit : UInt64
  state : WorkerState := .searching

/-- A search in progress. -/
structure NonceSearch where
  head : Bytes
  target : UInt32
  /-- Raised to end the search. -/
  stop : Bool
  /-- The nonce claimed first. -/
  winner : Option UInt64 := none
  workers : List Worker

/-- The number of nonces a worker tries between two checks. -/
def checkInterval : UInt64 := 4096

namespace NonceSearch

/-- The next step of a worker. At a check it stops if the search is over; otherwise it tries a
nonce, and in the step after a hit it claims it. -/
def stepWorker (s : NonceSearch) (w : Worker) : Worker :=
  match w.state with
  | .stopped => w
  | .claiming _ => { w with state := .stopped }
  | .searching =>
    if w.next = w.limit then { w with state := .stopped }
    else if (w.next - w.first) % checkInterval = 0 && (s.winner.isSome || s.stop) then
      { w with state := .stopped }
    else if reaches s.head s.target w.next then { w with state := .claiming w.next }
    else { w with next := w.next + 1 }

/-- The nonce claimed once a worker has made its next step: the first claim stands. -/
def winnerAfter (s : NonceSearch) (w : Worker) : Option UInt64 :=
  match w.state with
  | .claiming nonce => s.winner.or (some nonce)
  | .searching | .stopped => s.winner

def step (i : Nat) (s : NonceSearch) : NonceSearch :=
  match s.workers[i]? with
  | none => s
  | some w => { s with winner := s.winnerAfter w, workers := s.workers.set i (s.stepWorker w) }

/-- Ends the search from outside. -/
def raiseStop (s : NonceSearch) : NonceSearch := { s with stop := true }

/-- Whether the worker with a number has stopped. -/
def isStopped (i : Nat) (s : NonceSearch) : Bool :=
  match s.workers[i]? with
  | none => true
  | some w => w.state == .stopped

/-- At most `n` steps of one worker. -/
def run (i : Nat) : Nat → NonceSearch → NonceSearch
  | 0, s => s
  | n + 1, s => if s.isStopped i then s else run i n (s.step i)

/-- A number of steps in which the worker with a number comes to its end: one for each nonce left,
one to claim and one to stop. -/
def stepsLeft (i : Nat) (s : NonceSearch) : Nat :=
  match s.workers[i]? with
  | none => 0
  | some w => (w.limit - w.next).toNat + 2

/-- Runs the workers one after the other until they have stopped. -/
def finish (s : NonceSearch) : NonceSearch :=
  (List.range s.workers.length).foldl (fun s i => s.run i (s.stepsLeft i)) s

end NonceSearch

namespace Miner

def start (m : Miner) (head : Bytes) (target : UInt32) (stop : Bool) : NonceSearch where
  head := head
  target := target
  stop := stop
  workers := (List.range m.threads.toNat).map fun i =>
    let first := m.rangeStart (UInt64.ofNat i)
    { first, next := first, limit := m.rangeEnd (UInt64.ofNat i) }

/-- The nonce that a search finds, if it finds any. -/
def mine (m : Miner) (head : Bytes) (target : UInt32) (stop : Bool) : Option UInt64 :=
  (m.start head target stop).finish.winner

end Miner

end LedgerWatch
