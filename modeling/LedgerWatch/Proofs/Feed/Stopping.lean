import LedgerWatch.Proofs.Feed
import LedgerWatch.Rehearsal.Consumer

/-!
# Where a loop over a stream stops

A loop over a stream that ends takes the items up to its first reason to stop, each once and in
order, and looks at nothing behind it. There are four such reasons, and where several meet at one
place the first of them in this order decides: the loop is cancelled, the stream ends or breaks off,
the consumer fails.

## Main definitions

- `Feed.Stop`: why a loop takes no further items
- `Feed.Takes`: items that give no reason to stop
- `Feed.Stops`: a reason to stop at a place of a stream
- `Feed.noting`: a consumer that writes down its calls

## Main results

- `Feed.exists_stop`: every stream has a first reason to stop
- `Feed.Takes.consume`, `Feed.Stops.consume`: what the loop makes of both
- `Feed.consume_exact`: the calls of the consumer and the result of the loop
-/

namespace LedgerWatch.Feed

variable {α σ : Type}

/-- Why a loop takes no further items. -/
inductive Stop (α : Type) where
  | cancelled
  /-- The stream is at its end. -/
  | ended
  | broken (status : RpcStatus)
  | failed (item : α) (fault : Fault)

namespace Stop

/-- The result of a loop that stops for a reason. -/
def result : Stop α → Except Fault Unit
  | cancelled | ended => .ok ()
  | broken status => if status.isCancelled then .ok () else .error (.rpc status)
  | failed _ fault => .error fault

/-- The item that is still given to the consumer where the loop stops. -/
def lastItem? : Stop α → Option α
  | failed item _ => some item
  | cancelled | ended | broken _ => none

/-- The state in which the loop ends. -/
def after (consumer : α → σ → σ × Except Fault Unit) (s : σ) (stop : Stop α) : σ :=
  match stop.lastItem? with
  | some item => (consumer item s).1
  | none => s

end Stop

/-- A consumer that writes down the items it is called with, oldest first. -/
def noting (consumer : α → σ → σ × Except Fault Unit) (item : α) (s : σ × List α) :
    (σ × List α) × Except Fault Unit :=
  (((consumer item s.1).1, s.2 ++ [item]), (consumer item s.1).2)

section Loop

variable (isCancelled : σ → Bool) (consumer : α → σ → σ × Except Fault Unit)

/-- Items that a loop takes one after the other: it is cancelled before none of them, and its
consumer fails on none. -/
inductive Takes : σ → List α → σ → Prop
  | nil (s : σ) : Takes s [] s
  | cons {s s' : σ} {item : α} {items : List α} (hrunning : isCancelled s = false)
      (htaken : (consumer item s).2 = .ok ()) (hrest : Takes (consumer item s).1 items s') :
      Takes s (item :: items) s'

/-- The loop stops before it takes the next item of a stream, or with that item. What comes later in
the stream plays no role. -/
inductive Stops (s : σ) : List (Except RpcStatus α) → Stop α → Prop
  | cancelled {later : List (Except RpcStatus α)} (hcancelled : isCancelled s = true) :
      Stops s later .cancelled
  | ended (hrunning : isCancelled s = false) : Stops s [] .ended
  | broken {status : RpcStatus} {later : List (Except RpcStatus α)}
      (hrunning : isCancelled s = false) : Stops s (.error status :: later) (.broken status)
  | failed {item : α} {fault : Fault} {later : List (Except RpcStatus α)}
      (hrunning : isCancelled s = false) (hfailed : (consumer item s).2 = .error fault) :
      Stops s (.ok item :: later) (.failed item fault)

end Loop

variable {isCancelled : σ → Bool} {consumer : α → σ → σ × Except Fault Unit}
  {s s' : σ} {taken : List α} {rest : List (Except RpcStatus α)} {stop : Stop α}

/-- Every stream has a first reason to stop. -/
theorem exists_stop (isCancelled : σ → Bool) (consumer : α → σ → σ × Except Fault Unit)
    (items : List (Except RpcStatus α)) (s : σ) :
    ∃ taken rest s' stop, items = taken.map .ok ++ rest ∧
      Takes isCancelled consumer s taken s' ∧ Stops isCancelled consumer s' rest stop := by
  induction items generalizing s with
  | nil =>
    cases hcancelled : isCancelled s with
    | true => exact ⟨[], [], s, .cancelled, rfl, .nil s, .cancelled hcancelled⟩
    | false => exact ⟨[], [], s, .ended, rfl, .nil s, .ended hcancelled⟩
  | cons entry later ih =>
    cases hcancelled : isCancelled s with
    | true => exact ⟨[], entry :: later, s, .cancelled, rfl, .nil s, .cancelled hcancelled⟩
    | false =>
      cases entry with
      | error status =>
        exact ⟨[], _, s, .broken status, rfl, .nil s, .broken hcancelled⟩
      | ok item =>
        cases hresult : (consumer item s).2 with
        | error fault =>
          exact ⟨[], _, s, .failed item fault, rfl, .nil s, .failed hcancelled hresult⟩
        | ok =>
          obtain ⟨taken, rest, s', stop, rfl, htaken, hstop⟩ := ih (consumer item s).1
          exact ⟨item :: taken, rest, s', stop, rfl, .cons hcancelled hresult htaken, hstop⟩

/-- The loop goes on behind the items it takes. -/
theorem Takes.consume (h : Takes isCancelled consumer s taken s')
    (rest : List (Except RpcStatus α)) :
    consume isCancelled consumer true (taken.map .ok ++ rest) s =
      consume isCancelled consumer true rest s' := by
  induction h with
  | nil s => rfl
  | cons hrunning htaken hrest ih =>
    rw [List.map_cons, List.cons_append, consume_taken hrunning htaken, ih]

/-- The loop ends where there is a reason to stop. -/
theorem Stops.consume (h : Stops isCancelled consumer s rest stop) :
    consume isCancelled consumer true rest s =
      (stop.after consumer s, .finished stop.result) := by
  cases h with
  | cancelled hcancelled => exact consume_of_isCancelled hcancelled rest
  | ended hrunning => simp [Feed.consume, Stop.after, Stop.lastItem?, Stop.result]
  | @broken status later hrunning =>
    by_cases h : status.isCancelled = true <;>
      simp [Feed.consume, Stop.after, Stop.lastItem?, Stop.result, hrunning, h]
  | @failed item fault later hrunning hfailed => exact consume_failed hrunning hfailed later

theorem Takes.noting (h : Takes isCancelled consumer s taken s') (calls : List α) :
    Takes (fun s => isCancelled s.1) (noting consumer) (s, calls) taken (s', calls ++ taken) := by
  induction h generalizing calls with
  | nil s =>
    rw [List.append_nil]
    exact .nil (s, calls)
  | @cons s s' item items hrunning htaken hrest ih =>
    have hlater := ih (calls ++ [item])
    rw [List.append_assoc] at hlater
    exact .cons hrunning htaken hlater

theorem Stops.noting (h : Stops isCancelled consumer s rest stop) (calls : List α) :
    Stops (fun s => isCancelled s.1) (noting consumer) (s, calls) rest stop := by
  cases h with
  | cancelled hcancelled => exact .cancelled hcancelled
  | ended hrunning => exact .ended hrunning
  | broken hrunning => exact .broken hrunning
  | failed hrunning hfailed => exact .failed hrunning hfailed

theorem after_noting (consumer : α → σ → σ × Except Fault Unit) (s : σ) (calls : List α)
    (stop : Stop α) :
    stop.after (Feed.noting consumer) (s, calls) =
      (stop.after consumer s, calls ++ stop.lastItem?.toList) := by
  cases stop with
  | cancelled | ended | broken => simp [Stop.after, Stop.lastItem?]
  | failed item fault => rfl

/-- Every stream that ends has a first reason to stop. Whichever it is, the loop calls its consumer
with the items before it, and with the item there if the reason is that the consumer fails on it, in
order and once each. The reason alone decides on the result. -/
theorem consume_exact (isCancelled : σ → Bool) (consumer : α → σ → σ × Except Fault Unit)
    (items : List (Except RpcStatus α)) (s : σ) :
    (∃ taken rest s' stop, items = taken.map .ok ++ rest ∧
      Takes isCancelled consumer s taken s' ∧ Stops isCancelled consumer s' rest stop) ∧
    ∀ taken rest s' stop, items = taken.map .ok ++ rest →
      Takes isCancelled consumer s taken s' → Stops isCancelled consumer s' rest stop →
      consume isCancelled consumer true items s =
        (stop.after consumer s', .finished stop.result) ∧
      consume (fun s => isCancelled s.1) (noting consumer) true items (s, []) =
        ((stop.after consumer s', taken ++ stop.lastItem?.toList), .finished stop.result) := by
  refine ⟨exists_stop isCancelled consumer items s, ?_⟩
  rintro taken rest s' stop rfl htakes hstops
  constructor
  · rw [htakes.consume, hstops.consume]
  · rw [(htakes.noting []).consume, List.nil_append, (hstops.noting taken).consume, after_noting]

/-- A consumer that cancels its loop and fails, both on the second of three items. -/
theorem consume_exact_secondOfThree :
    let plan : ConsumerPlan := { cancelAt := some 2, failAt := some 2 }
    rehearseStream plan false [.ok 1, .ok 2, .ok 3] =
        (⟨true, [1, 2]⟩, .finished (.error consumerStopped)) ∧
      consume (fun s => s.1.cancelled) (noting plan.consume) true [.ok 1, .ok 2, .ok 3]
          (({} : ConsumerState Nat), []) =
        ((⟨true, [1, 2]⟩, [1, 2]), .finished (.error consumerStopped)) := by
  intro plan
  have htakes : Takes ConsumerState.cancelled plan.consume {} [1] ⟨false, [1]⟩ :=
    .cons rfl rfl (.nil _)
  have hstops : Stops ConsumerState.cancelled plan.consume ⟨false, [1]⟩ [.ok 2, .ok 3]
      (.failed 2 consumerStopped) := .failed rfl rfl
  exact (consume_exact ConsumerState.cancelled plan.consume _ {}).2 _ _ _ _ rfl htakes hstops

end LedgerWatch.Feed
