import LedgerWatch.Feed

/-!
# What a loop makes of its stream

The loop over a feed depends on its items only through what the consumer does with them. Items over
which the consumer passes may be left out or put in, items that it always takes are taken all, and a
part of the state that neither the consumer nor the cancellation looks at may be anything.

## Main definitions

- `Feed.passes`: whether an entry of a stream is kept when items are left out
- `Feed.lastWord`: the result of a loop that runs to the end of its stream

## Main results

- `Feed.consume_filter`: items without effect
- `Feed.consume_append`: items that are taken
- `Feed.consume_frame`: a part of the state that plays no role
-/

namespace LedgerWatch.Feed

variable {α σ : Type} {isCancelled : σ → Bool} {consumer : α → σ → σ × Except Fault Unit}
  {ended : Bool}

theorem consume_of_isCancelled {s : σ} (h : isCancelled s = true)
    (items : List (Except RpcStatus α)) :
    consume isCancelled consumer ended items s = (s, .finished (.ok ())) := by
  match items with
  | [] => simp [consume, h]
  | .error status :: rest => simp [consume, h]
  | .ok item :: rest => simp [consume, h]

theorem consume_taken {s : σ} (hrunning : isCancelled s = false) {item : α}
    (htaken : (consumer item s).2 = .ok ()) (rest : List (Except RpcStatus α)) :
    consume isCancelled consumer ended (.ok item :: rest) s =
      consume isCancelled consumer ended rest (consumer item s).1 := by
  generalize hresult : consumer item s = result at htaken
  obtain ⟨next, _ | _⟩ := result
  · cases htaken
  · simp [consume, hrunning, hresult]

theorem consume_failed {s : σ} (hrunning : isCancelled s = false) {item : α} {fault : Fault}
    (hfailed : (consumer item s).2 = .error fault) (rest : List (Except RpcStatus α)) :
    consume isCancelled consumer ended (.ok item :: rest) s =
      ((consumer item s).1, .finished (.error fault)) := by
  generalize hresult : consumer item s = result at hfailed
  obtain ⟨next, _ | _⟩ := result
  · obtain rfl := Except.error.inj hfailed
    simp [consume, hrunning, hresult]
  · cases hfailed

/-- Failures of the stream are kept, and of the items those that satisfy `p`. -/
def passes (p : α → Bool) : Except RpcStatus α → Bool
  | .ok item => p item
  | .error _ => true

/-- Items that leave the state as it is and let the loop go on may be left out. It is enough that
they do so in the states in which the loop can be. -/
theorem consume_filter (inv : σ → Prop) {p : α → Bool}
    (hinv : ∀ item s, inv s → inv (consumer item s).1)
    (hinert : ∀ item s, p item = false → inv s → consumer item s = (s, .ok ()))
    (items : List (Except RpcStatus α)) {s : σ} (hs : inv s) :
    consume isCancelled consumer ended (items.filter (passes p)) s =
      consume isCancelled consumer ended items s := by
  induction items generalizing s with
  | nil => rfl
  | cons entry rest ih =>
    -- a cancelled loop is over whatever comes next, so it makes no difference what was left out
    cases hcancelled : isCancelled s with
    | true => rw [consume_of_isCancelled hcancelled, consume_of_isCancelled hcancelled]
    | false =>
      cases entry with
      | error status =>
        rw [List.filter_cons_of_pos rfl]
        simp [consume]
      | ok item =>
        cases hp : p item with
        | false =>
          have hskipped := hinert item s hp hs
          rw [List.filter_cons_of_neg (by simp [passes, hp]), ih hs,
            consume_taken hcancelled (congrArg Prod.snd hskipped), hskipped]
        | true =>
          rw [List.filter_cons_of_pos (by simp [passes, hp])]
          cases hresult : (consumer item s).2 with
          | error fault => rw [consume_failed hcancelled hresult, consume_failed hcancelled hresult]
          | ok =>
            rw [consume_taken hcancelled hresult, consume_taken hcancelled hresult,
              ih (hinv item s hs)]

/-- A loop that is not cancelled and whose consumer does not fail takes one item after the other. -/
theorem consume_append (inv : σ → Prop) (hinv : ∀ item s, inv s → inv (consumer item s).1)
    (hrunning : ∀ s, inv s → isCancelled s = false)
    (htakes : ∀ item s, inv s → (consumer item s).2 = .ok ())
    (items : List α) (rest : List (Except RpcStatus α)) {s : σ} (hs : inv s) :
    consume isCancelled consumer ended (items.map .ok ++ rest) s =
      consume isCancelled consumer ended rest
        (items.foldl (fun s item => (consumer item s).1) s) := by
  induction items generalizing s with
  | nil => rfl
  | cons item items ih =>
    rw [List.map_cons, List.cons_append, consume_taken (hrunning s hs) (htakes item s hs),
      ih (hinv item s hs), List.foldl_cons]

/-- The result of a loop that is not stopped before the end of its stream, or before the status with
which the stream fails. -/
def lastWord : Option RpcStatus → Except Fault Unit
  | none => .ok ()
  | some status => if status.isCancelled then .ok () else .error (.rpc status)

theorem consume_last {s : σ} (hrunning : isCancelled s = false) {failure : Option RpcStatus}
    (hends : ended = true ∨ failure.isSome) :
    consume isCancelled consumer ended (failure.toList.map .error) s =
      (s, .finished (lastWord failure)) := by
  cases failure with
  | none =>
    have hended : ended = true := by simpa using hends
    simp [consume, lastWord, hended]
  | some status => by_cases h : status.isCancelled = true <;> simp [consume, lastWord, hrunning, h]

/-- A change of the state that the consumer and the cancellation do not notice may as well be made
after the loop. -/
theorem consume_frame (f : σ → σ) (hcancelled : ∀ s, isCancelled (f s) = isCancelled s)
    (hconsumer : ∀ item s, consumer item (f s) = (f (consumer item s).1, (consumer item s).2))
    (items : List (Except RpcStatus α)) (s : σ) :
    consume isCancelled consumer ended items (f s) =
      (f (consume isCancelled consumer ended items s).1,
        (consume isCancelled consumer ended items s).2) := by
  induction items generalizing s with
  | nil =>
    simp only [consume, hcancelled]
    split <;> rfl
  | cons entry rest ih =>
    cases entry with
    | error status =>
      simp only [consume, hcancelled]
      split <;> rfl
    | ok item =>
      cases h : isCancelled s with
      | true => rw [consume_of_isCancelled h, consume_of_isCancelled ((hcancelled s).trans h)]
      | false =>
        have hrunning := (hcancelled s).trans h
        have hmoved := hconsumer item s
        cases hresult : (consumer item s).2 with
        | error fault =>
          rw [consume_failed h hresult, consume_failed hrunning (by rw [hmoved, hresult]), hmoved]
        | ok =>
          rw [consume_taken h hresult, consume_taken hrunning (by rw [hmoved, hresult]), hmoved, ih]

end LedgerWatch.Feed
