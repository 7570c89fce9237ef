import LedgerWatch.Proofs.Feed
import LedgerWatch.Proofs.Status.Refusal
import LedgerWatch.Rehearsal.Client.Task
import LedgerWatch.Rehearsal.Statuses

/-!
# Listening to statuses

A client that listens to the statuses of a node goes on whatever they are. Where its stream takes
it, which announcements it makes and how it ends, is the same for two streams that differ in refused
statuses only.

## Main definitions

- `ClientRehearsal.State.awaiting`: a client for whose status listener a stream has come in
- `ClientRehearsal.State.Listened`: what a client has heard through a connection

## Main results

- `ClientRehearsal.State.drain_awaiting_congr`: refused statuses make no difference
- `ClientRehearsal.State.drain_awaiting_ended`: a listener at the end of its stream
- `StatusCache.refused_inert`: a status, a sequence of them and a listener to them
-/

namespace LedgerWatch

namespace ClientRehearsal.State

/-- Statuses came in on a connection, which is `c` afterwards, and `events` were announced. What the
client listens to is as before, and so is what has ended. -/
structure Listened (connection : Nat) (c : Connection) (events : List StatusEvent)
    (before after : State) : Prop where
  held : after.connections[connection]? = some c
  current : after.current = before.current
  tasks : after.tasks = before.tasks
  finished : after.report.finished = before.report.finished
  notices : before.current = some connection →
    after.report.notices = before.report.notices ++ events.map .status

variable {connection : Nat} {c d : Connection} {events later : List StatusEvent} {s : State}
  {raw : RawStatus}

theorem listened_nil (hc : s.connections[connection]? = some c) : Listened connection c [] s s :=
  ⟨hc, rfl, rfl, rfl, by simp⟩

theorem Listened.trans {t u : State} (h : Listened connection c events s t)
    (h' : Listened connection d later t u) : Listened connection d (events ++ later) s u where
  held := h'.held
  current := h'.current.trans h.current
  tasks := h'.tasks.trans h.tasks
  finished := h'.finished.trans h.finished
  notices := by
    intro hcurrent
    have hlater := h'.notices (h.current.trans hcurrent)
    rw [hlater, h.notices hcurrent, List.map_append, List.append_assoc]

theorem listened_fire (hc : s.connections[connection]? = some c) (event : StatusEvent) :
    Listened connection c [event] s (s.fire connection event) := by
  by_cases hcurrent : s.current = some connection
  · refine ⟨?_, ?_, ?_, ?_, fun _ => ?_⟩ <;> simp [fire, notice, hcurrent, hc]
  · refine ⟨?_, ?_, ?_, ?_, fun h => absurd h hcurrent⟩ <;> simp [fire, hcurrent, hc]

/-- Runs the hooks of a connection for one event after the other. -/
def announce (connection : Nat) (events : List StatusEvent) (s : State) : State :=
  events.foldl (fun s event => s.fire connection event) s

theorem listened_announce (hc : s.connections[connection]? = some c) (events : List StatusEvent) :
    Listened connection c events s (s.announce connection events) := by
  induction events generalizing s with
  | nil => exact listened_nil hc
  | cons event rest ih =>
    have hfirst := listened_fire hc event
    exact hfirst.trans (ih hfirst.held)

/-! ## One status -/

theorem consumeStatus_eq (hc : s.connections[connection]? = some c) (raw : RawStatus) :
    consumeStatus connection raw s =
      ({ s with
          connections := s.connections.set connection
            { c with cache := (c.cache.receive c.codec raw).1 } }.announce connection
        (c.cache.receive c.codec raw).2, .ok ()) := by
  rw [consumeStatus, hc]
  simp only [Connection.receiveStatus_eq]
  rfl

theorem consumeStatus_of_none (h : s.connections[connection]? = none) (raw : RawStatus) :
    consumeStatus connection raw s = (s, .ok ()) := by
  rw [consumeStatus, h]

/-- A listener to statuses never ends because of one. -/
theorem consumeStatus_taken (connection : Nat) (raw : RawStatus) (s : State) :
    (consumeStatus connection raw s).2 = .ok () := by
  cases hc : s.connections[connection]? with
  | none => rw [consumeStatus_of_none hc]
  | some c => rw [consumeStatus_eq hc]

theorem listened_consumeStatus (hc : s.connections[connection]? = some c) (raw : RawStatus) :
    Listened connection { c with cache := (c.cache.receive c.codec raw).1 }
      (c.cache.receive c.codec raw).2 s (consumeStatus connection raw s).1 := by
  obtain ⟨hlength, -⟩ := List.getElem?_eq_some_iff.mp hc
  rw [consumeStatus_eq hc]
  obtain ⟨hconnection, hcurrent, htasks, hfinished, hnotices⟩ := listened_announce
    (s := { s with
      connections := s.connections.set connection
        { c with cache := (c.cache.receive c.codec raw).1 } })
    (List.getElem?_set_self hlength) (c.cache.receive c.codec raw).2
  exact ⟨hconnection, hcurrent, htasks, hfinished, hnotices⟩

theorem consumeStatus_tasks (connection : Nat) (raw : RawStatus) (s : State) :
    (consumeStatus connection raw s).1.tasks = s.tasks := by
  cases hc : s.connections[connection]? with
  | none => rw [consumeStatus_of_none hc]
  | some c => exact (listened_consumeStatus hc raw).tasks

/-- The connection decodes with the codec, if there is such a connection. -/
def Speaks (codec : Codec) (connection : Nat) (s : State) : Prop :=
  ∀ c ∈ s.connections[connection]?, c.codec = codec

theorem Speaks.consumeStatus {codec : Codec} (h : Speaks codec connection s) (raw : RawStatus) :
    Speaks codec connection (consumeStatus connection raw s).1 := by
  cases hc : s.connections[connection]? with
  | none => rwa [consumeStatus_of_none hc]
  | some c =>
    intro d hd
    rw [(listened_consumeStatus hc raw).held] at hd
    obtain rfl := Option.some.inj hd
    exact h c hc

/-- A refused status leaves the whole client as it is. -/
theorem consumeStatus_of_refused {codec : Codec} (h : Speaks codec connection s)
    (hrefused : raw.isAccepted codec = false) : consumeStatus connection raw s = (s, .ok ()) := by
  cases hc : s.connections[connection]? with
  | none => exact consumeStatus_of_none hc raw
  | some c =>
    obtain rfl := h c hc
    obtain ⟨hlength, hget⟩ := List.getElem?_eq_some_iff.mp hc
    rw [consumeStatus_eq hc, StatusCache.receive_of_refused hrefused]
    -- the connection is put back as it was
    have hset : s.connections.set connection c = s.connections := by
      rw [← hget, List.set_getElem_self]
    simp only [announce, List.foldl_nil, hset]

/-! ## A stream of statuses -/

/-- Takes one status after the other. -/
def takeAll (connection : Nat) (raws : List RawStatus) (s : State) : State :=
  raws.foldl (fun s raw => (consumeStatus connection raw s).1) s

theorem listened_takeAll (hc : s.connections[connection]? = some c) (raws : List RawStatus) :
    Listened connection { c with cache := (StatusCache.receiveAll c.codec raws c.cache).1 }
      (StatusCache.receiveAll c.codec raws c.cache).2 s (s.takeAll connection raws) := by
  induction raws generalizing s c with
  | nil => exact listened_nil hc
  | cons raw rest ih =>
    have hfirst := listened_consumeStatus hc raw
    exact hfirst.trans (ih hfirst.held)

/-- A stream has come in for the listener to statuses. -/
def awaiting (items : List (Except RpcStatus RawStatus)) (s : State) : State :=
  { s with node := statusFeed.set { s.node.statusFeed with waiting := items } s.node }

theorem fire_awaiting (items : List (Except RpcStatus RawStatus)) (event : StatusEvent)
    (s : State) :
    (s.awaiting items).fire connection event = (s.fire connection event).awaiting items := by
  by_cases hcurrent : (s.current == some connection) = true
  · have hsame : ((s.awaiting items).current == some connection) = true := hcurrent
    rw [fire, fire, if_pos hcurrent, if_pos hsame]
    rfl
  · have hsame : ¬ ((s.awaiting items).current == some connection) = true := hcurrent
    rw [fire, fire, if_neg hcurrent, if_neg hsame]
    rfl

theorem announce_awaiting (items : List (Except RpcStatus RawStatus)) (events : List StatusEvent)
    (s : State) :
    (s.awaiting items).announce connection events =
      (s.announce connection events).awaiting items := by
  induction events generalizing s with
  | nil => rfl
  | cons event rest ih =>
    have hfirst := ih (s.fire connection event)
    rw [← fire_awaiting] at hfirst
    exact hfirst

theorem consumeStatus_awaiting (connection : Nat) (items : List (Except RpcStatus RawStatus))
    (raw : RawStatus) (s : State) :
    consumeStatus connection raw (s.awaiting items) =
      ((consumeStatus connection raw s).1.awaiting items, (consumeStatus connection raw s).2) := by
  cases hc : s.connections[connection]? with
  | none => rw [consumeStatus_of_none hc, consumeStatus_of_none (s := s.awaiting items) hc]
  | some c =>
    rw [consumeStatus_eq hc, consumeStatus_eq (s := s.awaiting items) hc, ← announce_awaiting]
    rfl

/-- The client once the loop of a listener to statuses has come as far as it does. -/
def leave (id : Nat) (feed : Feed RawStatus) : State × Feed.Outcome → State
  | (s, .waiting) => { s with node := statusFeed.set { feed with waiting := [] } s.node }
  | (s, .finished result) => finish id result { s with node := statusFeed.set feed.release s.node }

theorem drain_eq_leave (id : Nat) (consumer : RawStatus → State → State × Except Fault Unit)
    (s : State) :
    s.drain statusFeed id consumer = leave id s.node.statusFeed
      (Feed.consume (isCancelled id) consumer s.node.statusFeed.closed s.node.statusFeed.waiting
        s) := by
  have hfeed : statusFeed.get s.node = s.node.statusFeed := rfl
  rw [drain, hfeed]
  generalize Feed.consume _ _ _ _ s = outcome
  obtain ⟨t, _ | result⟩ := outcome
  · rfl
  · rfl

/-- A listener over a stream ends as the loop over the stream does, with the stream used up. -/
theorem drain_awaiting (id connection : Nat) (items : List (Except RpcStatus RawStatus))
    (s : State) :
    (s.awaiting items).drain statusFeed id (consumeStatus connection) =
      leave id s.node.statusFeed (Feed.consume (isCancelled id) (consumeStatus connection)
        s.node.statusFeed.closed items s) := by
  have hframe : Feed.consume (isCancelled id) (consumeStatus connection) s.node.statusFeed.closed
      items (s.awaiting items) = _ :=
    Feed.consume_frame (awaiting items) (fun _ => rfl) (consumeStatus_awaiting connection items)
      items s
  have hleave := congrArg (leave id { s.node.statusFeed with waiting := items }) hframe
  rw [drain_eq_leave]
  refine hleave.trans ?_
  -- the feed is emptied in either case, so what had come in is forgotten
  generalize Feed.consume _ _ _ items s = outcome
  obtain ⟨t, _ | result⟩ := outcome
  · rfl
  · rfl

/-- Streams that agree but for refused statuses bring a listener to the same end. -/
theorem drain_awaiting_congr {codec : Codec} (id : Nat) (h : Speaks codec connection s)
    {items items' : List (Except RpcStatus RawStatus)}
    (hitems : items.filter (Feed.passes (RawStatus.isAccepted codec)) =
      items'.filter (Feed.passes (RawStatus.isAccepted codec))) :
    (s.awaiting items).drain statusFeed id (consumeStatus connection) =
      (s.awaiting items').drain statusFeed id (consumeStatus connection) := by
  have hfilter : ∀ items, Feed.consume (isCancelled id) (consumeStatus connection)
      s.node.statusFeed.closed (items.filter (Feed.passes (RawStatus.isAccepted codec))) s =
        Feed.consume (isCancelled id) (consumeStatus connection) s.node.statusFeed.closed
          items s := by
    intro items
    refine Feed.consume_filter (Speaks codec connection) ?_ ?_ items h
    · exact fun raw s hs => hs.consumeStatus raw
    · exact fun raw s hp hs => consumeStatus_of_refused hs hp
  rw [drain_awaiting, drain_awaiting, ← hfilter items, ← hfilter items', hitems]

theorem isCancelled_of_tasks {id : Nat} {task : Task} (htask : s.tasks.lookup id = some task) :
    isCancelled id s = task.cancelled := by
  rw [isCancelled, htask, Option.any_some]

/-- A listener that is not cancelled takes every status of its stream, and ends as the stream
does. -/
theorem consume_statuses {id : Nat} {task : Task} (htask : s.tasks.lookup id = some task)
    (hrunning : task.cancelled = false) {ended : Bool} {failure : Option RpcStatus}
    (hends : ended = true ∨ failure.isSome) (connection : Nat) (raws : List RawStatus) :
    Feed.consume (isCancelled id) (consumeStatus connection) ended
        (raws.map .ok ++ failure.toList.map .error) s =
      (s.takeAll connection raws, .finished (Feed.lastWord failure)) := by
  -- statuses do not touch the listeners, so none of them can cancel this one
  have hnever : ∀ t : State, t.tasks = s.tasks → isCancelled id t = false := by
    intro t ht
    rw [isCancelled_of_tasks (ht ▸ htask), hrunning]
  have htasks : ∀ (raw : RawStatus) (t : State), t.tasks = s.tasks →
      (consumeStatus connection raw t).1.tasks = s.tasks :=
    fun raw t ht => (consumeStatus_tasks connection raw t).trans ht
  have hlast : (s.takeAll connection raws).tasks = s.tasks :=
    List.foldlRecOn (motive := fun t => t.tasks = s.tasks) raws _ rfl
      fun t ht raw _ => htasks raw t ht
  rw [Feed.consume_append (fun t => t.tasks = s.tasks) htasks hnever
    (fun raw t _ => consumeStatus_taken connection raw t) raws _ rfl]
  exact Feed.consume_last (hnever _ hlast) hends

/-- What a listener tells that has come to the end of its stream. -/
theorem drain_awaiting_ended {id : Nat} {task : Task} (hc : s.connections[connection]? = some c)
    (htask : s.tasks.lookup id = some task) (hrunning : task.cancelled = false)
    (raws : List RawStatus) {failure : Option RpcStatus}
    (hends : s.node.statusFeed.closed = true ∨ failure.isSome) :
    let after := (s.awaiting (raws.map .ok ++ failure.toList.map .error)).drain statusFeed id
      (consumeStatus connection)
    let told := StatusCache.receiveAll c.codec raws c.cache
    after.connections[connection]? = some { c with cache := told.1 } ∧
      (s.current = some connection →
        after.report.notices = s.report.notices ++ told.2.map .status) ∧
      after.report.finished = s.report.finished ++ [(task.name, Feed.lastWord failure)] := by
  intro after told
  obtain ⟨hheld, -, htasks, hfinished, hnotices⟩ := listened_takeAll hc raws
  have hafter : after = _ := drain_awaiting id connection _ s
  rw [consume_statuses htask hrunning hends] at hafter
  generalize s.takeAll connection raws = t at *
  have hlookup : t.tasks.lookup id = some task := htasks ▸ htask
  simp only [leave, finish, hlookup] at hafter
  rw [hafter]
  exact ⟨hheld, hnotices, by rw [hfinished]⟩

end ClientRehearsal.State

open ClientRehearsal in
/-- A status is refused exactly for its version tag or its parameters, and then it leaves the
picture as it is and fires nothing. One that is accepted updates the picture whatever its
commitments are, and those that do not decode stay where they are.

Two sequences of statuses that agree but for refused ones lead to the same picture and to the same
announcements. The same holds of a client with a listener to statuses, in whatever state the client
is. A listener that is not cancelled comes to the end of its stream and ends as the stream does. -/
theorem StatusCache.refused_inert (codec : Codec) :
    (∀ (cache : StatusCache) (raw : RawStatus) (fault : Fault),
      (cache.apply codec raw = .error fault ↔
        (raw.parameters.protocolVersion ≠ supportedVersion ∧
          fault = .unsupportedVersion raw.parameters.protocolVersion supportedVersion) ∨
        (raw.parameters.protocolVersion = supportedVersion ∧
          codec.decodeParameters raw.parameters.params = .error fault)) ∧
      (cache.apply codec raw = .error fault → raw.isAccepted codec = false ∧
        StatusRehearsal.apply codec raw cache = (cache, [], .error fault))) ∧
    (∀ (cache : StatusCache) (raw : RawStatus), raw.isAccepted codec = true →
      ∃ api after progress, raw.accepted? codec = some api ∧
        cache.apply codec raw = .ok (after, progress) ∧ after.status = some (raw.snapshot api) ∧
        ∀ (track : CommitmentTrack) (announced : RawCommitment) (fault : Fault),
          track.announced raw = some announced →
          codec.decodeCommitment announced.data api = .error fault →
          track.moved progress = none ∧ track.held after = track.held cache) ∧
    (∀ (cache : StatusCache) (raws raws' : List RawStatus),
      raws.filter (RawStatus.isAccepted codec) = raws'.filter (RawStatus.isAccepted codec) →
      receiveAll codec raws cache = receiveAll codec raws' cache) ∧
    ∀ (s : State) (id connection : Nat) (task : Task) (c : Connection),
      s.tasks.lookup id = some task → task.activity = .statuses connection →
      s.connections[connection]? = some c → c.codec = codec →
      (∀ items items' : List (Except RpcStatus RawStatus),
        items.filter (Feed.passes (RawStatus.isAccepted codec)) =
          items'.filter (Feed.passes (RawStatus.isAccepted codec)) →
        (s.awaiting items).advance id = (s.awaiting items').advance id) ∧
      ∀ (raws : List RawStatus) (failure : Option RpcStatus), task.cancelled = false →
        s.node.statusFeed.closed = true ∨ failure.isSome →
        let after := (s.awaiting (raws.map .ok ++ failure.toList.map .error)).advance id
        let told := receiveAll codec raws c.cache
        after.connections[connection]? = some { c with cache := told.1 } ∧
          (s.current = some connection →
            after.report.notices = s.report.notices ++ told.2.map .status) ∧
          after.report.finished = s.report.finished ++ [(task.name, Feed.lastWord failure)] := by
  refine ⟨fun cache raw fault => ⟨apply_eq_error_iff, fun herror => ⟨?_, ?_⟩⟩,
    fun cache raw haccepted => ?_, fun cache raws raws' hraws => ?_,
    fun s id connection task c htask hactivity hc hcodec => ?_⟩
  · exact (isAccepted_eq_false_iff cache).mpr ⟨fault, herror⟩
  · rw [StatusRehearsal.apply, herror]
  · rcases apply_cases codec raw cache with ⟨hnone, -⟩ | ⟨api, after, progress, hsome, happly, h⟩
    · rw [RawStatus.isAccepted, hnone] at haccepted
      cases haccepted
    · refine ⟨api, after, progress, hsome, happly, h.status, ?_⟩
      intro track announced fault hannounced hundecodable
      exact h.held_of_undecodable hsome hannounced hundecodable
  · rw [← receiveAll_filter codec raws, ← receiveAll_filter codec raws', hraws]
  · have hadvance : ∀ items, (s.awaiting items).advance id =
        (s.awaiting items).drain statusFeed id (State.consumeStatus connection) := by
      intro items
      have hlookup : (s.awaiting items).tasks.lookup id = some task := htask
      rw [State.advance, hlookup]
      simp only [hactivity]
    subst hcodec
    refine ⟨fun items items' hitems => ?_, fun raws failure hrunning hends => ?_⟩
    · have hspeaks : s.Speaks c.codec connection := by
        intro d hd
        rw [hc] at hd
        rw [Option.some.inj hd]
      rw [hadvance, hadvance]
      exact State.drain_awaiting_congr id hspeaks hitems
    · rw [hadvance]
      exact State.drain_awaiting_ended hc htask hrunning raws hends

/-- The standard codec, but only the empty string decodes to parameters or to a commitment. -/
def Codec.emptyOnly : Codec :=
  { standard with
    decodeParameters := fun data =>
      if data = [] then .ok {} else .error (.undecodable (.other "not empty"))
    decodeCommitment := fun data _ =>
      if data = [] then .ok {} else .error (.undecodable (.other "not empty")) }

/-- A status with the latest commitment in the given slot. -/
def RawStatus.atSlot (slot : Slot) (version : UInt8) (params data : Bytes) : RawStatus :=
  { latest := some ⟨⟨Hash.zero, slot⟩, data⟩, parameters := ⟨version, params⟩ }

/-- The second has the wrong version, the third the wrong parameters, and the fourth a commitment
that does not decode. -/
def mixedStatuses : List RawStatus :=
  [.atSlot 3 supportedVersion [] [], .atSlot 4 2 [] [], .atSlot 5 supportedVersion [1] [],
    .atSlot 6 supportedVersion [] [1]]

/-- A client with one connection and a listener to its statuses. -/
def statusListener : ClientRehearsal.State :=
  { codec := .emptyOnly
    connections := [⟨{}, .emptyOnly, .empty⟩]
    current := some 0
    tasks := [(0, { name := "run", activity := .statuses 0, plan := {}, cancelled := false })] }

/-- Of the mixed statuses two are overlooked, and only the first is announced. The listener ends
when the stream fails. -/
theorem StatusCache.refused_inert_mixedStatuses :
    StatusCache.empty.apply .emptyOnly (.atSlot 4 2 [] []) =
      .error (.unsupportedVersion 2 supportedVersion) ∧
    (∃ after progress, StatusCache.empty.apply .emptyOnly (.atSlot 6 supportedVersion [] [1]) =
      .ok (after, progress) ∧ progress.latest = none ∧ after.latest = none) ∧
    receiveAll .emptyOnly mixedStatuses .empty = receiveAll .emptyOnly
      [.atSlot 3 supportedVersion [] [], .atSlot 6 supportedVersion [] [1]] .empty ∧
    (statusListener.awaiting (mixedStatuses.map .ok)).advance 0 =
      (statusListener.awaiting [.ok (.atSlot 3 supportedVersion [] []),
        .ok (.atSlot 6 supportedVersion [] [1])]).advance 0 ∧
    ((statusListener.awaiting (mixedStatuses.map .ok ++ [.error (.unavailable "down")])).advance
      0).report.notices = [.status (.latestChanged ⟨⟨Hash.zero, 3⟩, {}⟩)] ∧
    ((statusListener.awaiting (mixedStatuses.map .ok ++ [.error (.unavailable "down")])).advance
      0).report.finished = [("run", .error (.rpc (.unavailable "down")))] := by
  obtain ⟨hstatus, haccepted, hsequence, hlistener⟩ := refused_inert .emptyOnly
  have hwrong : (2 : UInt8) ≠ supportedVersion := by decide
  have hversion := (hstatus .empty (.atSlot 4 2 [] []) _).1.mpr (.inl ⟨hwrong, rfl⟩)
  obtain ⟨api, after, progress, -, happly, -, hstays⟩ :=
    haccepted .empty (.atSlot 6 supportedVersion [] [1]) rfl
  obtain ⟨hmoved, hheld⟩ := hstays .latest _ _ rfl rfl
  obtain ⟨hsame, hend⟩ := hlistener statusListener 0 0 _ _ rfl rfl rfl rfl
  obtain ⟨-, hnotices, hfinished⟩ := hend mixedStatuses (some (.unavailable "down")) rfl (.inr rfl)
  exact ⟨hversion, ⟨after, progress, happly, hmoved, hheld⟩, hsequence _ _ _ rfl, hsame _ _ rfl,
    hnotices rfl, hfinished⟩

end LedgerWatch
