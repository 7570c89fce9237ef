import LedgerWatch.Proofs.Acceptance.Register

/-!
# No acceptance is lost

A registration waits for a block that the node has accepted only as long as something is still
under way for it. Either its query is open and is going to find the block accepted, or the message
for the block has not come to it yet, or its query has failed.

## Main definitions

- `QueryStage.MayServe`: a query that is going to serve its registration, or has failed
- `World.Served`: what holds of every reachable world

## Main results

- `World.Served.step`: every step preserves it
- `World.Reachable.acceptance_not_lost`: no acceptance is lost
- `World.Reachable.not_waits_of_quiet`: when nothing is under way, no one waits for an accepted
  block
-/

namespace LedgerWatch

/-- A query that is not read yet, one that has found the block accepted, or one that has failed. -/
def QueryStage.MayServe : QueryStage → Prop
  | unread => True
  | answered (.ok metadata) => metadata.state.isAccepted = true
  | answered (.error status) => status.isNotFound = false
  | handled (.ok _) => False
  | handled (.error status) => status.isNotFound = false

theorem QueryStage.MayServe.isOpen_or_failed {stage : QueryStage} (h : stage.MayServe) :
    stage.IsOpen ∨ stage.Failed := by
  cases stage with
  | unread => exact .inl trivial
  | answered answer => exact .inl trivial
  | handled answer =>
    cases answer with
    | ok metadata => exact h.elim
    | error status => exact .inr h

/-- An answer for an accepted block says so, or it is a failure. -/
theorem mayServe_of_answers {block : BlockId} {standing : Option Standing}
    {answer : Except RpcStatus BlockMetadata} (h : Answers block standing answer)
    (haccepts : Standing.accepts standing = true) : (QueryStage.answered answer).MayServe := by
  cases h with
  | known standing => exact haccepts
  | unknown hnotFound => simp [Standing.accepts] at haccepts
  | failed standing hfailed => exact hfailed

namespace World

variable {w w' : World}

/-- Whoever waits for an accepted block is going to hear of it, from its query or from the stream,
unless its query has failed. -/
def Served (w : World) : Prop :=
  ∀ registration block stage, w.queries registration = some ⟨block, stage⟩ → w.Accepted block →
    w.Waits block registration → stage.MayServe ∨ w.Ahead block registration

theorem served_start (node : BlockId → Option Standing) (stream : List BlockMetadata) :
    (start node stream).Served := by
  intro registration block stage hquery
  simp [start] at hquery

/-- Those who had a query and still wait waited before, and what was ahead of them still is. -/
theorem Served.of_waits (h : w.Served) (hqueries : w'.queries = w.queries)
    (haccepted : ∀ block, w'.Accepted block → w.Accepted block)
    (hwaits : ∀ registration block stage, w.queries registration = some ⟨block, stage⟩ →
      w'.Waits block registration →
      w.Waits block registration ∧ (w.Ahead block registration → w'.Ahead block registration)) :
    w'.Served := by
  intro registration block stage hquery hafter hwaiting
  rw [hqueries] at hquery
  obtain ⟨hbefore, hahead⟩ := hwaits registration block stage hquery hwaiting
  exact (h registration block stage hquery (haccepted block hafter) hbefore).imp_right hahead

/-- A query moves on. -/
theorem Served.setQuery (h : w.Served) {registration : Registration} {block : BlockId}
    {stage : QueryStage}
    (hstage : w.Accepted block → w.Waits block registration →
      stage.MayServe ∨ w.Ahead block registration) :
    (w.setQuery registration block stage).Served := by
  intro other key stage' hquery hafter hwaiting
  have hahead : (w.setQuery registration block stage).Ahead key other = w.Ahead key other := by
    cases other <;> rfl
  have hwaits : w.Waits key other := by
    cases other <;> exact hwaiting
  rw [hahead]
  by_cases heq : other = registration
  · subst heq
    obtain ⟨rfl, rfl⟩ : block = key ∧ stage = stage' := by simpa using hquery
    exact hstage hafter hwaits
  · rw [queries_setQuery_of_ne heq] at hquery
    exact h other key stage' hquery hafter hwaits

/-- Whoever waits after others were released waited before. -/
theorem waits_of_releases {after : Acceptance Nat} (hafter : w.waiting.Releases after)
    {block : BlockId} {registration : Registration}
    (h : { w with waiting := after }.Waits block registration) : w.Waits block registration := by
  cases registration with
  | callback number => exact hafter.callbacks block number h
  | listener id =>
    refine ⟨h.1, ?_⟩
    cases htriggered : w.waiting.blockListeners.isTriggered ⟨block, id⟩ with
    | false => rfl
    | true => exact absurd (hafter.triggered _ htriggered) (by simp [h.2])

theorem Served.release (h : w.Served) {after : Acceptance Nat}
    (hafter : w.waiting.Releases after) : { w with waiting := after }.Served := by
  refine h.of_waits rfl (fun _ h => h) fun registration block stage _ hwaiting => ?_
  refine ⟨waits_of_releases hafter hwaiting, fun hahead => ?_⟩
  cases registration <;> exact hahead

/-! ## Registrations -/

theorem Served.enterCallback (h : w.Served) (hkept : w.Kept) (block : BlockId) :
    (w.enterCallback block).Served := by
  cases hlookup : w.waiting.callbacks.lookup block with
  | some number => rwa [enterCallback_of_pending hlookup]
  | none =>
    rw [enterCallback_of_free hlookup]
    -- The new callback has an unread query; the others have lower numbers.
    refine Served.setQuery ?_ fun _ _ => .inl trivial
    refine h.of_waits rfl (fun _ h => h) ?_
    intro registration key stage hquery hwaiting
    cases registration with
    | listener id => exact ⟨hwaiting, fun hahead => hahead⟩
    | callback number =>
      have hlt : number < w.entered := hkept.number_lt number _ hquery
      have hne : key ≠ block := by
        rintro rfl
        have hnumber : w.entered = number := by
          simpa [Waits, Table.lookup_put_self] using hwaiting
        omega
      refine ⟨?_, fun hahead => hahead⟩
      simpa [Waits, Table.lookup_put_of_ne hne] using hwaiting

theorem Served.enterListener (h : w.Served) (hkept : w.Kept) (block : BlockId) :
    (w.enterListener block).Served := by
  rw [enterListener_eq]
  refine Served.setQuery ?_ fun _ _ => .inl trivial
  refine h.of_waits rfl (fun _ h => h) ?_
  intro registration key stage hquery hwaiting
  cases registration with
  | callback number => exact ⟨hwaiting, fun hahead => hahead⟩
  | listener id =>
    obtain ⟨hmem, huntriggered⟩ := hwaiting
    have hlt : id < w.waiting.blockListeners.next := hkept.id_lt id _ hquery
    refine ⟨⟨?_, ?_⟩, fun hahead => hahead⟩
    · rcases List.mem_cons.mp hmem with hnew | hold
      · have hid : id = w.waiting.blockListeners.next := congrArg Listener.id hnew
        omega
      · exact hold
    · cases htriggered : w.waiting.blockListeners.isTriggered ⟨key, id⟩ with
      | false => rfl
      | true =>
        have hstill := Notifier.isTriggered_listen_of htriggered block
        simp [hstill] at huntriggered

/-! ## Answers -/

/-- A callback whose query has found the block accepted has run. -/
theorem Served.answerCallback (h : w.Served) (hkept : w.Kept) {number : Nat} {block : BlockId}
    {answer : Except RpcStatus BlockMetadata}
    (hquery : w.queries (.callback number) = some ⟨block, .answered answer⟩) :
    (w.answerCallback number block answer).Served := by
  have hreleases := Acceptance.releases_answerCallback answer w.waiting
  refine (h.release hreleases).setQuery fun haccepted hwaiting => ?_
  have hbefore := h _ block _ hquery haccepted (waits_of_releases hreleases hwaiting)
  rcases hbefore with hserves | hahead
  · cases answer with
    | error status => exact .inl hserves
    | ok metadata =>
      have hblock : metadata.blockId = block := hkept.answer_block _ block metadata hquery
      -- The query was for this block, so the callback that runs is the one that waits for it.
      have hrun : (w.waiting.answerCallback (.ok metadata)).1 =
          (w.waiting.runCallback metadata).1 := by
        have haccepts : metadata.state.isAccepted = true := hserves
        simp [Acceptance.answerCallback, queryResult, haccepts]
      simp [Waits, hrun, Acceptance.runCallback, hblock, Table.lookup_erase_self] at hwaiting
  · exact .inr hahead

/-- A listener whose query has found the block accepted is signalled. -/
theorem Served.answerListener (h : w.Served) (hkept : w.Kept) {id : Nat} {block : BlockId}
    {answer : Except RpcStatus BlockMetadata}
    (hquery : w.queries (.listener id) = some ⟨block, .answered answer⟩) :
    (w.answerListener id block answer).Served := by
  have hreleases := Acceptance.releases_answerListener block answer w.waiting
  refine (h.release hreleases).setQuery fun haccepted hwaiting => ?_
  have hbefore := h _ block _ hquery haccepted (waits_of_releases hreleases hwaiting)
  rcases hbefore with hserves | hahead
  · cases answer with
    | error status => exact .inl hserves
    | ok metadata =>
      have hsignal : (w.waiting.answerListener block (.ok metadata)).1 =
          w.waiting.signalBlock block := by
        have haccepts : metadata.state.isAccepted = true := hserves
        simp [Acceptance.answerListener, queryResult, haccepts]
      obtain ⟨hmem, huntriggered⟩ := hwaiting
      have htriggered := (hkept.registers _ hmem).isTriggered_notify
      simp [hsignal, Acceptance.signalBlock, htriggered] at huntriggered
  · exact .inr hahead

/-! ## The node and its stream -/

/-- The message for a block that is accepted now is ahead of everyone. -/
theorem Served.accept (h : w.Served) (block : BlockId) (standing : Standing) :
    (w.accept block standing).Served := by
  intro registration key stage hquery haccepted hwaiting
  by_cases hkey : key = block
  · subst hkey
    right
    cases registration <;>
      exact ⟨standing.metadata key, by simp [World.accept, World.change], rfl⟩
  · have hbefore : w.Accepted key := by
      simpa [Accepted, World.accept, World.change, Function.update_of_ne hkey] using haccepted
    refine (h registration key stage hquery hbefore ?_).imp_right fun hahead => ?_
    · cases registration <;> exact hwaiting
    · cases registration <;>
      · obtain ⟨metadata, hmem, hmetadata⟩ := hahead
        refine ⟨metadata, ?_, hmetadata⟩
        rw [World.accept, ← List.append_assoc]
        exact List.mem_append_left _ hmem

theorem Served.change (h : w.Served) {block : BlockId} {standing : Option Standing}
    (hsame : Standing.accepts standing = Standing.accepts (w.node block)) :
    (w.change block standing).Served := by
  refine h.of_waits rfl (fun key haccepted => ?_) fun registration key _ _ hwaiting => ?_
  · by_cases hkey : key = block
    · subst hkey
      simpa [Accepted, World.change, hsame] using haccepted
    · simpa [Accepted, World.change, Function.update_of_ne hkey] using haccepted
  · cases registration <;> exact ⟨hwaiting, fun hahead => hahead⟩

theorem Served.take (h : w.Served) {metadata : BlockMetadata} {rest : List BlockMetadata}
    (hidle : w.delivery = .idle) (hstream : w.stream = metadata :: rest) :
    { w with stream := rest, delivery := .taken metadata }.Served := by
  refine h.of_waits rfl (fun _ h => h) fun registration key _ _ hwaiting => ?_
  cases registration <;>
  · refine ⟨hwaiting, fun hahead => ?_⟩
    simpa [Ahead, Undelivered, hidle, hstream, Delivery.uncalled, Delivery.message] using hahead

/-- Whoever still waits after the callback for a message has run is a listener, or waits for another
block. -/
theorem Served.call (h : w.Served) {metadata : BlockMetadata}
    (htaken : w.delivery = .taken metadata) : (w.call metadata).Served := by
  refine h.of_waits rfl (fun _ h => h) fun registration key _ _ hwaiting => ?_
  cases registration with
  | listener id =>
    refine ⟨hwaiting, fun hahead => ?_⟩
    simpa [Ahead, Undelivered, World.call, htaken, Delivery.message] using hahead
  | callback number =>
    obtain ⟨hne, hlookup⟩ := Table.of_lookup_erase hwaiting
    refine ⟨hlookup, fun hahead => ?_⟩
    obtain ⟨other, hmem, rfl⟩ := hahead
    -- A message for a block that is still waited for is not the one that was just delivered.
    have hother : other ≠ metadata := fun heq => hne (congrArg BlockMetadata.blockId heq)
    refine ⟨other, ?_, rfl⟩
    simpa [World.call, htaken, Delivery.uncalled, hother] using hmem

/-- Whoever still waits after the listeners for a message were signalled is a callback, or waits for
another block. -/
theorem Served.signal (h : w.Served) (hkept : w.Kept) {metadata : BlockMetadata}
    (hcalled : w.delivery = .called metadata) : (w.signal metadata).Served := by
  have hreleases := Acceptance.releases_signalBlock metadata.blockId w.waiting
  refine h.of_waits rfl (fun _ h => h) fun registration key _ _ hwaiting => ?_
  cases registration with
  | callback number =>
    refine ⟨hwaiting, fun hahead => ?_⟩
    simpa [Ahead, World.signal, hcalled, Delivery.uncalled] using hahead
  | listener id =>
    refine ⟨waits_of_releases hreleases hwaiting, fun hahead => ?_⟩
    obtain ⟨hmem, huntriggered⟩ := hwaiting
    obtain ⟨other, hother, rfl⟩ := hahead
    have hne : other ≠ metadata := by
      rintro rfl
      have htriggered := (hkept.registers _ hmem).isTriggered_notify
      simp [World.signal, Acceptance.signalBlock, htriggered] at huntriggered
    refine ⟨other, ?_, rfl⟩
    simpa [World.signal, hcalled, Delivery.message, hne] using hother

theorem Served.dropListener (h : w.Served) (hkept : w.Kept) {listener : Listener BlockId}
    (hmem : listener ∈ w.handles) :
    { w with
      waiting := w.waiting.dropListener listener
      handles := w.handles.filter (· ≠ listener) }.Served := by
  refine h.of_waits rfl (fun _ h => h) fun registration key _ _ hwaiting => ?_
  cases registration with
  | callback number => exact ⟨hwaiting, fun hahead => hahead⟩
  | listener id =>
    obtain ⟨hkeeps, huntriggered⟩ := hwaiting
    obtain ⟨hother, hne⟩ := List.mem_filter.mp hkeeps
    have hid : id ≠ listener.id := fun hid =>
      of_decide_eq_true hne (hkept.handle_unique hother hmem hid)
    have hsame : (w.waiting.blockListeners.drop listener).isTriggered ⟨key, id⟩ =
        w.waiting.blockListeners.isTriggered ⟨key, id⟩ := Notifier.isTriggered_drop hid
    exact ⟨⟨hother, hsame.symm.trans huntriggered⟩, fun hahead => hahead⟩

/-! ## Every run -/

theorem Served.step (h : w.Served) (hkept : w.Kept) (hstep : Step w w') : w'.Served := by
  cases hstep with
  | enterCallback block => exact h.enterCallback hkept block
  | enterListener block => exact h.enterListener hkept block
  | read hquery hanswer =>
    exact h.setQuery fun haccepted _ => .inl (mayServe_of_answers hanswer haccepted)
  | answerCallback hquery => exact h.answerCallback hkept hquery
  | answerListener hquery => exact h.answerListener hkept hquery
  | accept _ _ => exact h.accept _ _
  | change hsame => exact h.change hsame
  | take hidle hstream => exact h.take hidle hstream
  | call htaken => exact h.call htaken
  | signal hcalled => exact h.signal hkept hcalled
  | withdraw block => exact h.release (Acceptance.releases_withdraw block _)
  | clear => exact h.release (Acceptance.releases_clear _)
  | dropListener hmem => exact h.dropListener hkept hmem

theorem Reachable.kept (h : w.Reachable) : w.Kept := by
  induction h with
  | start node stream => exact kept_start node stream
  | step _ hstep ih => exact ih.step hstep

theorem Reachable.served (h : w.Reachable) : w.Served := by
  induction h with
  | start node stream => exact served_start node stream
  | step hreachable hstep ih => exact ih.step hreachable.kept hstep

/-- What is ahead of a registration is in the stream or being delivered. -/
theorem Ahead.undelivered {block : BlockId} {registration : Registration}
    (h : w.Ahead block registration) : w.Undelivered block := by
  cases registration with
  | listener id => exact h
  | callback number =>
    obtain ⟨metadata, hmem, hmetadata⟩ := h
    refine ⟨metadata, ?_, hmetadata⟩
    cases hdelivery : w.delivery <;>
      simp_all [Delivery.uncalled, Delivery.message]

/-- Nothing is under way, and no query has failed. -/
structure Quiet (w : World) : Prop where
  stream : w.stream = []
  delivery : w.delivery = .idle
  queries : ∀ registration query, w.queries registration = some query →
    ¬query.stage.IsOpen ∧ ¬query.stage.Failed

/-- When nothing is under way any more, no one waits for a block that the node has accepted. -/
theorem Reachable.not_waits_of_quiet (h : w.Reachable) (hquiet : w.Quiet) {block : BlockId}
    (haccepted : w.Accepted block) (registration : Registration) :
    ¬w.Waits block registration := by
  intro hwaits
  obtain ⟨stage, hquery⟩ := h.kept.query hwaits
  rcases h.served registration block stage hquery haccepted hwaits with hserves | hahead
  · obtain ⟨hclosed, hfine⟩ := hquiet.queries registration _ hquery
    exact hserves.isOpen_or_failed.elim hclosed hfine
  · obtain ⟨metadata, hmem, -⟩ := hahead.undelivered
    simp [hquiet.stream, hquiet.delivery, Delivery.message] at hmem

/-- If the node has accepted a block, and a callback for it is pending or a listener for it is not
signalled, then a message for the block is in the stream or being delivered, or the query of that
registration is still open, or it has failed with an error other than that the block is unknown. -/
theorem Reachable.acceptance_not_lost (h : w.Reachable) {block : BlockId}
    {registration : Registration} (haccepted : w.Accepted block)
    (hwaits : w.Waits block registration) :
    w.Undelivered block ∨
      ∃ stage, w.queries registration = some ⟨block, stage⟩ ∧ (stage.IsOpen ∨ stage.Failed) := by
  obtain ⟨stage, hquery⟩ := h.kept.query hwaits
  rcases h.served registration block stage hquery haccepted hwaits with hserves | hahead
  · exact .inr ⟨stage, hquery, hserves.isOpen_or_failed⟩
  · exact .inl hahead.undelivered

/-- A callback is entered for a block that the node does not know, the node says so, and then it
accepts the block. -/
def lateAcceptance : World :=
  ((((start (fun _ => none) []).enterCallback .empty).setQuery (.callback 0) .empty
    (.answered (.error (.notFound "")))).answerCallback 0 .empty (.error (.notFound ""))).accept
      .empty ⟨.accepted, none⟩

theorem acceptance_not_lost_late :
    lateAcceptance.Reachable ∧ lateAcceptance.Accepted .empty ∧
      lateAcceptance.Waits .empty (.callback 0) ∧
      (lateAcceptance.Undelivered .empty ∨
        ∃ stage, lateAcceptance.queries (.callback 0) = some ⟨.empty, stage⟩ ∧
          (stage.IsOpen ∨ stage.Failed)) := by
  have hentered := (Reachable.start (fun _ => none) []).step (.enterCallback .empty)
  have hunread : ((start (fun _ => none) []).enterCallback .empty).queries (.callback 0) =
      some ⟨.empty, .unread⟩ := rfl
  have hanswer : Answers .empty none (.error (.notFound "")) := .unknown rfl
  have hread := hentered.step (.read hunread hanswer)
  have hanswered := hread.step (.answerCallback (queries_setQuery_self ..))
  have hreachable : lateAcceptance.Reachable := hanswered.step (.accept rfl rfl)
  exact ⟨hreachable, rfl, rfl, hreachable.acceptance_not_lost rfl rfl⟩

end World

end LedgerWatch
