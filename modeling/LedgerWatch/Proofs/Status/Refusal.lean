import LedgerWatch.Connection
import LedgerWatch.Proofs.Status.Advance

/-!
# Refused statuses

Whether a status is refused depends on the status alone: on its version tag, and otherwise on its
parameters. A refused one changes neither the picture of the node nor what is announced. Commitments
that do not decode are no reason to refuse a status.

## Main definitions

- `RawStatus.isAccepted`: whether a status is taken over

## Main results

- `StatusCache.apply_eq_error_iff`: which statuses are refused, and why
- `StatusCache.receiveAll_filter`: refused statuses may be left out
- `StatusCache.Updates.held_of_undecodable`: a commitment that does not decode stays where it is
-/

namespace LedgerWatch

def RawStatus.isAccepted (codec : Codec) (raw : RawStatus) : Bool := (raw.accepted? codec).isSome

namespace StatusCache

variable {codec : Codec} {raw : RawStatus} {cache : StatusCache} {fault : Fault}

/-- A status is refused for its version tag, or else for its parameters. The picture and the
commitments of the status play no role. -/
theorem apply_eq_error_iff :
    cache.apply codec raw = .error fault ↔
      (raw.parameters.protocolVersion ≠ supportedVersion ∧
        fault = .unsupportedVersion raw.parameters.protocolVersion supportedVersion) ∨
      (raw.parameters.protocolVersion = supportedVersion ∧
        codec.decodeParameters raw.parameters.params = .error fault) := by
  have hdecode : cache.apply codec raw = .error fault ↔
      decodeRawParameters codec raw.parameters = .error fault := by
    rw [apply]
    cases decodeRawParameters codec raw.parameters <;>
      simp [bind, Except.bind, pure, Except.pure]
  rw [hdecode, decodeRawParameters]
  by_cases hversion : raw.parameters.protocolVersion = supportedVersion
  · simp [hversion]
  · simp [hversion, eq_comm]

theorem isAccepted_eq_false_iff (cache : StatusCache) :
    raw.isAccepted codec = false ↔ ∃ fault, cache.apply codec raw = .error fault := by
  rcases apply_cases codec raw cache with ⟨hnone, hfault⟩ | ⟨api, after, progress, hsome, happly, -⟩
  · simp [RawStatus.isAccepted, hnone, hfault]
  · simp [RawStatus.isAccepted, hsome, happly]

theorem receive_of_refused (h : raw.isAccepted codec = false) (cache : StatusCache) :
    cache.receive codec raw = (cache, []) := by
  obtain ⟨fault, happly⟩ := (isAccepted_eq_false_iff cache).mp h
  rw [receive, happly]

/-- A commitment that does not decode stays where it is. -/
theorem Updates.held_of_undecodable {api : Parameters} {before after : StatusCache}
    {progress : Progress} (h : Updates codec raw api before after progress)
    (haccepted : raw.accepted? codec = some api) {track : CommitmentTrack}
    {announced : RawCommitment} (hannounced : track.announced raw = some announced)
    (hundecodable : codec.decodeCommitment announced.data api = .error fault) :
    track.moved progress = none ∧ track.held after = track.held before := by
  have hoffer : track.offer? codec raw = none := by
    simp [CommitmentTrack.offer?, haccepted, hannounced, hundecodable, Except.toOption]
  have hmoved := h.moved track
  rw [hoffer, Option.filter_none] at hmoved
  refine ⟨hmoved, ?_⟩
  rw [h.held track, hmoved, Option.none_or]

/-- Refused statuses may be left out of a sequence. -/
theorem receiveAll_filter (codec : Codec) (raws : List RawStatus) (cache : StatusCache) :
    receiveAll codec (raws.filter (RawStatus.isAccepted codec)) cache =
      receiveAll codec raws cache := by
  induction raws generalizing cache with
  | nil => rfl
  | cons raw rest ih =>
    cases haccepted : raw.isAccepted codec with
    | false =>
      rw [List.filter_cons_of_neg (by simp [haccepted]), ih, receiveAll,
        receive_of_refused haccepted]
      rfl
    | true =>
      rw [List.filter_cons_of_pos haccepted]
      simp only [receiveAll, ih]

end StatusCache

theorem Connection.receiveStatus_eq (raw : RawStatus) (c : Connection) :
    c.receiveStatus raw = ({ c with cache := (c.cache.receive c.codec raw).1 },
      (c.cache.receive c.codec raw).2) := by
  rw [receiveStatus, StatusCache.receive]
  cases c.cache.apply c.codec raw <;> rfl

end LedgerWatch
