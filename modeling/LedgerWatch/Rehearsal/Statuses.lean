import LedgerWatch.Status.Cache

/-!
# A rehearsal of the status cache

Statuses are applied to one cache. A hook on each event looks at the cache when it runs, which is
after the whole update is in place.

## Main definitions

- `StatusRehearsal.Observation`: what a hook sees
- `StatusRehearsal.apply`
-/

namespace LedgerWatch.StatusRehearsal

/-- An event, and the cache at the time its hooks run. -/
structure Observation where
  event : StatusEvent
  cache : StatusCache

/-- Applies a status. A refused one leaves the cache as it was and fires nothing. -/
def apply (codec : Codec) (raw : RawStatus) (cache : StatusCache) :
    StatusCache × List Observation × Except Fault Progress :=
  match cache.apply codec raw with
  | .error fault => (cache, [], .error fault)
  | .ok (cache, progress) => (cache, progress.events.map (⟨·, cache⟩), .ok progress)

end LedgerWatch.StatusRehearsal
