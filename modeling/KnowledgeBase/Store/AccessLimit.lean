import KnowledgeBase.Store

/-!
Limited access to a store: only so many different entities can be looked up. An entity that
was admitted once can be looked up again, and a look-up that is refused counts for nothing.
-/

namespace KnowledgeBase

structure AccessLimiter where
  limit : Nat
  /-- The entities admitted since the start or the last reset. -/
  accessed : List EntityId := []

namespace AccessLimiter

def count (limiter : AccessLimiter) : Nat := limiter.accessed.length

def hasAccessed (limiter : AccessLimiter) (id : EntityId) : Bool := limiter.accessed.contains id

def record (limiter : AccessLimiter) (id : EntityId) : Except StoreError AccessLimiter :=
  if limiter.hasAccessed id then .ok limiter
  else if limiter.limit ≤ limiter.count then .error (.accessLimitExceeded limiter.limit)
  else .ok { limiter with accessed := id :: limiter.accessed }

def reset (limiter : AccessLimiter) : AccessLimiter := { limiter with accessed := [] }

/-- Looks an entity up with `find`, if it is admitted: the answer, and the limiter afterwards. The
entity counts whatever `find` answers, also if that has nothing for it or fails. -/
def lookUpWith (find : EntityId → Except StoreError (Option Entity)) (limiter : AccessLimiter)
    (id : EntityId) : Except StoreError (Option Entity) × AccessLimiter :=
  match limiter.record id with
  | .ok after => (find id, after)
  | .error error => (.error error, limiter)

/-- Looks an entity up in a store, if it is admitted. -/
def lookUp (store : EntityStore) (limiter : AccessLimiter) (id : EntityId) :
    Except StoreError (Option Entity × AccessLimiter) := do
  let (answer, after) := limiter.lookUpWith (fun id => .ok (store.get? id)) id
  return (← answer, after)

end AccessLimiter

end KnowledgeBase
