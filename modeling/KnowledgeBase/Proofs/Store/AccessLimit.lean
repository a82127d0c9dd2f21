import KnowledgeBase.Proofs.Distinct
import KnowledgeBase.Store.AccessLimit
import Mathlib.Data.Set.Card

/-!
Which look-ups a limiter admits. Since the last reset these are exactly the look-ups of the first
entities that were asked for, as many different ones as the limit says, and every repetition of
them. A refused look-up changes nothing, and an admitted one gives what the store gives.
-/

namespace KnowledgeBase

namespace AccessLimiter

/-- A look-up in a store, which may be another one each time, or a reset. -/
inductive Request where
  | get (find : EntityId → Except StoreError (Option Entity)) (id : EntityId)
  | reset

/-- The entity that is asked for. -/
def Request.id? : Request → Option EntityId
  | .get _ id => some id
  | .reset => none

def serve (limiter : AccessLimiter) : Request → AccessLimiter
  | .get find id => (limiter.lookUpWith find id).2
  | .reset => limiter.reset

/-- A limiter after requests, one after the other. -/
def serveAll (limit : Nat) (requests : List Request) : AccessLimiter :=
  requests.foldl serve { limit }

/-- The entities that were asked for since the last reset, each once, the first one first. -/
def asked (requests : List Request) : List EntityId :=
  ((requests.reverse.takeWhile (·.id?.isSome)).reverse.filterMap Request.id?).eraseDups

/-- Whether a look-up is refused: in every store it ends with the error of the limit, and it leaves
the limiter as it is. -/
def Refuses (limiter : AccessLimiter) (id : EntityId) : Prop :=
  ∀ find, limiter.lookUpWith find id = (.error (.accessLimitExceeded limiter.limit), limiter)

/-- Whether a look-up of an entity has not been refused since the last reset. -/
def AdmittedSinceReset (limit : Nat) (requests : List Request) (id : EntityId) : Prop :=
  ∃ earlier find later, requests = earlier ++ .get find id :: later ∧ .reset ∉ later ∧
    ¬(serveAll limit earlier).Refuses id

/-! ## One look-up -/

section LookUp

variable (limiter : AccessLimiter) (id : EntityId)

/-- The limiter that has an entity among those accessed. -/
def counting : AccessLimiter :=
  if id ∈ limiter.accessed then limiter else { limiter with accessed := id :: limiter.accessed }

theorem lookUpWith_eq (find : EntityId → Except StoreError (Option Entity)) :
    limiter.lookUpWith find id =
      if id ∈ limiter.accessed ∨ limiter.count < limiter.limit then (find id, limiter.counting id)
      else (.error (.accessLimitExceeded limiter.limit), limiter) := by
  unfold lookUpWith record hasAccessed counting
  simp only [List.contains_iff_mem]
  by_cases hknown : id ∈ limiter.accessed
  · simp [hknown]
  · by_cases hfull : limiter.limit ≤ limiter.count
    · simp [hknown, hfull]
    · simp [hknown, hfull, Nat.lt_of_not_le hfull]

theorem refuses_iff :
    limiter.Refuses id ↔ id ∉ limiter.accessed ∧ limiter.limit ≤ limiter.count := by
  rw [← not_lt, ← not_or]
  constructor
  · intro h hadmits
    have hanswer := h fun _ => .ok none
    rw [lookUpWith_eq, if_pos hadmits] at hanswer
    cases hanswer
  · intro h find
    rw [lookUpWith_eq, if_neg h]

theorem mem_accessed_counting {limiter : AccessLimiter} {id other : EntityId} :
    other ∈ (limiter.counting id).accessed ↔ other = id ∨ other ∈ limiter.accessed := by
  unfold counting
  split
  next h =>
    constructor
    · exact .inr
    · rintro (rfl | hother)
      · exact h
      · exact hother
  next => exact List.mem_cons

theorem limit_counting : (limiter.counting id).limit = limiter.limit := by
  unfold counting
  split <;> rfl

theorem limit_serve (request : Request) : (limiter.serve request).limit = limiter.limit := by
  cases request with
  | get find id =>
      rw [serve, lookUpWith_eq]
      split
      next => exact limiter.limit_counting id
      next => rfl
  | reset => rfl

/-- A look-up adds an entity that is new and still within the limit. -/
theorem accessed_serve_get (find : EntityId → Except StoreError (Option Entity)) :
    (limiter.serve (.get find id)).accessed =
      if id ∈ limiter.accessed ∨ limiter.limit ≤ limiter.count then limiter.accessed
      else id :: limiter.accessed := by
  rw [serve, lookUpWith_eq, counting]
  by_cases hknown : id ∈ limiter.accessed
  · simp [hknown]
  · by_cases hfull : limiter.limit ≤ limiter.count
    · simp [hknown, hfull, Nat.not_lt.mpr hfull]
    · simp [hknown, hfull, Nat.lt_of_not_le hfull]

end LookUp

/-! ## Requests since the last reset -/

theorem serveAll_concat (limit : Nat) (requests : List Request) (last : Request) :
    serveAll limit (requests ++ [last]) = (serveAll limit requests).serve last := by
  rw [serveAll, List.foldl_append]
  rfl

theorem asked_concat_reset (requests : List Request) : asked (requests ++ [.reset]) = [] := by
  simp [asked, Request.id?]

theorem asked_concat_get (requests : List Request)
    (find : EntityId → Except StoreError (Option Entity)) (id : EntityId) :
    asked (requests ++ [.get find id]) =
      if id ∈ asked requests then asked requests else asked requests ++ [id] := by
  have hlast : Request.id? (.get find id) = some id := rfl
  simp only [asked, List.reverse_concat, List.takeWhile_cons, hlast, Option.isSome_some, if_true,
    List.reverse_cons, List.filterMap_append, List.filterMap_cons, List.filterMap_nil,
    eraseDups_concat, List.mem_eraseDups]

theorem nodup_asked (requests : List Request) : (asked requests).Nodup := nodup_eraseDups _

/-- Of the members that come first as many as before are taken, unless there is room for the new
one. -/
theorem take_concat_new (members : List EntityId) (member : EntityId) (limit : Nat) :
    (if member ∈ members then members else members ++ [member]).take limit =
      if member ∈ members.take limit ∨ limit ≤ (members.take limit).length then members.take limit
      else members.take limit ++ [member] := by
  rcases Nat.lt_or_ge members.length limit with hroom | hfull
  · rw [List.take_of_length_le hroom.le]
    split
    next hknown => simp [hknown, hroom.le]
    next hnew =>
      rw [List.take_of_length_le (by simp; omega), if_neg]
      simp [hnew, hroom]
  · have hlength : limit ≤ (members.take limit).length := by simp [hfull]
    have hkept : member ∈ members.take limit ∨ limit ≤ (members.take limit).length := .inr hlength
    rw [if_pos hkept]
    split
    next => rfl
    next => exact List.take_append_of_le_length hfull

/-- The entities accessed are the first ones asked for, the last one first. -/
theorem accessed_serveAll (limit : Nat) (requests : List Request) :
    (serveAll limit requests).limit = limit ∧
      (serveAll limit requests).accessed = ((asked requests).take limit).reverse := by
  -- From the end, since a request is served by the limiter that all earlier ones have left.
  induction requests using List.reverseRecOn with
  | nil => simp [serveAll, asked]
  | append_singleton requests last ih =>
      obtain ⟨hlimit, haccessed⟩ := ih
      rw [serveAll_concat]
      refine ⟨(limit_serve _ _).trans hlimit, ?_⟩
      cases last with
      | reset =>
          rw [asked_concat_reset]
          simp [serve, reset]
      | get find id =>
          rw [accessed_serve_get, asked_concat_get, take_concat_new, count, hlimit, haccessed]
          simp only [List.mem_reverse, List.length_reverse]
          split
          next => rfl
          next => rw [List.reverse_concat]

/-! ## Admission -/

/-- The last item either stands behind an item that is picked out or is that item. -/
theorem concat_eq_append_cons_iff {α : Type} {items earlier later : List α} {last item : α} :
    items ++ [last] = earlier ++ item :: later ↔
      (later = [] ∧ items = earlier ∧ last = item) ∨
        ∃ rest, later = rest ++ [last] ∧ items = earlier ++ item :: rest := by
  rcases List.eq_nil_or_concat later with rfl | ⟨rest, final, rfl⟩
  · simp
  · rw [List.concat_eq_append, ← List.cons_append, ← List.append_assoc]
    constructor
    · intro h
      obtain ⟨hitems, hlast⟩ := List.append_inj' h rfl
      cases hlast
      exact .inr ⟨rest, rfl, hitems⟩
    · rintro (⟨hnil, -⟩ | ⟨kept, hkept, rfl⟩)
      · simp at hnil
      · obtain ⟨rfl, hlast⟩ := List.append_inj' hkept rfl
        rw [hlast]

section Admission

variable {limit : Nat} {requests : List Request} {id : EntityId}

theorem not_admittedSinceReset_reset : ¬AdmittedSinceReset limit (requests ++ [.reset]) id := by
  rintro ⟨earlier, find, later, hsplit, hlater, -⟩
  rcases concat_eq_append_cons_iff.mp hsplit with ⟨-, -, hlast⟩ | ⟨rest, rfl, -⟩
  · cases hlast
  · simp at hlater

/-- A look-up is admitted now or has been before. -/
theorem admittedSinceReset_concat_get
    {find : EntityId → Except StoreError (Option Entity)} {other : EntityId} :
    AdmittedSinceReset limit (requests ++ [.get find other]) id ↔
      AdmittedSinceReset limit requests id ∨
        id = other ∧ ¬(serveAll limit requests).Refuses other := by
  constructor
  · rintro ⟨earlier, found, later, hsplit, hlater, hadmitted⟩
    rcases concat_eq_append_cons_iff.mp hsplit with ⟨-, rfl, hlast⟩ | ⟨rest, rfl, rfl⟩
    · cases hlast
      exact .inr ⟨rfl, hadmitted⟩
    · refine .inl ⟨earlier, found, rest, rfl, ?_, hadmitted⟩
      exact fun member => hlater (List.mem_append_left _ member)
  · rintro (⟨earlier, found, later, rfl, hlater, hadmitted⟩ | ⟨rfl, hadmitted⟩)
    · refine ⟨earlier, found, later ++ [.get find other], by simp, ?_, hadmitted⟩
      simpa using hlater
    · exact ⟨requests, find, [], rfl, List.not_mem_nil, hadmitted⟩

/-- Those admitted since the last reset are those that the limiter holds. -/
theorem admittedSinceReset_iff :
    AdmittedSinceReset limit requests id ↔ id ∈ (serveAll limit requests).accessed := by
  induction requests using List.reverseRecOn with
  | nil =>
      constructor
      · rintro ⟨earlier, find, later, hsplit, -⟩
        simp at hsplit
      · intro h
        cases h
  | append_singleton requests last ih =>
      rw [serveAll_concat]
      cases last with
      | reset => simp [not_admittedSinceReset_reset, serve, reset]
      | get find other =>
          rw [admittedSinceReset_concat_get, ih, refuses_iff, accessed_serve_get]
          split
          -- The limiter stays as it is: the entity is known already, or it is refused.
          next hkept =>
            constructor
            · rintro (hheld | ⟨rfl, hadmitted⟩)
              · exact hheld
              · rcases hkept with hknown | hfull
                · exact hknown
                · by_contra hnew
                  exact hadmitted ⟨hnew, hfull⟩
            · exact .inl
          next hnew =>
            have hadmitted := mt Or.inr hnew
            rw [List.mem_cons, or_comm]
            simp [hadmitted]

theorem mem_take_asked_iff :
    id ∈ (asked requests).take limit ↔ AdmittedSinceReset limit requests id := by
  rw [admittedSinceReset_iff, (accessed_serveAll limit requests).2, List.mem_reverse]

theorem count_serveAll :
    (serveAll limit requests).count = ((asked requests).take limit).length := by
  rw [count, (accessed_serveAll limit requests).2, List.length_reverse]

theorem refuses_serveAll_iff : (serveAll limit requests).Refuses id ↔
    ¬AdmittedSinceReset limit requests id ∧ (serveAll limit requests).count = limit := by
  have hle : (serveAll limit requests).count ≤ limit := by
    rw [count_serveAll]
    exact List.length_take_le _ _
  rw [refuses_iff, admittedSinceReset_iff, (accessed_serveAll limit requests).1]
  constructor
  · rintro ⟨hnew, hfull⟩
    exact ⟨hnew, by omega⟩
  · rintro ⟨hnew, hfull⟩
    exact ⟨hnew, by omega⟩

/-- As long as there is no reset, what has been admitted stays admitted. -/
theorem AdmittedSinceReset.append (h : AdmittedSinceReset limit requests id) {later : List Request}
    (hlater : .reset ∉ later) : AdmittedSinceReset limit (requests ++ later) id := by
  obtain ⟨earlier, find, between, rfl, hbetween, hadmitted⟩ := h
  refine ⟨earlier, find, between ++ later, by simp, ?_, hadmitted⟩
  simp [hbetween, hlater]

end Admission

/-- What can be said of a limiter after requests. -/
structure Limited (limit : Nat) (requests : List Request) : Prop where
  /-- Those admitted since the last reset are the first of those asked for, up to the limit. -/
  admitted : ∀ id, AdmittedSinceReset limit requests id ↔ id ∈ (asked requests).take limit
  counted : (serveAll limit requests).count = {id | AdmittedSinceReset limit requests id}.ncard
  bounded : (serveAll limit requests).count ≤ limit
  refused : ∀ id, (serveAll limit requests).Refuses id ↔
    ¬AdmittedSinceReset limit requests id ∧ (serveAll limit requests).count = limit
  denied : ∀ id, (serveAll limit requests).Refuses id → ∀ store,
    lookUp store (serveAll limit requests) id = .error (.accessLimitExceeded limit)
  /-- A look-up that is not refused counts its entity and answers what the store does. -/
  answered : ∀ id, ¬(serveAll limit requests).Refuses id → ∃ after,
    (∀ other, after.hasAccessed other = true ↔
      other = id ∨ (serveAll limit requests).hasAccessed other = true) ∧
    (∀ find, (serveAll limit requests).lookUpWith find id = (find id, after)) ∧
    ∀ store, lookUp store (serveAll limit requests) id = .ok (store.get? id, after)
  repeated : ∀ id, AdmittedSinceReset limit requests id → ∀ later, .reset ∉ later →
    ¬(serveAll limit (requests ++ later)).Refuses id

/-- A limiter admits the first entities that are asked for, as many as its limit says, and whatever
else is asked for changes nothing. -/
theorem serveAll_limited (limit : Nat) (requests : List Request) : Limited limit requests where
  admitted _ := mem_take_asked_iff.symm
  counted := by
    have hset : {id | AdmittedSinceReset limit requests id} =
        ((asked requests).take limit).toFinset := by
      ext id
      rw [Set.mem_ofPred_eq, Finset.mem_coe, List.mem_toFinset, mem_take_asked_iff]
    have hnodup := (nodup_asked requests).sublist (List.take_sublist limit _)
    rw [hset, Set.ncard_coe_finset, List.toFinset_card_of_nodup hnodup, count_serveAll]
  bounded := by
    rw [count_serveAll]
    exact List.length_take_le _ _
  refused _ := refuses_serveAll_iff
  denied id h store := by
    rw [lookUp, h, (accessed_serveAll limit requests).1]
    rfl
  answered id h := by
    have hadmits := mt (refuses_iff _ id).mpr h
    rw [not_and_or, not_not, not_le] at hadmits
    have hanswer : ∀ find, (serveAll limit requests).lookUpWith find id =
        (find id, (serveAll limit requests).counting id) := by
      intro find
      rw [lookUpWith_eq, if_pos hadmits]
    refine ⟨(serveAll limit requests).counting id, ?_, hanswer, ?_⟩
    · intro other
      simp only [hasAccessed, List.contains_iff_mem]
      exact mem_accessed_counting
    · intro store
      rw [lookUp, hanswer]
      rfl
  repeated id h later hlater := by
    rw [refuses_serveAll_iff]
    exact fun hrefused => hrefused.1 (h.append hlater)

end AccessLimiter

end KnowledgeBase
