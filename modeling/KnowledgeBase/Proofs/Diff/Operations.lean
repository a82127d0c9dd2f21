import KnowledgeBase.Proofs.ArrayForm.Diff
import KnowledgeBase.Proofs.Diff.ThreeWay

/-!
A difference of entities as a function of its places. The five sections are looked up alike,
with values of one type, so what is said about all sections is said once: differences with
the same operations are the same, and they are equal where their operations are.
-/

namespace KnowledgeBase

variable {α β : Type}

/-! ## Operations on values of another type -/

namespace DiffOp

def map (f : α → β) : DiffOp α → DiffOp β
  | .add new => .add (f new)
  | .remove old => .remove (f old)
  | .change old new => .change (f old) (f new)

@[simp] theorem old?_map (f : α → β) (op : DiffOp α) : (op.map f).old? = op.old?.map f := by
  cases op <;> rfl

@[simp] theorem new?_map (f : α → β) (op : DiffOp α) : (op.map f).new? = op.new?.map f := by
  cases op <;> rfl

theorem map_injective {f : α → β} (hf : Function.Injective f) :
    Function.Injective (DiffOp.map f) := by
  intro first second h
  cases first <;> cases second <;> simp only [map, DiffOp.add.injEq, DiffOp.remove.injEq,
    DiffOp.change.injEq, reduceCtorEq] at h ⊢
  case add.add => exact hf h
  case remove.remove => exact hf h
  case change.change => exact ⟨hf h.1, hf h.2⟩

theorem reverse_map (f : α → β) (op : DiffOp α) : (op.map f).reverse = op.reverse.map f := by
  cases op <;> rfl

theorem reverse_reverse (op : DiffOp α) : op.reverse.reverse = op := by
  cases op <;> rfl

section Equality

variable [BEq α] [BEq β]

theorem map_beq_map {f : α → β} (hf : ∀ first second, (f first == f second) = (first == second))
    (first second : DiffOp α) : (first.map f == second.map f) = (first == second) := by
  simp only [beq_eq, old?_map, new?_map, KnowledgeBase.map_beq_map f hf]

theorem between?_map {f : α → β}
    (hf : ∀ first second, (f first == f second) = (first == second)) (old new : Option α) :
    between? (old.map f) (new.map f) = (between? old new).map (DiffOp.map f) := by
  cases old with
  | none => cases new <;> rfl
  | some before =>
      cases new with
      | none => rfl
      | some after =>
          simp only [between?, Option.map_some, hf]
          split <;> rfl

instance [PartialEquivBEq α] : PartialEquivBEq (DiffOp α) where
  symm h := by
    rw [beq_eq, Bool.and_eq_true] at h ⊢
    exact ⟨PartialEquivBEq.symm h.1, PartialEquivBEq.symm h.2⟩
  trans h h' := by
    rw [beq_eq, Bool.and_eq_true] at h h' ⊢
    exact ⟨PartialEquivBEq.trans h.1 h'.1, PartialEquivBEq.trans h.2 h'.2⟩

/-- An operation equals itself if its values do. -/
theorem beq_self {op : DiffOp α} (h : op.All fun value => (value == value) = true) :
    (op == op) = true := by
  have hside {side : Option α} (h : ∀ value ∈ side, (value == value) = true) :
      (side == side) = true := by
    cases side with
    | none => rfl
    | some value => exact h value rfl
  rw [beq_eq, hside h.old, hside h.new]
  rfl

end Equality

end DiffOp

/-! ## Equality of maps -/

namespace SortedMap

variable {κ : Type} [Ord κ] [Std.LawfulEqOrd κ] [BEq κ] [LawfulBEq κ] [BEq α]

omit [Ord κ] [Std.LawfulEqOrd κ] in
private theorem lookup_beq_of_beq {first second : List (κ × α)} (h : (first == second) = true)
    (key : κ) : (first.lookup key == second.lookup key) = true := by
  induction first generalizing second with
  | nil =>
      cases second with
      | nil => rfl
      | cons _ _ => cases h
  | cons head rest ih =>
      cases second with
      | nil => cases h
      | cons head' rest' =>
          obtain ⟨found, value⟩ := head
          obtain ⟨found', value'⟩ := head'
          rw [List.cons_beq_cons, Bool.and_eq_true,
            show ((found, value) == (found', value')) = (found == found' && value == value')
              from rfl, Bool.and_eq_true, beq_iff_eq] at h
          obtain ⟨⟨rfl, hvalue⟩, hrest⟩ := h
          rw [List.lookup_cons, List.lookup_cons]
          cases key == found with
          | true => exact hvalue
          | false => exact ih hrest

omit [Ord κ] [Std.LawfulEqOrd κ] in
private theorem beq_of_lookup_beq {first second : List (κ × α)}
    (hkeys : first.map (·.1) = second.map (·.1)) (hnodup : (first.map (·.1)).Nodup)
    (h : ∀ key, (first.lookup key == second.lookup key) = true) : (first == second) = true := by
  induction first generalizing second with
  | nil =>
      obtain rfl : second = [] := List.map_eq_nil_iff.mp hkeys.symm
      rfl
  | cons head rest ih =>
      cases second with
      | nil => cases hkeys
      | cons head' rest' =>
          obtain ⟨key, value⟩ := head
          obtain ⟨key', value'⟩ := head'
          obtain ⟨rfl, hrestKeys⟩ := List.cons.inj hkeys
          obtain ⟨hfresh, hrest⟩ := List.nodup_cons.mp hnodup
          have hvalue : (value == value') = true := by
            simpa [List.lookup_cons] using h key
          rw [List.cons_beq_cons, Bool.and_eq_true]
          refine ⟨?_, ih hrestKeys hrest fun other => ?_⟩
          · exact Bool.and_eq_true_iff.mpr ⟨BEq.rfl, hvalue⟩
          · by_cases same : other = key
            · -- the head's key is not found again in either rest
              have habsent {rest : List (κ × α)} (hfresh : key ∉ rest.map (·.1)) :
                  rest.lookup key = none := by
                rw [List.lookup_eq_none_iff]
                intro entry member
                rw [bne_iff_ne]
                rintro rfl
                exact hfresh (List.mem_map_of_mem member)
              rw [same, habsent hfresh, habsent (hrestKeys ▸ hfresh)]
              rfl
            · have hother := h other
              rwa [List.lookup_cons, List.lookup_cons, beq_false_of_ne same] at hother

/-- Maps are equal exactly if they hold equal values under each key. -/
theorem beq_iff [Std.TransOrd κ] [DecidableEq κ] {first second : SortedMap κ α} :
    (first == second) = true ↔ ∀ key, (first.get? key == second.get? key) = true := by
  change (first.toList == second.toList) = true ↔ _
  simp only [← lookup_toList]
  constructor
  · exact lookup_beq_of_beq
  · intro h
    refine beq_of_lookup_beq ?_ first.nodup_keys h
    have hsorted (map : SortedMap κ α) :
        map.keys.Pairwise fun left right => compare left right = .lt :=
      List.pairwise_map.mpr map.ascending
    have hmember (key : κ) : key ∈ first.keys ↔ key ∈ second.keys := by
      rw [mem_keys_iff, mem_keys_iff, ← lookup_toList, ← lookup_toList, isSome_eq_of_beq (h key)]
    exact eq_of_ascending id (hsorted first) (hsorted second) hmember

end SortedMap

/-! ## Operations at places -/

namespace SectionValue

instance : PartialEquivBEq SectionValue where
  symm {first second} h := by
    cases first <;> cases second <;> try cases h
    case text.text => exact @PartialEquivBEq.symm String _ _ _ _ h
    case aliases.aliases => exact @PartialEquivBEq.symm (List String) _ _ _ _ h
    case statement.statement => exact @PartialEquivBEq.symm Statement _ _ _ _ h
    case link.link => exact @PartialEquivBEq.symm SiteLink _ _ _ _ h
  trans {first second third} h h' := by
    cases first <;> cases second <;> (try cases h) <;> cases third <;> try cases h'
    case text.text.text => exact @PartialEquivBEq.trans String _ _ _ _ _ h h'
    case aliases.aliases.aliases => exact @PartialEquivBEq.trans (List String) _ _ _ _ _ h h'
    case statement.statement.statement => exact @PartialEquivBEq.trans Statement _ _ _ _ _ h h'
    case link.link.link => exact @PartialEquivBEq.trans SiteLink _ _ _ _ _ h h'

end SectionValue

namespace EntityDiff

variable {first second : EntityDiff}

/-- The operation of a difference at a place. -/
def operationAt (diff : EntityDiff) (place : Conflict) : Option (DiffOp SectionValue) :=
  match place.part with
  | .labels => (diff.labels.get? place.key).map (DiffOp.map .text)
  | .descriptions => (diff.descriptions.get? place.key).map (DiffOp.map .text)
  | .aliases => (diff.aliases.get? place.key).map (DiffOp.map .aliases)
  | .claims => (diff.claims.get? place.key).map (DiffOp.map .statement)
  | .siteLinks => (diff.siteLinks.get? place.key).map (DiffOp.map .link)

private theorem section_ext {f : α → SectionValue} (hf : Function.Injective f)
    {left right : MapDiff α}
    (h : ∀ key, (left.get? key).map (DiffOp.map f) = (right.get? key).map (DiffOp.map f)) :
    left = right :=
  SortedMap.ext_get? fun key => Option.map_injective (DiffOp.map_injective hf) (h key)

/-- Differences of one type with the same operations are the same. -/
theorem ext_operationAt (htype : first.type = second.type)
    (h : ∀ place, first.operationAt place = second.operationAt place) : first = second := by
  have hlabels := section_ext (fun _ _ => SectionValue.text.inj) fun key => h ⟨.labels, key⟩
  have hdescriptions :=
    section_ext (fun _ _ => SectionValue.text.inj) fun key => h ⟨.descriptions, key⟩
  have haliases := section_ext (fun _ _ => SectionValue.aliases.inj) fun key => h ⟨.aliases, key⟩
  have hclaims := section_ext (fun _ _ => SectionValue.statement.inj) fun key => h ⟨.claims, key⟩
  have hlinks := section_ext (fun _ _ => SectionValue.link.inj) fun key => h ⟨.siteLinks, key⟩
  cases first
  cases second
  cases htype
  cases hlabels
  cases hdescriptions
  cases haliases
  cases hclaims
  cases hlinks
  rfl

private theorem section_beq_iff [BEq α] {f : α → SectionValue}
    (hf : ∀ first second, (f first == f second) = (first == second)) {left right : MapDiff α} :
    (left == right) = true ↔
      ∀ key,
        ((left.get? key).map (DiffOp.map f) == (right.get? key).map (DiffOp.map f)) = true := by
  rw [SortedMap.beq_iff]
  simp only [map_beq_map _ (DiffOp.map_beq_map hf)]

/-- Differences are equal if they have one type and equal operations at every place. -/
theorem beq_iff_operationAt : (first == second) = true ↔
    first.type = second.type ∧
      ∀ place, (first.operationAt place == second.operationAt place) = true := by
  change (first.type == second.type && first.labels == second.labels &&
    first.descriptions == second.descriptions && first.aliases == second.aliases &&
    first.claims == second.claims && first.siteLinks == second.siteLinks) = true ↔ _
  simp only [Bool.and_eq_true, beq_iff_eq, and_assoc,
    section_beq_iff (f := SectionValue.text) fun _ _ => rfl,
    section_beq_iff (f := SectionValue.aliases) fun _ _ => rfl,
    section_beq_iff (f := SectionValue.statement) fun _ _ => rfl,
    section_beq_iff (f := SectionValue.link) fun _ _ => rfl]
  refine and_congr_right fun _ => ?_
  constructor
  · rintro ⟨hlabels, hdescriptions, haliases, hclaims, hlinks⟩ ⟨part, key⟩
    cases part with
    | labels => exact hlabels key
    | descriptions => exact hdescriptions key
    | aliases => exact haliases key
    | claims => exact hclaims key
    | siteLinks => exact hlinks key
  · intro h
    exact ⟨fun key => h ⟨.labels, key⟩, fun key => h ⟨.descriptions, key⟩,
      fun key => h ⟨.aliases, key⟩, fun key => h ⟨.claims, key⟩, fun key => h ⟨.siteLinks, key⟩⟩

/-- Whether no statement in the operations of a difference holds a coordinate with a part
that is not a number. -/
def NaNFree (diff : EntityDiff) : Prop := diff.claims.All Statement.NaNFree

theorem NaNFree.operationAt_beq_self {diff : EntityDiff} (h : diff.NaNFree) (place : Conflict) :
    (diff.operationAt place == diff.operationAt place) = true := by
  obtain ⟨part, key⟩ := place
  have hlawful {α : Type} [BEq α] [LawfulBEq α] {f : α → SectionValue}
      (hf : ∀ first second, (f first == f second) = (first == second)) (op? : Option (DiffOp α)) :
      (op?.map (DiffOp.map f) == op?.map (DiffOp.map f)) = true := by
    rw [map_beq_map _ (DiffOp.map_beq_map hf)]
    cases op? with
    | none => rfl
    | some op => exact DiffOp.beq_self ⟨fun _ _ => BEq.rfl, fun _ _ => BEq.rfl⟩
  cases part with
  | labels | descriptions => exact hlawful (f := .text) (fun _ _ => rfl) _
  | aliases => exact hlawful (f := .aliases) (fun _ _ => rfl) _
  | siteLinks => exact hlawful (f := .link) (fun _ _ => rfl) _
  | claims =>
      simp only [operationAt]
      rw [map_beq_map _ (DiffOp.map_beq_map (f := SectionValue.statement) fun _ _ => rfl)]
      cases hop : diff.claims.get? key with
      | none => rfl
      | some op => exact DiffOp.beq_self ((h key op hop).imp fun _ hvalue => hvalue.beq_self)

end EntityDiff

end KnowledgeBase
