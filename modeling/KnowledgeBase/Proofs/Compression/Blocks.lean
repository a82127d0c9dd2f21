import KnowledgeBase.Compression.Frame
import Mathlib.Algebra.Group.Nat.Defs

/-!
Frames whose blocks are stored as they are. Each part of a frame is read as soon as it is there,
and only then, whatever follows it. So what a reader gets from a piece of a frame is told from
where the piece ends.
-/

namespace KnowledgeBase.Frame

/-! ## Numbers -/

theorem length_toLittleEndian (count n : Nat) : (toLittleEndian count n).length = count := by
  induction count generalizing n with
  | zero => rfl
  | succ count ih => rw [toLittleEndian, List.length_cons, ih]

theorem littleEndian_toLittleEndian {count n : Nat} (h : n < 256 ^ count) :
    littleEndian (toLittleEndian count n) = n := by
  induction count generalizing n with
  | zero => exact (Nat.lt_one_iff.mp h).symm
  | succ count ih =>
      have hrest : n / 256 < 256 ^ count := Nat.div_lt_of_lt_mul (by rwa [Nat.pow_succ'] at h)
      have hbyte : (UInt8.ofNat (n % 256)).toNat = n % 256 := by
        rw [UInt8.toNat_ofNat', Nat.mod_eq_of_lt (by omega)]
      rw [toLittleEndian, littleEndian, ih hrest, hbyte]
      omega

/-- A number is read as soon as all of its bytes are there. -/
theorem takeNumber?_of_append {count n : Nat} {bytes more tail : Bytes} (hn : n < 256 ^ count)
    (h : bytes ++ more = toLittleEndian count n ++ tail) :
    (bytes.length < count ∧ takeNumber? count bytes = none) ∨
      ∃ rest, rest.length + count = bytes.length ∧ takeNumber? count bytes = some (n, rest) ∧
        rest ++ more = tail := by
  have hlength := length_toLittleEndian count n
  by_cases hshort : bytes.length < count
  · left
    refine ⟨hshort, if_neg ?_⟩
    rw [List.length_take]
    omega
  · right
    obtain ⟨rest, rfl⟩ : toLittleEndian count n <+: bytes :=
      List.prefix_of_prefix_length_le ⟨tail, h.symm⟩ ⟨more, rfl⟩ (by omega)
    refine ⟨rest, by rw [List.length_append]; omega, ?_, ?_⟩
    · rw [takeNumber?, List.take_left' hlength, List.drop_left' hlength, if_pos hlength,
        littleEndian_toLittleEndian hn]
    · rw [List.append_assoc] at h
      exact List.append_cancel_left h

/-! ## Headers -/

/-- The header of a frame that gives the size of its content in four bytes. -/
def sizeHeader (size : Nat) : Bytes := toLittleEndian 4 mark ++ 0xa0 :: toLittleEndian 4 size

theorem length_sizeHeader (size : Nat) : (sizeHeader size).length = 9 := by
  simp [sizeHeader, length_toLittleEndian]

theorem store_eq (content : Bytes) :
    store content =
      sizeHeader content.length ++ storedBlocks (content.length + 1) content := by
  rw [store, sizeHeader, List.append_assoc, List.cons_append]

theorem header?_of_append {size : Nat} {bytes more tail : Bytes} (hsize : size < 2 ^ 32)
    (h : bytes ++ more = toLittleEndian 4 size ++ tail) :
    (bytes.length < 4 ∧ header? 0xa0 bytes = some .cut) ∨
      ∃ rest, rest.length + 4 = bytes.length ∧
        header? 0xa0 bytes = some (.content ⟨some size, size⟩ rest) ∧ rest ++ more = tail := by
  have hnothing : takeNumber? 0 bytes = some (0, bytes) := rfl
  have hfits : size + 1 ≠ UInt64.size := by
    have hword : UInt64.size = 2 ^ 64 := rfl
    omega
  rcases takeNumber?_of_append (by omega) h with ⟨hshort, hnone⟩ | ⟨rest, hlength, hsome, htail⟩
  · exact .inl ⟨hshort, by simp [header?, hnothing, hnone]⟩
  · exact .inr ⟨rest, hlength, by simp [header?, hnothing, hsome, hfits], htail⟩

/-- A frame is opened as soon as its header is there. -/
theorem opening?_of_append {size : Nat} {bytes more tail : Bytes} (hsize : size < 2 ^ 32)
    (h : bytes ++ more = sizeHeader size ++ tail) :
    (bytes.length < 9 ∧ opening? bytes = some .cut) ∨
      ∃ rest, rest.length + 9 = bytes.length ∧
        opening? bytes = some (.content ⟨some size, size⟩ rest) ∧ rest ++ more = tail := by
  rw [sizeHeader, List.append_assoc] at h
  rcases takeNumber?_of_append (by decide) h with ⟨hshort, hnone⟩ | ⟨left, hleft, hmark, h⟩
  · exact .inl ⟨by omega, by simp [opening?, hnone]⟩
  cases left with
  | nil =>
      left
      have hnone : takeNumber? 1 [] = none := rfl
      exact ⟨by simp at hleft; omega, by simp [opening?, hmark, hnone]⟩
  | cons descriptor left =>
      obtain ⟨rfl, hrest⟩ : descriptor = 0xa0 ∧ left ++ more = toLittleEndian 4 size ++ tail := by
        simpa using h
      have hdescriptor : takeNumber? 1 (0xa0 :: left) = some (0xa0, left) := rfl
      rw [List.length_cons] at hleft
      rcases header?_of_append hsize hrest with ⟨hshort, hcut⟩ | ⟨rest, hlength, hheader, htail⟩
      · exact .inl ⟨by omega, by simp [opening?, hmark, hdescriptor, hcut]⟩
      · exact .inr ⟨rest, by omega, by simp [opening?, hmark, hdescriptor, hheader], htail⟩

/-! ## Blocks -/

/-- The header of a block that is stored as it is. -/
def storedHeader (last : Bool) (size : Nat) : Bytes := toLittleEndian 3 (8 * size + last.toNat)

/-- Bytes that are blocks with some content, up to the last one. After the last one there is
nothing. No block but the last is empty. -/
inductive Stored : (done : Bool) → (bytes content : Bytes) → Prop
  | done : Stored true [] []
  | block {last : Bool} {block bytes content : Bytes} (hsize : block.length ≤ maxBlock)
      (hfilled : block ≠ [] ∨ last = true) (h : Stored last bytes content) :
      Stored false (storedHeader last block.length ++ (block ++ bytes)) (block ++ content)

theorem Stored.eq_nil {bytes content : Bytes} (h : Stored true bytes content) :
    bytes = [] ∧ content = [] := by
  cases h
  exact ⟨rfl, rfl⟩

theorem Stored.three_le_length {bytes content : Bytes} (h : Stored false bytes content) :
    3 ≤ bytes.length := by
  cases h
  rw [List.length_append, storedHeader, length_toLittleEndian]
  exact Nat.le_add_right _ _

theorem stored_storedBlocks {fuel : Nat} {content : Bytes} (h : content.length < fuel) :
    Stored false (storedBlocks fuel content) content := by
  induction fuel generalizing content with
  | zero => omega
  | succ fuel ih =>
      have hsize : (content.take maxBlock).length ≤ maxBlock := List.length_take_le _ _
      have hsplit := List.take_append_drop maxBlock content
      by_cases hrest : content.drop maxBlock = []
      · have hlast : storedBlocks (fuel + 1) content =
            storedHeader true (content.take maxBlock).length ++ (content.take maxBlock ++ []) := by
          simp [storedBlocks, storedHeader, hrest]
        have hstored := Stored.block hsize (.inr rfl) .done
        rwa [← hlast, ← hrest, hsplit] at hstored
      · have hfurther : storedBlocks (fuel + 1) content =
            storedHeader false (content.take maxBlock).length ++
              (content.take maxBlock ++ storedBlocks fuel (content.drop maxBlock)) := by
          simp [storedBlocks, storedHeader, hrest]
        have hlong : maxBlock < content.length := by
          rwa [List.drop_eq_nil_iff, Nat.not_le] at hrest
        have hpositive : 0 < maxBlock := by decide
        have hfilled : content.take maxBlock ≠ [] := by
          rw [← List.length_pos_iff, List.length_take]
          omega
        have hshorter : (content.drop maxBlock).length < fuel := by
          rw [List.length_drop]
          omega
        have hstored := Stored.block hsize (.inl hfilled) (ih hshorter)
        rwa [← hfurther, hsplit] at hstored

theorem header_ofNat (last : Bool) (size : Nat) :
    BlockHeader.ofNat (8 * size + last.toNat) = ⟨last, .stored, size⟩ := by
  have hsize : (8 * size + last.toNat) / 8 = size := by
    cases last <;> simp only [Bool.toNat_false, Bool.toNat_true] <;> omega
  have hkind : (8 * size + last.toNat) / 2 % 4 = 0 := by
    cases last <;> simp only [Bool.toNat_false, Bool.toNat_true] <;> omega
  have hlast : ((8 * size + last.toNat) % 2 == 1) = last := by
    cases last <;> simp only [Bool.toNat_false, Bool.toNat_true, beq_eq_false_iff_ne,
      beq_iff_eq] <;> omega
  simp [BlockHeader.ofNat, hsize, hkind, hlast]

theorem header_fits {last : Bool} {size : Nat} (h : size ≤ maxBlock) :
    8 * size + last.toNat < 256 ^ 3 := by
  have hbit := last.toNat_le
  unfold maxBlock at h
  omega

theorem blocks?_of_header {count number size : Nat} {last : Bool} {bytes left : Bytes}
    (h : takeNumber? 3 bytes = some (number, left))
    (hheader : BlockHeader.ofNat number = ⟨last, .stored, size⟩) :
    blocks? (count + 1) bytes =
      if (left.take size).length ≠ size then none
      else if last then some ([.stored (left.take size)], left.drop size)
      else (blocks? count (left.drop size)).map fun (blocks, rest) =>
        (.stored (left.take size) :: blocks, rest) := by
  by_cases hwhole : (left.take size).length = size
  · have hsize : min size left.length = size := by rwa [List.length_take] at hwhole
    cases last <;> simp [blocks?, h, hheader, hsize]
    cases blocks? count (left.drop size) <;> rfl
  · have hsize : min size left.length ≠ size := by rwa [List.length_take] at hwhole
    simp [blocks?, h, hheader, hsize]

/-- Blocks that are read at once have the content that is stored in them. -/
theorem blocks?_of_stored {count : Nat} {bytes more content rest : Bytes} {blocks : List Block}
    (h : Stored false (bytes ++ more) content)
    (hblocks : blocks? count bytes = some (blocks, rest)) :
    blocks.flatMap Block.content = content ∧ rest = [] ∧ more = [] ∧
      ∀ block ∈ blocks, block.size? = some block.content.length := by
  induction count generalizing bytes content blocks rest with
  | zero => cases hblocks
  | succ count ih =>
      generalize hwritten : bytes ++ more = written at h
      cases h with
      | @block last block following content hsize hfilled h =>
          rcases takeNumber?_of_append (header_fits hsize) hwritten with
            ⟨-, hnone⟩ | ⟨left, -, hsome, hleft⟩
          · simp [blocks?, hnone] at hblocks
          · rw [blocks?_of_header hsome (header_ofNat last block.length)] at hblocks
            by_cases hwhole : (left.take block.length).length = block.length
            · obtain ⟨left, rfl⟩ : block <+: left := by
                rw [List.length_take] at hwhole
                exact List.prefix_of_prefix_length_le ⟨following, hleft.symm⟩ ⟨more, rfl⟩ (by omega)
              rw [List.append_assoc] at hleft
              have hfollowing : left ++ more = following := List.append_cancel_left hleft
              simp only [List.take_left', List.drop_left', ne_eq, not_true_eq_false, if_false]
                at hblocks
              cases last with
              | true =>
                  cases h
                  obtain ⟨rfl, rfl⟩ := List.append_eq_nil_iff.mp hfollowing
                  obtain ⟨rfl, rfl⟩ : [Block.stored block] = blocks ∧ [] = rest := by
                    simpa using hblocks
                  simp [Block.content, Block.size?]
              | false =>
                  obtain ⟨⟨others, last⟩, hothers, heq⟩ := Option.map_eq_some_iff.mp hblocks
                  cases heq
                  obtain ⟨hcontent, hrest, hmore, hsizes⟩ := ih (hfollowing.symm ▸ h) hothers
                  refine ⟨?_, hrest, hmore, List.forall_mem_cons.mpr ⟨rfl, hsizes⟩⟩
                  rw [List.flatMap_cons, hcontent]
                  rfl
            · rw [if_pos hwhole] at hblocks
              cases hblocks

theorem sum_sizes {blocks : List Block}
    (h : ∀ block ∈ blocks, block.size? = some block.content.length) (total : Nat) :
    blocks.foldlM (fun total block => (total + ·) <$> block.size?) total =
      some (total + (blocks.flatMap Block.content).length) := by
  induction blocks generalizing total with
  | nil => rfl
  | cons block blocks ih =>
      obtain ⟨hblock, hblocks⟩ := List.forall_mem_cons.mp h
      rw [List.foldlM_cons, hblock, List.flatMap_cons, List.length_append, ← Nat.add_assoc]
      exact ih hblocks _

end KnowledgeBase.Frame
