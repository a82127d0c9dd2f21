import KnowledgeBase.Compression.Decoder
import KnowledgeBase.Proofs.Compression.Blocks
import KnowledgeBase.Proofs.Compression.Decompressor

/-!
Content that is stored as it is comes out of the decoder as it is. Whatever pieces the decoder
is fed with and however little is asked for at a time, it stands somewhere in the frame, and
what it hands out next is what stands there.
-/

namespace KnowledgeBase.Frame

/-! ## Inside a frame -/

/-- Content that is to come at a stage inside a frame, from input that is to come. -/
inductive Awaits : Stage → (input content : Bytes) → Prop
  | header {read input content : Bytes} (hread : read.length < 3)
      (h : Stored false (read ++ input) content) : Awaits (.blockHeader read) input content
  | block {last : Bool} {block bytes content : Bytes} (hblock : block ≠ [])
      (h : Stored last bytes content) :
      Awaits (.copying block.length last) (block ++ bytes) (block ++ content)
  | ending : Awaits .ending [] []

theorem Stored.awaits {done : Bool} {bytes content : Bytes} (h : Stored done bytes content) :
    Awaits (if done then .ending else .blockHeader []) bytes content := by
  cases done with
  | false => exact .header (by decide) h
  | true =>
      obtain ⟨rfl, rfl⟩ := h.eq_nil
      exact .ending

/-- A decoder in a frame with `size` bytes of content. All of them fit its buffer. -/
structure Inside (size : Nat) (decoder : Decoder) (input content : Bytes) : Prop where
  header : decoder.header = ⟨some size, size⟩
  capacity : decoder.capacity = size
  position : decoder.position + decoder.pending.length = decoder.decoded
  total : decoder.decoded + content.length = size
  awaits : Awaits decoder.stage input content

/-- What a decoder hands out from input that is to come: the content of a frame whose header it
reads, the content it has pending and that of the frame it is in, or nothing after a frame. -/
inductive Ahead (size : Nat) : Decoder → (input content : Bytes) → Prop
  | opening {read input bytes content : Bytes} (hread : read.length < 9)
      (hstart : read ++ input = sizeHeader size ++ bytes) (h : Stored false bytes content)
      (hsize : content.length = size) : Ahead size { stage := .opening read } input content
  | inside {decoder : Decoder} {input content : Bytes} (h : Inside size decoder input content) :
      Ahead size decoder input (decoder.pending ++ content)
  | finished {decoder : Decoder} (hdone : decoder.isDone) (hpending : decoder.pending = []) :
      Ahead size decoder [] []

theorem Inside.flush_eq {size : Nat} {decoder : Decoder} {input content : Bytes}
    (h : Inside size decoder input content) (room : Nat) :
    decoder.flush room = (decoder.pending.take room, { decoder with
      pending := decoder.pending.drop room
      position := decoder.position + (decoder.pending.take room).length }) := by
  simp [Decoder.flush, h.header, h.capacity]

namespace Decoder

variable {size : Nat} {decoder : Decoder}

/-- The first frame gets a buffer for all of its content. -/
theorem enter_fresh (read : Bytes) (stage : Stage) :
    ({ stage := .opening read } : Decoder).enter ⟨some size, size⟩ stage = {
      stage
      header := ⟨some size, size⟩
      intake := max (Header.mk (some size) size).blockLimit 4
      capacity := size } := by
  have hbuffer : (Header.mk (some size) size).bufferSize = size := by
    simp only [Header.bufferSize, Option.map_some, Option.getD_some]
    omega
  have hintake : 0 < max (Header.mk (some size) size).blockLimit 4 := by omega
  simp only [Decoder.enter, hintake, hbuffer, true_or, if_true]

theorem openBlock_stored {last : Bool} {block : Bytes}
    (hheader : decoder.header = ⟨some size, size⟩) (hsize : block.length ≤ size)
    (hblock : block.length ≤ maxBlock) (hfilled : block ≠ [] ∨ last = true) :
    decoder.openBlock ⟨last, .stored, block.length⟩ = some { decoder with
      stage := if block = [] then .ending else .copying block.length last } := by
  cases block with
  | nil => simp [Decoder.openBlock, hfilled.resolve_left (not_not.mpr rfl)]
  | cons byte block =>
      have hlimit : ¬decoder.header.blockLimit < (byte :: block).length := by
        rw [hheader, Header.blockLimit]
        exact Nat.not_lt.mpr (Nat.le_min.mpr ⟨hsize, hblock⟩)
      rw [List.length_cons] at hlimit ⊢
      simp [Decoder.openBlock, hlimit]

theorem closeBlock_of_admits {last : Bool}
    (h : last = true → decoder.header.admits decoder.decoded = true) :
    decoder.closeBlock last = some { decoder with
      stage := if last then .ending else .blockHeader [] } := by
  cases last with
  | false => rfl
  | true => simp [Decoder.closeBlock, h rfl]

end Decoder

namespace Ahead

variable {size room : Nat} {decoder : Decoder} {input more content : Bytes}

/-- Pending content is handed out as far as there is room for it. -/
theorem flush (h : Ahead size decoder input content) (room : Nat) :
    ∃ rest, content = (decoder.flush room).1 ++ rest ∧
      Ahead size (decoder.flush room).2 input rest ∧ (decoder.flush room).1.length ≤ room ∧
      ((decoder.flush room).2.pending = [] ∨ (decoder.flush room).1.length = room) := by
  cases h with
  | @opening read _ bytes _ hread hstart h hsize =>
      have hflush : ({ stage := .opening read } : Decoder).flush room =
          ([], { stage := .opening read }) := by
        simp [Decoder.flush]
      rw [hflush]
      exact ⟨content, rfl, .opening hread hstart h hsize, Nat.zero_le _, .inl rfl⟩
  | @inside _ _ content h =>
      rw [h.flush_eq]
      refine ⟨decoder.pending.drop room ++ content, ?_, .inside ⟨h.header, h.capacity, ?_, h.total,
        h.awaits⟩, List.length_take_le _ _, ?_⟩
      · rw [← List.append_assoc, List.take_append_drop]
      · have hposition := h.position
        simp only [List.length_take, List.length_drop]
        omega
      · by_cases hroom : decoder.pending.length ≤ room
        · exact .inl (List.drop_eq_nil_of_le hroom)
        · exact .inr (by rw [List.length_take]; omega)
  | finished hdone hpending =>
      refine ⟨[], ?_, .finished hdone ?_, ?_, .inl ?_⟩
      all_goals simp [Decoder.flush, hpending]

/-- What a step does: it takes all input and asks for more, it takes some of the input, or it
ends the frame. -/
def After (size room : Nat) (input more content : Bytes) : Decoder.Step → Prop
  | .starved decoder => Ahead size decoder more content ∧ decoder.pending = [] ∧
      decoder.stage ≠ .ending
  | .further decoder rest => Ahead size decoder (rest ++ more) content ∧
      rest.length < input.length
  | .ended output rest => output = content ∧ output.length ≤ room ∧ rest = [] ∧ more = []

theorem of_inside (h : Inside size decoder input content) (hpending : decoder.pending = []) :
    Ahead size decoder input content := by
  simpa [hpending] using Ahead.inside h

theorem step_header {read : Bytes} (h : Inside size decoder (input ++ more) content)
    (hpending : decoder.pending = []) (hstage : decoder.stage = .blockHeader read) :
    ∃ step, decoder.step room input = some step ∧ After size room input more content step := by
  obtain ⟨hheader, hcapacity, hposition, htotal, hawaits⟩ := h
  rw [hstage] at hawaits
  rw [Decoder.step, hstage]
  cases hawaits with
  | header hread hstored =>
      generalize hwritten : read ++ (input ++ more) = written at hstored
      rw [← List.append_assoc] at hwritten
      cases hstored with
      | @block last block bytes content hblock hfilled hstored =>
          rcases takeNumber?_of_append (header_fits hblock) hwritten with
            ⟨hshort, hnone⟩ | ⟨rest, hlength, hsome, hrest⟩
          · simp only [hnone]
            refine ⟨_, rfl, of_inside ⟨hheader, hcapacity, hposition, htotal, ?_⟩ hpending,
              hpending, nofun⟩
            exact .header hshort (hwritten ▸ .block hblock hfilled hstored)
          · have hfits : block.length ≤ size := by
              rw [List.length_append] at htotal
              omega
            simp only [hsome, header_ofNat, Decoder.openBlock_stored hheader hfits hblock hfilled]
            refine ⟨_, rfl, of_inside ⟨hheader, hcapacity, hposition, htotal, ?_⟩ hpending, ?_⟩
            · rw [hrest]
              by_cases hempty : block = []
              · obtain rfl : last = true := hfilled.resolve_left (not_not.mpr hempty)
                obtain ⟨rfl, rfl⟩ := hstored.eq_nil
                rw [if_pos hempty, hempty]
                exact .ending
              · rw [if_neg hempty]
                exact .block hempty hstored
            · rw [List.length_append] at hlength
              omega

/-- Nothing is taken beyond the content, so there is room for it. -/
theorem accept_of_inside {taken coming : Bytes} (h : Inside size decoder coming (taken ++ content))
    (hpending : decoder.pending = []) : decoder.accept taken = some { decoder with
      pending := taken
      decoded := decoder.decoded + taken.length } := by
  have hposition := h.position
  have htotal := h.total
  rw [hpending, List.length_nil, Nat.add_zero] at hposition
  rw [List.length_append] at htotal
  refine if_pos ?_
  rw [hposition, h.capacity]
  omega

/-- Input with a whole block in it: the block is closed. -/
theorem step_whole_block {last : Bool} {block rest : Bytes}
    (h : Inside size decoder (block ++ rest ++ more) (block ++ content))
    (hpending : decoder.pending = []) (hstage : decoder.stage = .copying block.length last)
    (hblock : block ≠ []) (hstored : Stored last (rest ++ more) content) :
    ∃ step, decoder.step room (block ++ rest) = some step ∧
      After size room (block ++ rest) more (block ++ content) step := by
  have hposition := h.position
  have htotal := h.total
  rw [hpending, List.length_nil, Nat.add_zero] at hposition
  rw [List.length_append] at htotal
  have hclose : ({ decoder with
      pending := block
      decoded := decoder.decoded + block.length } : Decoder).closeBlock last =
      some { decoder with
        pending := block
        decoded := decoder.decoded + block.length
        stage := if last then .ending else .blockHeader [] } := by
    refine Decoder.closeBlock_of_admits fun hlast => ?_
    subst hlast
    obtain ⟨-, rfl⟩ := hstored.eq_nil
    simpa [h.header, Header.admits] using htotal.symm
  have hshorter : rest.length < (block ++ rest).length := by
    have hpositive : 0 < block.length := List.length_pos_iff.mpr hblock
    rw [List.length_append]
    omega
  have hinput : block ++ rest ≠ [] := List.append_ne_nil_of_left_ne_nil hblock rest
  rw [Decoder.step, hstage]
  simp only [List.isEmpty_iff, hinput, List.take_left', List.drop_left',
    accept_of_inside h hpending, if_true, if_false, Option.bind_eq_bind, Option.bind_some, hclose]
  refine ⟨_, rfl, .inside ⟨h.header, h.capacity, ?_, ?_, hstored.awaits⟩, hshorter⟩
  · simp only [hposition]
  · simp only
    omega

/-- Input that ends inside a block: the rest of the block is still to come. -/
theorem step_part_of_block {last : Bool} {part rest bytes : Bytes}
    (h : Inside size decoder (part ++ (rest ++ bytes)) (part ++ (rest ++ content)))
    (hpending : decoder.pending = []) (hstage : decoder.stage = .copying (part ++ rest).length last)
    (hpart : part ≠ []) (hrest : rest ≠ []) (hstored : Stored last bytes content) :
    ∃ step, decoder.step room part = some step ∧
      After size room part (rest ++ bytes) (part ++ (rest ++ content)) step := by
  have hposition := h.position
  have htotal := h.total
  rw [hpending, List.length_nil, Nat.add_zero] at hposition
  rw [List.length_append] at htotal
  have htake : part.take (part ++ rest).length = part :=
    List.take_of_length_le (by rw [List.length_append]; omega)
  have hleft : (part ++ rest).length - part.length = rest.length := by
    rw [List.length_append]
    omega
  have hopen : part.length ≠ (part ++ rest).length := by
    have hpositive : 0 < rest.length := List.length_pos_iff.mpr hrest
    rw [List.length_append]
    omega
  rw [Decoder.step, hstage]
  simp only [List.isEmpty_iff, hpart, htake, accept_of_inside h hpending, hleft, hopen, if_false,
    Option.bind_eq_bind, Option.bind_some]
  refine ⟨_, rfl, .inside ⟨h.header, h.capacity, ?_, ?_, .block hrest hstored⟩, ?_⟩
  · simp only [hposition]
  · simp only
    omega
  · exact List.length_pos_iff.mpr hpart

theorem step_block {left : Nat} {last : Bool}
    (h : Inside size decoder (input ++ more) content)
    (hpending : decoder.pending = []) (hstage : decoder.stage = .copying left last) :
    ∃ step, decoder.step room input = some step ∧ After size room input more content step := by
  by_cases hinput : input = []
  · subst hinput
    rw [Decoder.step, hstage]
    refine ⟨_, rfl, of_inside h hpending, hpending, ?_⟩
    rw [hstage]
    nofun
  have hawaits := h.awaits
  rw [hstage] at hawaits
  generalize hwritten : input ++ more = written at h hawaits
  cases hawaits with
  | @block _ block bytes content hblock hstored =>
      have hfirst : input <+: block ++ bytes := ⟨more, hwritten⟩
      by_cases hwhole : block.length ≤ input.length
      · obtain ⟨rest, rfl⟩ : block <+: input :=
          List.prefix_of_prefix_length_le ⟨bytes, rfl⟩ hfirst hwhole
        rw [List.append_assoc] at hwritten
        obtain rfl : rest ++ more = bytes := List.append_cancel_left hwritten
        exact step_whole_block (by rwa [List.append_assoc]) hpending hstage hblock hstored
      · obtain ⟨rest, rfl⟩ : input <+: block :=
          List.prefix_of_prefix_length_le hfirst ⟨bytes, rfl⟩ (by omega)
        rw [List.append_assoc] at hwritten
        obtain rfl : more = rest ++ bytes := List.append_cancel_left hwritten
        have hrest : rest ≠ [] := by
          rintro rfl
          simp at hwhole
        rw [List.append_assoc] at h ⊢
        exact step_part_of_block (by rwa [List.append_assoc] at h) hpending hstage hinput hrest
          hstored

/-- A frame is decoded at once, or the decoder goes into it. -/
theorem start_stored {fresh : Bool} {read rest : Bytes}
    (hstored : Stored false (rest ++ more) content) (hcontent : content.length = size)
    (hsize : size ≤ maxWindow) (hrest : rest.length < input.length) :
    ∃ step, ({ stage := .opening read } : Decoder).start fresh room ⟨some size, size⟩ rest =
      some step ∧ After size room input more content step := by
  unfold Decoder.start
  generalize hwhole : (if fresh && (some size).any (· ≤ room) then blocks? maxPiece rest
    else none) = whole
  cases whole with
  | none =>
      simp only [if_neg (Nat.not_lt.mpr hsize), Decoder.enter_fresh]
      refine ⟨_, rfl, of_inside ⟨rfl, rfl, rfl, ?_, hstored.awaits⟩ rfl, hrest⟩
      rw [hcontent, Nat.zero_add]
  | some found =>
      obtain ⟨blocks, left⟩ := found
      obtain ⟨hroom, hblocks⟩ := Option.ite_none_right_eq_some.mp hwhole
      obtain ⟨hread, rfl, rfl, hsizes⟩ := blocks?_of_stored hstored hblocks
      have hadmits : (Header.mk (some size) size).admits content.length = true := by
        simp [Header.admits, hcontent]
      have hfits : content.length ≤ room := by
        rw [hcontent]
        simpa using (Bool.and_eq_true_iff.mp hroom).2
      simp only [sum_sizes hsizes, hread, Nat.zero_add, Option.bind_eq_bind, Option.bind_some,
        hadmits]
      exact ⟨_, rfl, rfl, hfits, rfl, rfl⟩

theorem step_opening {read bytes : Bytes} (hread : read.length < 9)
    (hstart : read ++ (input ++ more) = sizeHeader size ++ bytes) (h : Stored false bytes content)
    (hcontent : content.length = size) (hsize : size ≤ maxWindow) :
    ∃ step, ({ stage := .opening read } : Decoder).step room input = some step ∧
      After size room input more content step := by
  have hword : size < 2 ^ 32 := by
    unfold maxWindow at hsize
    omega
  have hopening : read ++ input ++ more = sizeHeader size ++ bytes := by
    rw [List.append_assoc, hstart]
  rw [Decoder.step]
  rcases opening?_of_append hword hopening with ⟨hshort, hcut⟩ | ⟨rest, hlength, hopen, hrest⟩
  · simp only [hcut]
    exact ⟨_, rfl, .opening hshort hopening h hcontent, rfl, nofun⟩
  · simp only [hopen]
    have hshorter : rest.length < input.length := by
      rw [List.length_append] at hlength
      omega
    subst hrest
    exact start_stored h hcontent hsize hshorter

theorem step (h : Ahead size decoder (input ++ more) content) (hpending : decoder.pending = [])
    (hsize : size ≤ maxWindow) (room : Nat) :
    ∃ step, decoder.step room input = some step ∧ After size room input more content step := by
  generalize hcoming : input ++ more = coming at h
  cases h with
  | opening hread hstart hstored hcontent =>
      exact step_opening hread (hcoming ▸ hstart) hstored hcontent hsize
  | @inside _ _ content h =>
      rw [hpending, List.nil_append]
      have hawaits := h.awaits
      generalize hstage : decoder.stage = stage at hawaits
      cases hawaits with
      | header => exact step_header (hcoming ▸ h) hpending hstage
      | block => exact step_block (hcoming ▸ h) hpending hstage
      | ending =>
          obtain ⟨rfl, rfl⟩ := List.append_eq_nil_iff.mp hcoming
          rw [Decoder.step, hstage]
          exact ⟨_, rfl, rfl, Nat.zero_le _, rfl, rfl⟩
  | finished hdone =>
      obtain ⟨rfl, rfl⟩ := List.append_eq_nil_iff.mp hcoming
      obtain ⟨hfinished, hstage⟩ : decoder.finished = true ∧ decoder.stage = .opening [] := by
        simpa [Decoder.isDone] using hdone
      have hcut : opening? ([] ++ []) = some .cut := rfl
      rw [Decoder.step, hstage]
      simp only [hcut]
      refine ⟨_, rfl, .finished ?_ hpending, hpending, nofun⟩
      simp [Decoder.isDone, hfinished]

/-- What comes of feeding a decoder: `output`, with `rest` ahead. It stops only if there is no
more room or all of the input was taken. -/
structure Fed (size room : Nat) (input more content output left : Bytes) (next : Decoder)
    (rest : Bytes) : Prop where
  split : content = output ++ rest
  fits : output.length ≤ room
  ahead : Ahead size next (left ++ more) rest
  short : left.length ≤ input.length
  stops : output.length = room ∨ left = [] ∧ next.pending = [] ∧ next.stage ≠ .ending

/-- Every step but the last takes some of the input, so there is fuel enough. -/
theorem run (hsize : size ≤ maxWindow) {fuel : Nat}
    (h : Ahead size decoder (input ++ more) content) (hfuel : input.length + 1 < fuel) (room : Nat)
    (pieces : List Bytes) :
    ∃ output left next rest, Decoder.run room pieces fuel decoder input =
      some (pieces.reverse.flatten ++ output, left, next) ∧
        Fed size room input more content output left next rest := by
  induction fuel generalizing decoder input content room pieces with
  | zero => omega
  | succ fuel ih =>
      obtain ⟨waiting, hsplit, hahead, hfits, hstop⟩ := h.flush room
      rw [Decoder.run]
      generalize decoder.flush room = flushed at hsplit hahead hfits hstop ⊢
      obtain ⟨ready, decoder⟩ := flushed
      simp only at hsplit hahead hfits hstop ⊢
      have hready : (ready :: pieces).reverse.flatten = pieces.reverse.flatten ++ ready := by simp
      by_cases hpending : decoder.pending = []
      · rw [if_pos (List.isEmpty_iff.mpr hpending)]
        obtain ⟨step, hstep, hafter⟩ := hahead.step hpending hsize (room - ready.length)
        rw [hstep]
        cases step with
        | starved next =>
            obtain ⟨hnext, hempty, hstage⟩ := hafter
            exact ⟨ready, [], next, waiting, by simp only [hready], hsplit, hfits, hnext,
              Nat.zero_le _, .inr ⟨rfl, hempty, hstage⟩⟩
        | further next left =>
            obtain ⟨hnext, hshorter⟩ := hafter
            obtain ⟨output, left', next', rest, hrun, hfed⟩ :=
              ih hnext (by omega) (room - ready.length) (ready :: pieces)
            obtain ⟨hsplit', hfits', hahead', hshort, hstops⟩ := hfed
            refine ⟨ready ++ output, left', next', rest, ?_, ?_, ?_, hahead', by omega, ?_⟩
            · simp only [hrun, hready, List.append_assoc]
            · rw [hsplit, hsplit', List.append_assoc]
            · rw [List.length_append]
              omega
            · refine hstops.imp_left fun hfull => ?_
              rw [List.length_append]
              omega
        | ended last left =>
            obtain ⟨rfl, hlast, rfl, rfl⟩ := hafter
            refine ⟨ready ++ last, [], { decoder with stage := .opening [], finished := true }, [],
              ?_, ?_, ?_, .finished rfl hpending, Nat.zero_le _, .inr ⟨rfl, hpending, nofun⟩⟩
            · simp
            · rw [hsplit, List.append_nil]
            · rw [List.length_append]
              omega
      · rw [if_neg (by rwa [List.isEmpty_iff])]
        exact ⟨ready, input, decoder, waiting, by simp only [hready], hsplit, hfits, hahead,
          Nat.le_refl _, .inl (hstop.resolve_left hpending)⟩

theorem feed (hsize : size ≤ maxWindow) (h : Ahead size decoder (input ++ more) content)
    (hinput : input.length ≤ maxPiece) (room : Nat) :
    ∃ output left next rest, decoder.feed room input = some (output, left, next) ∧
      Fed size room input more content output left next rest := by
  have hfuel : input.length + 1 < 2 * maxPiece + 4 := by omega
  obtain ⟨output, left, next, rest, hrun, hfed⟩ := h.run hsize hfuel room []
  exact ⟨output, left, next, rest, hrun, hfed⟩

/-- Nothing is ahead without input if nothing is pending. -/
theorem eq_nil (h : Ahead size decoder [] content) (hpending : decoder.pending = [])
    (hstage : decoder.stage ≠ .ending) : content = [] ∧ decoder.isDone := by
  generalize hinput : [] = input at h
  cases h with
  | opening hread hstart =>
      subst hinput
      have hlength := congrArg List.length hstart
      simp only [List.append_nil, List.length_append, length_sizeHeader] at hlength
      omega
  | inside h =>
      have hawaits := h.awaits
      generalize hnow : decoder.stage = stage at hawaits
      cases hawaits with
      | header hread hstored =>
          have hlength := hstored.three_le_length
          rw [← hinput, List.append_nil] at hlength
          omega
      | block hblock =>
          exact absurd (List.append_eq_nil_iff.mp hinput.symm).1 hblock
      | ending => exact absurd hnow hstage
  | finished hdone => exact ⟨rfl, hdone⟩

end Ahead

/-! ## Reading a stored frame -/

/-- A decoder and the pieces of input for it, with `content` ahead. -/
structure Feed.Left (size : Nat) (feed : Feed) (content : Bytes) : Prop where
  ahead : Ahead size feed.decoder feed.pieces.flatten content
  bounded : ∀ piece ∈ feed.pieces, piece.length ≤ maxPiece
  fuel : 2 * feed.pieces.length < feed.fuel

/-- What comes of asking a decoder with pieces of input for output, of which at most `most` are
left then. Nothing comes only at the end. -/
structure Served (size room most : Nat) (content output : Bytes) (left : List Bytes)
    (next : Decoder) (rest : Bytes) : Prop where
  split : content = output ++ rest
  fits : output.length ≤ room
  ends : output = [] → rest = []
  ahead : Ahead size next left.flatten rest
  bounded : ∀ piece ∈ left, piece.length ≤ maxPiece
  count : left.length ≤ most

section Requests

variable {size room : Nat} {decoder : Decoder} {content : Bytes} {pieces : List Bytes} {fuel : Nat}

theorem feedAll_cons {piece output left : Bytes} {next : Decoder} (hpiece : piece ≠ [])
    (h : decoder.feed room piece = some (output, left, next)) :
    decoder.feedAll room (fuel + 1) (piece :: pieces) =
      if output = [] then next.feedAll room fuel (left :: pieces)
      else some (output, left :: pieces, next) := by
  cases piece with
  | nil => exact absurd rfl hpiece
  | cons byte piece => simp [Decoder.feedAll, h]

/-- A piece without output is taken as a whole, so two rounds are enough for each. -/
theorem feedAll_served (hsize : size ≤ maxWindow) (hroom : 0 < room)
    (h : Ahead size decoder pieces.flatten content)
    (hpieces : ∀ piece ∈ pieces, piece.length ≤ maxPiece) (hfuel : 2 * pieces.length < fuel)
    (hpending : decoder.pending = []) (hstage : decoder.stage ≠ .ending) :
    ∃ output left next rest, decoder.feedAll room fuel pieces = some (output, left, next) ∧
      Served size room pieces.length content output left next rest := by
  induction pieces generalizing decoder content fuel with
  | nil =>
      obtain ⟨fuel, rfl⟩ : ∃ rounds, fuel = rounds + 1 := ⟨fuel - 1, by omega⟩
      obtain ⟨rfl, hdone⟩ := h.eq_nil hpending hstage
      exact ⟨[], [], decoder, [], by rw [Decoder.feedAll, if_pos hdone], rfl, Nat.zero_le _,
        fun _ => rfl, h, nofun, Nat.le_refl _⟩
  | cons piece pieces ih =>
      obtain ⟨hpiece, hothers⟩ := List.forall_mem_cons.mp hpieces
      rw [List.length_cons] at hfuel
      obtain ⟨fuel, rfl⟩ : ∃ rounds, fuel = rounds + 2 := ⟨fuel - 2, by omega⟩
      -- what follows a round without output, when the piece is empty
      have hempty {rounds : Nat} {decoder : Decoder} {content : Bytes}
          (hrounds : 2 * pieces.length < rounds) (h : Ahead size decoder pieces.flatten content)
          (hpending : decoder.pending = []) (hstage : decoder.stage ≠ .ending) :
          ∃ output left next rest,
            decoder.feedAll room (rounds + 1) ([] :: pieces) = some (output, left, next) ∧
              Served size room (pieces.length + 1) content output left next rest := by
        obtain ⟨output, left, next, rest, hfeed, hserved⟩ := ih h hothers hrounds hpending hstage
        have hcount := hserved.count
        exact ⟨output, left, next, rest, by rwa [Decoder.feedAll], hserved.split, hserved.fits,
          hserved.ends, hserved.ahead, hserved.bounded, by omega⟩
      by_cases hnone : piece = []
      · subst hnone
        exact hempty (by omega) h hpending hstage
      · rw [List.flatten_cons] at h
        obtain ⟨output, left, next, rest, hfeed, hsplit, hfits, hahead, hshort, hstops⟩ :=
          h.feed hsize hpiece room
        rw [feedAll_cons hnone hfeed]
        by_cases houtput : output = []
        · subst houtput
          obtain ⟨rfl, hnext, hnextStage⟩ := hstops.resolve_left (Nat.ne_of_lt hroom)
          rw [if_pos rfl, hsplit, List.nil_append]
          exact hempty (by omega) hahead hnext hnextStage
        · rw [if_neg houtput]
          refine ⟨output, left :: pieces, next, rest, rfl, hsplit, hfits,
            fun h => absurd h houtput, hahead, ?_, Nat.le_refl _⟩
          exact List.forall_mem_cons.mpr ⟨Nat.le_trans hshort hpiece, hothers⟩

theorem next?_served (hsize : size ≤ maxWindow) (hroom : 0 < room)
    (h : Ahead size decoder pieces.flatten content)
    (hpieces : ∀ piece ∈ pieces, piece.length ≤ maxPiece) (hfuel : 2 * pieces.length < fuel) :
    ∃ output left next rest, decoder.next? fuel room pieces = some (output, left, next) ∧
      Served size room pieces.length content output left next rest := by
  have hstart : Ahead size decoder ([] ++ pieces.flatten) content := h
  obtain ⟨output, left, next, rest, hfeed, hsplit, hfits, hahead, hshort, hstops⟩ :=
    hstart.feed hsize (Nat.zero_le _) room
  obtain rfl : left = [] := List.eq_nil_of_length_eq_zero (Nat.le_zero.mp hshort)
  by_cases houtput : output = []
  · subst houtput
    obtain ⟨-, hpending, hstage⟩ := hstops.resolve_left (Nat.ne_of_lt hroom)
    rw [hsplit, List.nil_append]
    obtain ⟨output, left, last, rest, hall, hserved⟩ :=
      feedAll_served hsize hroom hahead hpieces hfuel hpending hstage
    refine ⟨output, left, last, rest, ?_, hserved⟩
    simp [Decoder.next?, hfeed, hall]
  · refine ⟨output, pieces, next, rest, ?_, hsplit, hfits, fun h => absurd h houtput, hahead,
      hpieces, Nat.le_refl _⟩
    simp [Decoder.next?, hfeed, houtput]

end Requests

/-- Requests of any sizes get what is ahead of the decoder. -/
theorem Feed.Left.accepts {size : Nat} (hsize : size ≤ maxWindow) {feed : Feed} {content : Bytes}
    (h : feed.Left size content) : decompressor.Accepts feed content := by
  refine Decompressor.Accepts.of_invariant ?_ h
  rintro ⟨decoder, pieces, fuel⟩ content ⟨hahead, hbounded, hfuel⟩ room hroom
  obtain ⟨output, left, next, rest, hnext, hserved⟩ :=
    next?_served hsize hroom hahead hbounded hfuel
  refine ⟨output, ⟨next, left, fuel⟩, rest, ⟨?_, hserved.split, hserved.fits, hserved.ends⟩,
    hserved.ahead, hserved.bounded, ?_⟩
  · simp [decompressor, hnext]
  · have hcount : left.length ≤ pieces.length := hserved.count
    have hfuel : 2 * pieces.length < fuel := hfuel
    change 2 * left.length < fuel
    omega

theorem inputPieces_spec {fuel : Nat} {bytes : Bytes} (h : bytes.length < fuel) :
    (inputPieces fuel bytes).flatten = bytes ∧
      (∀ piece ∈ inputPieces fuel bytes, piece.length ≤ maxPiece) ∧
      (inputPieces fuel bytes).length ≤ bytes.length := by
  induction fuel generalizing bytes with
  | zero => omega
  | succ fuel ih =>
      rw [inputPieces]
      by_cases hempty : bytes = []
      · simp [hempty]
      · have hpositive : 0 < bytes.length := List.length_pos_iff.mpr hempty
        have hpiece : 0 < maxPiece := by decide
        have hdrop : (bytes.drop maxPiece).length = bytes.length - maxPiece := List.length_drop
        have hfuel : (bytes.drop maxPiece).length < fuel := by omega
        obtain ⟨hflatten, hbounded, hcount⟩ := ih hfuel
        rw [if_neg (by rwa [List.isEmpty_iff])]
        refine ⟨?_, List.forall_mem_cons.mpr ⟨List.length_take_le _ _, hbounded⟩, ?_⟩
        · rw [List.flatten_cons, hflatten, List.take_append_drop]
        · rw [List.length_cons]
          omega

/-- Content that is stored as it is in blocks of any sizes is accepted. -/
theorem accepts_stored {bytes content : Bytes} (h : Stored false bytes content)
    (hsize : content.length ≤ maxWindow) :
    decompressor.Accepts (decompressor.start (sizeHeader content.length ++ bytes)) content := by
  obtain ⟨hflatten, hbounded, hcount⟩ :=
    inputPieces_spec (Nat.lt_succ_self (sizeHeader content.length ++ bytes).length)
  refine Feed.Left.accepts hsize ⟨?_, hbounded, ?_⟩
  · exact .opening (by decide) hflatten h rfl
  · exact Nat.lt_add_right 1 (Nat.lt_succ_of_le (Nat.mul_le_mul_left 2 hcount))

theorem accepts_store {content : Bytes} (h : content.length ≤ maxWindow) :
    decompressor.Accepts (decompressor.start (store content)) content := by
  rw [store_eq]
  exact accepts_stored (stored_storedBlocks (Nat.lt_succ_self _)) h

end KnowledgeBase.Frame
