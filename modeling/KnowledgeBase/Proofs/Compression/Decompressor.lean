import KnowledgeBase.Compression.Decompressor
import Mathlib.Data.Nat.Basic

/-!
What decompressors accept. A verdict on some bytes that does not depend on how much is asked for
at a time is told by asking for one byte more than expected: exactly what was expected is in
there if no more and no less comes, although neither the end of the bytes nor the length of
their content was ever looked at.
-/

namespace KnowledgeBase.Decompressor

/-- A request that is met: some of the content is handed out and the rest is left. Nothing is
handed out only if nothing is left. -/
structure Met (d : Decompressor) (room : Nat) (state : d.State) (content output : Bytes)
    (next : d.State) (rest : Bytes) : Prop where
  read : d.read room state = some (output, next)
  split : content = output ++ rest
  fits : output.length ≤ room
  ends : output = [] → rest = []

/-- Whether some requests get `content` and then nothing more. -/
inductive Delivers (d : Decompressor) : d.State → Bytes → Prop
  | nothing {room : Nat} {state next : d.State} (hroom : 0 < room)
      (hread : d.read room state = some ([], next)) : Delivers d state []
  | further {room : Nat} {state next : d.State} {output rest : Bytes} (hroom : 0 < room)
      (hread : d.read room state = some (output, next)) (houtput : output ≠ [])
      (hrest : Delivers d next rest) : Delivers d state (output ++ rest)

/-- Whether requests of any sizes get `content` and then nothing more. -/
inductive Accepts (d : Decompressor) : d.State → Bytes → Prop
  | intro {state : d.State} {content : Bytes}
      (meets : ∀ room, 0 < room → ∃ output next rest, d.Met room state content output next rest)
      (further : ∀ room output next rest, 0 < room → d.Met room state content output next rest →
        output ≠ [] → Accepts d next rest) :
      Accepts d state content

/-- Whether the verdict on some bytes does not depend on how much is asked for at a time: if
they are once read to the end, they always are. -/
def Steady (d : Decompressor) (bytes : Bytes) : Prop :=
  ∀ content, d.Delivers (d.start bytes) content → d.Accepts (d.start bytes) content

variable {d : Decompressor} {state : d.State} {content : Bytes}

theorem Met.unique {room : Nat} {output output' rest rest' : Bytes} {next next' : d.State}
    (h : d.Met room state content output next rest)
    (h' : d.Met room state content output' next' rest') :
    output = output' ∧ next = next' ∧ rest = rest' := by
  obtain ⟨rfl, rfl⟩ : output = output' ∧ next = next' := by simpa [h.read] using h'.read
  exact ⟨rfl, rfl, List.append_cancel_left (h.split.symm.trans h'.split)⟩

theorem Accepts.meets (h : d.Accepts state content) {room : Nat} (hroom : 0 < room) :
    ∃ output next rest, d.Met room state content output next rest ∧
      (output ≠ [] → d.Accepts next rest) := by
  obtain ⟨meets, further⟩ := h
  obtain ⟨output, next, rest, hmet⟩ := meets room hroom
  exact ⟨output, next, rest, hmet, further room output next rest hroom hmet⟩

/-- Content is accepted if every request keeps an account of what is left of it. -/
theorem Accepts.of_invariant {left : d.State → Bytes → Prop}
    (step : ∀ state content, left state content → ∀ room, 0 < room →
      ∃ output next rest, d.Met room state content output next rest ∧ left next rest)
    (h : left state content) : d.Accepts state content := by
  induction hlength : content.length using Nat.strongRecOn generalizing state content with
  | _ length ih =>
      refine .intro ?_ ?_
      · intro room hroom
        obtain ⟨output, next, rest, hmet, -⟩ := step state content h room hroom
        exact ⟨output, next, rest, hmet⟩
      · intro room output next rest hroom hmet houtput
        obtain ⟨_, _, _, hmet', hleft⟩ := step state content h room hroom
        obtain ⟨rfl, rfl, rfl⟩ := hmet.unique hmet'
        have hpositive : 0 < output.length := List.length_pos_iff.mpr houtput
        have hshorter : rest.length < length := by
          rw [← hlength, hmet.split, List.length_append]
          omega
        exact ih rest.length hshorter hleft rfl

theorem Accepts.eq_of_delivers (h : d.Accepts state content) {content' : Bytes}
    (hdelivers : d.Delivers state content') : content' = content := by
  induction hdelivers generalizing content with
  | @nothing room state next hroom hread =>
      obtain ⟨output, next', rest, hmet, -⟩ := h.meets hroom
      obtain rfl : [] = output := by
        have hsame : ([], next) = (output, next') := Option.some.inj (hread.symm.trans hmet.read)
        exact congrArg Prod.fst hsame
      rw [hmet.split, hmet.ends rfl, List.nil_append]
  | @further room state next output _ hroom hread houtput _ ih =>
      obtain ⟨output', next', rest', hmet, hnext⟩ := h.meets hroom
      obtain ⟨rfl, rfl⟩ : output = output' ∧ next = next' := by simpa [hread] using hmet.read
      rw [hmet.split, ih (hnext houtput)]

theorem Accepts.steady {bytes : Bytes} (h : d.Accepts (d.start bytes) content) : d.Steady bytes :=
  fun _ hdelivers => h.eq_of_delivers hdelivers ▸ h

/-! ## Reading to the end -/

theorem requestSize_bounds (left : Nat) {most : Nat} (hmost : 0 < most) :
    0 < requestSize left most ∧ requestSize left most ≤ left + 1 := by
  unfold requestSize
  split <;> omega

theorem nextBound_pos {most : Nat} (hmost : 0 < most) (room count : Nat) :
    0 < nextBound most room count := by
  unfold nextBound
  split <;> omega

theorem readOn_of_read {expected most done fuel : Nat} {output : Bytes} {next : d.State}
    (hdone : done ≤ expected)
    (hread : d.read (requestSize (expected - done) most) state = some (output, next)) :
    d.readOn expected most done (fuel + 1) state =
      if output = [] then some []
      else (d.readOn expected
        (nextBound most (requestSize (expected - done) most) output.length)
        (done + output.length) fuel next).map (output ++ ·) := by
  rw [readOn, if_neg (Nat.not_lt.mpr hdone)]
  simp only [hread, List.isEmpty_iff, Option.bind_eq_bind, Option.bind_some]
  split
  · rfl
  · cases d.readOn expected _ (done + output.length) fuel next <;> rfl

/-- What is read and is not too long is all of the content. -/
theorem delivers_of_readOn {expected most done fuel : Nat} (hmost : 0 < most)
    (h : d.readOn expected most done fuel state = some content)
    (hlength : done + content.length ≤ expected) : d.Delivers state content := by
  induction fuel generalizing state content most done with
  | zero => cases h
  | succ fuel ih =>
      obtain ⟨hroom, -⟩ := requestSize_bounds (expected - done) hmost
      cases hread : d.read (requestSize (expected - done) most) state with
      | none =>
          rw [readOn, if_neg (by omega)] at h
          simp [hread] at h
      | some answer =>
          rw [readOn_of_read (by omega) hread] at h
          split at h
          case isTrue hend =>
            obtain rfl : [] = content := Option.some.inj h
            obtain ⟨output, next⟩ := answer
            obtain rfl : output = [] := hend
            exact .nothing hroom hread
          case isFalse hend =>
            obtain ⟨rest, hrest, rfl⟩ := Option.map_eq_some_iff.mp h
            rw [List.length_append] at hlength
            exact .further hroom hread hend 
              (ih (nextBound_pos hmost _ _) hrest (by omega))

/-- Accepted content is read up to one byte more than expected. -/
theorem readOn_of_accepts {expected most done fuel : Nat} (hmost : 0 < most)
    (h : d.Accepts state content) (hdone : done ≤ expected + 1)
    (hfuel : expected + 2 < fuel + done) :
    d.readOn expected most done fuel state = some (content.take (expected + 1 - done)) := by
  induction fuel generalizing state content most done with
  | zero => omega
  | succ fuel ih =>
      by_cases hpast : expected < done
      · rw [readOn, if_pos hpast, show expected + 1 - done = 0 by omega]
        rfl
      · obtain ⟨hroom, hbound⟩ := requestSize_bounds (expected - done) hmost
        obtain ⟨output, next, rest, hmet, hnext⟩ := h.meets hroom
        have hfits := hmet.fits
        rw [readOn_of_read (by omega) hmet.read, hmet.split]
        split
        case isTrue hend =>
          rw [hend, hmet.ends hend, List.append_nil, List.take_nil]
        case isFalse hend =>
          have hpositive : 0 < output.length := List.length_pos_iff.mpr hend
          have hrest : d.readOn expected
              (nextBound most (requestSize (expected - done) most) output.length)
              (done + output.length) fuel next =
              some (rest.take (expected + 1 - (done + output.length))) :=
            ih (nextBound_pos hmost _ _) (hnext hend) (by omega) (by omega)
          have hwhole : output.take (expected + 1 - done) = output :=
            List.take_of_length_le (by omega)
          rw [hrest, Option.map_some, List.take_append, hwhole, Nat.sub_add_eq]

/-- What an account of some content comes to when `expected` bytes are expected. -/
theorem content?_of_accepts {bytes : Bytes} (h : d.Accepts (d.start bytes) content)
    (expected : Nat) : d.content? expected bytes = some (content.take (expected + 1)) :=
  readOn_of_accepts (by decide) h (by omega) (by omega)

theorem delivers_of_content? {expected : Nat} {bytes : Bytes}
    (h : d.content? expected bytes = some content) (hlength : content.length ≤ expected) :
    d.Delivers (d.start bytes) content :=
  delivers_of_readOn (by decide) h (by omega)

end KnowledgeBase.Decompressor
