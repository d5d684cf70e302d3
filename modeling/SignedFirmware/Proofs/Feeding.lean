import SignedFirmware.Proofs.Image.Tiling
import SignedFirmware.Proofs.Sha2

namespace SignedFirmware

namespace HashEngine

variable {σ : Type} {length : Nat}

/-- The answer of an engine without the state that it leaves behind. -/
def answer : EStateM.Result HashError σ (Vector UInt8 length) →
    Except HashError (Vector UInt8 length)
  | .ok digest _ => .ok digest
  | .error error _ => .error error

/-- An engine takes everything that is written to it from a state on. -/
def Takes (engine : HashEngine σ) (state : σ) : Prop :=
  ∀ pieces, ∃ after, engine.writeAll pieces state = .ok () after

/-- The answer depends on the bytes given, but not on how they were split. -/
structure Streams (engine : HashEngine σ) (outcome : Bytes → Except HashError (Vector UInt8 length))
    (started : σ) : Prop where
  takes : engine.Takes started
  ends : ∀ {pieces : List Bytes} {after : σ}, engine.writeAll pieces started = .ok () after →
    answer (engine.finish length after) = outcome pieces.flatten

variable {engine : HashEngine σ} {before after : σ}

/-- An engine that takes everything goes on taking it. -/
theorem Takes.writeAll {pieces : List Bytes} (takes : engine.Takes before)
    (written : engine.writeAll pieces before = .ok () after) : engine.Takes after := by
  intro more
  obtain ⟨final, both⟩ := takes (pieces ++ more)
  rw [writeAll_append, device_bind_of_ok written] at both
  exact ⟨final, both⟩

theorem Takes.write (takes : engine.Takes before) (piece : Bytes) :
    ∃ after, engine.write piece before = .ok () after ∧ engine.Takes after := by
  obtain ⟨after, written⟩ := takes [piece]
  have continued := takes.writeAll written
  rw [HashEngine.writeAll, device_bind_eq_ok] at written
  obtain ⟨⟨⟩, between, first, rest⟩ := written
  obtain ⟨-, rfl⟩ := device_pure_eq_ok.1 rest
  exact ⟨between, first, continued⟩

end HashEngine

/-- An engine over contexts computes the digest of what it is given. -/
theorem DigestContext.Computes.engine_streams {κ : Type} {contexts : DigestContext κ}
    {hash : Digests} (computes : contexts.Computes hash) (algorithm : Algorithm) :
    contexts.engine.Streams (fun message => .ok (hash algorithm message))
      (some (contexts.new algorithm)) where
  takes pieces := ⟨_, contexts.engine_writeAll pieces _⟩
  ends {pieces after} written := by
    have known := contexts.engine_writeAll pieces (contexts.new algorithm)
    obtain ⟨-, rfl⟩ := EStateM.Result.ok.inj (written.symm.trans known)
    change HashEngine.answer
      (contexts.engine.finish algorithm.length (some (contexts.after algorithm pieces))) = _
    rw [computes.engine_finish]
    rfl

namespace Flash

/-- The ranges of a loop over a range, one after the other. -/
def pieceRanges (offset length : Nat) : List Extent :=
  if _done : length = 0 then
    []
  else
    let count := min length pieceLength
    ⟨offset, count⟩ :: pieceRanges (offset + count) (length - count)
termination_by length
decreasing_by
  simp only [pieceLength]
  omega

/-- The pieces of a range lie back to back. -/
theorem tile_pieceRanges (offset length : Nat) :
    Extent.Tile offset (pieceRanges offset length) (offset + length) := by
  fun_induction pieceRanges offset length with
  | case1 offset => rfl
  | case2 offset length more count ih =>
      have whole : offset + count + (length - count) = offset + length := by omega
      exact ⟨rfl, whole ▸ ih⟩

/-- No piece of a range is empty or longer than the buffer. -/
theorem length_pieceRanges {offset length : Nat} :
    ∀ range ∈ pieceRanges offset length, 0 < range.length ∧ range.length ≤ pieceLength := by
  fun_induction pieceRanges offset length with
  | case1 offset => simp
  | case2 offset length more count ih =>
      rw [List.forall_mem_cons]
      refine ⟨⟨?_, Nat.min_le_right _ _⟩, ih⟩
      simp only [count, pieceLength]
      omega

variable {σ : Type} {engine : HashEngine σ} {state : σ} {content : Bytes}

/-- Each range is written to the engine before the next one is read. -/
def hashInTurn (read : (offset length : Nat) → Except FlashError (Vector UInt8 length))
    (engine : HashEngine σ) : List Extent → EStateM FlashError σ Unit
  | [] => pure ()
  | range :: rest =>
      match read range.offset range.length with
      | .error error => throw error
      | .ok piece => do
          (engine.write piece.toList).adaptExcept FlashError.hash
          hashInTurn read engine rest

/-- A flash that holds its bytes reads a range at once. -/
theorem hashExtent_ofBytes (content : Bytes) (engine : HashEngine σ) (extent : Extent) :
    (ofBytes content).hashExtent engine extent =
      hashInTurn (ofBytes content).read engine [extent] := by
  funext state
  rw [hashExtent, feed_ofBytes, hashInTurn]
  cases (ofBytes content).read extent.offset extent.length with
  | error error => rfl
  | ok piece =>
      simp only [HashEngine.writeAll, hashInTurn, bind_pure_unit]

/-- A flash that can only be read feeds a range in pieces. -/
theorem hashExtent_ofReader (size : Except FlashError UInt32)
    (read : (offset length : Nat) → Except FlashError (Vector UInt8 length))
    (engine : HashEngine σ) {extent : Extent}
    (inside : extent.offset + extent.length < Offset.limit) :
    (ofReader size read).hashExtent engine extent =
      hashInTurn read engine (pieceRanges extent.offset extent.length) := by
  have ends : extent.stop? = some (extent.offset + extent.length) :=
    Offset.add?_eq_some.2 ⟨inside, rfl⟩
  have feed : (ofReader size read).feed extent = readPieces read extent.offset extent.length := by
    simp only [ofReader, ends]
  rw [hashExtent, feed]
  clear ends feed inside
  generalize extent.offset = offset
  generalize extent.length = length
  fun_induction readPieces read offset length with
  | case1 offset =>
      rw [pieceRanges, dif_pos rfl]
      rfl
  | case2 offset length more count error failed =>
      rw [pieceRanges, dif_neg more, hashInTurn, failed]
      rfl
  | case3 offset length more count piece answer rest ih =>
      rw [pieceRanges, dif_neg more, hashInTurn, answer]
      rw [← ih, HashEngine.writeAll, adaptExcept_bind, bind_assoc]

theorem hashExtent_ofReader_over (size : Except FlashError UInt32)
    (read : (offset length : Nat) → Except FlashError (Vector UInt8 length))
    (engine : HashEngine σ) {extent : Extent}
    (beyond : Offset.limit ≤ extent.offset + extent.length) :
    (ofReader size read).hashExtent engine extent = throw .outOfRange := by
  have endless : extent.stop? = none := if_neg (Nat.not_lt_of_le beyond)
  have feed : (ofReader size read).feed extent = ⟨[], some .outOfRange⟩ := by
    simp only [ofReader, endless]
  rw [hashExtent, feed]
  rfl

/-- The engine gets the bytes of a range in order, however it is split. -/
theorem hashInTurn_ofBytes {ranges : List Extent} {start stop : Nat}
    (tile : Extent.Tile start ranges stop) (fits : stop ≤ content.length)
    (takes : engine.Takes state) :
    ∃ pieces after, pieces.flatten = (Memory.ofBytes content).bytes ⟨start, stop - start⟩ ∧
      engine.writeAll pieces state = .ok () after ∧
      hashInTurn (ofBytes content).read engine ranges state = .ok () after := by
  induction ranges generalizing start state with
  | nil =>
      obtain rfl : start = stop := tile
      exact ⟨[], state, by simp, rfl, rfl⟩
  | cons range rest ih =>
      obtain ⟨rfl, follows⟩ := tile
      have inOrder := follows.le
      obtain ⟨piece, answer⟩ := read_ofBytes (Nat.le_trans inOrder fits)
      obtain ⟨between, written, continues⟩ := takes.write piece.toList
      obtain ⟨pieces, after, bytes, others, done⟩ := ih follows continues
      have split : stop - range.offset = range.length + (stop - (range.offset + range.length)) := by
        omega
      refine ⟨piece.toList :: pieces, after, ?_, ?_, ?_⟩
      · rw [List.flatten_cons, bytes, split, Memory.bytes_add, (holds_ofBytes content).read answer]
      · rw [HashEngine.writeAll, device_bind_of_ok written, others]
      · rw [hashInTurn, answer]
        exact (device_bind_of_ok (adaptExcept_eq_ok.2 written)).trans done

/-- A range that ends behind the bytes is too long, however it is split. -/
theorem hashInTurn_ofBytes_over {ranges : List Extent} {start stop : Nat}
    (tile : Extent.Tile start ranges stop) (inside : start ≤ content.length)
    (beyond : content.length < stop) (takes : engine.Takes state) :
    ∃ after, hashInTurn (ofBytes content).read engine ranges state =
      .error .outOfRange after := by
  induction ranges generalizing start state with
  | nil =>
      obtain rfl : start = stop := tile
      omega
  | cons range rest ih =>
      obtain ⟨rfl, follows⟩ := tile
      by_cases fits : range.offset + range.length ≤ content.length
      · obtain ⟨piece, answer⟩ := read_ofBytes fits
        obtain ⟨between, written, continues⟩ := takes.write piece.toList
        obtain ⟨after, failed⟩ := ih follows fits continues
        refine ⟨after, ?_⟩
        rw [hashInTurn, answer]
        exact (device_bind_of_ok (adaptExcept_eq_ok.2 written)).trans failed
      · refine ⟨state, ?_⟩
        rw [hashInTurn, read_ofBytes_over (Nat.lt_of_not_le fits)]
        rfl

/-- A range in turn gives the digest of its bytes, or is too long. -/
theorem hashInTurn_outcome {length : Nat}
    {outcome : Bytes → Except HashError (Vector UInt8 length)} {started : σ}
    (streams : engine.Streams outcome started) {earlier : List Bytes}
    (given : engine.writeAll earlier started = .ok () state) {ranges : List Extent}
    {start stop : Nat} (tile : Extent.Tile start ranges stop) (inside : start ≤ content.length) :
    (stop ≤ content.length →
      ∃ after, hashInTurn (ofBytes content).read engine ranges state = .ok () after ∧
        HashEngine.answer (engine.finish length after) =
          outcome (earlier.flatten ++ slice content start stop)) ∧
    (content.length < stop →
      ∃ after, hashInTurn (ofBytes content).read engine ranges state =
        .error .outOfRange after) := by
  have takes : engine.Takes state := streams.takes.writeAll given
  constructor
  · intro fits
    obtain ⟨pieces, after, bytes, written, done⟩ := hashInTurn_ofBytes tile fits takes
    have whole : start + (stop - start) = stop := Nat.add_sub_cancel' tile.le
    have both : engine.writeAll (earlier ++ pieces) started = .ok () after := by
      rw [HashEngine.writeAll_append, device_bind_of_ok given, written]
    refine ⟨after, done, ?_⟩
    rw [streams.ends both, List.flatten_append, bytes,
      Memory.bytes_ofBytes content (whole.symm ▸ fits), whole]
  · intro beyond
    exact hashInTurn_ofBytes_over tile inside beyond takes

/-- A range is hashed alike at once and in a loop of short reads. -/
theorem hashExtent_agrees {engine : HashEngine σ} {length : Nat}
    {outcome : Bytes → Except HashError (Vector UInt8 length)} {started state : σ}
    (streams : engine.Streams outcome started) {earlier : List Bytes}
    (given : engine.writeAll earlier started = .ok () state) {content : Bytes}
    (short : content.length < Offset.limit) {extent : Extent}
    (inside : extent.offset ≤ content.length) :
    let whole := ofBytes content
    let chunked := ofReader whole.size whole.read
    let stop := extent.offset + extent.length
    let ranges := pieceRanges extent.offset extent.length
    (∀ flash ∈ [whole, chunked],
      (stop ≤ content.length → ∃ after, flash.hashExtent engine extent state = .ok () after ∧
        HashEngine.answer (engine.finish length after) =
          outcome (earlier.flatten ++ slice content extent.offset stop)) ∧
      (content.length < stop → ∃ after,
        flash.hashExtent engine extent state = .error .outOfRange after)) ∧
    (stop < Offset.limit →
      chunked.hashExtent engine extent = hashInTurn whole.read engine ranges ∧
      Extent.Tile extent.offset ranges stop ∧
      ∀ range ∈ ranges, 0 < range.length ∧ range.length ≤ pieceLength ∧
        range.offset + range.length < Offset.limit) ∧
    (Offset.limit ≤ stop → chunked.hashExtent engine extent = throw .outOfRange) := by
  intro whole chunked stop ranges
  have tile : Extent.Tile extent.offset ranges stop := tile_pieceRanges _ _
  have single : Extent.Tile extent.offset [extent] stop := ⟨rfl, rfl⟩
  have loop (fits : stop < Offset.limit) :
      chunked.hashExtent engine extent = hashInTurn whole.read engine ranges :=
    hashExtent_ofReader whole.size whole.read engine fits
  have overflow (beyond : Offset.limit ≤ stop) :
      chunked.hashExtent engine extent = throw .outOfRange :=
    hashExtent_ofReader_over whole.size whole.read engine beyond
  refine ⟨?_, fun fits => ⟨loop fits, tile, ?_⟩, overflow⟩
  · rw [List.forall_mem_cons, List.forall_mem_singleton]
    constructor
    · rw [hashExtent_ofBytes]
      exact hashInTurn_outcome streams given single inside
    · rcases Nat.lt_or_ge stop Offset.limit with small | large
      · rw [loop small]
        exact hashInTurn_outcome streams given tile inside
      · rw [overflow large]
        exact ⟨fun fits => by omega, fun _ => ⟨state, rfl⟩⟩
  · intro range member
    obtain ⟨positive, bounded⟩ := length_pieceRanges range member
    exact ⟨positive, bounded, Nat.lt_of_le_of_lt (tile.bounds member).2 fits⟩

/-- A range of 290 bytes is hashed in two steps or at once. -/
theorem hashExtent_agrees_sha256 :
    let content : Bytes := List.replicate 300 7
    let whole := ofBytes content
    let chunked := ofReader whole.size whole.read
    let started := some (Sha2.Session.start .sha256)
    let state := some ((Sha2.Session.start .sha256).update [1, 2, 3])
    pieceRanges 7 290 = [⟨7, 256⟩, ⟨263, 34⟩] ∧
      Sha2.engine.writeAll [[1, 2], [3]] started = .ok () state ∧
      (∀ flash ∈ [whole, chunked],
        ∃ after, flash.hashExtent Sha2.engine ⟨7, 290⟩ state = .ok () after ∧
          HashEngine.answer (Sha2.engine.finish 32 after) =
            .ok (Sha2.digest .sha256 ([1, 2, 3] ++ List.replicate 290 7))) ∧
      ∀ flash ∈ [whole, chunked],
        ∃ after, flash.hashExtent Sha2.engine ⟨7, 294⟩ state = .error .outOfRange after := by
  intro content whole chunked started state
  have given : Sha2.engine.writeAll [[1, 2], [3]] started = .ok () state := by
    have written := Sha2.sessions.engine_writeAll [[1, 2], [3]] (Sha2.Session.start .sha256)
    rwa [show List.foldl Sha2.sessions.update (Sha2.Session.start .sha256) [[1, 2], [3]] =
      (Sha2.Session.start .sha256).update [1, 2, 3] from Sha2.sessions_after .sha256 _] at written
  have size : content.length = 300 := List.length_replicate
  have bytes : slice content 7 297 = List.replicate 290 7 := by
    have count : min (297 - 7) (300 - 7) = 290 := by decide
    rw [slice, List.drop_replicate, List.take_replicate, count]
  have short : content.length < Offset.limit := by
    rw [size]
    decide
  have inside : 7 ≤ content.length := by omega
  have streams := Sha2.sessions_computes.engine_streams .sha256
  obtain ⟨fits, -⟩ := @hashExtent_agrees _ _ _ _ _ _ streams _ given _ short ⟨7, 290⟩ inside
  obtain ⟨beyond, -⟩ := @hashExtent_agrees _ _ _ _ _ _ streams _ given _ short ⟨7, 294⟩ inside
  refine ⟨by cbv, given, fun flash member => ?_, fun flash member => ?_⟩
  · rw [← bytes]
    exact (fits flash member).1 (size ▸ (by decide : 7 + 290 ≤ 300))
  · exact (beyond flash member).2 (size ▸ (by decide : 300 < 7 + 294))

end Flash

end SignedFirmware
