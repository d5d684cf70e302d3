import SignedFirmware.Bytes

namespace SignedFirmware

/-- The schedule of a block is kept as its last sixteen words. -/
abbrev Window (α : Type) := Vector α 16

namespace Window

variable {α : Type}

/-- The word at an index, which wraps around. -/
def word (window : Window α) (index : Nat) : α := window[index % 16]

/-- This replaces the word at an index, which wraps around. -/
def replace (window : Window α) (index : Nat) (word : α) : Window α :=
  window.set (index % 16) word

end Window

/-- A compression function with its blocks and its first state. -/
structure BlockHash (σ : Type) where
  blockLength : Nat
  blockLength_pos : 0 < blockLength
  counterLength : Nat
  start : σ
  compress : σ → Bytes → σ

namespace BlockHash

variable {σ : Type}

/-- Whole blocks in front are compressed, and the rest is left over. -/
def absorb (hash : BlockHash σ) (state : σ) (data : Bytes) : σ × Bytes :=
  let block := data.take hash.blockLength
  if _full : block.length = hash.blockLength then
    hash.absorb (hash.compress state block) (data.drop hash.blockLength)
  else
    (state, data)
termination_by data.length
decreasing_by
  have positive := hash.blockLength_pos
  simp only [block, List.length_take] at _full
  simp only [List.length_drop]
  omega

/-- A one bit, zeros, and the number of message bits at the end of a block. -/
def padding (hash : BlockHash σ) (count : Nat) : Bytes :=
  let used := (count + 1 + hash.counterLength) % hash.blockLength
  0x80 :: zeroBytes ((hash.blockLength - used) % hash.blockLength) ++
    bigEndian hash.counterLength (8 * count)

/-- The state after all blocks of a padded message. -/
def digestState (hash : BlockHash σ) (message : Bytes) : σ :=
  (hash.absorb hash.start (message ++ hash.padding message.length)).1

/-- The state after the whole blocks, the bytes after them, and the count. -/
structure Stream (σ : Type) where
  state : σ
  pending : Bytes
  count : Nat

/-- The stream of the empty message. -/
def empty (hash : BlockHash σ) : Stream σ := ⟨hash.start, [], 0⟩

/-- This appends a part to the message of a stream. -/
def update (hash : BlockHash σ) (stream : Stream σ) (part : Bytes) : Stream σ :=
  let (state, pending) := hash.absorb stream.state (stream.pending ++ part)
  ⟨state, pending, stream.count + part.length⟩

/-- This pads the message of a stream and compresses the last blocks. -/
def finish (hash : BlockHash σ) (stream : Stream σ) : σ :=
  (hash.absorb stream.state (stream.pending ++ hash.padding stream.count)).1

theorem absorb_append (hash : BlockHash σ) (state : σ) (front back : Bytes) :
    hash.absorb state (front ++ back) =
      hash.absorb (hash.absorb state front).1 ((hash.absorb state front).2 ++ back) := by
  fun_induction hash.absorb state front with
  | case1 state front block full ih =>
      rw [← ih, absorb]
      have long : hash.blockLength ≤ front.length := by
        simp only [block, List.length_take] at full
        omega
      simp [List.take_append_of_le_length long, List.drop_append_of_le_length long, long, block]
  | case2 state front block short => rfl

/-- Absorbing two parts one after the other is absorbing them at once. -/
theorem update_append (hash : BlockHash σ) (stream : Stream σ) (front back : Bytes) :
    hash.update (hash.update stream front) back = hash.update stream (front ++ back) := by
  simp only [update, List.length_append, ← List.append_assoc]
  rw [hash.absorb_append stream.state (stream.pending ++ front) back, Nat.add_assoc]

/-- A stream ends in the state of the whole message. -/
theorem finish_update_empty (hash : BlockHash σ) (message : Bytes) :
    hash.finish (hash.update hash.empty message) = hash.digestState message := by
  simp only [finish, update, empty, digestState, List.nil_append, Nat.zero_add]
  rw [← hash.absorb_append]

end BlockHash

end SignedFirmware
