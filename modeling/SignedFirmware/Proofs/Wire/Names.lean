import SignedFirmware.Image.Region
import SignedFirmware.Proofs.Steps

namespace SignedFirmware

/-- A text is read back from its own bytes. -/
theorem textOf?_utf8Bytes (text : String) : textOf? (utf8Bytes text) = some text := by
  have valid : (⟨(utf8Bytes text).toArray⟩ : ByteArray).IsValidUTF8 := text.isValidUTF8
  rw [textOf?, String.fromUTF8?, dif_pos valid]
  rfl

/-- Only the character zero is encoded with a zero byte. -/
theorem zero_not_mem_utf8EncodeChar {letter : Char} (other : letter ≠ '\x00') :
    (0 : UInt8) ∉ String.utf8EncodeChar letter := by
  have positive : 0 < letter.val.toNat := by
    apply Nat.pos_of_ne_zero
    intro zero
    exact other (Char.ext (UInt32.toNat_inj.1 zero))
  have nonzero {byte : Nat} (low : 0 < byte) (high : byte < 256) : (0 : UInt8) ≠ .ofNat byte := by
    intro same
    have value := congrArg UInt8.toNat same
    rw [UInt8.toNat_ofNat_of_lt' high] at value
    exact Nat.ne_of_lt low value
  unfold String.utf8EncodeChar
  dsimp only
  -- The digits of the later bytes are small, and their marks make them more than zero.
  split
  next => simp only [List.mem_singleton, nonzero positive (by omega), not_false_eq_true]
  next =>
    have mark (digit : Nat) : (0 : UInt8) ≠ .ofNat (digit % 64 + 128) :=
      nonzero (by omega) (by omega)
    split
    next =>
      simp only [List.mem_cons, List.not_mem_nil, or_false, not_or]
      exact ⟨nonzero (by omega) (by omega), mark _⟩
    next =>
      split
      next =>
        simp only [List.mem_cons, List.not_mem_nil, or_false, not_or]
        exact ⟨nonzero (by omega) (by omega), mark _, mark _⟩
      next =>
        simp only [List.mem_cons, List.not_mem_nil, or_false, not_or]
        exact ⟨nonzero (by omega) (by omega), mark _, mark _, mark _⟩

/-- The bytes of a text are those of its characters. -/
theorem utf8Bytes_eq (text : String) :
    utf8Bytes text = text.toList.flatMap String.utf8EncodeChar := by
  rw [utf8Bytes, String.toUTF8_eq_toByteArray, ← String.utf8Encode_toList, List.utf8Encode]
  simp

theorem zero_not_mem_utf8Bytes {text : String} (plain : '\x00' ∉ text.toList) :
    (0 : UInt8) ∉ utf8Bytes text := by
  rw [utf8Bytes_eq, List.mem_flatMap]
  rintro ⟨letter, member, zero⟩
  exact zero_not_mem_utf8EncodeChar (fun same => plain (same ▸ member)) zero

namespace Name

/-- A name is a text with zeros after it. -/
def Spells (name : Name) (text : String) : Prop :=
  name.toList = utf8Bytes text ++ zeroBytes (32 - (utf8Bytes text).length)

theorem spells_of_ofText? {name : Name} {text : String} (named : ofText? text = some name) :
    name.Spells text := by
  rw [ofText?] at named
  split at named
  next fits =>
    obtain rfl := Option.some.inj named
    simp [Spells, Vector.toList]
  next => cases named

/-- A text has no name if it is too long. -/
theorem ofText?_eq_none {text : String} :
    ofText? text = none ↔ 32 < (utf8Bytes text).length := by
  rw [ofText?]
  by_cases fits : (utf8Bytes text).length ≤ 32
  · simp [fits]
  · simp [fits, Nat.lt_of_not_le fits]

/-- A text without the character zero is read back from its name. -/
theorem Spells.text? {name : Name} {text : String} (spells : name.Spells text)
    (plain : '\x00' ∉ text.toList) : name.text? = some text := by
  have nonzero : ∀ byte ∈ utf8Bytes text, (byte != 0) = true := by
    intro byte member
    rw [bne_iff_ne]
    rintro rfl
    exact zero_not_mem_utf8Bytes plain member
  have rest : (zeroBytes (32 - (utf8Bytes text).length)).takeWhile (· != 0) = [] := by
    rw [zeroBytes, List.takeWhile_replicate]
    rfl
  rw [Name.text?, spells, List.takeWhile_append_of_pos nonzero, rest, List.append_nil,
    textOf?_utf8Bytes]

end Name

end SignedFirmware
