namespace SignedFirmware

/-- A byte string is a list of bytes, first byte first. -/
abbrev Bytes := List UInt8

/-- The number with the given base-256 digits, lowest digit first. -/
def littleEndianValue : Bytes → Nat
  | [] => 0
  | byte :: rest => byte.toNat + 256 * littleEndianValue rest

/-- The lowest `width` base-256 digits of a number, lowest digit first. -/
def littleEndian : (width : Nat) → (value : Nat) → Bytes
  | 0, _ => []
  | width + 1, value => UInt8.ofNat value :: littleEndian width (value / 256)

/-- The number with the given base-256 digits, highest digit first. -/
def bigEndianValue (bytes : Bytes) : Nat :=
  bytes.foldl (fun value byte => 256 * value + byte.toNat) 0

/-- The lowest `width` base-256 digits of a number, highest digit first. -/
def bigEndian (width value : Nat) : Bytes := (littleEndian width value).reverse

def stripLeadingZeros (bytes : Bytes) : Bytes := bytes.dropWhile (· == 0)

def zeroBytes (count : Nat) : Bytes := List.replicate count 0

/-- The bytes of `patch` replace those of `base` from `offset` on. -/
def splice (base : Bytes) (offset : Nat) (patch : Bytes) : Bytes :=
  base.take offset ++ patch ++ base.drop (offset + patch.length)

/-- The bytes from `start` up to, but not including, `stop`. -/
def slice (bytes : Bytes) (start stop : Nat) : Bytes := (bytes.drop start).take (stop - start)

/-- This reads a byte string as text, if it is well-formed UTF-8. -/
def textOf? (bytes : Bytes) : Option String := String.fromUTF8? ⟨bytes.toArray⟩

def utf8Bytes (text : String) : Bytes := text.toUTF8.data.toList

@[simp] theorem length_littleEndian (width value : Nat) :
    (littleEndian width value).length = width := by
  induction width generalizing value with
  | zero => rfl
  | succ width ih => simp [littleEndian, ih]

@[simp] theorem length_bigEndian (width value : Nat) :
    (bigEndian width value).length = width := by
  simp [bigEndian]

@[simp] theorem length_zeroBytes (count : Nat) : (zeroBytes count).length = count := by
  simp [zeroBytes]

end SignedFirmware
