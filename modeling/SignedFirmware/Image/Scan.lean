import SignedFirmware.Image.Descriptor.Parse

namespace SignedFirmware

namespace Scan

/-- The magic word is this long. -/
def magicLength : Nat := 8

/-- The search looks at every further step of the alignment up to `stop`. -/
def findFrom (flash : Flash) (alignment : Nat) (magic : UInt64) (position stop : Nat) :
    Checked Nat :=
  if _inside : 0 < alignment ∧ position < stop then
    match Offset.sub stop position with
    | .error halt => .error halt
    | .ok left =>
        if left < magicLength then
          reject .failedToLocateMagic
        else
          match flash.number position magicLength with
          | .error error => reject error.reason
          | .ok word =>
              if word = magic.toNat then
                .ok position
              else
                findFrom flash alignment magic (position + alignment) stop
  else
    reject .failedToLocateMagic
termination_by stop - position
decreasing_by omega

/-- The first multiple of the alignment in `range` at which the word stands. -/
def find (flash : Flash) (range : Span) (alignment : UInt32) (magic : UInt64) (bounds : Span) :
    Checked Nat := do
  ensure (range.start < range.stop) .invalidArgument
  ensure (bounds.start ≤ range.start ∧ range.stop ≤ bounds.stop) .invalidArgument
  ensure (Offset.isPowerOfTwo alignment.toNat) .invalidArgument
  let mask ← Offset.sub alignment.toNat 1
  findFrom flash alignment.toNat magic (Offset.roundUp range.start.toNat (mask + 1))
    range.stop.toNat

theorem le_of_findFrom {flash : Flash} {alignment : Nat} {magic : UInt64}
    {position stop found : Nat}
    (result : findFrom flash alignment magic position stop = .ok found) :
    position ≤ found ∧ found + magicLength ≤ stop := by
  fun_induction findFrom flash alignment magic position stop with
  | case1 position inside halt failed => simp at result
  | case2 position inside left counted short => simp at result
  | case3 position inside left counted long error failed => simp at result
  | case4 position inside left counted long read =>
      rw [Offset.sub_eq_ok] at counted
      simp only [Except.ok.injEq] at result
      omega
  | case5 position inside left counted long word read other ih =>
      have := ih result
      omega
  | case6 position outside => simp at result

/-- A search that succeeds finds a position in its range. -/
theorem bounds_of_find {flash : Flash} {range bounds : Span} {alignment : UInt32} {magic : UInt64}
    {found : Nat} (result : find flash range alignment magic bounds = .ok found) :
    0 < alignment.toNat ∧ range.start.toNat ≤ found ∧
      found + magicLength ≤ range.stop.toNat := by
  simp only [find, bind_eq_ok, ensure_eq_ok, Offset.sub_eq_ok] at result
  obtain ⟨-, -, -, -, -, power, mask, -, result⟩ := result
  have positive := Nat.pos_of_isPowerOfTwo (Offset.isPowerOfTwo_iff.1 power)
  have bound := le_of_findFrom result
  have rounded := @Offset.le_roundUp range.start.toNat (mask + 1) (Nat.succ_pos mask)
  omega

end Scan

end SignedFirmware
