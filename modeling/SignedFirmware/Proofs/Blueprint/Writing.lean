import SignedFirmware.Blueprint.Build
import SignedFirmware.Proofs.Image.Coverage
import SignedFirmware.Proofs.Wire.Capacity

namespace SignedFirmware

/-- A place that is filled holds the fields and then zeros. -/
theorem Draft.fill_eq_ok {length : Nat} {fields : List Field} {bytes : Bytes} :
    Draft.fill length fields = .ok bytes ↔
      (Field.encodeAll fields).length ≤ length ∧
        bytes = Field.encodeAll fields ++ zeroBytes (length - (Field.encodeAll fields).length) := by
  unfold Draft.fill
  constructor
  · intro result
    split at result
    next written sink answer =>
      obtain ⟨fits, rfl⟩ := Sink.writeAll_eq_ok.1 answer
      obtain rfl := Except.ok.inj result
      exact ⟨fits, rfl⟩
    next => cases result
  · intro given
    rcases given with ⟨fits, rfl⟩
    have answer : Sink.writeAll fields (Sink.bounded length) =
        .ok () (Sink.holding fields length) :=
      Sink.writeAll_eq_ok.2 ⟨fits, rfl⟩
    rw [answer]
    rfl

/-- A region adds the bytes at its covered offsets to the digest. -/
theorem Draft.flatten_coveredParts {draft : Draft} {image : Bytes} {region : Region}
    (inside : region.offset.toNat + region.size.toNat ≤ image.length) :
    (draft.coveredParts image region).flatten =
      (draft.descriptor.regionOffsets region).map (Memory.ofBytes image) := by
  have sliced {start stop : Nat} (ordered : start ≤ stop) (high : stop ≤ image.length) :
      slice image start stop = (List.range' start (stop - start)).map (Memory.ofBytes image) := by
    have bytes := Memory.bytes_ofBytes image (show start + (stop - start) ≤ image.length by omega)
    rw [show start + (stop - start) = stop by omega] at bytes
    exact bytes.symm
  rw [Descriptor.regionOffsets, filter_range', List.map_append]
  simp only [coveredParts, Descriptor.ownExtent, List.flatten_cons, List.flatten_nil,
    List.append_nil]
  rw [sliced (by omega) (by omega), sliced (by omega) (by omega)]
  congr 3 <;> omega

end SignedFirmware
