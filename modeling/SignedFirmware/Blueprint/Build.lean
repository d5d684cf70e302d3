import SignedFirmware.Blueprint.Basic

namespace SignedFirmware

/-- A draft is a descriptor without its digest and signature. -/
structure Draft where
  descriptor : Descriptor
  blob : Bytes
  denylist : List Version
  deriving DecidableEq, Repr

namespace Blueprint

/-- Unused bytes of an image are filled with this. -/
def filler : UInt8 := 0xff

/-- The table of planned regions, with the sum of their sizes from `sum` on. -/
def regionTable (sum : Nat) : List RegionPlan → Except BuildError (List Region × Nat)
  | [] => return ([], sum)
  | plan :: rest => do
      let region ← expect plan.region? .nameTooLong
      let next ← expect (Offset.add? sum plan.size.toNat) .outOfRange
      let (regions, total) ← regionTable next rest
      return (region :: regions, total)

/-- This works out the descriptor of an image. -/
def draft (blueprint : Blueprint) : Except BuildError Draft := do
  demand (0 < blueprint.regions.length ∧ blueprint.regions.length ≤ Descriptor.maxRegions)
    .badRegionCount
  let algorithm ← expect blueprint.hashType.algorithm? .unsupportedHash
  demand (blueprint.denylist.length < 256) .outOfRange
  let (regions, sum) ← regionTable 0 blueprint.regions
  let imageSize := (blueprint.imageSize.map UInt32.toNat).getD sum
  let blob ← blueprint.blob
  demand (blob.length < Offset.limit) .outOfRange
  let base := blueprint.descriptorOffset.toNat
  let layout ← expect (Layout.place? base regions.length algorithm blueprint.denylist.length
    blob.length blueprint.scheme) .outOfRange
  let total := layout.signed.length + layout.signature.length
  let areaSize := (blueprint.areaSize.map UInt32.toNat).getD total
  demand (total ≤ areaSize ∧ base + areaSize ≤ imageSize) .outOfRange
  let name ← expect (Name.ofText? blueprint.name) .nameTooLong
  return {
    descriptor := {
      offset := base
      formatMajor := 1
      formatMinor := 0
      ownOffset := blueprint.descriptorOffset
      areaSize := UInt32.ofNat areaSize
      name, family := blueprint.family
      version := blueprint.version
      buildTimestamp := blueprint.buildTimestamp
      imageType := blueprint.imageType
      denylistSize := UInt8.ofNat blueprint.denylist.length
      hashType := blueprint.hashType
      scheme := blueprint.scheme
      imageSize := UInt32.ofNat imageSize
      blobSize := UInt32.ofNat blob.length
      regions, layout }
    blob
    denylist := blueprint.denylist }

end Blueprint

namespace Draft

/-- The fields of the denylist; without entries there is none. -/
def denylistFields (draft : Draft) : List Field :=
  if draft.denylist.isEmpty then []
  else [.uint32 magics.denylist, .zeros 4] ++ draft.denylist.flatMap Version.fields

/-- The fields up to the signature block. The digest is still zero. -/
def fields (draft : Draft) : List Field :=
  draft.descriptor.fields ++
    [.uint32 magics.hash, .zeros (4 + draft.descriptor.algorithm.length)] ++
    draft.denylistFields ++ [.raw draft.blob]

/-- The fields are written into a place, with zeros after them. -/
def fill (length : Nat) (fields : List Field) : Except BuildError Bytes :=
  match Sink.writeAll fields (Sink.bounded length) with
  | .ok _ sink => .ok sink.contents
  | .error error _ => .error (.wire error)

/-- The image before the digest and the signature are put in. -/
def blank (draft : Draft) (payload : Bytes) : Except BuildError Bytes := do
  let size := draft.descriptor.imageSize.toNat
  demand (payload.length ≤ size) .outOfRange
  let area ← fill draft.descriptor.areaSize.toNat draft.fields
  let padded := payload ++ List.replicate (size - payload.length) Blueprint.filler
  return splice padded draft.descriptor.ownOffset.toNat area

/-- A static region adds what lies before and after the descriptor's area. -/
def coveredParts (draft : Draft) (image : Bytes) (region : Region) : List Bytes :=
  let areaStart := draft.descriptor.ownOffset.toNat
  let areaStop := areaStart + draft.descriptor.areaSize.toNat
  let start := min region.offset.toNat image.length
  let stop := min (region.offset.toNat + region.size.toNat) image.length
  let before := max (min stop areaStart) start
  let after := min (max start areaStop) stop
  [slice image start before, slice image after stop]

/-- The digest covers the parts in the order of the table. -/
def digestParts (draft : Draft) (image : Bytes) : List Bytes :=
  (draft.descriptor.regions.filter Region.isStatic).flatMap (draft.coveredParts image)

end Draft

namespace Blueprint

/-- The signed image of a blueprint holds the payload outside the descriptor's area. -/
def build {σ : Type} (blueprint : Blueprint) (payload : Bytes) (engine : HashEngine σ)
    (signer : Signer σ) : EStateM BuildError σ Bytes := do
  let draft ← perform blueprint.draft
  let blank ← perform (draft.blank payload)
  let scheme := draft.descriptor.scheme
  let layout := draft.descriptor.layout
  let digest ← (engine.digest draft.descriptor.algorithm (draft.digestParts blank)).adaptExcept
    BuildError.hash
  let image := splice blank (layout.hash.offset + Layout.sectionHeaderLength) digest.toList
  let signed := slice image layout.signed.offset (layout.signed.offset + layout.signed.length)
  let digest ← (engine.digest scheme.algorithm [signed]).adaptExcept BuildError.hash
  perform (demand (Scheme.forKey? signer.modulus.length scheme.algorithm = some scheme)
    (.signature .unsupported))
  let signature ← (signer.sign scheme digest.toList scheme.signatureLength).adaptExcept
    BuildError.signature
  let block : SignatureBlock := ⟨scheme, signer.modulus, signer.exponent, signature.toList⟩
  let bytes ← perform (Draft.fill layout.signature.length block.fields)
  return splice image layout.signature.offset bytes

end Blueprint

end SignedFirmware
