import SignedFirmware.Blueprint.Text
import SignedFirmware.Image.Validation

namespace SignedFirmware

/-- The findings on an image: context, table and rollback outcome. -/
structure Report where
  descriptor : Descriptor
  key : Option Nat
  regions : List Region
  outcome : RollbackOutcome
  deriving DecidableEq, Repr

namespace Report

def regionJson (region : Region) : Json :=
  .record [("name", .ofOption Json.ofString region.name.text?),
    ("offset", .ofNat region.offset.toNat), ("size", .ofNat region.size.toNat),
    ("static", .boolean region.isStatic)]

/-- The report on an image that was accepted. -/
def toJson (report : Report) : Json :=
  .record [("descriptor_offset", .ofNat report.descriptor.offset),
    ("family", .ofNat report.descriptor.family.toNat),
    ("image_type", .ofCoded report.descriptor.imageType),
    ("key", .ofOption Json.ofNat report.key),
    ("mauv", .ofString report.outcome.name),
    ("name", .ofOption Json.ofString report.descriptor.name.text?),
    ("regions", .ofList regionJson report.regions),
    ("valid", .boolean true),
    ("version", report.descriptor.version.toJson)]

/-- This names the reason for which an image was not accepted. -/
def haltJson : Halt → Json
  | .rejected reason => .ofString reason.name
  | .overflow => .null

/-- The report on an image that was not accepted. -/
def rejectedJson (halt : Halt) : Json :=
  .record [("reason", haltJson halt), ("valid", .boolean false)]

end Report

end SignedFirmware
