import SignedFirmware.Wire.Coded

namespace SignedFirmware

inductive Reason where
  | runtimeFailure
  | unsupportedDescriptor
  | invalidDescriptor
  | invalidImageFamily
  | imageTypeDisallowed
  | devDowngradeDisallowed
  | untrustedKey
  | invalidSignature
  | invalidHash
  | invalidHashType
  | invalidArgument
  | failedToLocateMagic
  | invalidContext
  | invalidInterface
  | invalidSigScheme
  | invalidRegionInput
  | invalidRegionSize
  | invalidImageMauvData
  | retrievingStoredImageMauvData
  | storingNewImageMauvData
  | storedImageMauvDoesNotAllowUpdateToPayload
  | storedImageMauvExpectsPayloadImageMauv
  | storedImageMauvDataInvalid
  deriving DecidableEq, Repr

/-- A device fails fatally, a malformed candidate structurally, a refused one by policy. -/
inductive Tier where
  | fatal
  | structural
  | policy
  deriving DecidableEq, Repr

namespace Reason

def tier : Reason → Tier
  | .runtimeFailure | .invalidArgument | .invalidContext | .invalidInterface => .fatal
  | .unsupportedDescriptor | .invalidDescriptor | .failedToLocateMagic | .invalidRegionSize
  | .invalidRegionInput | .invalidHashType | .invalidSigScheme => .structural
  | _ => .policy

/-- The number of a reason is also the exit status of a rejected image. -/
def code : Reason → Nat
  | .runtimeFailure => 1
  | .unsupportedDescriptor => 2
  | .invalidDescriptor => 3
  | .invalidImageFamily => 4
  | .imageTypeDisallowed => 5
  | .devDowngradeDisallowed => 6
  | .untrustedKey => 7
  | .invalidSignature => 8
  | .invalidHash => 9
  | .invalidHashType => 10
  | .invalidArgument => 11
  | .failedToLocateMagic => 12
  | .invalidContext => 13
  | .invalidInterface => 14
  | .invalidSigScheme => 15
  | .invalidRegionInput => 16
  | .invalidRegionSize => 17
  | .invalidImageMauvData => 18
  | .retrievingStoredImageMauvData => 19
  | .storingNewImageMauvData => 20
  | .storedImageMauvDoesNotAllowUpdateToPayload => 21
  | .storedImageMauvExpectsPayloadImageMauv => 22
  | .storedImageMauvDataInvalid => 23

/-- The name under which a reason is reported. -/
def name : Reason → String
  | .runtimeFailure => "RuntimeFailure"
  | .unsupportedDescriptor => "UnsupportedDescriptor"
  | .invalidDescriptor => "InvalidDescriptor"
  | .invalidImageFamily => "InvalidImageFamily"
  | .imageTypeDisallowed => "ImageTypeDisallowed"
  | .devDowngradeDisallowed => "DevDowngradeDisallowed"
  | .untrustedKey => "UntrustedKey"
  | .invalidSignature => "InvalidSignature"
  | .invalidHash => "InvalidHash"
  | .invalidHashType => "InvalidHashType"
  | .invalidArgument => "InvalidArgument"
  | .failedToLocateMagic => "FailedToLocateMagic"
  | .invalidContext => "InvalidContext"
  | .invalidInterface => "InvalidInterface"
  | .invalidSigScheme => "InvalidSigScheme"
  | .invalidRegionInput => "InvalidRegionInput"
  | .invalidRegionSize => "InvalidRegionSize"
  | .invalidImageMauvData => "InvalidImageMauvData"
  | .retrievingStoredImageMauvData => "RetrievingStoredImageMauvData"
  | .storingNewImageMauvData => "StoringNewImageMauvData"
  | .storedImageMauvDoesNotAllowUpdateToPayload => "StoredImageMauvDoesNotAllowUpdateToPayload"
  | .storedImageMauvExpectsPayloadImageMauv => "StoredImageMauvExpectsPayloadImageMauv"
  | .storedImageMauvDataInvalid => "StoredImageMauvDataInvalid"

instance : Coded Reason where
  all := [.runtimeFailure, .unsupportedDescriptor, .invalidDescriptor, .invalidImageFamily,
    .imageTypeDisallowed, .devDowngradeDisallowed, .untrustedKey, .invalidSignature,
    .invalidHash, .invalidHashType, .invalidArgument, .failedToLocateMagic, .invalidContext,
    .invalidInterface, .invalidSigScheme, .invalidRegionInput, .invalidRegionSize,
    .invalidImageMauvData, .retrievingStoredImageMauvData, .storingNewImageMauvData,
    .storedImageMauvDoesNotAllowUpdateToPayload, .storedImageMauvExpectsPayloadImageMauv,
    .storedImageMauvDataInvalid]
  code := code
  name := name

end Reason

namespace Tier

def name : Tier → String
  | .fatal => "Fatal"
  | .structural => "Structural"
  | .policy => "Policy"

end Tier

end SignedFirmware
