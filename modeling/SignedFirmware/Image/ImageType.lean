import SignedFirmware.Wire.Coded

namespace SignedFirmware

/-- The kind of build that an image comes from. -/
inductive ImageType where
  | dev
  | prod
  | breakout
  | test
  | unsignedIntegrity
  deriving DecidableEq, Repr

namespace ImageType

def code : ImageType → UInt8
  | .dev => 0
  | .prod => 1
  | .breakout => 2
  | .test => 3
  | .unsignedIntegrity => 4

def name : ImageType → String
  | .dev => "Dev"
  | .prod => "Prod"
  | .breakout => "Breakout"
  | .test => "Test"
  | .unsignedIntegrity => "UnsignedIntegrity"

instance : Coded ImageType where
  all := [.dev, .prod, .breakout, .test, .unsignedIntegrity]
  code imageType := imageType.code.toNat
  name := name

end ImageType

end SignedFirmware
