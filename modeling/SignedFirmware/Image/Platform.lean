namespace SignedFirmware

/-- A platform need not answer any question about the device. -/
structure Platform where
  production : Option Bool
  downgradeAllowed : Option Bool
  sizeValid : UInt32 → Option Bool

end SignedFirmware
