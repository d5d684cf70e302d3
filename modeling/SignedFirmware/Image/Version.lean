import SignedFirmware.Wire.Reader

namespace SignedFirmware

structure Version where
  major : UInt32
  minor : UInt32
  point : UInt32
  subpoint : UInt32
  deriving DecidableEq, Repr

namespace Version

/-- The version of an image that names none. -/
def zero : Version := ⟨0, 0, 0, 0⟩

/-- The fields of a version on the wire. -/
def fields (version : Version) : List Field :=
  [.uint32 version.major, .uint32 version.minor, .uint32 version.point, .uint32 version.subpoint]

def read : Reader Version :=
  return ⟨← Reader.uint32, ← Reader.uint32, ← Reader.uint32, ← Reader.uint32⟩

/-- The first part that differs decides the order. -/
def compare (left right : Version) : Ordering :=
  (Ord.compare left.major right.major).then <|
    (Ord.compare left.minor right.minor).then <|
      (Ord.compare left.point right.point).then (Ord.compare left.subpoint right.subpoint)

instance : Ord Version := ⟨compare⟩

end Version

end SignedFirmware
