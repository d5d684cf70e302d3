namespace SignedFirmware

/-- This lists the values of an enumeration with their numbers and names. -/
class Coded (α : Type) where
  all : List α
  code : α → Nat
  name : α → String

namespace Coded

def ofCode? {α : Type} [Coded α] (number : Nat) : Option α :=
  (all (α := α)).find? fun value => code value == number

/-- Upper and lower case differ in names. -/
def ofName? {α : Type} [Coded α] (text : String) : Option α :=
  (all (α := α)).find? fun value => name value == text

end Coded

end SignedFirmware
