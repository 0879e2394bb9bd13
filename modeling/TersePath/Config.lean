import TersePath.Fault

namespace TersePath

structure Config where
  maxDecimalPlaces : Nat := 2
  /-- One command a line, with all operands spaced. -/
  devmode : Bool := false
  convertToRelative : Bool := true
  /-- The absolute spelling of a command is used where it is shorter. -/
  keepSmallerCommand : Bool := true
  removeRepeatedLetters : Bool := true
  /-- Malformed numbers are faults and not undefined operands. -/
  strictNumbers : Bool := false
deriving DecidableEq

/-- The settings with a number of decimal places that may turn out to be negative. -/
def Config.withPlaces (config : Config) (places : Int) : Except Fault Config :=
  if places < 0 then .error .negativePlaces
  else .ok { config with maxDecimalPlaces := places.toNat }

end TersePath
