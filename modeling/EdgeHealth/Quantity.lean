import EdgeHealth.Number.Shortest
import EdgeHealth.Number.Literal
import EdgeHealth.Text.Blank

/-!
# Quantities of memory and processing power

How amounts are written in manifests: a number, perhaps with a suffix for a power of 1024 or of
1000. Amounts are computed in binary floating point and cut to a whole number of 64 bits.

## Main definitions

* `Quantity.memoryBytes?` : an amount of memory in bytes.
* `Quantity.cpuMillis?` : an amount of processing power in thousandths of a core.
* `Quantity.formatBytes` : a count of bytes as it is shown.
-/

namespace EdgeHealth.Quantity

open EdgeHealth.Number EdgeHealth.Text

/-- The suffixes for powers of 1024. -/
def binarySuffixes : List (String × Nat) :=
  [("Ki", 1 <<< 10), ("Mi", 1 <<< 20), ("Gi", 1 <<< 30), ("Ti", 1 <<< 40), ("Pi", 1 <<< 50),
    ("Ei", 1 <<< 60)]

/-- The suffixes for powers of 1000. -/
def decimalSuffixes : List (String × Nat) :=
  [("k", Nat.pow 10 3), ("M", Nat.pow 10 6), ("G", Nat.pow 10 9), ("T", Nat.pow 10 12),
    ("P", Nat.pow 10 15), ("E", Nat.pow 10 18)]

/-- The whole part of a number, as a natural number of 64 bits. -/
def truncated (x : Binary64) : Nat := x.clamp maxUInt64

/-- The number before the first suffix of a table that a text ends with, and the factor of that
suffix. -/
def splitSuffix? (cs : List Char) : List (String × Nat) → Option (List Char × Nat)
  | [] => none
  | (suffix, factor) :: rest =>
    match stripEnd? suffix.toList cs with
    | some number => some (number, factor)
    | none => splitSuffix? cs rest

/-- An amount of memory in bytes. The suffix `m` stands for thousandths of a byte. -/
def memoryBytes? (raw : String) : Option Nat :=
  let cs := Text.trimBlank raw.toList
  match splitSuffix? cs (binarySuffixes ++ decimalSuffixes) with
  | some (number, factor) => (float? number).map fun x => truncated (x.mul (.ofNat factor))
  | none =>
    match stripEnd? ['m'] cs with
    | some milli => (float? milli).map fun x => truncated (x.div (.ofNat 1000))
    | none => (float? cs).map truncated

/-- An amount of processing power in thousandths of a core. The suffix `m` says that the number
counts thousandths already. -/
def cpuMillis? (raw : String) : Option Nat :=
  let cs := Text.trimBlank raw.toList
  match stripEnd? ['m'] cs with
  | some milli => (float? milli).map truncated
  | none => (float? cs).map fun x => truncated (x.mul (.ofNat 1000))

/-- A count of bytes in a unit, with one place after the point. -/
def inUnit (bytes factor : Nat) : String :=
  match (Binary64.ofNat bytes).div (.ofNat factor) with
  | .finite _ m e => onePlace m e
  | _ => ""

/-- A count of bytes in the greatest of some units that is not greater than it. -/
def formatIn (bytes : Nat) : List (String × Nat) → String
  | [] => Nat.repr bytes
  | (suffix, factor) :: rest =>
    if factor ≤ bytes then inUnit bytes factor ++ suffix else formatIn bytes rest

/-- A count of bytes as it is shown, in the greatest unit of a power of 1024 that fits. -/
def formatBytes (bytes : Nat) : String := formatIn bytes binarySuffixes.reverse

end EdgeHealth.Quantity
