import Groundwork.Guid
/-!
Entries of a partition table, as far as they are carried over to another disk.
-/
namespace Groundwork

/-- The known partition types by the description that the partitioning tool prints. -/
def partitionTypes : List (String × String) :=
  [("EFI system partition", "EF00"),
   ("Linux filesystem", "8300"),
   ("Linux x86-64 /usr verity signature", "8385"),
   ("Linux x86-64 /usr verity", "8319"),
   ("Linux x86-64 /usr", "8314"),
   ("Linux ARM64 /usr verity signature", "8375"),
   ("Linux ARM64 /usr verity", "831B"),
   ("Linux ARM64 /usr", "8316")]

def typeCode? (description : String) : Option String := partitionTypes.lookup description

structure Partition where
  index : Nat
  typeName : String
  guid : Guid
  name : String
  /-- As the partitioning tool writes it, for instance `100.0MiB`. -/
  size : String
  deriving DecidableEq

/-- None if the type is not a known one. -/
def Partition.typeCode? (p : Partition) : Option String := Groundwork.typeCode? p.typeName

end Groundwork
