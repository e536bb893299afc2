/-!
# Shared types

Record identifiers and the configuration constants of `config.h`. A C++ `int`
is an `Int`; `IsInt` is its range, used where a value is stored in 32 bits.
-/

namespace MiniDB

/-- `PAGE_SIZE`, in bytes. -/
def pageSize : Nat := 4096

/-- The values of a 32-bit `int`. -/
def IsInt (value : Int) : Prop := -2147483648 ≤ value ∧ value ≤ 2147483647

instance : DecidablePred IsInt := fun value =>
  inferInstanceAs (Decidable (-2147483648 ≤ value ∧ value ≤ 2147483647))

/-- `RID`: the page and the slot of a record. -/
structure RID where
  pageId : Int := -1
  slotNum : Int := -1
deriving DecidableEq, Repr

namespace RID

/-- `RID::IsValid`. -/
def isValid (rid : RID) : Bool := decide (0 ≤ rid.pageId) && decide (0 ≤ rid.slotNum)

/-- Both fields are `int`s. -/
def IsInt (rid : RID) : Prop := MiniDB.IsInt rid.pageId ∧ MiniDB.IsInt rid.slotNum

instance : DecidablePred IsInt := fun rid =>
  inferInstanceAs (Decidable (MiniDB.IsInt rid.pageId ∧ MiniDB.IsInt rid.slotNum))

end RID

end MiniDB
