/-!
# Sizes and offsets

Object sizes, alignments and frame offsets are signed 64-bit numbers that wrap around, so an array
type too large for the address space has a wrapped size rather than none.
-/

namespace SubsetC

/-- A byte count or offset, kept in the range of a signed 64-bit word. -/
abbrev Size := Int

namespace Size

/-- The signed 64-bit number congruent to an integer. -/
def wrap (value : Int) : Size := value.bmod 18446744073709551616

/-- The wrapped sum. -/
def add (left right : Size) : Size := wrap (left + right)

/-- The wrapped difference. -/
def sub (left right : Size) : Size := wrap (left - right)

/-- The wrapped product. -/
def mul (left right : Size) : Size := wrap (left * right)

/-- The least multiple of a positive alignment that is not below a size; there is none for the
alignment zero. -/
def alignUp? (size alignment : Size) : Option Size :=
  if alignment = 0 then none
  else some (mul ((add size (sub alignment 1)).tdiv alignment) alignment)

end Size

end SubsetC
