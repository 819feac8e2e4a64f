import BenchReport.Error
set_option autoImplicit false

namespace BenchReport.Counter

/-- The sum of two counters, if it fits 64 bits. -/
def add (m n : UInt64) : Except Error UInt64 :=
  if m.toNat + n.toNat < UInt64.size then .ok (m + n) else .error .overflow

/-- The sum of all counters, front to back. -/
def sum (counters : List UInt64) : Except Error UInt64 := counters.foldlM add 0

end BenchReport.Counter
