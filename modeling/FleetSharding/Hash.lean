/-!
# The placement hash

FNV-1a with 32 bits: each byte is xored into the hash, then the hash is multiplied by a prime.
-/

namespace FleetSharding

/-- One byte of the hash. -/
def fnvStep (hash : UInt32) (b : UInt8) : UInt32 :=
  (hash ^^^ b.toUInt32) * 0x01000193

def fnv1a (bytes : List UInt8) : UInt32 :=
  bytes.foldl fnvStep 0x811C9DC5

example : fnv1a [] = 0x811C9DC5 ∧ fnv1a [0x61] = 0xE40C292C := by decide

end FleetSharding
