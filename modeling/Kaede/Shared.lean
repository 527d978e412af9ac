import Mathlib.Data.Nat.Notation

/-!
# References and time

What the parts of the server have in common. Identifiers are unique at
their home only, so across homes an account is named by its identifier and
its home. Clocks count microseconds.
-/

namespace Kaede

structure UserRef where
  id : Nat
  domain : String
deriving DecidableEq, Repr

-- tables of memberships are searched by such pairs
instance : LawfulBEq (UserRef × Nat) := inferInstance

instance : LawfulBEq (Nat × UserRef) := inferInstance

def second : Nat := 1000000

end Kaede
