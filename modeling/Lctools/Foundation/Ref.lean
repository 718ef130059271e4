import Mathlib.Init

/-! # Pointers to heap objects

A pointer is null, or refers to a live object, or still holds the address of an
object that was freed. Using or freeing it in the wrong state is a fault.
-/

namespace Lctools

inductive RefFault where
  | nullDereference
  | useAfterFree
  | doubleFree
  deriving DecidableEq, Repr

inductive Ref (α : Type) where
  | null
  | live (value : α)
  | freed
  deriving DecidableEq, Repr

namespace Ref

variable {α : Type}

def isNull : Ref α → Bool
  | null => true
  | _ => false

def deref : Ref α → Except RefFault α
  | null => .error .nullDereference
  | live value => .ok value
  | freed => .error .useAfterFree

/-- `free(p)`: the pointer keeps the address; freeing null does nothing. -/
def free : Ref α → Except RefFault (Ref α)
  | null => .ok null
  | live _ => .ok freed
  | freed => .error .doubleFree

end Ref

end Lctools
