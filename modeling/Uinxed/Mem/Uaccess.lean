/-
  Mem/Uaccess.lean --- the range check of src/mem/uaccess.c.

  Every user copy starts with user_range_ok(uaddr, size): a non-empty range
  must start above 0 and below PROCESS_USER_STACK_TOP and must not run past
  it.  The last test is written addr > PROCESS_USER_STACK_TOP - size, in
  uintptr_t arithmetic.  For a size up to PROCESS_USER_STACK_TOP that is
  addr + size > PROCESS_USER_STACK_TOP, as meant; a larger size wraps the
  subtraction around to a bound above every user address, and the range is
  accepted whatever its end.
-/
import Mathlib.Data.UInt

set_option autoImplicit false

namespace Uinxed.Uaccess

/-- PROCESS_USER_STACK_TOP (PROCESS_STACK_BASE). -/
def processUserStackTop : UInt64 := 0x7ffffffff000

/-- user_range_ok. -/
def userRangeOk (uaddr size : UInt64) : Bool :=
  if size = 0 then true
  else if uaddr = 0 then false
  else if processUserStackTop ≤ uaddr then false
  else if processUserStackTop - size < uaddr then false
  else true

/-- A range of 2^47 bytes from 0x1000 passes the check, though it ends far
above PROCESS_USER_STACK_TOP. -/
theorem userRangeOk_accepts_overlong :
    userRangeOk 0x1000 0x800000000000 = true ∧
      processUserStackTop.toNat < (0x1000 : UInt64).toNat + (0x800000000000 : UInt64).toNat := by
  decide

end Uinxed.Uaccess
