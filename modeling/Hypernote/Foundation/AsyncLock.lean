/-!
# A first-in first-out lock

The lock of a cooperative event loop.  `acquire` succeeds at once only when the
lock is free and nobody waits; otherwise the caller joins the end of the queue and
is resumed when it has come to the front and the lock is free.
-/

namespace Hypernote.Foundation

structure AsyncLock (ι : Type) where
  locked : Bool
  waiters : List ι

namespace AsyncLock

variable {ι : Type}

def free : AsyncLock ι := ⟨false, []⟩

/-- The fast path of `acquire`. -/
def canAcquire (l : AsyncLock ι) : Bool := !l.locked && l.waiters.isEmpty

def acquire (l : AsyncLock ι) : AsyncLock ι := { l with locked := true }

def enqueue (l : AsyncLock ι) (i : ι) : AsyncLock ι := { l with waiters := l.waiters ++ [i] }

/-- Whether a waiter may take the lock now. -/
def mayWake [DecidableEq ι] (l : AsyncLock ι) (i : ι) : Bool :=
  !l.locked && l.waiters.head? = some i

def wake (l : AsyncLock ι) : AsyncLock ι := ⟨true, l.waiters.tail⟩

def release (l : AsyncLock ι) : AsyncLock ι := { l with locked := false }

/-- A cancelled waiter leaves the queue. -/
def abandon [DecidableEq ι] (l : AsyncLock ι) (i : ι) : AsyncLock ι :=
  { l with waiters := l.waiters.filter fun j => j ≠ i }

end AsyncLock

end Hypernote.Foundation
