import KerberizedMikey.CLib.Memory

/-!
# The receiving end of a TCP connection

A connection is the list of what its reads run into: segments of bytes, interrupted
calls, errors; the end of the list is the end of file.  A `read` or `recv` of `n` bytes
takes at most one segment, and leaves what it does not take of it.

    readEvent n (data b seg) = (the first n bytes, the rest)
    bytesOf es : all bytes the list delivers
-/

namespace CLib

/-- A segment is not empty. -/
inductive Event
  | data (b : UInt8) (seg : Bytes)
  /-- The call fails with `EINTR`. -/
  | intr
  /-- The call fails with another error. -/
  | err
deriving DecidableEq

def Event.bytes : Event → Bytes
  | .data b seg => b :: seg
  | .intr => []
  | .err => []

/-- The bytes a connection delivers. -/
def bytesOf (es : List Event) : Bytes := es.flatMap Event.bytes

@[simp] theorem bytesOf_nil : bytesOf [] = [] := rfl

@[simp] theorem bytesOf_cons (e : Event) (es : List Event) :
    bytesOf (e :: es) = e.bytes ++ bytesOf es := List.flatMap_cons

/-- A segment, if there is anything in it. -/
def segment : Bytes → List Event
  | [] => []
  | b :: seg => [.data b seg]

@[simp] theorem bytesOf_segment_append (bs : Bytes) (es : List Event) :
    bytesOf (segment bs ++ es) = bs ++ bytesOf es := by
  cases bs <;> simp [segment, Event.bytes]

theorem err_not_mem_segment (bs : Bytes) : Event.err ∉ segment bs := by
  cases bs <;> simp [segment]

/-- What one call returns: bytes (none: 0, end of file), or -1 and `errno`. -/
inductive ReadResult
  | bytes (bs : Bytes)
  | intr
  | err
deriving DecidableEq

/-- One call of size `n` that meets the event, and what is left of it. -/
def readEvent (n : Nat) : Event → ReadResult × List Event
  | .data b seg => (.bytes ((b :: seg).take n), segment ((b :: seg).drop n))
  | .intr => (.intr, [])
  | .err => (.err, [])

/-- `read(fd, buf, n)` or `recv(fd, buf, n, 0)`. -/
def sysRead (n : Nat) : List Event → ReadResult × List Event
  | [] => (.bytes [], [])
  | e :: es => ((readEvent n e).1, (readEvent n e).2 ++ es)

/-- A call returns at most the bytes it asks for. -/
theorem length_le_of_sysRead {n : Nat} {es : List Event} {bs : Bytes}
    (h : (sysRead n es).1 = .bytes bs) : bs.length ≤ n := by
  match es, h with
  | [], h =>
    cases h
    exact Nat.zero_le n
  | .data b seg :: es, h =>
    cases h
    rw [List.length_take]
    exact Nat.min_le_left _ _

/-- Store `bs` at the front of a buffer. -/
def store (buf bs : Bytes) : Except Fault Bytes :=
  if bs.length ≤ buf.length then .ok (bs ++ buf.drop bs.length) else .error .overWrite

theorem store_of_le {buf bs : Bytes} (h : bs.length ≤ buf.length) :
    store buf bs = .ok (bs ++ buf.drop bs.length) := if_pos h

theorem store_of_gt {buf bs : Bytes} (h : buf.length < bs.length) :
    store buf bs = .error .overWrite := if_neg (Nat.not_le_of_lt h)

/-- `buf[i] = b`. -/
def storeByte (buf : Bytes) (i : Nat) (b : UInt8) : Except Fault Bytes :=
  if i < buf.length then .ok (buf.set i b) else .error .overWrite

theorem storeByte_of_lt {buf : Bytes} {i : Nat} (h : i < buf.length) (b : UInt8) :
    storeByte buf i b = .ok (buf.set i b) := if_pos h

theorem storeByte_of_ge {buf : Bytes} {i : Nat} (h : buf.length ≤ i) (b : UInt8) :
    storeByte buf i b = .error .overWrite := if_neg (Nat.not_lt_of_le h)

end CLib
