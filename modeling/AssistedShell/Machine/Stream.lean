/-! Bytes on their way from a writer to a reader: a finite run of them, and after
it perhaps one run over and over. -/

namespace AssistedShell.Machine

structure Stream where
  bytes : ByteArray := .empty
  cycle : Option ByteArray := none
  deriving Inhabited

namespace Stream

def ofBytes (bytes : ByteArray) : Stream := ⟨bytes, none⟩

/-- Bytes written later. After an endless run there is nothing later. -/
def append (a b : Stream) : Stream :=
  match a.cycle with
  | some _ => a
  | none => ⟨a.bytes ++ b.bytes, b.cycle⟩

/-- A run of bytes written `n` times. -/
def repeated (run : ByteArray) : Nat → ByteArray
  | 0 => .empty
  | n + 1 => repeated run n ++ run

/-- The stream with at least `n` bytes in its finite part, if it has so many. -/
def unrolled (s : Stream) (n : Nat) : Stream :=
  match s.cycle with
  | none => s
  | some run =>
    if run.isEmpty || n ≤ s.bytes.size then s
    else ⟨s.bytes ++ repeated run ((n - s.bytes.size) / run.size + 1), s.cycle⟩

/-- The first `n` bytes, and the others. -/
def take (s : Stream) (n : Nat) : ByteArray × Stream :=
  let s := s.unrolled n
  (s.bytes.extract 0 n, ⟨s.bytes.extract n s.bytes.size, s.cycle⟩)

/-- The position after the first `n` newlines, if there are so many. -/
def lineEnd? (bytes : ByteArray) (n : Nat) : Option Nat :=
  let rec go (i : Nat) (n : Nat) : List UInt8 → Option Nat
    | [] => if n = 0 then some i else none
    | b :: r =>
      if n = 0 then some i
      else go (i + 1) (if b == 10 then n - 1 else n) r
  go 0 n bytes.toList

/-- The first `n` lines, and the rest. -/
def takeLines (s : Stream) (n : Nat) : ByteArray × Stream :=
  match lineEnd? s.bytes n with
  | some i => s.take i
  | none =>
    match s.cycle with
    | none => (s.bytes, {})
    | some run =>
      -- a run holds a newline, or the wait for one has no end
      let s := s.unrolled (s.bytes.size + n * run.size)
      s.take ((lineEnd? s.bytes n).getD s.bytes.size)

/-- Every byte changed in the same way; those sent to nothing are dropped. -/
def filterMap (f : UInt8 → Option UInt8) (s : Stream) : Stream :=
  let on := fun b : ByteArray => (⟨(b.toList.filterMap f).toArray⟩ : ByteArray)
  ⟨on s.bytes, (s.cycle.map on).filter (!·.isEmpty)⟩

end Stream

end AssistedShell.Machine
