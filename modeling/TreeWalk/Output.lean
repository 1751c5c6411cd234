/-!
# Program output

What a program has written, as bytes.  An output may have a capacity.  It then
keeps bytes up to its capacity, and writing any further byte fails with a text of
its own.  Flushing an output may fail as well.
-/

namespace TreeWalk

/-- The bytes written so far, how many there may be, the error text of writing
more, and whether flushing them fails. -/
structure Output where
  written : ByteArray := .empty
  capacity : Option Nat := none
  fullText : String := "sink full"
  flushFails : Bool := false

namespace Output

/-- Keep as many of the bytes as the capacity admits. -/
def keep (output : Output) (bytes : ByteArray) : Output :=
  match output.capacity with
  | none => { output with written := output.written ++ bytes }
  | some capacity =>
    { output with
      written := output.written ++ bytes.extract 0 (capacity - output.written.size) }

/-- An output without a capacity keeps everything. -/
theorem written_keep_of_unlimited
    (output : Output)
    (bytes : ByteArray)
    (unlimited : output.capacity = none) :
    (output.keep bytes).written = output.written ++ bytes := by
  simp [keep, unlimited]

/-- The capacity of an output never changes. -/
@[simp] theorem capacity_keep
    (output : Output)
    (bytes : ByteArray) :
    (output.keep bytes).capacity = output.capacity := by
  unfold keep
  split <;> simp_all

/-- The error text of an output never changes. -/
@[simp] theorem fullText_keep
    (output : Output)
    (bytes : ByteArray) :
    (output.keep bytes).fullText = output.fullText := by
  unfold keep
  split <;> rfl

/-- Flush the output, or give the text of the error if that fails. -/
def flush (output : Output) : Except String Output :=
  if output.flushFails then .error "flush failed" else .ok output

/-- Whether the capacity admits this many more bytes. -/
def admits (output : Output) (count : Nat) : Bool :=
  match output.capacity with
  | none => true
  | some capacity => output.written.size + count ≤ capacity

/-- The text of bytes that are the beginning of a text in UTF-8.  A character
that has been cut off is replaced. -/
def decode (bytes : ByteArray) : String :=
  match String.fromUTF8? bytes with
  | some text => text
  | none =>
    match [1, 2, 3].findSome? fun cut =>
      String.fromUTF8? (bytes.extract 0 (bytes.size - cut)) with
    | some text => text ++ "\ufffd"
    | none => ""

/-- The text written after the first `start` bytes. -/
def textFrom (output : Output) (start : Nat) : String :=
  decode (output.written.extract start output.written.size)

end Output
end TreeWalk
