import TreeWalk.Machine

/-!
# Room in an output

An output with a capacity has room for so many more bytes, and one without has
room for any number of them.  What is written piece by piece is kept as if it had
been written at once, so only the room matters that there was at the start.
-/

namespace TreeWalk

namespace Output

/-- An extract that reaches to the end or beyond is everything. -/
theorem extract_of_size_le
    {bytes : ByteArray}
    {count : Nat}
    (short : bytes.size ≤ count) :
    bytes.extract 0 count = bytes := by
  apply ByteArray.ext
  rw [ByteArray.data_extract]
  exact Array.extract_eq_self_of_le short

/-- For how many more bytes there is room, if there is a limit. -/
def room? (output : Output) : Option Nat :=
  output.capacity.map (· - output.written.size)

/-- There is room for so many more bytes. -/
def HasRoom (output : Output) (count : Nat) : Prop :=
  ∀ room, output.room? = some room -> count ≤ room

/-- The bytes that are kept when some are written. -/
def fitting (output : Output) (bytes : ByteArray) : ByteArray :=
  match output.room? with
  | none => bytes
  | some room => bytes.extract 0 room

section Keeping

variable (output : Output) (one other bytes : ByteArray)

/-- Keeping bytes appends those that fit. -/
theorem keep_eq :
    output.keep bytes = { output with written := output.written ++ output.fitting bytes } := by
  unfold keep fitting room?
  cases output.capacity <;> rfl

/-- What has been written behind keeping bytes. -/
theorem written_keep_eq : (output.keep bytes).written = output.written ++ output.fitting bytes := by
  rw [keep_eq]

/-- Whether flushing fails has nothing to do with what is kept. -/
theorem keep_withFlush (flushFails : Bool) :
    Output.keep { output with flushFails := flushFails } bytes =
      { output.keep bytes with flushFails := flushFails } := by
  unfold keep
  cases output.capacity <;> rfl

/-- A limited output keeps the first of the bytes, as many as there is room for. -/
theorem written_keep_of_limited {room : Nat} (limited : output.room? = some room) :
    (output.keep bytes).written = output.written ++ bytes.extract 0 (min room bytes.size) := by
  rw [written_keep_eq, fitting, limited]
  dsimp only
  by_cases short : bytes.size ≤ room
  · rw [extract_of_size_le short, Nat.min_eq_right short, extract_of_size_le (Nat.le_refl _)]
  · rw [Nat.min_eq_left (Nat.le_of_not_le short)]

/-- Keeping bytes takes up the room that they need. -/
theorem room?_keep : (output.keep bytes).room? = output.room?.map (· - bytes.size) := by
  rw [keep_eq]
  unfold room? fitting room?
  cases output.capacity with
  | none => rfl
  | some capacity =>
    simp only [Option.map_some, ByteArray.size_append, ByteArray.size_extract, Option.some.injEq]
    omega

/-- What fits of two runs of bytes is what fits of each in turn. -/
theorem fitting_append :
    output.fitting (one ++ other) = output.fitting one ++ (output.keep one).fitting other := by
  unfold fitting
  rw [room?_keep]
  cases output.room? with
  | none => rfl
  | some room => simp [ByteArray.extract_append]

/-- Bytes that are written one after the other are kept like all of them
together. -/
theorem keep_keep : (output.keep one).keep other = output.keep (one ++ other) := by
  rw [keep_eq (output.keep one), keep_eq output (one ++ other), fitting_append, keep_eq output one,
    ByteArray.append_assoc]

@[simp] theorem keep_empty : output.keep .empty = output := by
  have nothing : output.fitting .empty = .empty := by
    unfold fitting
    cases output.room? with
    | none => rfl
    | some room => exact ByteArray.extract_eq_empty_iff.mpr (Nat.min_le_right _ _)
  rw [keep_eq, nothing, ByteArray.append_empty]

end Keeping

section Room

variable {output : Output} {one other : ByteArray} {count room : Nat}

/-- An unlimited sink has room for anything. -/
theorem hasRoom_of_unlimited (unlimited : output.capacity = none) (count : Nat) :
    output.HasRoom count := by
  intro room limited
  simp [room?, unlimited] at limited

/-- A limited sink has room for as many bytes as are left. -/
theorem hasRoom_iff (limited : output.room? = some room) : output.HasRoom count ↔ count ≤ room := by
  simp [HasRoom, limited]

/-- An output without room for so many bytes has a limit, with room for fewer. -/
theorem exists_room_of_not_hasRoom (scant : ¬ output.HasRoom count) :
    ∃ room, output.room? = some room ∧ room < count := by
  simpa [HasRoom] using scant

/-- There is room for the whole if there is for the first part and then still for
the second. -/
theorem hasRoom_append :
    output.HasRoom (one ++ other).size ↔
      output.HasRoom one.size ∧ (output.keep one).HasRoom other.size := by
  unfold HasRoom
  rw [room?_keep]
  cases output.room? with
  | none => simp
  | some room =>
    simp only [Option.some.injEq, forall_eq', Option.map_some, ByteArray.size_append]
    omega

/-- Everything is kept that there is room for. -/
theorem written_keep_of_hasRoom (ample : output.HasRoom one.size) :
    (output.keep one).written = output.written ++ one := by
  rw [written_keep_eq, fitting]
  split
  · rfl
  · rename_i room limited
    rw [extract_of_size_le (ample room limited)]

/-- Nothing more is kept once there is no room. -/
theorem keep_append_of_not_hasRoom (scant : ¬ output.HasRoom one.size) :
    output.keep (one ++ other) = output.keep one := by
  obtain ⟨room, limited, exceeded⟩ := exists_room_of_not_hasRoom scant
  have full : (output.keep one).room? = some 0 := by
    simp only [room?_keep, limited, Option.map_some, Option.some.injEq]
    omega
  rw [← keep_keep, keep_eq (output.keep one), fitting, full]
  simp only [ByteArray.extract_same, ByteArray.append_empty]

/-- A line, which is never empty, is admitted if there is room for it. -/
theorem admits_iff_hasRoom (positive : 0 < count) :
    output.admits count = true ↔ output.HasRoom count := by
  unfold admits HasRoom room?
  cases output.capacity with
  | none => simp
  | some capacity =>
    simp only [Option.map_some, Option.some.injEq, forall_eq', decide_eq_true_eq]
    omega

end Room
end Output

/-- A machine that writes to another output. -/
def Machine.writingTo (output : Output) (machine : Machine) : Machine :=
  { machine with output := output }

namespace Machine

@[simp] theorem output_writingTo (machine : Machine) (output : Output) :
    (machine.writingTo output).output = output :=
  rfl

@[simp] theorem heap_writingTo (machine : Machine) (output : Output) :
    (machine.writingTo output).heap = machine.heap :=
  rfl

@[simp] theorem writingTo_self (machine : Machine) : machine.writingTo machine.output = machine :=
  rfl

end Machine
end TreeWalk
