import Mathlib.Data.List.Basic

/-!
# Handle — buffered writes to a file

A handle collects what is written to it in a buffer, and lets it out behind what it has let out before.  Nobody
else need have left the file as it was: after the file was emptied the handle writes beyond its end, and what
lies between is filled up.

- `writeAt` is the effect of one write on the file; a write of nothing has none;
- `AtEnd` says that the handle stands at the end of the file, where writing is appending.
-/

namespace Support

/-- Where the next write goes, and what waits for it. -/
structure Handle (α : Type*) where
  offset : Nat
  buffer : List α
  deriving DecidableEq, Repr

namespace Handle

variable {α : Type*}

/-- A handle on a file that was just opened. -/
def opened : Handle α := ⟨0, []⟩

/-- The file after a write at the offset. -/
def writeAt (fill : α) (offset : Nat) : List α → List α → List α
  | [], file => file
  | c :: text, file =>
      (file ++ List.replicate (offset - file.length) fill).take offset ++ c :: text ++
        file.drop (offset + (c :: text).length)

/-- More text for the buffer. -/
def put (text : List α) (h : Handle α) : Handle α := { h with buffer := h.buffer ++ text }

/-- The first elements of the buffer have gone out. -/
def drain (n : Nat) (h : Handle α) : Handle α := ⟨h.offset + (h.buffer.take n).length, h.buffer.drop n⟩

/-- The file when the first elements of the buffer go out. -/
def drainTo (fill : α) (n : Nat) (h : Handle α) (file : List α) : List α :=
  writeAt fill h.offset (h.buffer.take n) file

/-- An exception in the middle of a write: some of what waits may be dropped. -/
def cut (kept : Nat) (h : Handle α) : Handle α := { h with buffer := h.buffer.take kept }

/-- The handle writes at the end of the file. -/
def AtEnd (h : Handle α) (file : List α) : Prop := h.offset = file.length

theorem atEnd_opened : (opened : Handle α).AtEnd [] := rfl

theorem writeAt_length (fill : α) (text file : List α) : writeAt fill file.length text file = file ++ text := by
  cases text with
  | nil => simp [writeAt]
  | cons c text => simp [writeAt]

variable {h : Handle α} {file : List α}

/-- At the end of the file the handle appends. -/
theorem AtEnd.drainTo_eq (hend : h.AtEnd file) (fill : α) (n : Nat) :
    h.drainTo fill n file = file ++ h.buffer.take n := by
  rw [drainTo, hend]
  exact writeAt_length fill _ file

theorem AtEnd.drain (hend : h.AtEnd file) (fill : α) (n : Nat) :
    (h.drain n).AtEnd (h.drainTo fill n file) := by
  rw [hend.drainTo_eq, AtEnd, List.length_append, ← hend]
  rfl

/-- Nothing goes out of an empty buffer, wherever the handle stands. -/
theorem drainTo_of_buffer_nil (hnil : h.buffer = []) (fill : α) (n : Nat) : h.drainTo fill n file = file := by
  simp [Handle.drainTo, hnil, writeAt]

theorem drain_of_buffer_nil (hnil : h.buffer = []) (n : Nat) : h.drain n = h := by
  cases h
  simp_all [Handle.drain]

theorem cut_of_buffer_nil (hnil : h.buffer = []) (kept : Nat) : h.cut kept = h := by
  cases h
  simp_all [Handle.cut]

end Handle

end Support
