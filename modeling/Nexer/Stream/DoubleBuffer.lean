import Mathlib.Data.List.Basic

/-!
# Double buffering

Items that are received are queued in one buffer while the other is being written.
When nothing is being written, the buffers change their roles.  The ledger of a
double buffer records what went in, what came out, and what is in between.
-/

namespace Nexer.Stream

/-- The ledger of a double buffer: all items received and completed so far, and
the contents of the buffer being written and of the buffer being filled. -/
structure DoubleBuffer (β : Type) where
  received : List β
  completed : List β
  flying : List β
  queued : List β

namespace DoubleBuffer

variable {β : Type} {buffer : DoubleBuffer β}

def receive (items : List β) (buffer : DoubleBuffer β) : DoubleBuffer β :=
  { buffer with received := buffer.received ++ items, queued := buffer.queued ++ items }

/-- The filled buffer is written; the other one, which is empty, is filled next. -/
def flush (buffer : DoubleBuffer β) : DoubleBuffer β :=
  { buffer with flying := buffer.queued, queued := [] }

def complete (buffer : DoubleBuffer β) : DoubleBuffer β :=
  { buffer with completed := buffer.completed ++ buffer.flying, flying := [] }

/-- Nothing is lost, repeated or reordered. -/
def Balanced (buffer : DoubleBuffer β) : Prop :=
  buffer.received = buffer.completed ++ buffer.flying ++ buffer.queued

theorem Balanced.receive (balanced : buffer.Balanced) (items : List β) :
    (buffer.receive items).Balanced := by
  simp only [Balanced, DoubleBuffer.receive] at balanced ⊢
  simp [balanced]

theorem Balanced.flush (balanced : buffer.Balanced) (idle : buffer.flying = []) :
    buffer.flush.Balanced := by
  simpa [Balanced, DoubleBuffer.flush, idle] using balanced

theorem Balanced.complete (balanced : buffer.Balanced) : buffer.complete.Balanced := by
  simpa [Balanced, DoubleBuffer.complete] using balanced

/-- Everything received has come out exactly when both buffers are empty. -/
theorem Balanced.delivered_iff (balanced : buffer.Balanced) :
    buffer.received = buffer.completed ↔ buffer.flying = [] ∧ buffer.queued = [] := by
  rw [Balanced, List.append_assoc] at balanced
  rw [balanced, List.append_right_eq_self, List.append_eq_nil_iff]

end DoubleBuffer

end Nexer.Stream
