import Mathlib.Data.List.DropRight
import Mathlib.Data.List.Infix

/-!
Bounded rings: appending beyond the capacity drops the oldest items.
-/

namespace Deque

open List

variable {α : Type}

theorem length_rtake (items : List α) (count : Nat) : (items.rtake count).length = min count items.length := by
  simp only [rtake, length_drop]
  omega

theorem rtake_append (items newer : List α) (count : Nat) :
    (items.rtake count ++ newer).rtake count = (items ++ newer).rtake count := by
  have fewer : min (count - newer.length) count = count - newer.length := by omega
  simp only [rtake_eq_reverse_take_reverse, reverse_append, reverse_reverse, take_append, length_reverse, take_take,
    fewer]

theorem rtake_push (count : Nat) {log ring : List α} (item : α) (kept : log.rtake count <:+ ring) :
    (log ++ [item]).rtake count <:+ (ring ++ [item]).rtake count := by
  obtain ⟨earlier, rfl⟩ := kept
  rw [← rtake_append]
  generalize log.rtake count = last
  simp only [rtake_eq_reverse_take_reverse, reverse_suffix]
  refine IsPrefix.take ?_ count
  rw [ reverse_prefix]
  exact ⟨earlier, by simp⟩

end Deque

structure Deque (α : Type) where
  capacity : Nat
  items : List α
  bounded : items.length ≤ capacity

namespace Deque

variable {α : Type}

def empty (capacity : Nat) : Deque α :=
  ⟨capacity, [], by simp⟩

/-- `deque(ring, maxlen=capacity)`: the rightmost items are kept. -/
def resize (capacity : Nat) (ring : Deque α) : Deque α :=
  ⟨capacity, ring.items.rtake capacity, by
    rw [length_rtake]
    exact Nat.min_le_left _ _⟩

def push (ring : Deque α) (item : α) : Deque α :=
  ⟨ring.capacity, (ring.items ++ [item]).rtake ring.capacity, by
    rw [length_rtake]
    exact Nat.min_le_left _ _⟩

def clear (ring : Deque α) : Deque α :=
  ⟨ring.capacity, [], by simp⟩

end Deque
