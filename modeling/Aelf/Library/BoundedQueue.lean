import Mathlib.Data.List.Basic

/-! # Bounded queues

A queue that takes an element at its end as long as there is room, and gives back the one
at its head. -/

namespace Aelf.Library

/-- A queue that cannot hold more than its capacity. -/
structure BoundedQueue (α : Type) (capacity : Nat) where
  elements : List α
  bounded : elements.length ≤ capacity

namespace BoundedQueue

variable {α : Type} {capacity : Nat}

def empty : BoundedQueue α capacity := ⟨[], Nat.zero_le capacity⟩

/-- The head, and the queue without it. -/
def poll : BoundedQueue α capacity → Option α × BoundedQueue α capacity
  | ⟨[], bounded⟩ => (none, ⟨[], bounded⟩)
  | ⟨head :: elements, bounded⟩ => (some head, ⟨elements, Nat.le_of_succ_le bounded⟩)

/-- The queue with one element more, when there is room for it. -/
def add (queue : BoundedQueue α capacity) (element : α) : Option (BoundedQueue α capacity) :=
  if room : queue.elements.length < capacity then
    some ⟨queue.elements ++ [element], by simpa using Nat.succ_le_of_lt room⟩
  else none

/-- The queue with one element more, or unchanged when there is no room. -/
def offer (queue : BoundedQueue α capacity) (element : α) : BoundedQueue α capacity :=
  (queue.add element).getD queue

def peek (queue : BoundedQueue α capacity) : Option α := queue.elements.head?

theorem elements_offer (queue : BoundedQueue α capacity) (element : α) :
    (queue.offer element).elements =
      if queue.elements.length < capacity then queue.elements ++ [element] else queue.elements := by
  simp only [offer, add]
  split <;> rfl

/-- What is in the queue after an offer was there before, or is the element offered. -/
theorem mem_offer {queue : BoundedQueue α capacity} {element other : α}
    (member : other ∈ (queue.offer element).elements) : other ∈ queue.elements ∨ other = element := by
  rw [elements_offer] at member
  split at member
  · simpa using member
  · exact .inl member

theorem nodup_offer {queue : BoundedQueue α capacity} {element : α} (nodup : queue.elements.Nodup)
    (absent : element ∉ queue.elements) : (queue.offer element).elements.Nodup := by
  rw [elements_offer]
  split
  · refine List.nodup_append.mpr ⟨nodup, by simp, ?_⟩
    intro present member other added same
    rw [List.mem_singleton] at added
    exact absent (added ▸ same ▸ member)
  · exact nodup

end BoundedQueue

end Aelf.Library
