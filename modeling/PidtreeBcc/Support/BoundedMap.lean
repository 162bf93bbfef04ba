import Mathlib.Data.Finset.Card
import PidtreeBcc.Support.Dict

/-!
# BoundedMap — a dictionary that holds a bounded number of keys

Writing a new key to a full map is refused, and so is erasing an absent key.  The bound is a field, so
a map beyond its capacity cannot be built.
-/

namespace Support

structure BoundedMap (κ ν : Type*) where
  capacity : Nat
  content : Dict κ ν
  size_le : content.size ≤ capacity

namespace BoundedMap

variable {κ ν : Type*}

def empty (capacity : Nat) : BoundedMap κ ν := ⟨capacity, Dict.empty, Nat.zero_le _⟩

def keys (m : BoundedMap κ ν) : List κ := m.content.keys

@[simp] theorem keys_empty (capacity : Nat) : (empty capacity : BoundedMap κ ν).keys = [] := rfl

variable [DecidableEq κ]

def set? (m : BoundedMap κ ν) (k : κ) (v : ν) : Option (BoundedMap κ ν) :=
  if h : (m.content.set k v).size ≤ m.capacity then some ⟨m.capacity, m.content.set k v, h⟩ else none

theorem size_erase_le (d : Dict κ ν) (k : κ) : (d.erase k).size ≤ d.size :=
  List.length_filter_le _ _

def erase? (m : BoundedMap κ ν) (k : κ) : Option (BoundedMap κ ν) :=
  if k ∈ m.keys then
    some ⟨m.capacity, m.content.erase k, (size_erase_le m.content k).trans m.size_le⟩
  else none

theorem set?_eq_some {m m' : BoundedMap κ ν} {k : κ} {v : ν} (h : m.set? k v = some m') :
    m'.capacity = m.capacity ∧ ∀ k', k' ∈ m'.keys ↔ k' = k ∨ k' ∈ m.keys := by
  unfold set? at h
  split at h
  · cases h
    exact ⟨rfl, fun _ => Dict.mem_keys_set⟩
  · cases h

theorem set?_eq_none {m : BoundedMap κ ν} {k : κ} {v : ν} (h : m.set? k v = none) :
    m.capacity < (m.keys ++ [k]).toFinset.card := by
  unfold set? at h
  split at h
  · cases h
  · rename_i hsize
    have hfinset : (m.content.set k v).keys.toFinset = (m.keys ++ [k]).toFinset := by
      ext k'
      simp [keys, Dict.mem_keys_set]
    rw [← hfinset, List.toFinset_card_of_nodup (Dict.keys_nodup _), Dict.length_keys]
    exact Nat.lt_of_not_le hsize

theorem erase?_of_mem {m : BoundedMap κ ν} {k : κ} (h : k ∈ m.keys) :
    ∃ m', m.erase? k = some m' ∧ m'.capacity = m.capacity ∧
      ∀ k', k' ∈ m'.keys ↔ k' ≠ k ∧ k' ∈ m.keys := by
  refine ⟨_, if_pos h, rfl, ?_⟩
  intro k'
  exact Dict.mem_keys_erase

/-- The keys always fit. -/
theorem card_keys_le (m : BoundedMap κ ν) : m.keys.toFinset.card ≤ m.capacity := by
  have hcard : m.keys.toFinset.card = m.content.size := by
    rw [keys, List.toFinset_card_of_nodup m.content.keys_nodup, Dict.length_keys]
  exact hcard ▸ m.size_le

end BoundedMap

end Support
