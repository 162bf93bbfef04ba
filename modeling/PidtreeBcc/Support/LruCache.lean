import PidtreeBcc.Support.Dict

/-!
# LruCache — a cache that forgets the least recently used key

The entries stand in the order of their last use, the least recent first.  `store` serves a hit as well
as a miss: the key moves to the end, and the first entries go if there are too many.  The bound is a
field, so a cache beyond its size cannot be built.
-/

namespace Support

namespace Dict

variable {κ ν : Type*}

/-- The last `n` entries. -/
def trim (n : Nat) (d : Dict κ ν) : Dict κ ν :=
  ⟨d.entries.drop (d.size - n), d.nodup.sublist ((List.drop_sublist _ _).map _)⟩

theorem size_trim_le (n : Nat) (d : Dict κ ν) : (d.trim n).size ≤ n := by
  have hlength : (d.trim n).size = d.size - (d.size - n) := List.length_drop
  omega

variable [DecidableEq κ]

theorem get?_of_trim {n : Nat} {d : Dict κ ν} {k : κ} {v : ν} (h : (d.trim n).get? k = some v) :
    d.get? k = some v := by
  rw [← mem_entries_iff] at h ⊢
  exact List.mem_of_mem_drop h

theorem size_set_le (d : Dict κ ν) (k : κ) (v : ν) : (d.set k v).size ≤ d.size + 1 := by
  rw [← length_keys, ← length_keys]
  by_cases hk : k ∈ d.keys
  · rw [keys_set_of_mem hk]
    exact Nat.le_succ _
  · rw [keys_set_of_not_mem hk, List.length_append]
    exact Nat.le_refl _

end Dict

/-- A cache for at most `maxsize` keys. -/
structure LruCache (maxsize : Nat) (κ ν : Type*) where
  content : Dict κ ν
  size_le : content.size ≤ maxsize

namespace LruCache

variable {maxsize : Nat} {κ ν : Type*}

def empty : LruCache maxsize κ ν := ⟨Dict.empty, Nat.zero_le _⟩

variable [DecidableEq κ]

def get? (c : LruCache maxsize κ ν) (k : κ) : Option ν := c.content.get? k

/-- Use `k`, whose value is `v`. -/
def store (c : LruCache maxsize κ ν) (k : κ) (v : ν) : LruCache maxsize κ ν :=
  if h : 0 < maxsize then
    ⟨((c.content.erase k).trim (maxsize - 1)).set k v, by
      have hset := Dict.size_set_le ((c.content.erase k).trim (maxsize - 1)) k v
      have htrim := Dict.size_trim_le (maxsize - 1) (c.content.erase k)
      omega⟩
  else c

@[simp] theorem get?_empty (k : κ) : (empty : LruCache maxsize κ ν).get? k = none := rfl

theorem get?_store_self (h : 0 < maxsize) (c : LruCache maxsize κ ν) (k : κ) (v : ν) :
    (c.store k v).get? k = some v := by
  rw [store, dif_pos h]
  exact Dict.get?_set_self _ _ _

/-- What a cache holds after a use is the value used, or it was there before. -/
theorem get?_of_store {c : LruCache maxsize κ ν} {k k' : κ} {v v' : ν}
    (h : (c.store k v).get? k' = some v') : (k = k' ∧ v = v') ∨ c.get? k' = some v' := by
  unfold store at h
  split at h
  · have hset : (((c.content.erase k).trim (maxsize - 1)).set k v).get? k' = some v' := h
    by_cases hk : k = k'
    · left
      subst hk
      exact ⟨rfl, Option.some.inj ((Dict.get?_set_self _ _ _).symm.trans hset)⟩
    · right
      rw [Dict.get?_set_of_ne _ hk] at hset
      have herase := Dict.get?_of_trim hset
      rwa [Dict.get?_erase_of_ne _ hk] at herase
  · exact Or.inr h

end LruCache

end Support
