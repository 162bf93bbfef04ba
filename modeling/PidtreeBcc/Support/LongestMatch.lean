import Mathlib.Data.List.Basic
import PidtreeBcc.Support.Dict

/-!
# LongestMatch — longest-prefix tries

A trie stores values under finite words and answers a query word with the value stored under the
longest prefix of the query.  Nodes keep, beside the value, the key they were written with, so that
an iteration over the trie gives the keys back in the form in which they came.

`longestMatch` is the lookup over an arbitrary partial map from words to values; `LpmTrie` is the
finite, capacity-bounded structure on top of it.
-/

namespace Support

/-! ## Longest match in a partial map -/

section LongestMatch

variable {α ν : Type*}

/-- The value at the longest prefix of `w` of length at most `n` at which `t` is defined. -/
def longestMatchUpTo (t : List α → Option ν) (w : List α) : Nat → Option ν
  | 0 => t []
  | n + 1 =>
      match t (w.take (n + 1)) with
      | some v => some v
      | none => longestMatchUpTo t w n

/-- The value at the longest prefix of `w` at which `t` is defined. -/
def longestMatch (t : List α → Option ν) (w : List α) : Option ν :=
  longestMatchUpTo t w w.length

theorem longestMatchUpTo_of_some {t : List α → Option ν} {w : List α} {n : Nat} {v : ν}
    (h : t (w.take (n + 1)) = some v) : longestMatchUpTo t w (n + 1) = some v := by
  simp [longestMatchUpTo, h]

theorem longestMatchUpTo_of_none {t : List α → Option ν} {w : List α} {n : Nat}
    (h : t (w.take (n + 1)) = none) : longestMatchUpTo t w (n + 1) = longestMatchUpTo t w n := by
  simp [longestMatchUpTo, h]

theorem longestMatchUpTo_eq_none_iff {t : List α → Option ν} {w : List α} {n : Nat} :
    longestMatchUpTo t w n = none ↔ ∀ m ≤ n, t (w.take m) = none := by
  induction n with
  | zero => simp [longestMatchUpTo]
  | succ n ih =>
      cases h : t (w.take (n + 1)) with
      | some v =>
          rw [longestMatchUpTo_of_some h]
          refine iff_of_false (by simp) ?_
          intro hall
          have hnone := hall (n + 1) (Nat.le_refl _)
          simp [h] at hnone
      | none =>
          rw [longestMatchUpTo_of_none h, ih]
          constructor
          · intro hall m hm
            rcases Nat.le_succ_iff.1 hm with hle | hEq
            · exact hall m hle
            · rw [hEq]
              exact h
          · intro hall m hm
            exact hall m (Nat.le_succ_of_le hm)

/-- By induction on the bound: the match is at the bound itself, or it is the one below. -/
theorem longestMatchUpTo_eq_some_iff {t : List α → Option ν} {w : List α} {n : Nat} {v : ν} :
    longestMatchUpTo t w n = some v ↔
      ∃ m ≤ n, t (w.take m) = some v ∧ ∀ j, m < j → j ≤ n → t (w.take j) = none := by
  induction n with
  | zero =>
      constructor
      · intro h
        refine ⟨0, Nat.le_refl _, by simpa [longestMatchUpTo] using h, ?_⟩
        intro j hj hj'
        exact absurd (Nat.lt_of_lt_of_le hj hj') (Nat.lt_irrefl _)
      · rintro ⟨m, hm, hv, -⟩
        have hm0 : m = 0 := Nat.le_zero.1 hm
        simpa [longestMatchUpTo, hm0] using hv
  | succ n ih =>
      cases h : t (w.take (n + 1)) with
      | some v' =>
          rw [longestMatchUpTo_of_some h]
          constructor
          · intro hv
            refine ⟨n + 1, Nat.le_refl _, h.trans hv, ?_⟩
            intro j hj hj'
            exact absurd (Nat.lt_of_lt_of_le hj hj') (Nat.lt_irrefl _)
          · rintro ⟨m, hm, hv, hnone⟩
            rcases Nat.lt_or_eq_of_le hm with hlt | hEq
            · -- A match below the bound leaves none at the bound.
              have hbound := hnone (n + 1) hlt (Nat.le_refl _)
              simp [h] at hbound
            · rw [hEq, h] at hv
              exact hv
      | none =>
          rw [longestMatchUpTo_of_none h, ih]
          constructor
          · rintro ⟨m, hm, hv, hnone⟩
            refine ⟨m, Nat.le_succ_of_le hm, hv, ?_⟩
            intro j hj hj'
            rcases Nat.le_succ_iff.1 hj' with hle | hEq
            · exact hnone j hj hle
            · rw [hEq]
              exact h
          · rintro ⟨m, hm, hv, hnone⟩
            rcases Nat.le_succ_iff.1 hm with hle | hEq
            · exact ⟨m, hle, hv, fun j hj hj' => hnone j hj (Nat.le_succ_of_le hj')⟩
            · rw [hEq, h] at hv
              cases hv

theorem longestMatch_eq_none_iff {t : List α → Option ν} {w : List α} :
    longestMatch t w = none ↔ ∀ p, p <+: w → t p = none := by
  unfold longestMatch
  rw [longestMatchUpTo_eq_none_iff]
  constructor
  · intro h p hp
    have hEq : p = w.take p.length := List.prefix_iff_eq_take.1 hp
    rw [hEq]
    exact h p.length hp.length_le
  · intro h m _
    exact h _ (List.take_prefix m w)

/-- The longest match is the value of a prefix of the query that no longer stored prefix beats. -/
theorem longestMatch_eq_some_iff {t : List α → Option ν} {w : List α} {v : ν} :
    longestMatch t w = some v ↔
      ∃ p, p <+: w ∧ t p = some v ∧ ∀ q, q <+: w → p.length < q.length → t q = none := by
  unfold longestMatch
  rw [longestMatchUpTo_eq_some_iff]
  constructor
  · rintro ⟨m, hm, hv, hnone⟩
    refine ⟨w.take m, List.take_prefix m w, hv, ?_⟩
    intro q hq hlt
    have hEq : q = w.take q.length := List.prefix_iff_eq_take.1 hq
    have hm' : m < q.length := by
      simpa [Nat.min_eq_left hm] using hlt
    rw [hEq]
    exact hnone q.length hm' hq.length_le
  · rintro ⟨p, hp, hv, hnone⟩
    have hEq : p = w.take p.length := List.prefix_iff_eq_take.1 hp
    refine ⟨p.length, hp.length_le, by rw [← hEq]; exact hv, ?_⟩
    intro j hj hj'
    refine hnone _ (List.take_prefix j w) ?_
    simpa [Nat.min_eq_left hj'] using hj

/-- Only the prefixes of the query matter. -/
theorem longestMatch_congr {t t' : List α → Option ν} {w : List α}
    (h : ∀ p, p <+: w → t p = t' p) : longestMatch t w = longestMatch t' w := by
  cases hmatch : longestMatch t w with
  | none =>
      symm
      rw [longestMatch_eq_none_iff] at hmatch ⊢
      intro p hp
      rw [← h p hp]
      exact hmatch p hp
  | some v =>
      symm
      rw [longestMatch_eq_some_iff] at hmatch ⊢
      rcases hmatch with ⟨p, hp, hv, hlonger⟩
      refine ⟨p, hp, (h p hp).symm.trans hv, ?_⟩
      intro q hq hlt
      rw [← h q hq]
      exact hlonger q hq hlt

/-- Of a map laid over another one, the longest match is that of one of the two. -/
theorem longestMatch_or (t t' : List α → Option ν) (w : List α) :
    longestMatch (fun p => (t' p).or (t p)) w = longestMatch t w ∨
      longestMatch (fun p => (t' p).or (t p)) w = longestMatch t' w := by
  cases hmatch : longestMatch (fun p => (t' p).or (t p)) w with
  | none =>
      left
      symm
      rw [longestMatch_eq_none_iff] at hmatch ⊢
      intro p hp
      exact (Option.or_eq_none_iff.1 (hmatch p hp)).2
  | some v =>
      rcases longestMatch_eq_some_iff.1 hmatch with ⟨p, hp, hv, hlonger⟩
      cases hover : t' p with
      | some v' =>
          right
          symm
          refine longestMatch_eq_some_iff.2 ⟨p, hp, by simpa [hover] using hv, ?_⟩
          intro q hq hlt
          exact (Option.or_eq_none_iff.1 (hlonger q hq hlt)).1
      | none =>
          left
          symm
          refine longestMatch_eq_some_iff.2 ⟨p, hp, by simpa [hover] using hv, ?_⟩
          intro q hq hlt
          exact (Option.or_eq_none_iff.1 (hlonger q hq hlt)).2

end LongestMatch

/-! ## The last of the longest -/

/-- Of the elements of a list with a property there is at most one that is longest, and last among
the longest ones. -/
theorem lastLongest_unique {α : Type*} {l : List α} (P : α → Prop) (len : α → Nat) {i j : Nat}
    {x y : α}
    (hx : l[i]? = some x ∧ P x ∧
      ∀ k z, l[k]? = some z → P z → len z < len x ∨ (len z = len x ∧ k ≤ i))
    (hy : l[j]? = some y ∧ P y ∧
      ∀ k z, l[k]? = some z → P z → len z < len y ∨ (len z = len y ∧ k ≤ j)) :
    i = j ∧ x = y := by
  have hij : i = j := by
    have h₁ := hx.2.2 j y hy.1 hy.2.1
    have h₂ := hy.2.2 i x hx.1 hx.2.1
    omega
  refine ⟨hij, ?_⟩
  have hget := hx.1
  rw [hij, hy.1] at hget
  exact (Option.some.inj hget).symm

/-! ## Tries -/

/-- A trie over words of `α`; a node holds the key it was written with and its value.  `capacity`
is the largest number of nodes, `none` standing for "never full". -/
structure LpmTrie (α κ ν : Type*) where
  capacity : Option Nat
  nodes : Dict (List α) (κ × ν)
  deriving DecidableEq, Repr

namespace LpmTrie

variable {α κ ν : Type*}

def empty (capacity : Option Nat) : LpmTrie α κ ν := ⟨capacity, Dict.empty⟩

/-- The keys in the form in which they were written. -/
def storedKeys (t : LpmTrie α κ ν) : List κ := t.nodes.values.map Prod.fst

/-- No further node fits. -/
def Full (t : LpmTrie α κ ν) : Prop :=
  match t.capacity with
  | none => False
  | some c => c ≤ t.nodes.size

instance (t : LpmTrie α κ ν) : Decidable t.Full :=
  match h : t.capacity with
  | none => isFalse (by simp [Full, h])
  | some c => decidable_of_iff (c ≤ t.nodes.size) (by simp [Full, h])

variable [DecidableEq α]

/-- The value stored at the word `p` itself. -/
def valueAt (t : LpmTrie α κ ν) (p : List α) : Option ν := (t.nodes.get? p).map Prod.snd

def lookup (t : LpmTrie α κ ν) (w : List α) : Option ν := longestMatch t.valueAt w

/-- Write a node; a new node is refused when the trie is full. -/
def insert? (t : LpmTrie α κ ν) (p : List α) (k : κ) (v : ν) : Option (LpmTrie α κ ν) :=
  if p ∉ t.nodes.keys ∧ t.Full then none
  else some { t with nodes := t.nodes.set p (k, v) }

/-- Delete the node at `p`; there has to be one. -/
def delete? (t : LpmTrie α κ ν) (p : List α) : Option (LpmTrie α κ ν) :=
  if p ∈ t.nodes.keys then some { t with nodes := t.nodes.erase p } else none

theorem insert?_eq_some {t t' : LpmTrie α κ ν} {p : List α} {k : κ} {v : ν}
    (h : t.insert? p k v = some t') : t' = { t with nodes := t.nodes.set p (k, v) } := by
  unfold insert? at h
  split at h
  · cases h
  · exact (Option.some.inj h).symm

theorem insert?_of_not_full {t : LpmTrie α κ ν} (h : ¬ t.Full) (p : List α) (k : κ) (v : ν) :
    t.insert? p k v = some { t with nodes := t.nodes.set p (k, v) } := by
  simp [insert?, h]

theorem delete?_of_mem {t : LpmTrie α κ ν} {p : List α} (h : p ∈ t.nodes.keys) :
    t.delete? p = some { t with nodes := t.nodes.erase p } := by
  simp [delete?, h]

end LpmTrie

end Support
