import Mathlib.Algebra.BigOperators.Group.List.Lemmas
import Mathlib.Algebra.GroupWithZero.Nat
import Mathlib.Data.List.Induction
import PidtreeBcc.Support.Dict

/-!
# Tally — counting keyed events

A tally keeps for every key the mark of its first occurrence and the number of its occurrences, with
the keys in the order in which they were first seen.
-/

namespace Support

namespace Tally

variable {κ τ : Type*} [DecidableEq κ]

/-- Count one occurrence of `k`, marked `t`. -/
def add (d : Dict κ (τ × Nat)) (k : κ) (t : τ) : Dict κ (τ × Nat) :=
  match d.get? k with
  | none => d.set k (t, 1)
  | some (t₀, n) => d.set k (t₀, n + 1)

/-- The tally of a list of occurrences. -/
def ofList (evs : List (κ × τ)) : Dict κ (τ × Nat) :=
  evs.foldl (fun d ev => add d ev.1 ev.2) Dict.empty

theorem ofList_concat (evs : List (κ × τ)) (k : κ) (t : τ) :
    ofList (evs ++ [(k, t)]) = add (ofList evs) k t := by
  simp [ofList]

theorem get?_add_self (d : Dict κ (τ × Nat)) (k : κ) (t : τ) :
    (add d k t).get? k =
      some (((d.get? k).map Prod.fst).getD t, ((d.get? k).map Prod.snd).getD 0 + 1) := by
  unfold add
  cases h : d.get? k with
  | none => simp
  | some p => simp

theorem get?_add_of_ne (d : Dict κ (τ × Nat)) {k k' : κ} (h : k ≠ k') (t : τ) :
    (add d k t).get? k' = d.get? k' := by
  unfold add
  cases hk : d.get? k with
  | none => simp [Dict.get?_set_of_ne _ h]
  | some p => simp [Dict.get?_set_of_ne _ h]

theorem keys_add (d : Dict κ (τ × Nat)) (k : κ) (t : τ) :
    (add d k t).keys = if k ∈ d.keys then d.keys else d.keys ++ [k] := by
  unfold add
  cases h : d.get? k with
  | none =>
      have hk : k ∉ d.keys := Dict.get?_eq_none_iff.1 h
      simp [hk, Dict.keys_set_of_not_mem hk]
  | some p =>
      have hk : k ∈ d.keys := Dict.mem_keys_iff.2 ⟨p, h⟩
      simp [hk, Dict.keys_set_of_mem hk]

theorem eraseDups_concat (l : List κ) (k : κ) :
    (l ++ [k]).eraseDups = if k ∈ l then l.eraseDups else l.eraseDups ++ [k] := by
  rw [List.eraseDups_append]
  by_cases hk : k ∈ l
  · simp [List.removeAll, hk]
  · simp [List.removeAll, hk, List.eraseDups_cons]

/-- The keys of a tally are the distinct keys of the list in first-seen order. -/
theorem keys_ofList (evs : List (κ × τ)) : (ofList evs).keys = (evs.map Prod.fst).eraseDups := by
  induction evs using List.reverseRecOn with
  | nil => simp [ofList]
  | append_singleton evs ev ih =>
      rcases ev with ⟨k, t⟩
      rw [ofList_concat, keys_add, ih, List.map_append, List.map_singleton, eraseDups_concat]
      simp only [List.mem_eraseDups]

/-- A tally holds the mark of the first occurrence and the number of occurrences. -/
theorem get?_ofList (evs : List (κ × τ)) (k : κ) :
    (ofList evs).get? k =
      (evs.find? (fun ev => ev.1 = k)).map (fun ev => (ev.2, (evs.map Prod.fst).count k)) := by
  induction evs using List.reverseRecOn with
  | nil => simp [ofList]
  | append_singleton evs ev ih =>
      rcases ev with ⟨k', t⟩
      rw [ofList_concat, List.find?_append]
      by_cases hk : k' = k
      · subst hk
        rw [get?_add_self, ih]
        cases hfind : evs.find? (fun ev => ev.1 = k') with
        | none =>
            have hnot : (evs.map Prod.fst).count k' = 0 := by
              rw [List.count_eq_zero]
              intro hmem
              rcases List.mem_map.1 hmem with ⟨ev, hev, hEq⟩
              simpa [hEq] using List.find?_eq_none.1 hfind ev hev
            have hcount : List.count k' (evs.map Prod.fst) = 0 := hnot
            simp [hcount]
        | some ev => simp
      · rw [get?_add_of_ne _ hk, ih]
        simp [hk]

/-- The entries of a tally, written out. -/
theorem entries_ofList [Inhabited τ] (evs : List (κ × τ)) :
    (ofList evs).entries = (evs.map Prod.fst).eraseDups.map (fun k =>
      (k, ((evs.find? (fun ev => ev.1 = k)).map Prod.snd).getD default,
        (evs.map Prod.fst).count k)) := by
  rw [← keys_ofList]
  refine Dict.entries_eq_map ?_
  intro k hk
  rcases Dict.mem_keys_iff.1 hk with ⟨p, hp⟩
  rw [get?_ofList] at hp ⊢
  cases hfind : evs.find? (fun ev => ev.1 = k) with
  | none => simp [hfind] at hp
  | some ev => rfl

/-- The counts of the distinct elements of a list add up to its length. -/
theorem sum_count_eraseDups (l : List κ) : (l.eraseDups.map fun k => l.count k).sum = l.length := by
  have hnodup : l.eraseDups.Nodup := by
    have hkeys := keys_ofList (l.map fun k => (k, ()))
    rw [List.map_map, Function.comp_def, List.map_id'] at hkeys
    rw [← hkeys]
    exact Dict.keys_nodup _
  have hperm : l.eraseDups.Perm l.dedup := by
    rw [List.perm_ext_iff_of_nodup hnodup (List.nodup_dedup l)]
    intro k
    rw [List.mem_eraseDups, List.mem_dedup]
  calc
    (l.eraseDups.map fun k => l.count k).sum = (l.dedup.map fun k => l.count k).sum :=
      (hperm.map _).sum_eq
    _ = l.length := List.sum_map_count_dedup_eq_length l

end Tally

end Support
