import PidtreeBcc.Filtering.NetMap
import PidtreeBcc.Support.BoundedMap

/-!
# IntsetMap — loading a set of integers into a hash map

The mount namespace filter is a hash map whose keys are the namespace ids and whose values carry no
information.  Adding to a full map and deleting an absent key raise.
-/

namespace PidtreeBcc

open Support

/-- Inode number of a mount namespace, an unsigned 32-bit number; `c_int` keeps its bits. -/
abbrev NsId := BitVec 32

abbrev IntsetMap := BoundedMap NsId (BitVec 8)

namespace IntsetMap

/-- `ebpf_map[val] = 1` for each value. -/
def addAll : List NsId → IntsetMap → LoadRun IntsetMap
  | [], m => ⟨[], m, none⟩
  | val :: rest, m =>
      match m.set? val 1 with
      | none => ⟨[], m, some (.builtin .Exception)⟩
      | some m' =>
          let r := addAll rest m'
          ⟨m' :: r.states, r.final, r.error⟩

/-- `del ebpf_map[val]` for each value. -/
def deleteAll : List NsId → IntsetMap → LoadRun IntsetMap
  | [], m => ⟨[], m, none⟩
  | val :: rest, m =>
      match m.erase? val with
      | none => ⟨[], m, some (.builtin .KeyError)⟩
      | some m' =>
          let r := deleteAll rest m'
          ⟨m' :: r.states, r.final, r.error⟩

end IntsetMap

/-- `load_intset_into_map`; `intset` lists the elements of the set and `order` is the iteration order
of sets. -/
def loadIntsetIntoMap (order : IterOrder NsId) (intset : List NsId) (m : IntsetMap)
    (doDiff delete : Bool) : LoadRun IntsetMap :=
  if delete then IntsetMap.deleteAll (order.run intset) m
  else
    let currentState := if doDiff then m.keys else []
    -- What was in the map at the beginning and is not wanted goes after the new elements are in.
    let toDelete := currentState.filter (· ∉ intset)
    let added := IntsetMap.addAll (order.run intset) m
    match added.error with
    | some _ => added
    | none =>
        let r := IntsetMap.deleteAll (order.run toDelete) added.final
        ⟨added.states ++ r.states, r.final, r.error⟩

namespace IntsetMap

/-! ## The two loops -/

/-- All values are added if they fit, and an exception is raised if they do not. -/
theorem addAll_spec (vals : List NsId) :
    ∀ m : IntsetMap,
      ((addAll vals m).error = none ↔ (m.keys ++ vals).toFinset.card ≤ m.capacity) ∧
        ((addAll vals m).error = none → (addAll vals m).final.capacity = m.capacity ∧
          ∀ ns, ns ∈ (addAll vals m).final.keys ↔ ns ∈ m.keys ∨ ns ∈ vals) := by
  induction vals with
  | nil =>
      intro m
      simpa [addAll] using m.card_keys_le
  | cons val rest ih =>
      intro m
      cases h : m.set? val 1 with
      | none =>
          have hfull := BoundedMap.set?_eq_none h
          have hsub : (m.keys ++ [val]).toFinset ⊆ (m.keys ++ val :: rest).toFinset := by
            intro ns hns
            simp only [List.mem_toFinset, List.mem_append, List.mem_cons, List.not_mem_nil,
              or_false] at hns ⊢
            rcases hns with hns | hns
            · exact Or.inl hns
            · exact Or.inr (Or.inl hns)
          have hlt := Nat.lt_of_lt_of_le hfull (Finset.card_le_card hsub)
          simp only [addAll, h]
          exact ⟨iff_of_false (by simp) (Nat.not_le_of_lt hlt), fun hnone => by cases hnone⟩
      | some m' =>
          rcases BoundedMap.set?_eq_some h with ⟨hcap, hkeys⟩
          rcases ih m' with ⟨herror, hfinal⟩
          have hfinset : (m'.keys ++ rest).toFinset = (m.keys ++ val :: rest).toFinset := by
            ext ns
            simp only [List.mem_toFinset, List.mem_append, List.mem_cons, hkeys]
            rw [or_assoc, or_left_comm]
          rw [hfinset, hcap] at herror
          simp only [addAll, h]
          refine ⟨herror, ?_⟩
          intro hnone
          rcases hfinal hnone with ⟨hcap', hmem⟩
          refine ⟨hcap'.trans hcap, ?_⟩
          intro ns
          rw [hmem, hkeys, List.mem_cons, or_assoc, or_left_comm]

/-- Keys that are there are deleted without an exception. -/
theorem deleteAll_of_mem (vals : List NsId) :
    ∀ {m : IntsetMap}, vals.Nodup → (∀ val ∈ vals, val ∈ m.keys) →
      (deleteAll vals m).error = none ∧ (deleteAll vals m).final.capacity = m.capacity ∧
        ∀ ns, ns ∈ (deleteAll vals m).final.keys ↔ ns ∈ m.keys ∧ ns ∉ vals := by
  induction vals with
  | nil =>
      intro m _ _
      simp [deleteAll]
  | cons val rest ih =>
      intro m hnodup hmem
      have hcons := List.nodup_cons.1 hnodup
      rcases BoundedMap.erase?_of_mem (hmem val (by simp)) with ⟨m', hm', hcap, hkeys⟩
      have hmem' : ∀ v ∈ rest, v ∈ m'.keys := by
        intro v hv
        refine (hkeys v).2 ⟨?_, hmem v (by simp [hv])⟩
        rintro rfl
        exact hcons.1 hv
      rcases ih hcons.2 hmem' with ⟨herror, hcap', hfinal⟩
      simp only [deleteAll, hm']
      refine ⟨herror, hcap'.trans hcap, ?_⟩
      intro ns
      rw [hfinal, hkeys, List.mem_cons, not_or]
      constructor
      · rintro ⟨⟨hne, hns⟩, hrest⟩
        exact ⟨hns, hne, hrest⟩
      · rintro ⟨hns, hne, hrest⟩
        exact ⟨⟨hne, hns⟩, hrest⟩

/-! ## The loader -/

variable (order : IterOrder NsId) (intset : List NsId) {m : IntsetMap}

theorem card_toFinset_run (order : IterOrder NsId) (keys intset : List NsId) :
    (keys ++ order.run intset).toFinset.card = (keys ++ intset).toFinset.card := by
  congr 1
  ext ns
  simp

/-- A load with diff replaces the content of the map, if the old and the new ids fit together. -/
theorem load_diff_spec :
    ((loadIntsetIntoMap order intset m true false).error = none ↔
        (m.keys ++ intset).toFinset.card ≤ m.capacity) ∧
      ((loadIntsetIntoMap order intset m true false).error = none →
        (loadIntsetIntoMap order intset m true false).final.capacity = m.capacity ∧
          ∀ ns, ns ∈ (loadIntsetIntoMap order intset m true false).final.keys ↔ ns ∈ intset) := by
  rcases addAll_spec (order.run intset) m with ⟨herror, hfinal⟩
  rw [card_toFinset_run] at herror
  cases hadd : (addAll (order.run intset) m).error with
  | some err =>
      have hload : (loadIntsetIntoMap order intset m true false).error = some err := by
        simp [loadIntsetIntoMap, hadd]
      rw [hadd] at herror
      rw [hload]
      exact ⟨herror, fun hnone => by cases hnone⟩
  | none =>
      rcases hfinal hadd with ⟨hcap, hkeys⟩
      have hnodup : (order.run (m.keys.filter (· ∉ intset))).Nodup :=
        order.nodup_run (m.content.keys_nodup.filter _)
      have hmem : ∀ ns ∈ order.run (m.keys.filter (· ∉ intset)),
          ns ∈ (addAll (order.run intset) m).final.keys := by
        intro ns hns
        rw [IterOrder.mem_run] at hns
        exact (hkeys ns).2 (Or.inl (List.mem_of_mem_filter hns))
      rcases deleteAll_of_mem _ hnodup hmem with ⟨herror', hcap', hkeys'⟩
      have hload : loadIntsetIntoMap order intset m true false =
          ⟨(addAll (order.run intset) m).states ++
              (deleteAll (order.run (m.keys.filter (· ∉ intset)))
                (addAll (order.run intset) m).final).states,
            (deleteAll (order.run (m.keys.filter (· ∉ intset)))
              (addAll (order.run intset) m).final).final,
            (deleteAll (order.run (m.keys.filter (· ∉ intset)))
              (addAll (order.run intset) m).final).error⟩ := by
        simp [loadIntsetIntoMap, hadd]
      rw [hload]
      refine ⟨iff_of_true herror' (herror.1 hadd), ?_⟩
      intro _
      refine ⟨hcap'.trans hcap, ?_⟩
      intro ns
      rw [hkeys', hkeys, IterOrder.mem_run, IterOrder.mem_run, List.mem_filter]
      by_cases hns : ns ∈ intset <;> simp [hns]

/-- A load without diff adds to the content of the map. -/
theorem load_add_spec :
    ((loadIntsetIntoMap order intset m false false).error = none ↔
        (m.keys ++ intset).toFinset.card ≤ m.capacity) ∧
      ((loadIntsetIntoMap order intset m false false).error = none →
        (loadIntsetIntoMap order intset m false false).final.capacity = m.capacity ∧
          ∀ ns, ns ∈ (loadIntsetIntoMap order intset m false false).final.keys ↔
            ns ∈ m.keys ∨ ns ∈ intset) := by
  rcases addAll_spec (order.run intset) m with ⟨herror, hfinal⟩
  rw [card_toFinset_run] at herror
  have hnil : order.run [] = [] := List.perm_nil.1 (order.perm [])
  cases hadd : (addAll (order.run intset) m).error with
  | some err =>
      have hload : (loadIntsetIntoMap order intset m false false).error = some err := by
        simp [loadIntsetIntoMap, hadd]
      rw [hadd] at herror
      rw [hload]
      exact ⟨herror, fun hnone => by cases hnone⟩
  | none =>
      rcases hfinal hadd with ⟨hcap, hkeys⟩
      have hcard := herror.1 hadd
      simp only [loadIntsetIntoMap, Bool.false_eq_true, if_false, hadd, List.filter_nil, hnil,
        deleteAll]
      refine ⟨iff_of_true trivial hcard, ?_⟩
      intro _
      refine ⟨hcap, ?_⟩
      intro ns
      rw [hkeys, IterOrder.mem_run]

/-- Deleting one id that is there. -/
theorem load_delete_of_mem {ns : NsId} (h : ns ∈ m.keys) :
    (loadIntsetIntoMap order [ns] m false true).error = none ∧
      (loadIntsetIntoMap order [ns] m false true).final.capacity = m.capacity ∧
        ∀ ns', ns' ∈ (loadIntsetIntoMap order [ns] m false true).final.keys ↔
          ns' ∈ m.keys ∧ ns' ≠ ns := by
  have hone : order.run [ns] = [ns] := List.perm_singleton.1 (order.perm [ns])
  have hdelete := deleteAll_of_mem [ns] (m := m) (by simp) (by simpa using h)
  simpa [loadIntsetIntoMap, hone] using hdelete

end IntsetMap

end PidtreeBcc
