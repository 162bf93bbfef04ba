import Mathlib.Data.List.Basic
import Mathlib.Data.List.Nodup
import Mathlib.Data.List.Dedup

/-!
# Dict — finite maps that remember the insertion order

A dictionary is a list of key/value pairs whose keys are distinct; the field `nodup` carries that
fact, so a dictionary with a repeated key cannot be built.

- overwriting a key keeps its position, a new key goes to the end;
- `get?` determines the *content*, and `Same` compares two dictionaries by content only.
-/

namespace Support

/-! ## Association lists -/

namespace Assoc

variable {κ ν : Type*} [DecidableEq κ]

/-- Overwrite the value of `k` where it stands, or append the pair. -/
def set (k : κ) (v : ν) : List (κ × ν) → List (κ × ν)
  | [] => [(k, v)]
  | (k', v') :: rest => if k' = k then (k, v) :: rest else (k', v') :: set k v rest

theorem map_fst_set_of_mem {k : κ} {v : ν} :
    ∀ {l : List (κ × ν)}, k ∈ l.map Prod.fst → (set k v l).map Prod.fst = l.map Prod.fst
  | [], h => by simp at h
  | (k', v') :: rest, h => by
      by_cases hk : k' = k
      · simp [set, hk]
      · have hrest : k ∈ rest.map Prod.fst := by
          simpa [Ne.symm hk] using h
        simp [set, hk, map_fst_set_of_mem hrest]

theorem set_of_not_mem {k : κ} {v : ν} :
    ∀ {l : List (κ × ν)}, k ∉ l.map Prod.fst → set k v l = l ++ [(k, v)]
  | [], _ => rfl
  | (k', v') :: rest, h => by
      have hk : k' ≠ k := by
        intro hEq
        exact h (by simp [hEq])
      have hrest : k ∉ rest.map Prod.fst := by
        intro hmem
        exact h (List.mem_cons_of_mem _ hmem)
      simp [set, hk, set_of_not_mem hrest]

theorem nodup_set {k : κ} {v : ν} {l : List (κ × ν)} (h : (l.map Prod.fst).Nodup) :
    ((set k v l).map Prod.fst).Nodup := by
  by_cases hk : k ∈ l.map Prod.fst
  · simpa [map_fst_set_of_mem hk] using h
  · rw [set_of_not_mem hk, List.map_append]
    refine List.Nodup.append h (by simp) ?_
    intro x hx hx'
    have hxk : x = k := by simpa using hx'
    exact hk (hxk ▸ hx)

theorem lookup_set (k k' : κ) (v : ν) (l : List (κ × ν)) :
    (set k v l).lookup k' = if k = k' then some v else l.lookup k' := by
  induction l with
  | nil =>
      by_cases hk : k = k'
      · simp [set, hk]
      · have hne : (k' == k) = false := by simpa using Ne.symm hk
        simp [set, List.lookup_cons, hk, hne]
  | cons p rest ih =>
      obtain ⟨k₀, v₀⟩ := p
      by_cases h₀ : k₀ = k
      · subst h₀
        by_cases hk : k₀ = k'
        · simp [set, hk]
        · have hne : (k' == k₀) = false := by simpa using Ne.symm hk
          simp [set, List.lookup_cons, hk, hne]
      · by_cases h₀' : k' = k₀
        · subst h₀'
          simp [set, h₀, Ne.symm h₀]
        · have hne : (k' == k₀) = false := by simpa using h₀'
          simp [set, List.lookup_cons, h₀, hne, ih]

theorem lookup_filter_ne (k k' : κ) (l : List (κ × ν)) :
    (l.filter (fun p => p.1 ≠ k)).lookup k' = if k = k' then none else l.lookup k' := by
  induction l with
  | nil => simp
  | cons p rest ih =>
      obtain ⟨k₀, v₀⟩ := p
      by_cases h₀ : k₀ = k
      · subst h₀
        by_cases hk : k₀ = k'
        · simpa [hk] using ih
        · have hne : (k' == k₀) = false := by simpa using Ne.symm hk
          simpa [List.lookup_cons, hk, hne] using ih
      · by_cases h₀' : k' = k₀
        · subst h₀'
          simp [h₀, Ne.symm h₀]
        · have hne : (k' == k₀) = false := by simpa using h₀'
          simpa [List.lookup_cons, h₀, hne] using ih

theorem lookup_eq_some_iff_mem {l : List (κ × ν)} (h : (l.map Prod.fst).Nodup) {k : κ} {v : ν} :
    l.lookup k = some v ↔ (k, v) ∈ l := by
  induction l with
  | nil => simp
  | cons p rest ih =>
      obtain ⟨k₀, v₀⟩ := p
      have hcons : k₀ ∉ rest.map Prod.fst ∧ (rest.map Prod.fst).Nodup := by
        simpa using h
      by_cases hk : k = k₀
      · subst hk
        have hnot : (k, v) ∉ rest := by
          intro hmem
          exact hcons.1 (List.mem_map.2 ⟨(k, v), hmem, rfl⟩)
        simp [hnot, eq_comm]
      · have hne : (k == k₀) = false := by simpa using hk
        simp [List.lookup_cons, hne, hk, ih hcons.2]

end Assoc

/-! ## Dictionaries -/

/-- A finite map that remembers the order in which its keys were first inserted. -/
structure Dict (κ ν : Type*) where
  entries : List (κ × ν)
  nodup : (entries.map Prod.fst).Nodup
  deriving DecidableEq, Repr

namespace Dict

variable {κ ν : Type*}

def empty : Dict κ ν := ⟨[], by simp⟩

def keys (d : Dict κ ν) : List κ := d.entries.map Prod.fst

def values (d : Dict κ ν) : List ν := d.entries.map Prod.snd

def size (d : Dict κ ν) : Nat := d.entries.length

/-- Apply `f` to every value, keeping keys and order. -/
def mapValues {ν' : Type*} (f : ν → ν') (d : Dict κ ν) : Dict κ ν' :=
  ⟨d.entries.map (fun p => (p.1, f p.2)), by simpa [Function.comp_def] using d.nodup⟩

/-- The entries whose keys satisfy `p`. -/
def filterKeys (p : κ → Bool) (d : Dict κ ν) : Dict κ ν :=
  ⟨d.entries.filter (fun e => p e.1), d.nodup.sublist (List.filter_sublist.map _)⟩

theorem keys_nodup (d : Dict κ ν) : d.keys.Nodup := d.nodup

@[simp] theorem keys_empty : (empty : Dict κ ν).keys = [] := rfl

@[simp] theorem values_empty : (empty : Dict κ ν).values = [] := rfl

theorem length_keys (d : Dict κ ν) : d.keys.length = d.size := by
  simp [keys, size]

@[simp] theorem keys_mapValues {ν' : Type*} (f : ν → ν') (d : Dict κ ν) :
    (d.mapValues f).keys = d.keys := by
  simp [keys, mapValues, Function.comp_def]

section Lookup

variable [DecidableEq κ]

def get? (d : Dict κ ν) (k : κ) : Option ν := d.entries.lookup k

def set (d : Dict κ ν) (k : κ) (v : ν) : Dict κ ν :=
  ⟨Assoc.set k v d.entries, Assoc.nodup_set d.nodup⟩

def erase (d : Dict κ ν) (k : κ) : Dict κ ν :=
  ⟨d.entries.filter (fun p => p.1 ≠ k), d.nodup.sublist (List.filter_sublist.map _)⟩

/-- Set the pairs of `ps` one after the other. -/
def update (d : Dict κ ν) (ps : List (κ × ν)) : Dict κ ν :=
  ps.foldl (fun acc p => acc.set p.1 p.2) d

/-- Same content, whatever the order. -/
def Same (d d' : Dict κ ν) : Prop := ∀ k, d.get? k = d'.get? k

/-! ### Reading back a write -/

@[simp] theorem get?_empty (k : κ) : (empty : Dict κ ν).get? k = none := rfl

theorem get?_set (d : Dict κ ν) (k k' : κ) (v : ν) :
    (d.set k v).get? k' = if k = k' then some v else d.get? k' :=
  Assoc.lookup_set k k' v d.entries

@[simp] theorem get?_set_self (d : Dict κ ν) (k : κ) (v : ν) : (d.set k v).get? k = some v := by
  simp [get?_set]

theorem get?_set_of_ne (d : Dict κ ν) {k k' : κ} (h : k ≠ k') (v : ν) :
    (d.set k v).get? k' = d.get? k' := by
  simp [get?_set, h]

theorem get?_erase (d : Dict κ ν) (k k' : κ) :
    (d.erase k).get? k' = if k = k' then none else d.get? k' :=
  Assoc.lookup_filter_ne k k' d.entries

theorem get?_erase_of_ne (d : Dict κ ν) {k k' : κ} (h : k ≠ k') :
    (d.erase k).get? k' = d.get? k' := by
  simp [get?_erase, h]

/-! ### Keys, values and entries -/

theorem mem_entries_iff {d : Dict κ ν} {k : κ} {v : ν} :
    (k, v) ∈ d.entries ↔ d.get? k = some v :=
  (Assoc.lookup_eq_some_iff_mem d.nodup).symm

theorem mem_keys_iff {d : Dict κ ν} {k : κ} : k ∈ d.keys ↔ ∃ v, d.get? k = some v := by
  constructor
  · intro h
    rcases List.mem_map.1 h with ⟨⟨k₀, v⟩, hmem, rfl⟩
    exact ⟨v, mem_entries_iff.1 hmem⟩
  · rintro ⟨v, hv⟩
    exact List.mem_map.2 ⟨(k, v), mem_entries_iff.2 hv, rfl⟩

theorem get?_eq_none_iff {d : Dict κ ν} {k : κ} : d.get? k = none ↔ k ∉ d.keys := by
  rw [mem_keys_iff, Option.eq_none_iff_forall_ne_some]
  simp

theorem mem_values_iff {d : Dict κ ν} {v : ν} : v ∈ d.values ↔ ∃ k, d.get? k = some v := by
  constructor
  · intro h
    rcases List.mem_map.1 h with ⟨⟨k, v₀⟩, hmem, rfl⟩
    exact ⟨k, mem_entries_iff.1 hmem⟩
  · rintro ⟨k, hk⟩
    exact List.mem_map.2 ⟨(k, v), mem_entries_iff.2 hk, rfl⟩

theorem entries_eq_map {d : Dict κ ν} {f : κ → ν} (h : ∀ k ∈ d.keys, d.get? k = some (f k)) :
    d.entries = d.keys.map (fun k => (k, f k)) := by
  unfold keys
  rw [List.map_map]
  refine (List.map_id d.entries).symm.trans (List.map_congr_left ?_)
  intro p hp
  have hget : d.get? p.1 = some p.2 := mem_entries_iff.1 hp
  have hf := h p.1 (List.mem_map.2 ⟨p, hp, rfl⟩)
  have hEq : p.2 = f p.1 := Option.some.inj (hget.symm.trans hf)
  simp [← hEq]

/-- The entries of one key: its pair, if it is there. -/
theorem filter_entries_eq (d : Dict κ ν) (k : κ) :
    d.entries.filter (fun p => p.1 = k) = ((d.get? k).map (fun v => (k, v))).toList := by
  obtain ⟨l, hl⟩ := d
  induction l with
  | nil => rfl
  | cons p rest ih =>
      obtain ⟨k₀, v₀⟩ := p
      have hcons := List.nodup_cons.1 hl
      have ihrest := ih hcons.2
      by_cases hk : k = k₀
      · subst hk
        -- The key occurs only once, so nothing of the rest remains.
        have hrest : rest.filter (fun p => p.1 = k) = [] := by
          refine List.filter_eq_nil_iff.2 ?_
          intro p hp hEq
          exact hcons.1 (List.mem_map.2 ⟨p, hp, by simpa using hEq⟩)
        simp [get?, hrest]
      · have hne : (k == k₀) = false := by simpa using hk
        simpa [get?, List.lookup_cons, hne, Ne.symm hk] using ihrest

theorem keys_set_of_mem {d : Dict κ ν} {k : κ} (h : k ∈ d.keys) (v : ν) :
    (d.set k v).keys = d.keys :=
  Assoc.map_fst_set_of_mem h

theorem entries_set_of_not_mem {d : Dict κ ν} {k : κ} (h : k ∉ d.keys) (v : ν) :
    (d.set k v).entries = d.entries ++ [(k, v)] :=
  Assoc.set_of_not_mem h

theorem keys_set_of_not_mem {d : Dict κ ν} {k : κ} (h : k ∉ d.keys) (v : ν) :
    (d.set k v).keys = d.keys ++ [k] := by
  simp [keys, entries_set_of_not_mem h]

theorem mem_keys_set {d : Dict κ ν} {k k' : κ} {v : ν} :
    k' ∈ (d.set k v).keys ↔ k' = k ∨ k' ∈ d.keys := by
  by_cases hk : k ∈ d.keys
  · rw [keys_set_of_mem hk]
    exact (or_iff_right_of_imp fun h => h ▸ hk).symm
  · rw [keys_set_of_not_mem hk]
    simp [or_comm]

theorem mem_keys_erase {d : Dict κ ν} {k k' : κ} :
    k' ∈ (d.erase k).keys ↔ k' ≠ k ∧ k' ∈ d.keys := by
  rw [mem_keys_iff, mem_keys_iff, get?_erase]
  by_cases hk : k = k'
  · simp [hk]
  · simp [hk, Ne.symm hk]

/-- After a write a value is the written one, or that of another key. -/
theorem mem_values_set {d : Dict κ ν} {k : κ} {v v' : ν} :
    v' ∈ (d.set k v).values ↔ v' = v ∨ ∃ k', k' ≠ k ∧ d.get? k' = some v' := by
  rw [mem_values_iff]
  constructor
  · rintro ⟨k', hk'⟩
    rw [get?_set] at hk'
    by_cases hne : k = k'
    · rw [if_pos hne] at hk'
      exact Or.inl (Option.some.inj hk').symm
    · rw [if_neg hne] at hk'
      exact Or.inr ⟨k', Ne.symm hne, hk'⟩
  · rintro (rfl | ⟨k', hne, hk'⟩)
    · exact ⟨k, get?_set_self d k v'⟩
    · exact ⟨k', (get?_set_of_ne d (Ne.symm hne) v).trans hk'⟩

/-- The values that are left are those of the other keys. -/
theorem mem_values_erase {d : Dict κ ν} {k : κ} {v : ν} :
    v ∈ (d.erase k).values ↔ ∃ k', k' ≠ k ∧ d.get? k' = some v := by
  rw [mem_values_iff]
  constructor
  · rintro ⟨k', hk'⟩
    rw [get?_erase] at hk'
    by_cases hne : k = k'
    · rw [if_pos hne] at hk'
      cases hk'
    · rw [if_neg hne] at hk'
      exact ⟨k', Ne.symm hne, hk'⟩
  · rintro ⟨k', hne, hk'⟩
    exact ⟨k', (get?_erase_of_ne d (Ne.symm hne)).trans hk'⟩

/-- Setting a key whose old value is the new one, or is held by another key, loses no value. -/
theorem mem_values_set_of_held {d : Dict κ ν} {k : κ} {v : ν}
    (hheld : ∀ old, d.get? k = some old → old = v ∨ ∃ k', k' ≠ k ∧ d.get? k' = some old) {v' : ν} :
    v' ∈ (d.set k v).values ↔ v' ∈ d.values ∨ v' = v := by
  rw [mem_values_set, mem_values_iff]
  constructor
  · rintro (hnew | ⟨k', _, hk'⟩)
    · exact Or.inr hnew
    · exact Or.inl ⟨k', hk'⟩
  · rintro (⟨k', hk'⟩ | hnew)
    · by_cases hne : k' = k
      · subst hne
        exact hheld v' hk'
      · exact Or.inr ⟨k', hne, hk'⟩
    · exact Or.inl hnew

/-- Erasing a key whose value no other key has loses just this value. -/
theorem mem_values_erase_of_own {d : Dict κ ν} {k : κ} {v : ν} (hget : d.get? k = some v)
    (hown : ∀ k', k' ≠ k → d.get? k' ≠ some v) {v' : ν} :
    v' ∈ (d.erase k).values ↔ v' ∈ d.values ∧ v' ≠ v := by
  rw [mem_values_erase, mem_values_iff]
  constructor
  · rintro ⟨k', hne, hk'⟩
    refine ⟨⟨k', hk'⟩, ?_⟩
    rintro rfl
    exact hown k' hne hk'
  · rintro ⟨⟨k', hk'⟩, hother⟩
    refine ⟨k', ?_, hk'⟩
    rintro rfl
    exact hother (Option.some.inj (hk'.symm.trans hget))

theorem get?_mapValues {ν' : Type*} (f : ν → ν') (d : Dict κ ν) (k : κ) :
    (d.mapValues f).get? k = (d.get? k).map f := by
  obtain ⟨l, hl⟩ := d
  induction l with
  | nil => rfl
  | cons p rest ih =>
      obtain ⟨k₀, v₀⟩ := p
      have hrest : (rest.map Prod.fst).Nodup := (List.nodup_cons.1 hl).2
      have ihrest := ih hrest
      by_cases hk : k = k₀
      · simp [get?, mapValues, hk]
      · have hne : (k == k₀) = false := by simpa using hk
        simpa [get?, mapValues, List.lookup_cons, hne] using ihrest

theorem get?_filterKeys (p : κ → Bool) (d : Dict κ ν) (k : κ) :
    (d.filterKeys p).get? k = if p k then d.get? k else none := by
  obtain ⟨l, hl⟩ := d
  induction l with
  | nil => simp [get?, filterKeys]
  | cons e rest ih =>
      obtain ⟨k₀, v₀⟩ := e
      have ihrest := ih (List.nodup_cons.1 hl).2
      simp only [get?, filterKeys] at ihrest ⊢
      by_cases hk : k = k₀
      · subst hk
        by_cases hp : p k = true
        · simp [hp]
        · simp [hp, ihrest]
      · have hne : (k == k₀) = false := by simpa using hk
        by_cases hp : p k₀ = true
        · simp [List.lookup_cons, hp, hne, ihrest]
        · simp [List.lookup_cons, hp, hne, ihrest]

theorem mem_keys_filterKeys {p : κ → Bool} {d : Dict κ ν} {k : κ} :
    k ∈ (d.filterKeys p).keys ↔ p k = true ∧ k ∈ d.keys := by
  rw [mem_keys_iff, mem_keys_iff]
  simp only [get?_filterKeys]
  by_cases hp : p k = true <;> simp [hp]

/-! ### Writing several pairs -/

@[simp] theorem update_nil (d : Dict κ ν) : d.update [] = d := rfl

@[simp] theorem update_cons (d : Dict κ ν) (p : κ × ν) (ps : List (κ × ν)) :
    d.update (p :: ps) = (d.set p.1 p.2).update ps := rfl

/-- New pairs with distinct keys go to the end as they are. -/
theorem entries_update_of_nodup {ps : List (κ × ν)} :
    ∀ {d : Dict κ ν}, (d.keys ++ ps.map Prod.fst).Nodup → (d.update ps).entries = d.entries ++ ps := by
  induction ps with
  | nil => exact fun _ => (List.append_nil _).symm
  | cons p ps ih =>
      intro d h
      have hnew : p.1 ∉ d.keys := fun hmem =>
        (List.disjoint_of_nodup_append h) hmem (by simp)
      have hentries := entries_set_of_not_mem hnew p.2
      have hkeys : (d.set p.1 p.2).keys ++ ps.map Prod.fst = d.keys ++ (p :: ps).map Prod.fst := by
        simp [keys, hentries]
      rw [update_cons, ih (hkeys ▸ h), hentries, List.append_assoc]
      rfl

theorem mem_keys_update {ps : List (κ × ν)} :
    ∀ {d : Dict κ ν} {k : κ}, k ∈ (d.update ps).keys ↔ k ∈ d.keys ∨ k ∈ ps.map Prod.fst := by
  induction ps with
  | nil => simp
  | cons p ps ih =>
      intro d k
      rw [update_cons, ih, mem_keys_set, List.map_cons, List.mem_cons, or_assoc, or_left_comm]

theorem get?_update_of_not_mem {ps : List (κ × ν)} :
    ∀ {d : Dict κ ν} {k : κ}, k ∉ ps.map Prod.fst → (d.update ps).get? k = d.get? k := by
  induction ps with
  | nil => simp
  | cons p ps ih =>
      intro d k h
      have hp : p.1 ≠ k := by
        intro hEq
        exact h (by simp [hEq])
      have hps : k ∉ ps.map Prod.fst := by
        intro hmem
        exact h (List.mem_cons_of_mem _ hmem)
      rw [update_cons, ih hps, get?_set_of_ne _ hp]

/-- Pairs with distinct keys are all read back. -/
theorem get?_update_of_mem {ps : List (κ × ν)} :
    ∀ {d : Dict κ ν} {k : κ} {v : ν}, (ps.map Prod.fst).Nodup → (k, v) ∈ ps →
      (d.update ps).get? k = some v := by
  induction ps with
  | nil => simp
  | cons p ps ih =>
      intro d k v hnodup hmem
      have hcons := List.nodup_cons.1 hnodup
      rw [update_cons]
      rcases List.mem_cons.1 hmem with hp | hmem
      · subst hp
        rw [get?_update_of_not_mem hcons.1, get?_set_self]
      · exact ih hcons.2 hmem

/-- The last pair of a key is read back. -/
theorem get?_update (d : Dict κ ν) (ps : List (κ × ν)) (k : κ) :
    (d.update ps).get? k = ((ps.reverse.find? fun p => p.1 = k).map Prod.snd).or (d.get? k) := by
  induction ps generalizing d with
  | nil => simp
  | cons p ps ih =>
      rw [update_cons, ih, get?_set, List.reverse_cons, List.find?_append]
      cases hlast : ps.reverse.find? fun p => p.1 = k with
      | some q => simp
      | none => by_cases hp : p.1 = k <;> simp [hp]

/-! ### Merging -/

/-- The pairs of `d'` written into `d`. -/
def merge (d d' : Dict κ ν) : Dict κ ν := d.update d'.entries

/-- The dictionary that is merged in takes precedence. -/
theorem get?_merge (d d' : Dict κ ν) (k : κ) :
    (d.merge d').get? k = (d'.get? k).or (d.get? k) := by
  cases hk : d'.get? k with
  | none =>
      have hnot : k ∉ d'.entries.map Prod.fst := get?_eq_none_iff.1 hk
      simpa [merge] using get?_update_of_not_mem hnot
  | some v =>
      have hmem : (k, v) ∈ d'.entries := mem_entries_iff.2 hk
      simpa [merge] using get?_update_of_mem d'.nodup hmem

/-! ### Content -/

theorem Same.refl (d : Dict κ ν) : d.Same d := fun _ => rfl

theorem Same.symm {d d' : Dict κ ν} (h : d.Same d') : d'.Same d := fun k => (h k).symm

theorem Same.trans {d₁ d₂ d₃ : Dict κ ν} (h : d₁.Same d₂) (h' : d₂.Same d₃) : d₁.Same d₃ :=
  fun k => (h k).trans (h' k)

instance decidableSame [DecidableEq ν] (d d' : Dict κ ν) : Decidable (d.Same d') :=
  decidable_of_iff (∀ k ∈ d.keys ++ d'.keys, d.get? k = d'.get? k) (by
    constructor
    · intro h k
      by_cases hk : k ∈ d.keys ++ d'.keys
      · exact h k hk
      · have hnot : k ∉ d.keys ∧ k ∉ d'.keys := by
          simpa [not_or] using hk
        rw [get?_eq_none_iff.2 hnot.1, get?_eq_none_iff.2 hnot.2]
    · intro h k _
      exact h k)

end Lookup

end Dict

end Support
