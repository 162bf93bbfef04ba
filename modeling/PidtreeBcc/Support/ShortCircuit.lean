import Mathlib.Data.List.Basic

/-!
# ShortCircuit — any and all of tests that may raise

`anyM` and `allM` in `Except` ask the tests one after the other.  They stop at the first answer that
decides, and at the first exception.

- `anyM` holds just when a test holds and none before it raises, and raises just when a test raises and
  none before it holds;
- `allM` holds just when all tests hold, and raises just when a test raises and all before it hold.
-/

namespace Support

namespace ShortCircuit

universe u v

variable {ε : Type u} {α : Type v} {p : α → Except ε Bool} {a : α} {l : List α}

/-- The test raises an exception. -/
def Raises (p : α → Except ε Bool) (a : α) : Prop := ∃ err, p a = .error err

/-! ## Any -/

theorem anyM_cons_of_true (h : p a = .ok true) : (a :: l).anyM p = .ok true := by
  simp only [List.anyM, h]
  rfl

theorem anyM_cons_of_false (h : p a = .ok false) : (a :: l).anyM p = l.anyM p := by
  simp only [List.anyM, h]
  rfl

theorem anyM_cons_of_error {err : ε} (h : p a = .error err) : (a :: l).anyM p = .error err := by
  simp only [List.anyM, h]
  rfl

/-- The second list is asked if the first one has no answer. -/
theorem anyM_append (l l' : List α) :
    (l ++ l').anyM p =
      match l.anyM p with
      | .ok false => l'.anyM p
      | r => r := by
  induction l with
  | nil => rfl
  | cons a l ih =>
      rw [List.cons_append]
      rcases h : p a with err | _ | _
      · rw [anyM_cons_of_error h, anyM_cons_of_error h]
      · rw [anyM_cons_of_false h, anyM_cons_of_false h, ih]
      · rw [anyM_cons_of_true h, anyM_cons_of_true h]

theorem anyM_eq_true_iff :
    l.anyM p = .ok true ↔
      ∃ before a after, l = before ++ a :: after ∧ (∀ b ∈ before, ¬ Raises p b) ∧ p a = .ok true := by
  constructor
  · intro h
    induction l with
    | nil => cases h
    | cons a l ih =>
        rcases ha : p a with err | _ | _
        · rw [anyM_cons_of_error ha] at h
          cases h
        · rw [anyM_cons_of_false ha] at h
          obtain ⟨before, a', after, rfl, hbefore, ha'⟩ := ih h
          have hfirst : ¬ Raises p a := by simp [Raises, ha]
          exact ⟨a :: before, a', after, rfl, List.forall_mem_cons.2 ⟨hfirst, hbefore⟩, ha'⟩
        · exact ⟨[], a, l, rfl, by simp, ha⟩
  · rintro ⟨before, a, after, rfl, hbefore, ha⟩
    induction before with
    | nil => exact anyM_cons_of_true ha
    | cons b before ih =>
        obtain ⟨hb, hrest⟩ := List.forall_mem_cons.1 hbefore
        rw [List.cons_append]
        rcases hp : p b with err | _ | _
        · exact absurd ⟨err, hp⟩ hb
        · rw [anyM_cons_of_false hp]
          exact ih hrest
        · exact anyM_cons_of_true hp

theorem raises_anyM_iff :
    (∃ err, l.anyM p = .error err) ↔
      ∃ before a after, l = before ++ a :: after ∧ (∀ b ∈ before, p b ≠ .ok true) ∧ Raises p a := by
  constructor
  · rintro ⟨err, h⟩
    induction l with
    | nil => cases h
    | cons a l ih =>
        rcases ha : p a with err' | _ | _
        · exact ⟨[], a, l, rfl, by simp, err', ha⟩
        · rw [anyM_cons_of_false ha] at h
          obtain ⟨before, a', after, rfl, hbefore, ha'⟩ := ih h
          have hfirst : p a ≠ .ok true := by simp [ha]
          exact ⟨a :: before, a', after, rfl, List.forall_mem_cons.2 ⟨hfirst, hbefore⟩, ha'⟩
        · rw [anyM_cons_of_true ha] at h
          cases h
  · rintro ⟨before, a, after, rfl, hbefore, err, ha⟩
    induction before with
    | nil => exact ⟨err, anyM_cons_of_error ha⟩
    | cons b before ih =>
        obtain ⟨hb, hrest⟩ := List.forall_mem_cons.1 hbefore
        rw [List.cons_append]
        rcases hp : p b with err' | _ | _
        · exact ⟨err', anyM_cons_of_error hp⟩
        · rw [anyM_cons_of_false hp]
          exact ih hrest
        · exact absurd hp hb

/-! ## All -/

theorem allM_cons_of_true (h : p a = .ok true) : (a :: l).allM p = l.allM p := by
  simp only [List.allM, h]
  rfl

theorem allM_cons_of_false (h : p a = .ok false) : (a :: l).allM p = .ok false := by
  simp only [List.allM, h]
  rfl

theorem allM_cons_of_error {err : ε} (h : p a = .error err) : (a :: l).allM p = .error err := by
  simp only [List.allM, h]
  rfl

theorem allM_eq_true_iff : l.allM p = .ok true ↔ ∀ a ∈ l, p a = .ok true := by
  induction l with
  | nil => exact iff_of_true rfl (by simp)
  | cons a l ih =>
      rw [List.forall_mem_cons]
      rcases h : p a with err | _ | _
      · rw [allM_cons_of_error h]
        simp
      · rw [allM_cons_of_false h]
        simp
      · rw [allM_cons_of_true h, ih]
        simp

theorem raises_allM_iff :
    (∃ err, l.allM p = .error err) ↔
      ∃ before a after, l = before ++ a :: after ∧ (∀ b ∈ before, p b = .ok true) ∧ Raises p a := by
  constructor
  · rintro ⟨err, h⟩
    induction l with
    | nil => cases h
    | cons a l ih =>
        rcases ha : p a with err' | _ | _
        · exact ⟨[], a, l, rfl, by simp, err', ha⟩
        · rw [allM_cons_of_false ha] at h
          cases h
        · rw [allM_cons_of_true ha] at h
          obtain ⟨before, a', after, rfl, hbefore, ha'⟩ := ih h
          exact ⟨a :: before, a', after, rfl, List.forall_mem_cons.2 ⟨ha, hbefore⟩, ha'⟩
  · rintro ⟨before, a, after, rfl, hbefore, err, ha⟩
    induction before with
    | nil => exact ⟨err, allM_cons_of_error ha⟩
    | cons b before ih =>
        obtain ⟨hb, hrest⟩ := List.forall_mem_cons.1 hbefore
        rw [List.cons_append, allM_cons_of_true hb]
        exact ih hrest

end ShortCircuit

end Support
