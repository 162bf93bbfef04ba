import Mathlib.Logic.Function.Basic

/-!
# Overwrite — sequences of writes toward a target

When every write stores the value that a fixed target has at its index, the order of the writes does
not matter, and each intermediate state shows at every index the old value or the target's.
-/

namespace Support

namespace Overwrite

variable {ι ν : Type*} [DecidableEq ι]

/-- The state after all the writes. -/
def apply (m : ι → ν) : List (ι × ν) → ι → ν
  | [] => m
  | w :: ws => apply (Function.update m w.1 w.2) ws

/-- The states after each of the writes. -/
def trail (m : ι → ν) : List (ι × ν) → List (ι → ν)
  | [] => []
  | w :: ws => Function.update m w.1 w.2 :: trail (Function.update m w.1 w.2) ws

/-- Every write stores the value of the target. -/
def Toward (target : ι → ν) (ws : List (ι × ν)) : Prop := ∀ w ∈ ws, w.2 = target w.1

omit [DecidableEq ι] in
theorem Toward.tail {target : ι → ν} {w : ι × ν} {ws : List (ι × ν)}
    (h : Toward target (w :: ws)) : Toward target ws :=
  fun w' hw' => h w' (List.mem_cons_of_mem _ hw')

theorem Toward.update {target : ι → ν} {w : ι × ν} {ws : List (ι × ν)}
    (h : Toward target (w :: ws)) (m : ι → ν) (i : ι) :
    Function.update m w.1 w.2 i = if i = w.1 then target i else m i := by
  have hw : w.2 = target w.1 := h w (by simp)
  by_cases hi : i = w.1
  · subst hi
    simp [hw]
  · simp [hi]

theorem Toward.apply {target : ι → ν} {ws : List (ι × ν)} (h : Toward target ws) :
    ∀ (m : ι → ν) (i : ι),
      apply m ws i = if i ∈ ws.map Prod.fst then target i else m i := by
  induction ws with
  | nil =>
      intro m i
      simp [Overwrite.apply]
  | cons w ws ih =>
      intro m i
      rw [Overwrite.apply, ih h.tail, h.update]
      by_cases hi : i ∈ ws.map Prod.fst
      · have hi' : i ∈ (w :: ws).map Prod.fst := List.mem_cons_of_mem _ hi
        rw [if_pos hi, if_pos hi']
      · simp only [List.map_cons, List.mem_cons, hi, or_false, if_false]

theorem Toward.trail {target : ι → ν} {ws : List (ι × ν)} (h : Toward target ws) :
    ∀ {m s : ι → ν}, s ∈ trail m ws → ∀ i, s i = m i ∨ s i = target i := by
  induction ws with
  | nil =>
      intro m s hs
      simp [Overwrite.trail] at hs
  | cons w ws ih =>
      intro m s hs i
      have hstep : Function.update m w.1 w.2 i = m i ∨ Function.update m w.1 w.2 i = target i := by
        rw [h.update]
        by_cases hi : i = w.1 <;> simp [hi]
      rcases List.mem_cons.1 hs with rfl | hs'
      · exact hstep
      · -- The rest of the writes starts from the state after the first one.
        rcases ih h.tail hs' i with hold | htarget
        · simpa [hold] using hstep
        · exact Or.inr htarget

end Overwrite

end Support
