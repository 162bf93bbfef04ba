import Mathlib.Data.List.Basic

/-!
# Run — runs of a step function

A system takes labelled steps, some of which may be disabled.  A run visits the states after each of
its steps; it ends at the first disabled one.

- `StepsMeet C` says that every step a run takes meets a condition on the label and the state before;
- `visited_of_stepsMeet` carries an invariant along such a run;
- `visited_iff_stepsMeet` characterizes a property of all visited states by such a condition.
-/

namespace Support

namespace Run

variable {σ α : Type*}

/-- The states after each step of the run. -/
def visited (step : σ → α → Option σ) : σ → List α → List σ
  | _, [] => []
  | s, a :: rest =>
      match step s a with
      | none => []
      | some s' => s' :: visited step s' rest

/-- Every step that the run takes meets the condition. -/
def StepsMeet (step : σ → α → Option σ) (C : σ → α → Prop) : σ → List α → Prop
  | _, [] => True
  | s, a :: rest =>
      match step s a with
      | none => True
      | some s' => C s a ∧ StepsMeet step C s' rest

variable {step : σ → α → Option σ} {C : σ → α → Prop}

theorem visited_cons {s s' : σ} {a : α} (h : step s a = some s') (rest : List α) :
    visited step s (a :: rest) = s' :: visited step s' rest := by
  simp [visited, h]

theorem stepsMeet_cons {s s' : σ} {a : α} (h : step s a = some s') (rest : List α) :
    StepsMeet step C s (a :: rest) ↔ C s a ∧ StepsMeet step C s' rest := by
  simp [StepsMeet, h]

instance decidableStepsMeet [∀ s a, Decidable (C s a)] :
    ∀ (acts : List α) (s : σ), Decidable (StepsMeet step C s acts)
  | [], _ => isTrue trivial
  | a :: rest, s =>
      match h : step s a with
      | none => isTrue (by simp [StepsMeet, h])
      | some s' =>
          have : Decidable (StepsMeet step C s' rest) := decidableStepsMeet rest s'
          decidable_of_iff (C s a ∧ StepsMeet step C s' rest) (stepsMeet_cons h rest).symm

/-- An invariant that every step meeting the condition preserves holds in every state visited. -/
theorem visited_of_stepsMeet {I : σ → Prop}
    (hstep : ∀ s a s', I s → C s a → step s a = some s' → I s') :
    ∀ {acts : List α} {s : σ}, I s → StepsMeet step C s acts → ∀ t ∈ visited step s acts, I t
  | [], _, _, _, t, ht => by simp [visited] at ht
  | a :: rest, s, hs, hmeet, t, ht => by
      cases h : step s a with
      | none => simp [visited, h] at ht
      | some s' =>
          rw [stepsMeet_cons h] at hmeet
          rw [visited_cons h] at ht
          have hs' : I s' := hstep s a s' hs hmeet.1 h
          rcases List.mem_cons.1 ht with rfl | ht
          · exact hs'
          · exact visited_of_stepsMeet hstep hs' hmeet.2 t ht

/-- An invariant that every step preserves. -/
theorem visited_of_inv {I : σ → Prop} (hstep : ∀ s a s', I s → step s a = some s' → I s')
    {acts : List α} {s : σ} (hs : I s) : ∀ t ∈ visited step s acts, I t := by
  have hmeet : ∀ (acts : List α) (s : σ), StepsMeet step (fun _ _ => True) s acts := by
    intro acts
    induction acts with
    | nil => exact fun _ => trivial
    | cons a rest ih =>
        intro s
        cases h : step s a with
        | none => simp [StepsMeet, h]
        | some s' => exact (stepsMeet_cons h rest).2 ⟨trivial, ih s'⟩
  exact visited_of_stepsMeet (fun s a s' hs _ h => hstep s a s' hs h) hs (hmeet acts s)

/-- A condition that every label meets can be added to the condition on the steps. -/
theorem StepsMeet.and_of_forall {Q : α → Prop} :
    ∀ {acts : List α} {s : σ}, StepsMeet step C s acts → (∀ a ∈ acts, Q a) →
      StepsMeet step (fun s a => C s a ∧ Q a) s acts
  | [], _, _, _ => trivial
  | a :: rest, s, hmeet, hall => by
      cases h : step s a with
      | none => simp [StepsMeet, h]
      | some s' =>
          rw [stepsMeet_cons h] at hmeet ⊢
          have hrest := hmeet.2.and_of_forall fun b hb => hall b (List.mem_cons_of_mem a hb)
          exact ⟨⟨hmeet.1, hall a (by simp)⟩, hrest⟩

/-- Conditions can be exchanged for weaker ones. -/
theorem StepsMeet.mono {C' : σ → α → Prop} (himp : ∀ s a, C s a → C' s a) :
    ∀ {acts : List α} {s : σ}, StepsMeet step C s acts → StepsMeet step C' s acts
  | [], _, _ => trivial
  | a :: rest, s, hmeet => by
      cases h : step s a with
      | none => simp [StepsMeet, h]
      | some s' =>
          rw [stepsMeet_cons h] at hmeet ⊢
          exact ⟨himp s a hmeet.1, hmeet.2.mono himp⟩

/-- A property holds in every state visited just when every step meets the condition: steps that
meet it keep the invariant, the invariant gives the property, and a step that does not meet it
leads to a state without the property. -/
theorem visited_iff_stepsMeet {I P : σ → Prop} (hP : ∀ s, I s → P s)
    (hgood : ∀ s a s', I s → C s a → step s a = some s' → I s')
    (hbad : ∀ s a s', I s → ¬ C s a → step s a = some s' → ¬ P s') :
    ∀ {acts : List α} {s : σ}, I s →
      ((∀ t ∈ visited step s acts, P t) ↔ StepsMeet step C s acts)
  | [], _, _ => by simp [visited, StepsMeet]
  | a :: rest, s, hs => by
      cases h : step s a with
      | none => simp [visited, StepsMeet, h]
      | some s' =>
          rw [visited_cons h, stepsMeet_cons h]
          by_cases hC : C s a
          · have hs' : I s' := hgood s a s' hs hC h
            have ih : (∀ t ∈ visited step s' rest, P t) ↔ StepsMeet step C s' rest :=
              visited_iff_stepsMeet hP hgood hbad hs'
            simp [hC, hP s' hs', ih]
          · have hnot : ¬ P s' := hbad s a s' hs hC h
            simp [hC, hnot]

/-- An invariant holds after a run. -/
theorem foldlM_inv {I : σ → Prop} (hstep : ∀ s a s', I s → step s a = some s' → I s') :
    ∀ {acts : List α} {s t : σ}, I s → acts.foldlM step s = some t → I t
  | [], s, t, hs, h => by
      have hst : s = t := by simpa using h
      rwa [← hst]
  | a :: rest, s, t, hs, h => by
      rw [List.foldlM_cons] at h
      rcases Option.bind_eq_some_iff.1 h with ⟨s', hfirst, hrest⟩
      exact foldlM_inv hstep (hstep s a s' hs hfirst) hrest

/-- An invariant that the steps meeting a condition preserve holds after a run of such steps. -/
theorem foldlM_of_stepsMeet {I : σ → Prop} (hstep : ∀ s a s', I s → C s a → step s a = some s' → I s') :
    ∀ {acts : List α} {s t : σ}, I s → StepsMeet step C s acts → acts.foldlM step s = some t → I t
  | [], s, t, hs, _, hrun => by
      cases hrun
      exact hs
  | a :: rest, s, t, hs, hmeet, hrun => by
      rcases Option.bind_eq_some_iff.1 hrun with ⟨s', hfirst, hrest⟩
      rw [stepsMeet_cons hfirst] at hmeet
      exact foldlM_of_stepsMeet hstep (hstep s a s' hs hmeet.1 hfirst) hmeet.2 hrest

/-- An invariant that the steps with the labels of the run preserve. -/
theorem foldlM_inv_of_mem {I : σ → Prop} :
    ∀ {acts : List α} {s t : σ}, (∀ a ∈ acts, ∀ s s', I s → step s a = some s' → I s') → I s →
      acts.foldlM step s = some t → I t
  | [], s, t, _, hs, hrun => by
      cases hrun
      exact hs
  | a :: rest, s, t, hstep, hs, hrun => by
      rcases Option.bind_eq_some_iff.1 hrun with ⟨s', hfirst, hrest⟩
      exact foldlM_inv_of_mem (fun b hb => hstep b (List.mem_cons_of_mem a hb))
        (hstep a (by simp) s s' hs hfirst) hrest

/-- A property that no step can establish held before a run if it holds after it. -/
theorem foldlM_back {P : σ → Prop} (hback : ∀ s a s', step s a = some s' → P s' → P s) :
    ∀ {acts : List α} {s t : σ}, acts.foldlM step s = some t → P t → P s
  | [], s, t, h, ht => by
      have hst : s = t := by simpa using h
      rwa [hst]
  | a :: rest, s, t, h, ht => by
      rw [List.foldlM_cons] at h
      rcases Option.bind_eq_some_iff.1 h with ⟨s', hstep, hrest⟩
      exact hback s a s' hstep (foldlM_back hback hrest ht)

/-- A property that no step can establish holds in every state of a complete run just when it holds in
its last one. -/
theorem forall_visited_iff_of_foldlM {P : σ → Prop}
    (hback : ∀ s a s', step s a = some s' → P s' → P s) :
    ∀ {acts : List α} {s t : σ}, P s → acts.foldlM step s = some t →
      ((∀ u ∈ visited step s acts, P u) ↔ P t)
  | [], s, t, hs, h => by
      have hst : s = t := by simpa using h
      simp [visited, ← hst, hs]
  | a :: rest, s, t, hs, h => by
      rw [List.foldlM_cons] at h
      rcases Option.bind_eq_some_iff.1 h with ⟨s', hstep, hrest⟩
      rw [visited_cons hstep]
      by_cases hs' : P s'
      · have ih := forall_visited_iff_of_foldlM hback hs' hrest
        simp [hs', ih]
      · -- Once lost, the property stays lost up to the last state.
        have hlost : ¬ P t := by
          intro ht
          exact hs' (foldlM_back hback hrest ht)
        simp [hs', hlost]

end Run

end Support
