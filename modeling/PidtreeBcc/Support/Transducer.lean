import Mathlib.Data.List.Induction

/-!
# Transducer — step functions that put out at most one item for each input

- `output` is what a run puts out, and `stateAfter` the state in which it ends;
- `output_append` puts the outputs of two runs together;
- `output_at_iff` leads from a place of the output back to the input that was read there.
-/

namespace Support

namespace Transducer

variable {σ ι ω : Type*}

def stateAfter (step : σ → ι → σ × Option ω) : σ → List ι → σ
  | s, [] => s
  | s, i :: rest => stateAfter step (step s i).1 rest

def output (step : σ → ι → σ × Option ω) : σ → List ι → List ω
  | _, [] => []
  | s, i :: rest => (step s i).2.toList ++ output step (step s i).1 rest

variable {step : σ → ι → σ × Option ω}

theorem stateAfter_append (inputs more : List ι) (s : σ) :
    stateAfter step s (inputs ++ more) = stateAfter step (stateAfter step s inputs) more := by
  induction inputs generalizing s with
  | nil => rfl
  | cons i rest ih => exact ih (step s i).1

theorem output_append (inputs more : List ι) (s : σ) :
    output step s (inputs ++ more) =
      output step s inputs ++ output step (stateAfter step s inputs) more := by
  induction inputs generalizing s with
  | nil => rfl
  | cons i rest ih => simp [output, stateAfter, ih]

theorem output_concat (inputs : List ι) (i : ι) (s : σ) :
    output step s (inputs ++ [i]) =
      output step s inputs ++ (step (stateAfter step s inputs) i).2.toList := by
  simp [output_append, output]

/-- An invariant of the state that may speak of the inputs read so far. -/
theorem stateAfter_inv {I : List ι → σ → Prop} {s : σ} (hinit : I [] s)
    (hstep : ∀ inputs s i, I inputs s → I (inputs ++ [i]) (step s i).1) (inputs : List ι) :
    I inputs (stateAfter step s inputs) := by
  induction inputs using List.reverseRecOn with
  | nil => exact hinit
  | append_singleton rest i ih =>
      rw [stateAfter_append]
      exact hstep rest _ i ih

/-- A place of a list with one more element is an old one or the last. -/
theorem split_concat_iff {xs before : List ω} {x a : ω} :
    (∃ after, xs ++ [x] = before ++ a :: after) ↔
      (∃ after, xs = before ++ a :: after) ∨ (before = xs ∧ a = x) := by
  constructor
  · rintro ⟨after, h⟩
    rcases List.eq_nil_or_concat after with rfl | ⟨init, y, rfl⟩
    · have hlast := List.append_inj' h rfl
      exact Or.inr ⟨hlast.1.symm, by simpa [eq_comm] using hlast.2⟩
    · have hinit : xs ++ [x] = (before ++ a :: init) ++ [y] := by simpa using h
      exact Or.inl ⟨init, (List.append_inj' hinit rfl).1⟩
  · rintro (⟨after, rfl⟩ | ⟨rfl, rfl⟩)
    · exact ⟨after ++ [x], by simp⟩
    · exact ⟨[], rfl⟩

/-- An item stands behind the items `before` in the output just when a run that has put these out reads an
input on which it puts out the item. -/
theorem output_at_iff {s : σ} {inputs : List ι} {before : List ω} {o : ω} :
    (∃ after, output step s inputs = before ++ o :: after) ↔
      ∃ done i rest, inputs = done ++ i :: rest ∧ output step s done = before ∧
        (step (stateAfter step s done) i).2 = some o := by
  induction inputs using List.reverseRecOn with
  | nil => simp [output]
  | append_singleton init last ih =>
      have hread : (∃ done i rest, init ++ [last] = done ++ i :: rest ∧ output step s done = before ∧
            (step (stateAfter step s done) i).2 = some o) ↔
          (∃ done i rest, init = done ++ i :: rest ∧ output step s done = before ∧
            (step (stateAfter step s done) i).2 = some o) ∨
          (output step s init = before ∧ (step (stateAfter step s init) last).2 = some o) := by
        constructor
        · rintro ⟨done, i, rest, hsplit, hout, hitem⟩
          rcases split_concat_iff.1 ⟨rest, hsplit⟩ with ⟨rest', hinit⟩ | ⟨rfl, rfl⟩
          · exact Or.inl ⟨done, i, rest', hinit, hout, hitem⟩
          · exact Or.inr ⟨hout, hitem⟩
        · rintro (⟨done, i, rest, hinit, hout, hitem⟩ | ⟨hout, hitem⟩)
          · exact ⟨done, i, rest ++ [last], by simp [hinit], hout, hitem⟩
          · exact ⟨init, last, [], rfl, hout, hitem⟩
      rw [hread, ← ih, output_concat]
      cases hlast : (step (stateAfter step s init) last).2 with
      | none => simp
      | some o' =>
          rw [Option.toList_some, split_concat_iff]
          simp [eq_comm]

end Transducer

end Support
