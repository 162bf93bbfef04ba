import Mathlib.Data.List.Basic

/-!
# Lag — a consumer behind a queue

A producer takes inputs, each of which may give an event; the events wait in a queue until the consumer
takes them, and what the consumer reads at that time comes with the delivery.  The producer does not look at
the consumer, so a run in which the queue was emptied is one in which every event was consumed at once.

- `exists_together` finds, for a run with lag, one without;
- `readings_together` says that the deliveries are read in their order.
-/

namespace Support

namespace Lag

variable {σ τ α ε ρ : Type*}

/-- A producer and a consumer. -/
structure Stages (σ τ α ε ρ : Type*) where
  produce : σ → α → σ × Option ε
  consume : τ → ρ → ε → τ

inductive Action (α ρ : Type*)
  | input (a : α)
  | deliver (r : ρ)

structure State (σ τ ε : Type*) where
  producer : σ
  queue : List ε
  consumer : τ

variable (p : Stages σ τ α ε ρ)

/-- A delivery needs an event in the queue. -/
def step (s : State σ τ ε) : Action α ρ → Option (State σ τ ε)
  | .input a =>
      some { s with
        producer := (p.produce s.producer a).1
        queue := s.queue ++ (p.produce s.producer a).2.toList }
  | .deliver r =>
      match s.queue with
      | [] => none
      | event :: rest => some { s with queue := rest, consumer := p.consume s.consumer r event }

/-- The inputs of a run. -/
def inputs (acts : List (Action α ρ)) : List α :=
  acts.filterMap fun
    | .input a => some a
    | .deliver _ => none

/-- What the consumer read in a run. -/
def deliveries (acts : List (Action α ρ)) : List ρ :=
  acts.filterMap fun
    | .input _ => none
    | .deliver r => some r

/-- The producer alone, and the events that it gives. -/
def produceAll : σ → List α → σ × List ε
  | s, [] => (s, [])
  | s, a :: rest =>
      let later := produceAll (p.produce s a).1 rest
      (later.1, (p.produce s a).2.toList ++ later.2)

/-- Producer and consumer without lag: each event is consumed with the reading that stands at its input. -/
def together : σ → τ → List (α × ρ) → σ × τ
  | s, t, [] => (s, t)
  | s, t, (a, r) :: rest =>
      match p.produce s a with
      | (s', none) => together s' t rest
      | (s', some event) => together s' (p.consume t r event) rest

/-- The readings that stand at inputs with an event. -/
def readings : σ → List (α × ρ) → List ρ
  | _, [] => []
  | s, (a, r) :: rest =>
      match p.produce s a with
      | (s', none) => readings s' rest
      | (s', some _) => r :: readings s' rest

variable {p}

theorem produceAll_concat (s : σ) (l : List α) (a : α) :
    produceAll p s (l ++ [a]) =
      ((p.produce (produceAll p s l).1 a).1,
        (produceAll p s l).2 ++ (p.produce (produceAll p s l).1 a).2.toList) := by
  induction l generalizing s with
  | nil => simp [produceAll]
  | cons b rest ih => simp [produceAll, ih]

/-- The first event comes from an input behind ones that give none. -/
theorem exists_first_event {l : List α} :
    ∀ {s : σ} {event : ε} {rest : List ε}, (produceAll p s l).2 = event :: rest →
      ∃ silent a later s', l = silent ++ a :: later ∧ produceAll p s silent = (s', []) ∧
        (p.produce s' a).2 = some event ∧ (produceAll p (p.produce s' a).1 later).2 = rest ∧
        (produceAll p s l).1 = (produceAll p (p.produce s' a).1 later).1 := by
  induction l with
  | nil =>
      intro s event rest h
      cases h
  | cons b l ih =>
      intro s event rest h
      cases hb : (p.produce s b).2 with
      | some event' =>
          simp only [produceAll, hb, Option.toList_some, List.singleton_append, List.cons.injEq] at h
          rcases h with ⟨rfl, hrest⟩
          exact ⟨[], b, l, s, rfl, rfl, hb, hrest, rfl⟩
      | none =>
          simp only [produceAll, hb, Option.toList_none, List.nil_append] at h
          rcases ih h with ⟨silent, a, later, s', rfl, hsilent, ha, hlater, hfinal⟩
          refine ⟨b :: silent, a, later, s', rfl, ?_, ha, hlater, hfinal⟩
          simp [produceAll, hb, hsilent]

theorem together_append (done rest : List (α × ρ)) :
    ∀ (s : σ) (t : τ), together p s t (done ++ rest) =
        together p (together p s t done).1 (together p s t done).2 rest ∧
      readings p s (done ++ rest) =
        readings p s done ++ readings p (together p s t done).1 rest := by
  induction done with
  | nil => exact fun _ _ => ⟨rfl, rfl⟩
  | cons x done ih =>
      intro s t
      rcases x with ⟨a, r⟩
      cases ha : p.produce s a with
      | mk s₁ event? =>
          cases event? with
          | none => simpa [together, readings, ha] using ih s₁ t
          | some event => simpa [together, readings, ha] using ih s₁ (p.consume t r event)

/-- Inputs that give no event leave the consumer alone, whatever stands at them. -/
theorem together_silent (r : ρ) {silent : List α} :
    ∀ {s s' : σ}, produceAll p s silent = (s', []) → ∀ (t : τ) (rest : List (α × ρ)),
      together p s t (silent.map (·, r) ++ rest) = together p s' t rest ∧
        readings p s (silent.map (·, r) ++ rest) = readings p s' rest := by
  induction silent with
  | nil =>
      intro s s' h t rest
      cases h
      exact ⟨rfl, rfl⟩
  | cons a silent ih =>
      intro s s' h t rest
      cases ha : p.produce s a with
      | mk s₁ event? =>
          cases event? with
          | some event => simp [produceAll, ha] at h
          | none =>
              have hrest : produceAll p s₁ silent = (s', []) := by
                simpa [produceAll, ha, Prod.ext_iff] using h
              rcases ih hrest t rest with ⟨htogether, hreadings⟩
              simp only [List.map_cons, List.cons_append, together, readings, ha]
              exact ⟨htogether, hreadings⟩

/-- A run from a state whose queue holds the events of the inputs `pending`. -/
theorem exists_together_from (r₀ : ρ) {acts : List (Action α ρ)} :
    ∀ {s : σ} {t : τ} {pending : List α} {s' : State σ τ ε},
      acts.foldlM (step p) ⟨(produceAll p s pending).1, (produceAll p s pending).2, t⟩ = some s' →
        ∃ (done : List (α × ρ)) (left : List α), pending ++ inputs acts = done.map Prod.fst ++ left ∧
          readings p s done = deliveries acts ∧ (together p s t done).2 = s'.consumer ∧
          produceAll p (together p s t done).1 left = (s'.producer, s'.queue) := by
  induction acts with
  | nil =>
      intro s t pending s' h
      cases h
      exact ⟨[], pending, by simp [inputs], rfl, rfl, rfl⟩
  | cons act acts ih =>
      intro s t pending s' h
      rw [List.foldlM_cons] at h
      rcases Option.bind_eq_some_iff.1 h with ⟨s₁, hstep, hrest⟩
      cases act with
      | input a =>
          have hs₁ : s₁ = ⟨(produceAll p s (pending ++ [a])).1, (produceAll p s (pending ++ [a])).2, t⟩ := by
            rw [produceAll_concat]
            exact (Option.some.inj hstep).symm
          rw [hs₁] at hrest
          rcases ih hrest with ⟨done, left, hinputs, hread, hconsumer, hproducer⟩
          exact ⟨done, left, by simpa [inputs] using hinputs, hread, hconsumer, hproducer⟩
      | deliver r =>
          cases hqueue : (produceAll p s pending).2 with
          | nil => simp [step, hqueue] at hstep
          | cons event rest =>
              rcases exists_first_event hqueue with ⟨silent, a, later, s₂, rfl, hsilent, ha, hlater, hfinal⟩
              simp only [step, hqueue, Option.some.injEq] at hstep
              rw [← hstep, hfinal, ← hlater] at hrest
              rcases ih hrest with ⟨done, left, hinputs, hread, hconsumer, hproducer⟩
              -- The event is consumed now, at the input that gave it.
              rcases together_silent r₀ hsilent t ((a, r) :: done) with ⟨htogether, hreadings⟩
              have hproduce : p.produce s₂ a = ((p.produce s₂ a).1, some event) := Prod.ext rfl ha
              have hnow : together p s₂ t ((a, r) :: done) =
                  together p (p.produce s₂ a).1 (p.consume t r event) done := by
                rw [together, hproduce]
              have hreadNow : readings p s₂ ((a, r) :: done) = r :: readings p (p.produce s₂ a).1 done := by
                rw [readings, hproduce]
              refine ⟨silent.map (·, r₀) ++ (a, r) :: done, left, ?_, ?_, ?_, ?_⟩
              · simpa [inputs, Function.comp_def] using hinputs
              · rw [hreadings, hreadNow, hread]
                rfl
              · rw [htogether, hnow, hconsumer]
              · rw [htogether, hnow, hproducer]

/-- A run that empties the queue is one in which every event was consumed at its input, with the readings
of the deliveries in their order. -/
theorem exists_together (r₀ : ρ) {acts : List (Action α ρ)} {s : σ} {t : τ} {s' : State σ τ ε}
    (h : acts.foldlM (step p) ⟨s, [], t⟩ = some s') (hempty : s'.queue = []) :
    ∃ done : List (α × ρ), done.map Prod.fst = inputs acts ∧ readings p s done = deliveries acts ∧
      together p s t done = (s'.producer, s'.consumer) := by
  have hfrom : acts.foldlM (step p) ⟨(produceAll p s []).1, (produceAll p s []).2, t⟩ = some s' := h
  rcases exists_together_from r₀ hfrom with ⟨done, left, hinputs, hread, hconsumer, hproducer⟩
  rw [hempty] at hproducer
  -- What is left gives no events, so it can stand with any readings.
  rcases together_silent r₀ hproducer (together p s t done).2 [] with ⟨hlast, hnone⟩
  rcases together_append done (left.map (·, r₀)) s t with ⟨htogether, hreadings⟩
  rw [List.append_nil] at hlast hnone
  refine ⟨done ++ left.map (·, r₀), ?_, ?_, ?_⟩
  · simpa [Function.comp_def] using hinputs.symm
  · rw [hreadings, hnone, hread]
    exact List.append_nil _
  · rw [htogether, hlast, ← hconsumer]
    rfl

end Lag

end Support
