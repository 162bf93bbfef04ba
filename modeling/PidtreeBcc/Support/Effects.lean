import Mathlib.Data.Set.Lattice

/-!
# Effects — computations with a state that survives an exception

A computation of `Eff ε σ α` ends with a value or an exception, and in either case leaves a state.

- `Asking` is a computation that is left with questions for its surroundings;
- `Computes` says what a computation gives on every state of a kind, and what it has dealt with then: `P A`
  holds of the states of the kind `P` in which the elements of `A` have been dealt with;
- `Simulates` says that two computations on related states both end with the same value or both raise, in
  related states.

Each has one rule for each way in which a computation is built.
-/

namespace Support

/-- Computations that may raise an exception; the state is kept. -/
abbrev Eff (ε σ α : Type) := ExceptT ε (StateM σ) α

namespace Eff

variable {ε σ τ α β κ : Type}

/-- How the computation ends, and the state that it leaves. -/
def exec (m : Eff ε σ α) (s : σ) : Except ε α × σ := StateT.run (ExceptT.run m) s

@[simp] theorem exec_pure (a : α) (s : σ) : exec (pure a : Eff ε σ α) s = (.ok a, s) := rfl

@[simp] theorem exec_throw (err : ε) (s : σ) : exec (throw err : Eff ε σ α) s = (.error err, s) := rfl

@[simp] theorem exec_get (s : σ) : exec (get : Eff ε σ σ) s = (.ok s, s) := rfl

@[simp] theorem exec_modify (f : σ → σ) (s : σ) : exec (modify f : Eff ε σ PUnit) s = (.ok ⟨⟩, f s) := rfl

theorem exec_bind (m : Eff ε σ α) (f : α → Eff ε σ β) (s : σ) :
    exec (m >>= f) s =
      match exec m s with
      | (.ok a, s') => exec (f a) s'
      | (.error err, s') => (.error err, s') := by
  change (match exec m s with | (r, s') => ExceptT.bindCont f r s') = _
  rcases exec m s with ⟨r, s'⟩
  cases r <;> rfl

theorem exec_tryCatch (m : Eff ε σ α) (handler : ε → Eff ε σ α) (s : σ) :
    exec (tryCatch m handler) s =
      match exec m s with
      | (.ok a, s') => (.ok a, s')
      | (.error err, s') => exec (handler err) s' := by
  have hrun : exec (tryCatch m handler) s =
      match exec m s with
      | (r, s') => exec (match r with | .ok a => pure a | .error err => handler err) s' := rfl
  rw [hrun]
  rcases exec m s with ⟨r, s'⟩
  cases r <;> rfl

end Eff

/-! ## Computations with open questions -/

/-- A computation that asks questions one after the other, each in view of the answers so far, and ends with
a value or fails. -/
inductive Asking (κ δ α : Type)
  | done (a : α)
  | fails
  | ask (question : κ) (next : δ → Asking κ δ α)

namespace Asking

variable {ε σ κ δ α : Type}

/-- The questions are answered by a computation. -/
def run (answer : κ → Eff ε σ δ) (failure : ε) : Asking κ δ α → Eff ε σ α
  | done a => pure a
  | fails => throw failure
  | ask question next => do
      let d ← answer question
      run answer failure (next d)

/-- The value, with the answers of a function that may leave a question unanswered. -/
def eval (answer : κ → Option δ) : Asking κ δ α → Option α
  | done a => some a
  | fails => none
  | ask question next => (answer question).bind fun d => eval answer (next d)

/-- The questions that are asked with these answers. -/
def asked (answer : κ → Option δ) : Asking κ δ α → List κ
  | done _ => []
  | fails => []
  | ask question next =>
      question ::
        match answer question with
        | none => []
        | some d => asked answer (next d)

/-- The question is asked, whatever the answers are. -/
inductive Asks (question : κ) : Asking κ δ α → Prop
  | here (next : δ → Asking κ δ α) : Asks question (ask question next)
  | later {question' : κ} {next : δ → Asking κ δ α} (d : δ) (h : Asks question (next d)) :
      Asks question (ask question' next)

/-- Only the answers to what is asked matter. -/
theorem eval_congr {answer answer' : κ → Option δ} {c : Asking κ δ α}
    (h : ∀ question ∈ c.asked answer, answer' question = answer question) :
    c.eval answer' = c.eval answer := by
  induction c with
  | done a => rfl
  | fails => rfl
  | ask question next ih =>
      have hhead : answer' question = answer question := h question (by simp [asked])
      unfold eval
      rw [hhead]
      cases hanswer : answer question with
      | none => rfl
      | some d =>
          refine ih d fun question' hmem => h question' ?_
          simp [asked, hanswer, hmem]

theorem asks_of_mem_asked {answer : κ → Option δ} {question : κ} {c : Asking κ δ α}
    (h : question ∈ c.asked answer) : c.Asks question := by
  induction c with
  | done a => simp [asked] at h
  | fails => simp [asked] at h
  | ask question' next ih =>
      unfold asked at h
      rcases List.mem_cons.1 h with rfl | h
      · exact .here next
      · cases hanswer : answer question' with
        | none => simp [hanswer] at h
        | some d =>
            rw [hanswer] at h
            exact .later d (ih d h)

end Asking

/-! ## What a computation gives -/

namespace Eff

variable {ε ε' σ τ α β δ κ κ' : Type}

/-- From every state of `P` the computation gives the value, if there is one to give, and leaves a state of
`Q` in which the elements of `B` have been dealt with as well; if there is none it raises. -/
def Computes (P Q : Set κ → σ → Prop) (m : Eff ε σ α) (value : Option α) (B : Set κ) : Prop :=
  ∀ A s, P A s →
    match value with
    | some a => (exec m s).1 = .ok a ∧ Q (A ∪ B) (exec m s).2
    | none => ∃ err, (exec m s).1 = .error err

namespace Computes

variable {P Q R : Set κ → σ → Prop}

theorem pure (a : α) : Computes P P (Pure.pure a : Eff ε σ α) (some a) ∅ := by
  intro A s hP
  exact ⟨rfl, by simpa using hP⟩

theorem throw (err : ε) (B : Set κ) : Computes P Q (throwThe ε err : Eff ε σ α) none B :=
  fun _ _ _ => ⟨err, rfl⟩

theorem modify {f : σ → σ} {B : Set κ} (h : ∀ A s, P A s → Q (A ∪ B) (f s)) :
    Computes P Q (MonadState.modifyGet fun s => (⟨⟩, f s) : Eff ε σ PUnit) (some ⟨⟩) B :=
  fun A s hP => ⟨rfl, h A s hP⟩

/-- What is dealt with matters only where there is a value. -/
theorem congr {m : Eff ε σ α} {value : Option α} {B C : Set κ} (hm : Computes P Q m value B)
    (h : ∀ a, value = some a → B = C) : Computes P Q m value C := by
  cases value with
  | none => exact hm
  | some a =>
      rw [← h a rfl]
      exact hm

theorem of_imp {m : Eff ε σ α} {value : Option α} {B : Set κ} (hm : Computes Q R m value B)
    (h : ∀ A s, P A s → Q A s) : Computes P R m value B :=
  fun A s hP => hm A s (h A s hP)

theorem bind {m : Eff ε σ α} {f : α → Eff ε σ β} {value : Option α} {g : α → Option β} {B C : Set κ}
    (hm : Computes P Q m value B) (hf : ∀ a, value = some a → Computes Q R (f a) (g a) C) :
    Computes P R (m >>= f) (value.bind g) (B ∪ C) := by
  intro A s hP
  have hrun := hm A s hP
  rw [exec_bind]
  rcases hexec : exec m s with ⟨r, s'⟩
  rw [hexec] at hrun
  cases value with
  | none =>
      -- What follows is not run.
      rcases hrun with ⟨err, hr⟩
      obtain rfl : r = .error err := hr
      exact ⟨err, rfl⟩
  | some a =>
      rcases hrun with ⟨hr, hQ⟩
      obtain rfl : r = .ok a := hr
      have hnext := hf a rfl (A ∪ B) s' hQ
      rw [Set.union_assoc] at hnext
      exact hnext

/-- A handler that always raises gives no value. -/
theorem tryCatch {m : Eff ε σ α} {handler : ε → Eff ε σ α} {value : Option α} {B : Set κ}
    (hm : Computes P Q m value B) (hraises : ∀ err, ∃ err', handler err = throwThe ε err') :
    Computes P Q (MonadExcept.tryCatch m handler) value B := by
  intro A s hP
  have hrun := hm A s hP
  rw [exec_tryCatch]
  rcases hexec : exec m s with ⟨r, s'⟩
  rw [hexec] at hrun
  cases value with
  | none =>
      rcases hrun with ⟨err, hr⟩
      rcases hraises err with ⟨err', hhandler⟩
      obtain rfl : r = .error err := hr
      exact ⟨err', by simp only [hhandler]; rfl⟩
  | some a =>
      rcases hrun with ⟨hr, hQ⟩
      obtain rfl : r = .ok a := hr
      exact ⟨rfl, hQ⟩

/-- The answers to the questions are computed one after the other. -/
theorem run {answer : κ' → Eff ε σ δ} {value : κ' → Option δ} {B : κ' → Set κ} (failure : ε)
    {c : Asking κ' δ α}
    (h : ∀ question, c.Asks question → Computes P P (answer question) (value question) (B question)) :
    Computes P P (c.run answer failure) (c.eval value) (⋃ question ∈ c.asked value, B question) := by
  induction c with
  | done a =>
      have hset : (⋃ question ∈ (Asking.done a : Asking κ' δ α).asked value, B question) = ∅ := by
        simp [Asking.asked]
      rw [hset]
      exact Computes.pure a
  | fails => exact Computes.throw failure _
  | ask question next ih =>
      have hhead := h question (.here next)
      cases hvalue : value question with
      | none =>
          -- The question that is left open is the last one.
          have hset : (⋃ q ∈ (Asking.ask question next).asked value, B q) = B question ∪ ∅ := by
            simp [Asking.asked, hvalue]
          rw [hset]
          exact hhead.bind fun d hd => by simp [hvalue] at hd
      | some d =>
          have hset : (⋃ q ∈ (Asking.ask question next).asked value, B q) =
              B question ∪ ⋃ q ∈ (next d).asked value, B q := by
            ext x
            simp [Asking.asked, hvalue]
          rw [hset]
          refine hhead.bind fun d' hd' => ?_
          obtain rfl : d = d' := by simpa [hvalue] using hd'
          exact ih d fun q hq => h q (.later d hq)

end Computes

/-! ## Computations that end alike -/

/-- From states related by `P` both computations end with the same value, in states related by `Q`, or both
raise, in states related by `E`. -/
def Simulates (P Q E : σ → τ → Prop) (m : Eff ε σ α) (m' : Eff ε' τ α) : Prop :=
  ∀ s t, P s t →
    match exec m s, exec m' t with
    | (.ok a, s'), (.ok a', t') => a = a' ∧ Q s' t'
    | (.error _, s'), (.error _, t') => E s' t'
    | _, _ => False

namespace Simulates

variable {P Q R E : σ → τ → Prop}

theorem pure (a : α) : Simulates P P E (Pure.pure a : Eff ε σ α) (Pure.pure a : Eff ε' τ α) :=
  fun _ _ hP => ⟨rfl, hP⟩

theorem throw (err : ε) (err' : ε') (h : ∀ s t, P s t → E s t) :
    Simulates P Q E (throwThe ε err : Eff ε σ α) (throwThe ε' err' : Eff ε' τ α) :=
  fun s t hP => h s t hP

theorem bind {m : Eff ε σ α} {m' : Eff ε' τ α} {f : α → Eff ε σ β} {f' : α → Eff ε' τ β}
    (hm : Simulates P Q E m m') (hf : ∀ a, Simulates Q R E (f a) (f' a)) :
    Simulates P R E (m >>= f) (m' >>= f') := by
  intro s t hP
  have hrun := hm s t hP
  rw [exec_bind, exec_bind]
  generalize exec m s = r at hrun ⊢
  generalize exec m' t = r' at hrun ⊢
  rcases r with ⟨_ | a, s'⟩ <;> rcases r' with ⟨_ | a', t'⟩
  · exact hrun
  · exact False.elim hrun
  · exact False.elim hrun
  · rcases hrun with ⟨rfl, hQ⟩
    exact hf a s' t' hQ

/-- A step of the first computation alone. -/
theorem modify_bind {f : σ → σ} {m : Eff ε σ α} {m' : Eff ε' τ α} (hf : ∀ s t, P s t → Q (f s) t)
    (hm : Simulates Q R E m m') :
    Simulates P R E ((MonadState.modifyGet fun s => (⟨⟩, f s) : Eff ε σ PUnit) >>= fun _ => m) m' :=
  fun s t hP => hm (f s) t (hf s t hP)

/-- A handler that always raises makes no difference. -/
theorem tryCatch {m : Eff ε σ α} {m' : Eff ε' τ α} {handler : ε → Eff ε σ α}
    (hm : Simulates P Q E m m') (hraises : ∀ err, ∃ err', handler err = throwThe ε err') :
    Simulates P Q E (MonadExcept.tryCatch m handler) m' := by
  intro s t hP
  have hrun := hm s t hP
  rw [exec_tryCatch]
  generalize exec m s = r at hrun ⊢
  rcases r with ⟨err | a, s'⟩
  · rcases hraises err with ⟨err', hhandler⟩
    have hexec : exec (handler err) s' = (.error err', s') := by
      rw [hhandler]
      rfl
    simp only [hexec]
    generalize exec m' t = r' at hrun ⊢
    rcases r' with ⟨_ | a', t'⟩ <;> exact hrun
  · exact hrun

theorem run {answer : κ → Eff ε σ δ} {answer' : κ → Eff ε' τ δ} (failure : ε) (failure' : ε')
    (hE : ∀ s t, P s t → E s t) (h : ∀ question, Simulates P P E (answer question) (answer' question)) :
    ∀ c : Asking κ δ α, Simulates P P E (c.run answer failure) (c.run answer' failure')
  | .done a => Simulates.pure a
  | .fails => Simulates.throw failure failure' hE
  | .ask question next => (h question).bind fun d => run failure failure' hE h (next d)

end Simulates

end Eff

end Support
