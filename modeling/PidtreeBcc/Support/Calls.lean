import Mathlib.Logic.Function.Basic

/-!
# Calls — handlers at the entry and at the return of calls

Threads enter calls and return from them, in any interleaving, each thread from one call before it enters
the next.  A handler runs at every entry and at every return and sees only the state that the handlers
share.

- `WellFormed` says that every return ends the open call of its thread;
- `completed` pairs the returns with their entries;
- `run_inv` carries an invariant of the open calls, the completed ones and the state along a trace.
-/

namespace Support

namespace Calls

variable {θ ε ρ σ : Type*}

inductive Step (θ ε ρ : Type*)
  | enter (thread : θ) (entry : ε)
  | ret (thread : θ) (result : ρ)

/-- An entry with its own return. -/
structure Call (θ ε ρ : Type*) where
  thread : θ
  entry : ε
  result : ρ

/-- The call that each thread is in. -/
abbrev Open (θ ε : Type*) := θ → Option ε

/-- No thread is in a call. -/
def idle : Open θ ε := fun _ => none

section Trace

variable [DecidableEq θ]

def openAfter : Open θ ε → List (Step θ ε ρ) → Open θ ε
  | o, [] => o
  | o, .enter t e :: rest => openAfter (Function.update o t (some e)) rest
  | o, .ret t _ :: rest => openAfter (Function.update o t none) rest

/-- Every entry is by a thread that is in no call, every return by one that is in a call that it fits. -/
def WellFormed (fits : ε → ρ → Prop) : Open θ ε → List (Step θ ε ρ) → Prop
  | _, [] => True
  | o, .enter t e :: rest => o t = none ∧ WellFormed fits (Function.update o t (some e)) rest
  | o, .ret t r :: rest =>
      (∃ e, o t = some e ∧ fits e r) ∧ WellFormed fits (Function.update o t none) rest

/-- The calls that return, in the order of their returns. -/
def completed : Open θ ε → List (Step θ ε ρ) → List (Call θ ε ρ)
  | _, [] => []
  | o, .enter t e :: rest => completed (Function.update o t (some e)) rest
  | o, .ret t r :: rest =>
      ((o t).map fun e => Call.mk t e r).toList ++ completed (Function.update o t none) rest

/-- The state after a trace, with handlers for entries and for returns. -/
def run (onEnter : θ → ε → σ → σ) (onReturn : θ → ρ → σ → σ) : σ → List (Step θ ε ρ) → σ
  | s, [] => s
  | s, .enter t e :: rest => run onEnter onReturn (onEnter t e s) rest
  | s, .ret t r :: rest => run onEnter onReturn (onReturn t r s) rest

variable {fits : ε → ρ → Prop}

theorem WellFormed.of_append {steps' : List (Step θ ε ρ)} :
    ∀ {steps : List (Step θ ε ρ)} {o : Open θ ε}, WellFormed fits o (steps ++ steps') →
      WellFormed fits o steps
  | [], _, _ => trivial
  | .enter _ _ :: _, _, h => ⟨h.1, h.2.of_append⟩
  | .ret _ _ :: _, _, h => ⟨h.1, h.2.of_append⟩

/-- After a return the thread is in no call. -/
theorem openAfter_ret (t : θ) (r : ρ) :
    ∀ (steps : List (Step θ ε ρ)) (o : Open θ ε), openAfter o (steps ++ [.ret t r]) t = none
  | [], o => by simp [openAfter]
  | .enter t' e :: rest, o => openAfter_ret t r rest (Function.update o t' (some e))
  | .ret t' _ :: rest, o => openAfter_ret t r rest (Function.update o t' none)

/-- An invariant of the open calls, of the calls completed so far and of the state, which the handlers
preserve, holds after a well-formed trace. -/
theorem run_inv {onEnter : θ → ε → σ → σ} {onReturn : θ → ρ → σ → σ}
    {I : Open θ ε → List (Call θ ε ρ) → σ → Prop}
    (henter : ∀ o done s t e, I o done s → o t = none →
      I (Function.update o t (some e)) done (onEnter t e s))
    (hreturn : ∀ o done s t e r, I o done s → o t = some e → fits e r →
      I (Function.update o t none) (done ++ [⟨t, e, r⟩]) (onReturn t r s)) :
    ∀ {steps : List (Step θ ε ρ)} {o : Open θ ε} {done : List (Call θ ε ρ)} {s : σ}, I o done s →
      WellFormed fits o steps →
        I (openAfter o steps) (done ++ completed o steps) (run onEnter onReturn s steps)
  | [], o, done, s, hI, _ => by simpa [openAfter, completed, run] using hI
  | .enter t e :: rest, o, done, s, hI, hwell => by
      have hnext := run_inv henter hreturn (henter o done s t e hI hwell.1) hwell.2
      exact hnext
  | .ret t r :: rest, o, done, s, hI, hwell => by
      rcases hwell with ⟨⟨e, hopen, hfits⟩, hrest⟩
      have hnext := run_inv henter hreturn (hreturn o done s t e r hI hopen hfits) hrest
      simpa [openAfter, completed, run, hopen] using hnext

end Trace

end Calls

end Support
