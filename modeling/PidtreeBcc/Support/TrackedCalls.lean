import Mathlib.Data.Set.Card
import PidtreeBcc.Support.Calls
import PidtreeBcc.Support.Dict

/-!
# TrackedCalls — probes that follow calls from their entries to their returns

The handler of an entry may keep something in a hash under its thread; the handler of a return takes it
out and may make an event of it.  The hash is bounded: what does not fit is not kept, and nobody is told.

- `events_sublist`: the events are those of completed calls, in the order of the returns;
- `events_eq`: they are all of them when the calls that are followed at one time fit the hash;
- `hash_after_return`: a thread that returned leaves nothing behind.
-/

namespace Support

open Calls

/-- The state that the handlers share. -/
structure TrackedCalls (θ κ β : Type*) where
  hash : Dict θ κ
  events : List β
  deriving DecidableEq

namespace TrackedCalls

variable {θ ε ρ κ β : Type*}

def init : TrackedCalls θ κ β := ⟨Dict.empty, []⟩

/-- What the handlers of a probe make of the calls. -/
structure Probe (θ ε ρ κ β : Type*) where
  capacity : Nat
  /-- What an entry leaves for the return, if the call is followed. -/
  keep : ε → Option κ
  /-- The event of a return that finds something. -/
  emit : θ → κ → ρ → Option β

section Handlers

variable [DecidableEq θ]

/-- `update` of a hash with room for `capacity` keys. -/
def update (capacity : Nat) (t : θ) (k : κ) (s : TrackedCalls θ κ β) : TrackedCalls θ κ β :=
  if s.hash.get? t = none ∧ capacity ≤ s.hash.size then s else { s with hash := s.hash.set t k }

def delete (t : θ) (s : TrackedCalls θ κ β) : TrackedCalls θ κ β := { s with hash := s.hash.erase t }

def submit (event : β) (s : TrackedCalls θ κ β) : TrackedCalls θ κ β :=
  { s with events := s.events ++ [event] }

namespace Probe

variable (p : Probe θ ε ρ κ β)

def onEnter (t : θ) (entry : ε) (s : TrackedCalls θ κ β) : TrackedCalls θ κ β :=
  match p.keep entry with
  | none => s
  | some k => s.update p.capacity t k

def onReturn (t : θ) (r : ρ) (s : TrackedCalls θ κ β) : TrackedCalls θ κ β :=
  match s.hash.get? t with
  | none => s
  | some k =>
      match p.emit t k r with
      | none => s.delete t
      | some event => (s.submit event).delete t

def run (steps : List (Step θ ε ρ)) : TrackedCalls θ κ β :=
  Calls.run p.onEnter p.onReturn init steps

/-- The event of a call whose entry was kept. -/
def eventOf (call : Call θ ε ρ) : Option β :=
  (p.keep call.entry).bind fun k => p.emit call.thread k call.result

/-- The threads that are in a followed call. -/
def following (o : Open θ ε) : Set θ := {t | ((o t).bind p.keep).isSome}

/-- The hash has room for the followed calls that are open at one time. -/
def Fitting (steps : List (Step θ ε ρ)) : Prop :=
  ∀ before after, steps = before ++ after →
    (p.following (openAfter Calls.idle before)).ncard ≤ p.capacity

end Probe

end Handlers

/-! ## What a handler leaves -/

section Frames

variable [DecidableEq θ] {p : Probe θ ε ρ κ β} {s : TrackedCalls θ κ β} {t : θ}

theorem Probe.events_onEnter (entry : ε) : (p.onEnter t entry s).events = s.events := by
  unfold Probe.onEnter
  cases p.keep entry with
  | none => rfl
  | some k =>
      simp only [update]
      split
      · rfl
      · rfl

theorem Probe.get?_onReturn (r : ρ) (t' : θ) :
    (p.onReturn t r s).hash.get? t' = if t = t' then none else s.hash.get? t' := by
  unfold Probe.onReturn
  cases hget : s.hash.get? t with
  | none =>
      by_cases ht : t = t'
      · subst ht
        simpa using hget
      · simp [ht]
  | some k =>
      have herase : (s.hash.erase t).get? t' = if t = t' then none else s.hash.get? t' :=
        Dict.get?_erase _ _ _
      cases hemit : p.emit t k r with
      | none => simpa [hemit, delete] using herase
      | some event => simpa [hemit, delete, submit] using herase

theorem Probe.events_onReturn (r : ρ) :
    (p.onReturn t r s).events =
      s.events ++ ((s.hash.get? t).bind fun k => p.emit t k r).toList := by
  unfold Probe.onReturn
  cases s.hash.get? t with
  | none => simp
  | some k =>
      simp only [Option.bind_some]
      cases p.emit t k r with
      | none => simp [delete]
      | some event => simp [delete, submit]

/-- What is under a thread after an entry was there before, or is what the entry leaves. -/
theorem Probe.get?_onEnter_cases {entry : ε} {t' : θ} {k : κ}
    (h : (p.onEnter t entry s).hash.get? t' = some k) :
    s.hash.get? t' = some k ∨ (t = t' ∧ p.keep entry = some k) := by
  unfold Probe.onEnter at h
  cases hkeep : p.keep entry with
  | none => exact Or.inl (by simpa [hkeep] using h)
  | some k' =>
      simp only [hkeep, update] at h
      split at h
      · exact Or.inl h
      · simp only [Dict.get?_set] at h
        by_cases ht : t = t'
        · exact Or.inr ⟨ht, by simpa [ht] using h⟩
        · exact Or.inl (by simpa [ht] using h)

/-- An entry that finds room leaves what it keeps. -/
theorem Probe.get?_onEnter_of_room {entry : ε} (hroom : s.hash.size < p.capacity) (t' : θ) :
    (p.onEnter t entry s).hash.get? t' =
      if t = t' then (p.keep entry).or (s.hash.get? t') else s.hash.get? t' := by
  unfold Probe.onEnter
  cases p.keep entry with
  | none => simp
  | some k =>
      have hfits : ¬ (s.hash.get? t = none ∧ p.capacity ≤ s.hash.size) :=
        fun h => absurd h.2 (Nat.not_le.2 hroom)
      simp only [update, if_neg hfits, Dict.get?_set, Option.some_or]

end Frames

/-! ## Runs -/

section Runs

variable [DecidableEq θ] {p : Probe θ ε ρ κ β} {fits : ε → ρ → Prop}

/-- What is kept under a thread was left by the call that it is in, and the events are those of
completed calls. -/
structure Sound (p : Probe θ ε ρ κ β) (o : Open θ ε) (done : List (Call θ ε ρ))
    (s : TrackedCalls θ κ β) : Prop where
  own : ∀ t k, s.hash.get? t = some k → (o t).bind p.keep = some k
  events : s.events.Sublist (done.filterMap p.eventOf)

theorem Sound.enter {o : Open θ ε} {done : List (Call θ ε ρ)} {s : TrackedCalls θ κ β} {t : θ}
    {entry : ε} (h : Sound p o done s) (hopen : o t = none) :
    Sound p (Function.update o t (some entry)) done (p.onEnter t entry s) := by
  refine ⟨?_, ?_⟩
  · intro t' k hk
    by_cases ht : t' = t
    · subst ht
      rcases Probe.get?_onEnter_cases hk with hold | ⟨_, hkeep⟩
      · -- The thread was in no call, so the hash had nothing of it.
        have hnone := h.own t' k hold
        simp [hopen] at hnone
      · simpa using hkeep
    · rw [Function.update_of_ne ht]
      rcases Probe.get?_onEnter_cases hk with hold | ⟨hEq, _⟩
      · exact h.own t' k hold
      · exact absurd hEq.symm ht
  · rw [Probe.events_onEnter]
    exact h.events

theorem Sound.ret {o : Open θ ε} {done : List (Call θ ε ρ)} {s : TrackedCalls θ κ β} {t : θ}
    {entry : ε} (r : ρ) (h : Sound p o done s) (hopen : o t = some entry) :
    Sound p (Function.update o t none) (done ++ [⟨t, entry, r⟩]) (p.onReturn t r s) := by
  refine ⟨?_, ?_⟩
  · intro t' k hk
    rw [Probe.get?_onReturn] at hk
    by_cases ht : t = t'
    · simp [ht] at hk
    · rw [if_neg ht] at hk
      rw [Function.update_of_ne (Ne.symm ht)]
      exact h.own t' k hk
  · rw [Probe.events_onReturn, List.filterMap_append]
    refine h.events.append ?_
    cases hget : s.hash.get? t with
    | none => simp
    | some k =>
        have hkeep := h.own t k hget
        rw [hopen, Option.bind_some] at hkeep
        simp only [Option.bind_some, List.filterMap_cons, List.filterMap_nil, Probe.eventOf, hkeep]
        cases p.emit t k r with
        | none => simp
        | some event => simp

theorem sound_run {steps : List (Step θ ε ρ)} (hwell : WellFormed fits Calls.idle steps) :
    Sound p (openAfter Calls.idle steps) (completed Calls.idle steps) (p.run steps) := by
  have hinit : Sound p Calls.idle [] init := ⟨fun t k hk => by simp [init] at hk, by simp [init]⟩
  have hinv := Calls.run_inv (I := Sound p) (fun _ _ _ _ _ h hopen => h.enter hopen)
    (fun _ _ _ _ _ r h hopen _ => h.ret r hopen) hinit hwell
  rw [List.nil_append] at hinv
  exact hinv

/-- Every event is that of a call that returned, in the order of the returns. -/
theorem events_sublist {steps : List (Step θ ε ρ)} (hwell : WellFormed fits Calls.idle steps) :
    (p.run steps).events.Sublist ((completed Calls.idle steps).filterMap p.eventOf) :=
  (sound_run hwell).events

/-- Nothing is left under a thread that is in no call. -/
theorem hash_of_idle {steps : List (Step θ ε ρ)} {t : θ}
    (hwell : WellFormed fits Calls.idle steps) (hidle : openAfter Calls.idle steps t = none) :
    (p.run steps).hash.get? t = none := by
  cases hget : (p.run steps).hash.get? t with
  | none => rfl
  | some k =>
      have hown := (sound_run hwell).own t k hget
      simp [hidle] at hown

theorem hash_after_return {before after : List (Step θ ε ρ)} {t : θ} {r : ρ}
    (hwell : WellFormed fits Calls.idle (before ++ .ret t r :: after)) :
    (p.run (before ++ [.ret t r])).hash.get? t = none := by
  have hcons : before ++ Step.ret t r :: after = (before ++ [.ret t r]) ++ after := by simp
  rw [hcons] at hwell
  exact hash_of_idle hwell.of_append (openAfter_ret t r before Calls.idle)

/-! ### With room for the followed calls -/

/-- The hash has what the open calls left, and the events are those of all completed calls. -/
structure Exact (p : Probe θ ε ρ κ β) (o : Open θ ε) (done : List (Call θ ε ρ))
    (s : TrackedCalls θ κ β) : Prop where
  tracks : ∀ t, s.hash.get? t = (o t).bind p.keep
  events : s.events = done.filterMap p.eventOf

theorem Exact.size_eq {o : Open θ ε} {done : List (Call θ ε ρ)} {s : TrackedCalls θ κ β}
    (h : Exact p o done s) : s.hash.size = (p.following o).ncard := by
  have hset : p.following o = (s.hash.keys.toFinset : Set θ) := by
    ext t
    simp only [Probe.following, Set.mem_ofPred_eq, ← h.tracks t, List.coe_toFinset,
      Dict.mem_keys_iff, Option.isSome_iff_exists]
  rw [hset, Set.ncard_coe_finset, List.toFinset_card_of_nodup s.hash.keys_nodup, Dict.length_keys]

theorem Exact.enter {o : Open θ ε} {done : List (Call θ ε ρ)} {s : TrackedCalls θ κ β} {t : θ}
    {entry : ε} (h : Exact p o done s) (hopen : o t = none)
    (hroom : (p.following (Function.update o t (some entry))).ncard ≤ p.capacity) :
    Exact p (Function.update o t (some entry)) done (p.onEnter t entry s) := by
  have hold : s.hash.get? t = none := by simp [h.tracks t, hopen]
  refine ⟨?_, by rw [Probe.events_onEnter, h.events]⟩
  cases hkeep : p.keep entry with
  | none =>
      have hsame : p.onEnter t entry s = s := by simp [Probe.onEnter, hkeep]
      intro t'
      rw [hsame]
      by_cases ht : t' = t
      · subst ht
        simp [hold, hkeep]
      · rw [Function.update_of_ne ht, h.tracks t']
  | some k =>
      -- One more thread is followed than before, so there was room for one more.
      have hgrows : p.following (Function.update o t (some entry)) = insert t (p.following o) := by
        ext t'
        by_cases ht : t' = t
        · subst ht
          simp [Probe.following, hkeep]
        · simp [Probe.following, ht]
      have hnew : t ∉ p.following o := by simp [Probe.following, hopen]
      have hfinite : (p.following o).Finite := by
        refine Set.Finite.subset s.hash.keys.toFinset.finite_toSet ?_
        intro t' ht'
        simpa [Dict.mem_keys_iff, h.tracks t', Option.isSome_iff_exists, Probe.following] using ht'
      rw [hgrows, Set.ncard_insert_of_notMem hnew hfinite, ← h.size_eq] at hroom
      intro t'
      rw [Probe.get?_onEnter_of_room hroom]
      by_cases ht : t = t'
      · subst ht
        simp [hkeep]
      · rw [if_neg ht, Function.update_of_ne (Ne.symm ht), h.tracks t']

theorem Exact.ret {o : Open θ ε} {done : List (Call θ ε ρ)} {s : TrackedCalls θ κ β} {t : θ}
    {entry : ε} (r : ρ) (h : Exact p o done s) (hopen : o t = some entry) :
    Exact p (Function.update o t none) (done ++ [⟨t, entry, r⟩]) (p.onReturn t r s) := by
  refine ⟨?_, ?_⟩
  · intro t'
    rw [Probe.get?_onReturn]
    by_cases ht : t = t'
    · simp [ht]
    · rw [if_neg ht, Function.update_of_ne (Ne.symm ht), h.tracks t']
  · rw [Probe.events_onReturn, h.tracks t, hopen, h.events, List.filterMap_append]
    -- The last list on the right has the one event of this call, or none.
    rfl

theorem exact_run_from :
    ∀ {steps : List (Step θ ε ρ)} {s : TrackedCalls θ κ β} {o : Open θ ε}
      {done : List (Call θ ε ρ)}, Exact p o done s → WellFormed fits o steps →
      (∀ before after, steps = before ++ after →
        (p.following (openAfter o before)).ncard ≤ p.capacity) →
      Exact p (openAfter o steps) (done ++ completed o steps)
        (Calls.run p.onEnter p.onReturn s steps)
  | [], s, o, done, h, _, _ => by simpa [openAfter, completed, Calls.run] using h
  | .enter t entry :: rest, s, o, done, h, hwell, hroom => by
      have hfirst := h.enter hwell.1 (hroom [.enter t entry] rest rfl)
      have hnext := exact_run_from hfirst hwell.2 fun before after hEq =>
        hroom (.enter t entry :: before) after (by simp [hEq])
      exact hnext
  | .ret t r :: rest, s, o, done, h, hwell, hroom => by
      rcases hwell with ⟨⟨entry, hopen, _⟩, hrest⟩
      have hnext := exact_run_from (h.ret r hopen) hrest fun before after hEq =>
        hroom (.ret t r :: before) after (by simp [hEq])
      simpa [openAfter, completed, Calls.run, hopen] using hnext

def threadOf : Step θ ε ρ → θ
  | .enter t _ => t
  | .ret t _ => t

/-- A thread that is in a call was there before or took a step. -/
theorem mem_threads_of_open :
    ∀ {steps : List (Step θ ε ρ)} {o : Open θ ε} {t : θ}, openAfter o steps t ≠ none →
      o t ≠ none ∨ t ∈ steps.map threadOf
  | [], o, t, h => Or.inl h
  | .enter t' entry :: rest, o, t, h => by
      by_cases ht : t = t'
      · exact Or.inr (by simp [threadOf, ht])
      · have hrest : openAfter (Function.update o t' (some entry)) rest t ≠ none := h
        rcases mem_threads_of_open hrest with hopen | hmem
        · exact Or.inl (by rwa [Function.update_of_ne ht] at hopen)
        · exact Or.inr (List.mem_cons_of_mem _ hmem)
  | .ret t' r :: rest, o, t, h => by
      by_cases ht : t = t'
      · exact Or.inr (by simp [threadOf, ht])
      · have hrest : openAfter (Function.update o t' none) rest t ≠ none := h
        rcases mem_threads_of_open hrest with hopen | hmem
        · exact Or.inl (by rwa [Function.update_of_ne ht] at hopen)
        · exact Or.inr (List.mem_cons_of_mem _ hmem)

/-- A trace that is no longer than the capacity fits. -/
theorem Probe.fitting_of_length {steps : List (Step θ ε ρ)} (h : steps.length ≤ p.capacity) :
    p.Fitting steps := by
  rintro before after rfl
  have hsub : p.following (openAfter Calls.idle before) ⊆ ((before.map threadOf).toFinset : Set θ) := by
    intro t ht
    have hopen : openAfter Calls.idle before t ≠ none := by
      intro hnone
      simp [Probe.following, hnone] at ht
    rcases mem_threads_of_open hopen with hidle | hmem
    · exact absurd rfl hidle
    · exact List.mem_toFinset.2 hmem
  calc
    (p.following (openAfter Calls.idle before)).ncard
        ≤ ((before.map threadOf).toFinset : Set θ).ncard :=
          Set.ncard_le_ncard hsub (Finset.finite_toSet _)
    _ = (before.map threadOf).toFinset.card := Set.ncard_coe_finset _
    _ ≤ (before.map threadOf).length := List.toFinset_card_le _
    _ = before.length := List.length_map _
    _ ≤ (before ++ after).length := by simp
    _ ≤ p.capacity := h

/-- When the hash has room, the events are those of the calls that returned, no one missing. -/
theorem events_eq {steps : List (Step θ ε ρ)} (hwell : WellFormed fits Calls.idle steps)
    (hroom : p.Fitting steps) :
    (p.run steps).events = (completed Calls.idle steps).filterMap p.eventOf := by
  have hinit : Exact p Calls.idle [] (init : TrackedCalls θ κ β) := ⟨fun _ => rfl, rfl⟩
  have hexact := exact_run_from hinit hwell hroom
  exact hexact.events

end Runs

end TrackedCalls

end Support
