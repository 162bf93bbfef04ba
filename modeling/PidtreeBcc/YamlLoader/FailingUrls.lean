import Mathlib.Data.List.Perm.Subperm
import PidtreeBcc.Support.Rounds
import PidtreeBcc.YamlLoader.Loader

/-!
# FailingUrls — urls whose fetch raises

An exception leaves the loop over the workload, and `never_crash` calls `fetch_remote_configurations`
again, which starts with the first url.  So the thread goes round the workload only up to the first url
whose fetch raises, and never comes to those after it.

The urls are attended to in turn just when no url but the last one fails.
-/

namespace PidtreeBcc

open Support

namespace YamlLoader

/-- The fetcher thread, with the urls it has tried to fetch so far. -/
structure FetchRun where
  phase : FetcherPhase
  attempts : List String
  deriving DecidableEq, Repr

/-- A step of the thread, with the stop flag and the condition held by another thread that it finds, or a
`fence.notify()` of another thread. -/
inductive FetchAction
  | fetcher (doStop : Bool) (blocked : Option Nat) (a : FetcherAction)
  | notifyFence
  deriving DecidableEq, Repr

/-- A fetch ends the way it does for its url. -/
def FetcherPhase.allows (raises : String → Bool) : FetcherPhase → FetcherAction → Bool
  | fetching url _ _, .fetch succeeds => succeeds != raises url
  | _, _ => true

/-- The url for which a step calls `_fetch_remote_configuration_impl`. -/
def FetcherPhase.attempted : FetcherPhase → FetcherAction → List String
  | serving ((url, _) :: _), .acquireReady => [url]
  | _, _ => []

namespace FetchRun

def init : FetchRun := ⟨.testing, []⟩

variable (raises : String → Bool) (workload : Workload)

def step (st : FetchRun) : FetchAction → Option FetchRun
  | .fetcher doStop blocked a =>
      if st.phase.allows raises a then
        (st.phase.step doStop workload blocked a).map fun phase =>
          ⟨phase, st.attempts ++ st.phase.attempted a⟩
      else none
  | .notifyFence => some { st with phase := st.phase.fenceNotified }

/-- The urls that one pass tries: those up to the first one that fails. -/
def pass : List String → List String
  | [] => []
  | url :: urls => if raises url then [url] else url :: pass urls

variable {raises workload}

/-! ## One pass -/

theorem pass_prefix : ∀ urls, pass raises urls <+: urls
  | [] => List.prefix_rfl
  | url :: urls => by
      by_cases hraises : raises url = true
      · simp [pass, hraises]
      · simpa [pass, hraises] using pass_prefix urls

theorem pass_append {served : List String} (hserved : ∀ url ∈ served, raises url = false)
    (urls : List String) : pass raises (served ++ urls) = served ++ pass raises urls := by
  induction served with
  | nil => rfl
  | cons url served ih =>
      have hurl : raises url = false := hserved url (by simp)
      have hrest := ih fun other hother => hserved other (List.mem_cons_of_mem url hother)
      simp [pass, hurl, hrest]

/-- A pass comes to all urls just when none but the last one fails. -/
theorem pass_eq_self_iff :
    ∀ urls, pass raises urls = urls ↔ ∀ url ∈ urls.dropLast, raises url = false
  | [] => by simp [pass]
  | [url] => by simp [pass]
  | url :: other :: urls => by
      have ih := pass_eq_self_iff (other :: urls)
      by_cases hraises : raises url = true
      · simp [pass, hraises]
      · have hpass : pass raises (url :: other :: urls) = url :: pass raises (other :: urls) := by
          simp [pass, hraises]
        rw [hpass, List.dropLast_cons_of_ne_nil (by simp), List.forall_mem_cons, ← ih]
        simp [hraises]

/-! ## What every run keeps -/

/-- The urls `served` in this pass, and those that are left of the workload. -/
def Served (raises : String → Bool) (workload : Workload) (served : List String)
    (todo : List (String × PathReady)) : Prop :=
  workload.keys = served ++ todo.map Prod.fst ∧ ∀ url ∈ served, raises url = false

/-- The part of a pass that the thread has made. -/
def InPass (raises : String → Bool) (workload : Workload) (part : List String) : FetcherPhase → Prop
  | .serving todo => Served raises workload part todo
  | .fetching url pathReady todo =>
      ∃ served, part = served ++ [url] ∧ Served raises workload served ((url, pathReady) :: todo)
  | .fetched _ _ todo => Served raises workload part todo
  | .notified _ _ todo => Served raises workload part todo
  | _ => part = []

/-- The attempts are passes over the workload, the last of which may be in progress. -/
def Inv (raises : String → Bool) (workload : Workload) (st : FetchRun) : Prop :=
  ∃ k part, st.attempts = Rounds.rounds (pass raises workload.keys) k part ∧
    InPass raises workload part st.phase

theorem Served.pass_eq {served : List String} {todo : List (String × PathReady)}
    (h : Served raises workload served todo) :
    pass raises workload.keys = served ++ pass raises (todo.map Prod.fst) := by
  rw [h.1, pass_append h.2]

theorem InPass.prefix {part : List String} {phase : FetcherPhase}
    (h : InPass raises workload part phase) : part <+: pass raises workload.keys := by
  cases phase with
  | serving todo => exact ⟨_, (Served.pass_eq h).symm⟩
  | fetching url pathReady todo =>
      obtain ⟨served, rfl, hserved⟩ := h
      -- Whether the fetch will raise or not, the pass has come to the url.
      have hurl : [url] <+: pass raises (url :: todo.map Prod.fst) := by
        by_cases hraises : raises url = true <;> simp [pass, hraises]
      calc
        served ++ [url] <+: served ++ pass raises (url :: todo.map Prod.fst) :=
          (List.prefix_append_right_inj served).2 hurl
        _ = pass raises workload.keys := hserved.pass_eq.symm
  | fetched url pathReady todo => exact ⟨_, (Served.pass_eq h).symm⟩
  | notified url pathReady todo => exact ⟨_, (Served.pass_eq h).symm⟩
  | _ =>
      have hnil : part = [] := h
      simp [hnil]

theorem inv_init : Inv raises workload init := ⟨0, [], by simp [init], rfl⟩

theorem InPass.fenceNotified {part : List String} {phase : FetcherPhase}
    (h : InPass raises workload part phase) : InPass raises workload part phase.fenceNotified := by
  cases phase <;> exact h

theorem InPass.append_nil {part attempted : List String} {phase : FetcherPhase}
    (h : InPass raises workload part phase) (hnone : attempted = []) :
    InPass raises workload (part ++ attempted) phase := by
  rw [hnone, List.append_nil]
  exact h

/-- A step goes on with the pass, or ends it. -/
theorem InPass.step {part : List String} {phase phase' : FetcherPhase} {doStop : Bool}
    {blocked : Option Nat} {a : FetcherAction} (h : InPass raises workload part phase)
    (hallows : phase.allows raises a = true)
    (hphase : phase.step doStop workload blocked a = some phase') :
    InPass raises workload (part ++ phase.attempted a) phase' ∨
      phase.attempted a = [] ∧ part = pass raises workload.keys ∧ InPass raises workload [] phase' := by
  rcases FetcherPhase.step_cases hphase with ⟨rfl, rfl, rfl⟩ | ⟨rfl, rfl, rfl⟩ |
    ⟨url, pathReady, todo, rfl, rfl, -, rfl⟩ | ⟨url, pathReady, todo, rfl, rfl, rfl⟩ |
    ⟨url, pathReady, todo, rfl, rfl, rfl⟩ | ⟨url, pathReady, todo, rfl, rfl, rfl⟩ |
    ⟨url, pathReady, todo, rfl, rfl, rfl⟩ | ⟨rfl, rfl, rfl⟩ | ⟨rfl, rfl, rfl⟩ | ⟨rfl, rfl, rfl⟩
  · exact .inl (InPass.append_nil (by cases doStop <;> exact h) rfl)
  · -- A pass begins.
    obtain rfl : part = [] := h
    exact .inl ⟨rfl, by simp [FetcherPhase.attempted]⟩
  · exact .inl ⟨part, rfl, h⟩
  · obtain ⟨served, rfl, hserved, hhealthy⟩ := h
    have hurl : raises url = false := by simpa [FetcherPhase.allows] using hallows
    refine .inl ⟨?_, ?_⟩
    · simpa [FetcherPhase.attempted] using hserved
    · simpa [FetcherPhase.attempted, or_imp, forall_and, hurl] using hhealthy
  · -- The exception ends the pass where it is.
    obtain ⟨served, rfl, hserved⟩ := h
    have hurl : raises url = true := by simpa [FetcherPhase.allows] using hallows
    exact .inr ⟨rfl, by simp [hserved.pass_eq, pass, hurl], rfl⟩
  · exact .inl (InPass.append_nil h rfl)
  · exact .inl (InPass.append_nil h rfl)
  · -- All of the workload has been served.
    exact .inr ⟨rfl, by simpa [pass] using (Served.pass_eq h).symm, rfl⟩
  · exact .inl (InPass.append_nil h rfl)
  · exact .inl (InPass.append_nil h rfl)

theorem Inv.step {st st' : FetchRun} {action : FetchAction} (hinv : Inv raises workload st)
    (h : st.step raises workload action = some st') : Inv raises workload st' := by
  obtain ⟨k, part, hattempts, hpart⟩ := hinv
  cases action with
  | notifyFence =>
      cases h
      exact ⟨k, part, hattempts, hpart.fenceNotified⟩
  | fetcher doStop blocked a =>
      simp only [FetchRun.step, Option.ite_none_right_eq_some, Option.map_eq_some_iff] at h
      obtain ⟨hallows, phase', hphase, rfl⟩ := h
      rcases hpart.step hallows hphase with hnext | ⟨hnone, rfl, hnext⟩
      · exact ⟨k, _, by rw [hattempts, Rounds.rounds_append], hnext⟩
      · exact ⟨k + 1, [], by rw [hnone, List.append_nil, hattempts, Rounds.rounds_self], hnext⟩

theorem Inv.of_run {acts : List FetchAction} {st : FetchRun}
    (h : acts.foldlM (FetchRun.step raises workload) init = some st) : Inv raises workload st :=
  Run.foldlM_inv (fun _ _ _ hinv hstep => hinv.step hstep) inv_init h

/-- In no run is a url tried that stands after one that fails. -/
theorem attempts_subset_pass {acts : List FetchAction} {st : FetchRun}
    (h : acts.foldlM (FetchRun.step raises workload) init = some st) :
    st.attempts ⊆ pass raises workload.keys := by
  obtain ⟨k, part, hattempts, hpart⟩ := Inv.of_run h
  intro url hurl
  rw [hattempts] at hurl
  exact Rounds.mem_of_mem_rounds hpart.prefix.subset hurl

/-! ## Two passes -/

/-- The steps of one pass over what is left of the workload, which nobody disturbs. -/
def passActions (raises : String → Bool) : List (String × PathReady) → List FetchAction
  | [] => [.fetcher false none .waitFence, .fetcher false none .timeout]
  | (url, _) :: todo =>
      .fetcher false none .acquireReady ::
        if raises url then [.fetcher false none (.fetch false)]
        else .fetcher false none (.fetch true) :: .fetcher false none .notifyReady ::
          .fetcher false none .releaseReady :: passActions raises todo

theorem foldlM_passActions (raises : String → Bool) (workload : Workload) :
    ∀ (todo : List (String × PathReady)) (attempts : List String),
      (passActions raises todo).foldlM (step raises workload) ⟨.serving todo, attempts⟩ =
        some ⟨.testing, attempts ++ pass raises (todo.map Prod.fst)⟩
  | [], attempts => by
      simp [passActions, step, FetcherPhase.allows, FetcherPhase.step, FetcherPhase.attempted, pass]
  | (url, pathReady) :: todo, attempts => by
      have ih := foldlM_passActions raises workload todo (attempts ++ [url])
      by_cases hraises : raises url = true
      · simp [passActions, step, FetcherPhase.allows, FetcherPhase.step, FetcherPhase.attempted, pass,
          hraises]
      · simp [passActions, step, FetcherPhase.allows, FetcherPhase.step, FetcherPhase.attempted, pass,
          hraises, ih]

/-- A pass, and the first attempt of the next one. -/
def secondPass (raises : String → Bool) (workload : Workload) : List FetchAction :=
  .fetcher false none .testStopFlag :: .fetcher false none .listWorkload ::
    (passActions raises workload.entries ++
      [.fetcher false none .testStopFlag, .fetcher false none .listWorkload,
        .fetcher false none .acquireReady])

theorem exists_second_pass (raises : String → Bool) {url : String} {urls : List String}
    (h : workload.keys = url :: urls) :
    ∃ st, (secondPass raises workload).foldlM (step raises workload) init = some st ∧
      st.attempts = pass raises workload.keys ++ [url] := by
  obtain ⟨pathReady, todo, hentries⟩ :
      ∃ pathReady todo, workload.entries = (url, pathReady) :: todo := by
    obtain ⟨⟨_, pathReady⟩, todo, hentries, rfl, -⟩ := List.map_eq_cons_iff.1 h
    exact ⟨pathReady, todo, hentries⟩
  have hpass := foldlM_passActions raises workload workload.entries []
  refine ⟨⟨.fetching url pathReady todo, pass raises workload.keys ++ [url]⟩, ?_, rfl⟩
  rw [hentries] at hpass
  simp only [secondPass, init, List.foldlM_cons, List.foldlM_append]
  simp [step, FetcherPhase.allows, FetcherPhase.step, FetcherPhase.attempted, hentries, hpass, Dict.keys]

/-- In every run the urls are tried in turn just when no url but the last one of the workload fails. -/
theorem urls_tried_in_turn_iff (raises : String → Bool) (workload : Workload) :
    (∀ (acts : List FetchAction) (st : FetchRun), acts.foldlM (step raises workload) init = some st →
        Rounds.EachInTurn workload.keys st.attempts) ↔
      ∀ url ∈ workload.keys.dropLast, raises url = false := by
  rw [← pass_eq_self_iff]
  constructor
  · intro hturn
    cases hkeys : workload.keys with
    | nil => rfl
    | cons url urls =>
        obtain ⟨st, hrun, hattempts⟩ := exists_second_pass raises hkeys
        have hprefix : pass raises workload.keys <+: workload.keys := pass_prefix workload.keys
        -- Between the two visits to the first url a pass tries the rest of what it tries.
        obtain ⟨between, hpass⟩ : ∃ between, pass raises workload.keys = url :: between := by
          by_cases hraises : raises url = true
          · exact ⟨[], by simp [hkeys, pass, hraises]⟩
          · exact ⟨pass raises urls, by simp [hkeys, pass, hraises]⟩
        have hnodup : (url :: between).Nodup :=
          hpass ▸ workload.keys_nodup.sublist hprefix.sublist
        have hbetween := hturn _ st hrun [] url between [] (by simp [hattempts, hpass])
          (List.nodup_cons.1 hnodup).1
        have hall : workload.keys ⊆ pass raises workload.keys := by
          intro other hother
          rw [hpass, List.mem_cons]
          by_cases hne : other = url
          · exact .inl hne
          · exact .inr (hbetween other hother hne)
        rw [← hkeys]
        exact hprefix.eq_of_length_le (workload.keys_nodup.subperm hall).length_le
  · intro hpass acts st hrun
    obtain ⟨k, part, hattempts, hpart⟩ := Inv.of_run hrun
    rw [hattempts, hpass]
    exact Rounds.eachInTurn_rounds workload.keys_nodup (hpass ▸ hpart.prefix) k

/-- Two urls, the first of which cannot be fetched. -/
def twoUrls : Workload :=
  (Dict.empty.set "https://host/a.yaml" ⟨0, 0⟩).set "https://host/b.yaml" ⟨0, 1⟩

theorem failing_url_blocks_other :
    ∃ st, (secondPass (· == "https://host/a.yaml") twoUrls).foldlM
        (step (· == "https://host/a.yaml") twoUrls) init = some st ∧
      st.attempts = ["https://host/a.yaml", "https://host/a.yaml"] ∧
      ¬ Rounds.EachInTurn twoUrls.keys st.attempts := by
  have hrun : (secondPass (· == "https://host/a.yaml") twoUrls).foldlM
      (step (· == "https://host/a.yaml") twoUrls) init =
        some ⟨.fetching "https://host/a.yaml" ⟨0, 0⟩ [("https://host/b.yaml", ⟨0, 1⟩)],
          ["https://host/a.yaml", "https://host/a.yaml"]⟩ := by decide +kernel
  refine ⟨_, hrun, rfl, ?_⟩
  intro hturn
  have hother := hturn [] "https://host/a.yaml" [] [] rfl (by simp) "https://host/b.yaml" (by decide)
    (by decide)
  simp at hother

end FetchRun

end YamlLoader

end PidtreeBcc
