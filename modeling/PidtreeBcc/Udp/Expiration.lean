import PidtreeBcc.Udp.Sessions

/-!
# Expiration — the worker that ends idle sessions

One pass reads the clock, marks the sessions whose last update is too long ago, and then ends them one
by one with synthetic END events.  The marking is one critical section, each synthetic END is another.
-/

namespace PidtreeBcc

open Support

namespace Udp

def expirationError : String := "session_max_duration_exceeded"

/-- The test of the marking loop. -/
def SessionData.expired (now maxDuration : Int) (data : SessionData) : Bool :=
  maxDuration < now - data.lastUpdate

/-- The marking loop: the table with the marks, and the sockets that were marked. -/
def markExpired (now maxDuration : Int) (tracking : SessionTracking) :
    SessionTracking × List SockPointer :=
  (tracking.mapValues fun data =>
      if data.expired now maxDuration then { data with error := expirationError } else data,
    (tracking.entries.filter fun p => p.2.expired now maxDuration).map Prod.fst)

/-- What a part of a pass does: the records it returns, with their sockets, the table it leaves, and
the exception that ends it, if any. -/
structure ExpirationPass where
  records : List (SockPointer × SessionRecord)
  tracking : SessionTracking
  error : Option PyErr

/-- The record that `_process_events` has to pass on, with its socket. -/
def recordsOf (sock : SockPointer) (result : Except PyErr (Option SessionRecord)) :
    List (SockPointer × SessionRecord) :=
  match result with
  | .ok (some record) => [(sock, record)]
  | _ => []

/-- The synthetic END events of a pass; each one reads the clock anew. -/
def endExpired (names : Option (Dict Nat String)) (readings : SockPointer → Reading) :
    List SockPointer → SessionTracking → ExpirationPass
  | [], tracking => ⟨[], tracking, none⟩
  | sock :: rest, tracking =>
      match enrichEventImpl names (readings sock) (.sessionEnd sock none) tracking with
      -- The sockets behind this one keep their mark and stay in the table.
      | (.error err, tracking') => ⟨[], tracking', some err⟩
      | (.ok record, tracking') =>
          let pass := endExpired names readings rest tracking'
          { pass with records := recordsOf sock (.ok record) ++ pass.records }

/-- A pass that nothing interrupts. -/
def expirationPass (names : Option (Dict Nat String)) (maxDuration now : Int)
    (readings : SockPointer → Reading) (tracking : SessionTracking) : ExpirationPass :=
  match markExpired now maxDuration tracking with
  | (tracking', expired) => endExpired names readings expired tracking'

theorem get?_markExpired (now maxDuration : Int) (tracking : SessionTracking) (s : SockPointer) :
    (markExpired now maxDuration tracking).1.get? s =
      (tracking.get? s).map fun data =>
        if data.expired now maxDuration then { data with error := expirationError } else data := by
  simp [markExpired, Dict.get?_mapValues]

theorem mem_markExpired {now maxDuration : Int} {tracking : SessionTracking} {s : SockPointer} :
    s ∈ (markExpired now maxDuration tracking).2 ↔
      ∃ data, tracking.get? s = some data ∧ data.expired now maxDuration = true := by
  simp only [markExpired, List.mem_map, List.mem_filter]
  constructor
  · rintro ⟨⟨s', data⟩, ⟨hmem, hexpired⟩, rfl⟩
    exact ⟨data, Dict.mem_entries_iff.1 hmem, hexpired⟩
  · rintro ⟨data, hget, hexpired⟩
    exact ⟨(s, data), ⟨Dict.mem_entries_iff.2 hget, hexpired⟩, rfl⟩

/-! ## Synthetic END events without container labels -/

/-- Without container labels the END of a tracked session returns its record, and an END of another
socket returns nothing. -/
theorem enrichEventImpl_end (r : Reading) (sock : SockPointer) (mntnsId : Option Nat)
    (tracking : SessionTracking) :
    (enrichEventImpl none r (.sessionEnd sock mntnsId) tracking).1 =
      .ok ((tracking.get? sock).map fun data => data.toRecord r.now) := by
  cases h : tracking.get? sock with
  | none => simp [enrichEventImpl, h]
  | some data => simp [enrichEventImpl, h, enrichContainerName, Except.map]

theorem endExpired_cons (readings : SockPointer → Reading) (sock : SockPointer)
    (rest : List SockPointer) (tracking : SessionTracking) :
    endExpired none readings (sock :: rest) tracking =
      let r := enrichEventImpl none (readings sock) (.sessionEnd sock none) tracking
      let pass := endExpired none readings rest r.2
      { pass with records := recordsOf sock r.1 ++ pass.records } := by
  have hok := enrichEventImpl_end (readings sock) sock none tracking
  cases h : enrichEventImpl none (readings sock) (.sessionEnd sock none) tracking with
  | mk result tracking' =>
      rw [h] at hok
      cases hok
      simp [endExpired, h]

/-! ## What a pass has to do -/

/-- The pass ends without an exception, returns one record for each expired session and none for the
others, and removes just these sessions. -/
structure PassExact (names : Option (Dict Nat String)) (maxDuration now : Int)
    (readings : SockPointer → Reading) (tracking : SessionTracking) : Prop where
  completes : (expirationPass names maxDuration now readings tracking).error = none
  /-- One record for each expired session, in the order of the table. -/
  records : (expirationPass names maxDuration now readings tracking).records.map Prod.fst =
    (tracking.entries.filter fun p => p.2.expired now maxDuration).map Prod.fst
  contents : ∀ p ∈ (expirationPass names maxDuration now readings tracking).records,
    ∃ data, tracking.get? p.1 = some data ∧
      { p.2 with containerName := none } =
        { data.toRecord (readings p.1).now with error := expirationError }
  remaining : ∀ s, (expirationPass names maxDuration now readings tracking).tracking.get? s =
    (tracking.get? s).filter fun data => !data.expired now maxDuration

/-- The run of the synthetic ENDs without container labels: a record for each tracked socket. -/
theorem endExpired_none (readings : SockPointer → Reading) {socks : List SockPointer} :
    ∀ tracking : SessionTracking, socks.Nodup →
      (endExpired none readings socks tracking).error = none ∧
        (endExpired none readings socks tracking).records = socks.filterMap (fun s =>
          (tracking.get? s).map fun data => (s, data.toRecord (readings s).now)) ∧
        ∀ s, (endExpired none readings socks tracking).tracking.get? s =
          if s ∈ socks then none else tracking.get? s := by
  induction socks with
  | nil => simp [endExpired]
  | cons sock rest ih =>
      intro tracking hnodup
      rcases List.nodup_cons.1 hnodup with ⟨hfresh, hrest⟩
      have hresult := enrichEventImpl_end (readings sock) sock none tracking
      have herased := get?_enrichEventImpl_end none (readings sock) sock none tracking
      rw [endExpired_cons]
      cases hstep : enrichEventImpl none (readings sock) (.sessionEnd sock none) tracking with
      | mk result tracking' =>
          rw [hstep] at hresult herased
          cases hresult
          rcases ih tracking' hrest with ⟨herror, hrecords, hremaining⟩
          -- The later sockets are other ones.
          have hlater : ∀ s ∈ rest, tracking'.get? s = tracking.get? s := by
            intro s hs
            have hne : sock ≠ s := fun hEq => hfresh (hEq ▸ hs)
            rw [herased, if_neg hne]
          refine ⟨herror, ?_, ?_⟩
          · have hmap : rest.filterMap (fun s => (tracking'.get? s).map fun data =>
                (s, data.toRecord (readings s).now)) = rest.filterMap (fun s =>
                  (tracking.get? s).map fun data => (s, data.toRecord (readings s).now)) := by
              refine List.filterMap_congr ?_
              intro s hs
              rw [hlater s hs]
            simp only [hrecords, hmap]
            cases hown : tracking.get? sock <;> simp [recordsOf, hown]
          · intro s
            rw [hremaining s, herased s]
            by_cases hs : s ∈ rest
            · simp [hs]
            · by_cases hsock : sock = s
              · simp [hs, hsock]
              · simp [hs, hsock, Ne.symm hsock]

/-- With container labels the first synthetic END of a tracked session raises: it has no mount
namespace. -/
theorem endExpired_of_labels (names : Dict Nat String) (readings : SockPointer → Reading)
    {sock : SockPointer} (rest : List SockPointer) {tracking : SessionTracking}
    (hsock : sock ∈ tracking.keys) :
    (endExpired (some names) readings (sock :: rest) tracking).error =
      some (.builtin .AttributeError) := by
  rcases Dict.mem_keys_iff.1 hsock with ⟨data, hget⟩
  simp [endExpired, enrichEventImpl, hget, enrichContainerName, Except.map]

section Pass

variable {names : Option (Dict Nat String)} {maxDuration now : Int}
  {readings : SockPointer → Reading} {tracking : SessionTracking}

/-- The table after the marking loop has the same sockets. -/
theorem keys_markExpired : (markExpired now maxDuration tracking).1.keys = tracking.keys := by
  simp [markExpired]

theorem nodup_markExpired : (markExpired now maxDuration tracking).2.Nodup := by
  have hsub : (markExpired now maxDuration tracking).2.Sublist tracking.keys :=
    (List.filter_sublist).map _
  exact hsub.nodup tracking.keys_nodup

/-- Without container labels every pass is exact. -/
theorem passExact_none : PassExact none maxDuration now readings tracking := by
  rcases endExpired_none readings (markExpired now maxDuration tracking).1 nodup_markExpired with
    ⟨herror, hrecords, hremaining⟩
  have hmarked : ∀ s data, (markExpired now maxDuration tracking).1.get? s = some data →
      s ∈ (markExpired now maxDuration tracking).2 →
        ∃ old, tracking.get? s = some old ∧ data = { old with error := expirationError } := by
    intro s data hget hs
    rcases mem_markExpired.1 hs with ⟨old, hold, hexpired⟩
    rw [get?_markExpired, hold, Option.map_some, if_pos hexpired] at hget
    exact ⟨old, hold, (Option.some.inj hget).symm⟩
  refine ⟨herror, ?_, ?_, ?_⟩
  · show (endExpired none readings (markExpired now maxDuration tracking).2
      (markExpired now maxDuration tracking).1).records.map Prod.fst =
        (markExpired now maxDuration tracking).2
    rw [hrecords, List.map_filterMap]
    -- Every marked session is still in the table.
    have hthere : ∀ s ∈ (markExpired now maxDuration tracking).2,
        (((markExpired now maxDuration tracking).1.get? s).map fun data =>
          (s, data.toRecord (readings s).now)).map Prod.fst = some s := by
      intro s hs
      rcases mem_markExpired.1 hs with ⟨old, hold, _⟩
      simp [get?_markExpired, hold]
    rw [List.filterMap_congr hthere, List.filterMap_some]
  · intro p hp
    have hp' : p ∈ (endExpired none readings (markExpired now maxDuration tracking).2
        (markExpired now maxDuration tracking).1).records := hp
    rw [hrecords] at hp'
    rcases List.mem_filterMap.1 hp' with ⟨s, hs, hrecord⟩
    rcases Option.map_eq_some_iff.1 hrecord with ⟨data, hget, rfl⟩
    rcases hmarked s data hget hs with ⟨old, hold, rfl⟩
    exact ⟨old, hold, rfl⟩
  · intro s
    refine (hremaining s).trans ?_
    rw [get?_markExpired]
    by_cases hs : s ∈ (markExpired now maxDuration tracking).2
    · rcases mem_markExpired.1 hs with ⟨old, hold, hexpired⟩
      simp [hs, hold, hexpired, Option.filter]
    · rw [if_neg hs]
      cases hget : tracking.get? s with
      | none => rfl
      | some data =>
          have hlive : data.expired now maxDuration = false := by
            by_contra hexpired
            exact hs (mem_markExpired.2 ⟨data, hget, by simpa using hexpired⟩)
          simp [hlive, Option.filter]

/-- A pass that finds no expired session does nothing. -/
theorem passExact_of_live (h : ∀ s data, tracking.get? s = some data →
    data.expired now maxDuration = false) : PassExact names maxDuration now readings tracking := by
  have hnone : (markExpired now maxDuration tracking).2 = [] := by
    refine List.eq_nil_iff_forall_not_mem.2 ?_
    intro s hs
    rcases mem_markExpired.1 hs with ⟨data, hget, hexpired⟩
    rw [h s data hget] at hexpired
    cases hexpired
  have hpass : expirationPass names maxDuration now readings tracking =
      ⟨[], (markExpired now maxDuration tracking).1, none⟩ := by
    show endExpired names readings (markExpired now maxDuration tracking).2 _ = _
    rw [hnone]
    rfl
  refine ⟨by rw [hpass], ?_, ?_, ?_⟩
  · rw [hpass]
    exact hnone.symm
  · rw [hpass]
    simp
  · intro s
    rw [hpass, get?_markExpired]
    cases hget : tracking.get? s with
    | none => rfl
    | some data => simp [h s data hget, Option.filter]

end Pass

/-- A pass is exact just when the probe has no container labels or finds no expired session. -/
theorem expiration_pass_exact_iff (names : Option (Dict Nat String)) (maxDuration now : Int)
    (readings : SockPointer → Reading) (tracking : SessionTracking) :
    PassExact names maxDuration now readings tracking ↔
      names = none ∨ ∀ s data, tracking.get? s = some data →
        ¬ maxDuration < now - data.lastUpdate := by
  constructor
  · intro hexact
    by_contra hcondition
    push Not at hcondition
    rcases hcondition with ⟨hnames, s, data, hget, hexpired⟩
    rcases Option.ne_none_iff_exists'.1 hnames with ⟨table, rfl⟩
    have hmem : s ∈ (markExpired now maxDuration tracking).2 :=
      mem_markExpired.2 ⟨data, hget, by simpa [SessionData.expired] using hexpired⟩
    have hcompletes := hexact.completes
    unfold expirationPass at hcompletes
    cases hmark : (markExpired now maxDuration tracking).2 with
    | nil => simp [hmark] at hmem
    | cons sock rest =>
        have hsock : sock ∈ (markExpired now maxDuration tracking).1.keys := by
          have hmarked : sock ∈ (markExpired now maxDuration tracking).2 := by simp [hmark]
          rcases mem_markExpired.1 hmarked with ⟨old, hold, _⟩
          rw [keys_markExpired]
          exact Dict.mem_keys_iff.2 ⟨old, hold⟩
        have herror := endExpired_of_labels table readings rest hsock
        rw [← hmark] at herror
        rw [herror] at hcompletes
        cases hcompletes
  · rintro (rfl | hlive)
    · exact passExact_none
    · refine passExact_of_live ?_
      intro s data hget
      simpa [SessionData.expired] using hlive s data hget

/-! ### An expired session of a probe with container labels -/

namespace Example

/-- A session that was updated last at time 0. -/
def idle : SessionData := ⟨7, [], Dict.empty, "", 0⟩

def quiet : Reading := ⟨500, fun _ => .ok []⟩

end Example

theorem labelled_expiration_raises :
    expirationPass (some Dict.empty) 120 500 (fun _ => Example.quiet)
        (Dict.empty.set 1 Example.idle) = ⟨[], Dict.empty, some (.builtin .AttributeError)⟩ ∧
      ¬ PassExact (some Dict.empty) 120 500 (fun _ => Example.quiet)
        (Dict.empty.set 1 Example.idle) := by
  have hpass : expirationPass (some Dict.empty) 120 500 (fun _ => Example.quiet)
      (Dict.empty.set 1 Example.idle) = ⟨[], Dict.empty, some (.builtin .AttributeError)⟩ := rfl
  refine ⟨hpass, ?_⟩
  intro hexact
  have hcompletes := hexact.completes
  rw [hpass] at hcompletes
  cases hcompletes

end Udp

end PidtreeBcc
