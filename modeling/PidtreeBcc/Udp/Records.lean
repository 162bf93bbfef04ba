import Mathlib.Data.Set.Card
import PidtreeBcc.Support.Lag
import PidtreeBcc.Udp.Expiration
import PidtreeBcc.Udp.Kernel

/-!
# Records — from the datagrams of a socket to its records

The kernel announces sends and releases into the perf buffer, and userland handles the announcements some
time later.  While no session expires, the two tables follow the sockets: a release of a UDP socket gives a
record just when unfiltered datagrams were sent on it since its last release, and the record is about these
datagrams and no others.
-/

namespace PidtreeBcc

open Support

namespace Udp

/-! ## The probe -/

inductive Call
  | send (maps : FilterMaps) (c : UdpSendmsg)
  | release (c : InetRelease)

/-- A call of a probed function, with the mount namespaces that are included at the time. -/
structure KernelCall where
  call : Call
  included : List Nat

/-- What userland reads when it handles an event: clock and process tree, and the names of containers. -/
structure Handling where
  reading : Reading
  names : Dict Nat String

/-- The map of mount namespaces is compiled in when there are container labels. -/
def KernelCall.mntnsFilter (containerLabels : Bool) (k : KernelCall) : Option (List Nat) :=
  if containerLabels then some k.included else none

def kernelStep (e : Endian) (containerLabels : Bool) (tracing : Tracing) (k : KernelCall) :
    Tracing × Option SessionEvent :=
  match k.call with
  | .send maps c => (kprobeUdpSendmsg e maps (k.mntnsFilter containerLabels) c tracing).swap
  | .release c => (kprobeInetRelease (k.mntnsFilter containerLabels) c tracing).swap

/-- The sessions, and the records so far. -/
abbrev Userland := SessionTracking × List (SockPointer × SessionRecord)

def handleEvent (containerLabels : Bool) (u : Userland) (h : Handling) (event : SessionEvent) : Userland :=
  let names := if containerLabels then some h.names else none
  let handled := enrichEventImpl names h.reading event u.1
  (handled.2, u.2 ++ recordsOf event.sockPointer handled.1)

/-- The probe without its expiration thread. -/
def stages (e : Endian) (containerLabels : Bool) :
    Lag.Stages Tracing Userland KernelCall SessionEvent Handling where
  produce := kernelStep e containerLabels
  consume := handleEvent containerLabels

/-! ## What the records should be -/

/-- The unfiltered datagrams of a socket since its last release. -/
def sinceRelease (e : Endian) (containerLabels : Bool) (s : SockPointer)
    (calls : List (KernelCall × Handling)) : List (UdpSendmsg × Handling) :=
  calls.foldl (fun sent x =>
    match x.1.call with
    | .send maps c =>
        if c.sock = s ∧ c.unfiltered e maps (x.1.mntnsFilter containerLabels) then sent ++ [(c, x.2)]
        else sent
    | .release c => if c.protocol = IPPROTO_UDP ∧ c.sock = s then [] else sent) []

/-- There were such datagrams. -/
def isOpen (e : Endian) (containerLabels : Bool) (s : SockPointer) (calls : List KernelCall) : Bool :=
  calls.foldl (fun opened k =>
    match k.call with
    | .send maps c => opened || (c.sock = s && c.unfiltered e maps (k.mntnsFilter containerLabels))
    | .release c => opened && !(c.protocol = IPPROTO_UDP && c.sock = s)) false

/-- At no time more sockets are open than the hash has room for. -/
def FitsTracing (e : Endian) (containerLabels : Bool) (calls : List KernelCall) : Prop :=
  ∀ before after, calls = before ++ after →
    {s | isOpen e containerLabels s before = true}.ncard ≤ BPF_HASH_SIZE

/-- Destination and time of a datagram. -/
def messageOf (e : Endian) (x : UdpSendmsg × Handling) : Dest × Int := (x.1.dest e, x.2.reading.now)

/-- The record of a release: process and process tree are those of the first datagram. -/
def recordOf (e : Endian) (containerLabels : Bool) (c : InetRelease) (h : Handling) :
    List (UdpSendmsg × Handling) → Option SessionRecord
  | [] => none
  | first :: rest => some
      { pid := first.1.pid
        proctree :=
          match first.2.reading.crawl first.1.pid with
          | .ok proctree => proctree
          | .error _ => []
        destinations := destinationInfos h.reading.now ((first :: rest).map (messageOf e))
        error :=
          match first.2.reading.crawl first.1.pid with
          | .ok _ => ""
          | .error trace => trace.text
        containerName := if containerLabels then some ((h.names.get? c.mntnsId).getD "") else none }

/-- The record that a call gives behind the calls `before`. -/
def recordAt (e : Endian) (containerLabels : Bool) (before : List (KernelCall × Handling))
    (x : KernelCall × Handling) : List (SockPointer × SessionRecord) :=
  match x.1.call with
  | .send _ _ => []
  | .release c =>
      if c.protocol = IPPROTO_UDP then
        ((recordOf e containerLabels c x.2 (sinceRelease e containerLabels c.sock before)).map
          fun record => (c.sock, record)).toList
      else []

def recordsFrom (e : Endian) (containerLabels : Bool) :
    List (KernelCall × Handling) → List (KernelCall × Handling) → List (SockPointer × SessionRecord)
  | _, [] => []
  | before, x :: rest =>
      recordAt e containerLabels before x ++ recordsFrom e containerLabels (before ++ [x]) rest

/-! ## The two tables follow the sockets -/

/-- The session that datagrams make. -/
def sessionOf (e : Endian) : List (UdpSendmsg × Handling) → Option SessionData
  | [] => none
  | first :: rest => some (entryOf first.2.reading first.1.pid (first.1.dest e) (rest.map (messageOf e)))

/-- A socket is traced, and has a session of its datagrams, while there are any since its release. -/
structure Follow (e : Endian) (containerLabels : Bool) (tracing : Tracing) (tracking : SessionTracking)
    (calls : List (KernelCall × Handling)) : Prop where
  kernel : ∀ s, s ∈ tracing.keys ↔ sinceRelease e containerLabels s calls ≠ []
  userland : ∀ s, tracking.get? s = sessionOf e (sinceRelease e containerLabels s calls)

section Step

variable {e : Endian} {containerLabels : Bool} {tracing : Tracing} {u : Userland}
  {calls : List (KernelCall × Handling)} {x : KernelCall × Handling}

theorem sinceRelease_send {maps : FilterMaps} {c : UdpSendmsg} (hcall : x.1.call = .send maps c)
    (s : SockPointer) (calls : List (KernelCall × Handling)) :
    sinceRelease e containerLabels s (calls ++ [x]) =
      if c.sock = s ∧ c.unfiltered e maps (x.1.mntnsFilter containerLabels) then
        sinceRelease e containerLabels s calls ++ [(c, x.2)]
      else sinceRelease e containerLabels s calls := by
  simp [sinceRelease, hcall]

theorem sinceRelease_release {c : InetRelease} (hcall : x.1.call = .release c) (s : SockPointer)
    (calls : List (KernelCall × Handling)) :
    sinceRelease e containerLabels s (calls ++ [x]) =
      if c.protocol = IPPROTO_UDP ∧ c.sock = s then [] else sinceRelease e containerLabels s calls := by
  simp [sinceRelease, hcall]

theorem isOpen_iff (s : SockPointer) (calls : List (KernelCall × Handling)) :
    isOpen e containerLabels s (calls.map Prod.fst) = true ↔ sinceRelease e containerLabels s calls ≠ [] := by
  induction calls using List.reverseRecOn with
  | nil => simp [isOpen, sinceRelease]
  | append_singleton calls x ih =>
      rw [List.map_append, List.map_singleton, isOpen, List.foldl_append, ← isOpen]
      cases hcall : x.1.call with
      | send maps c =>
          rw [sinceRelease_send hcall]
          simp only [List.foldl_cons, List.foldl_nil, hcall, Bool.or_eq_true, ih]
          by_cases hsent : c.sock = s ∧ c.unfiltered e maps (x.1.mntnsFilter containerLabels) = true <;>
            simp [hsent]
      | release c =>
          rw [sinceRelease_release hcall]
          simp only [List.foldl_cons, List.foldl_nil, hcall, Bool.and_eq_true, ih]
          by_cases hclosed : c.protocol = IPPROTO_UDP ∧ c.sock = s
          · simp [hclosed]
          · have hopen := not_and_or.1 hclosed
            simp [hclosed, hopen]

/-- The socket that a call is about. -/
def Call.sock : Call → SockPointer
  | .send _ c => c.sock
  | .release c => c.sock

theorem mem_of_isOpen {s : SockPointer} {calls : List KernelCall}
    (h : isOpen e containerLabels s calls = true) : s ∈ calls.map fun k => k.call.sock := by
  induction calls using List.reverseRecOn with
  | nil => cases h
  | append_singleton calls k ih =>
      rw [isOpen, List.foldl_append, ← isOpen] at h
      rw [List.map_append, List.mem_append]
      cases hcall : k.call with
      | send maps c =>
          simp only [List.foldl_cons, List.foldl_nil, hcall, Bool.or_eq_true, Bool.and_eq_true,
            decide_eq_true_eq] at h
          rcases h with h | h
          · exact Or.inl (ih h)
          · exact Or.inr (by simp [hcall, Call.sock, h.1])
      | release c =>
          simp only [List.foldl_cons, List.foldl_nil, hcall, Bool.and_eq_true] at h
          exact Or.inl (ih h.1)

theorem FitsTracing.of_length {calls : List KernelCall} (h : calls.length ≤ BPF_HASH_SIZE) :
    FitsTracing e containerLabels calls := by
  rintro before after rfl
  have hsub : {s | isOpen e containerLabels s before = true} ⊆
      ((before.map fun k => k.call.sock).toFinset : Set SockPointer) := by
    intro s hs
    simpa using mem_of_isOpen hs
  calc
    {s | isOpen e containerLabels s before = true}.ncard
        ≤ ((before.map fun k => k.call.sock).toFinset : Set SockPointer).ncard :=
          Set.ncard_le_ncard hsub (Finset.finite_toSet _)
    _ = (before.map fun k => k.call.sock).toFinset.card := Set.ncard_coe_finset _
    _ ≤ (before.map fun k => k.call.sock).length := List.toFinset_card_le _
    _ ≤ BPF_HASH_SIZE := by
      rw [List.length_map]
      exact le_trans (by simp) h

/-- A hash that has room for the sockets open after a START has room for its socket. -/
theorem Follow.hasRoom (h : Follow e containerLabels tracing u.1 calls) {s : SockPointer}
    (hs : s ∉ tracing.keys)
    (hopen : ∀ s', sinceRelease e containerLabels s' (calls ++ [x]) ≠ [] ↔
      s' = s ∨ sinceRelease e containerLabels s' calls ≠ [])
    (hfits : {s | sinceRelease e containerLabels s (calls ++ [x]) ≠ []}.ncard ≤ BPF_HASH_SIZE) :
    Tracing.HasRoom tracing s := by
  right
  have hset : {s | sinceRelease e containerLabels s (calls ++ [x]) ≠ []} =
      ((insert s tracing.keys.toFinset : Finset SockPointer) : Set SockPointer) := by
    ext s'
    rw [Set.mem_ofPred_eq, hopen s', ← h.kernel s']
    simp
  have hnot : s ∉ tracing.keys.toFinset := by simpa using hs
  rw [hset, Set.ncard_coe_finset, Finset.card_insert_of_notMem hnot,
    List.toFinset_card_of_nodup tracing.keys_nodup, Dict.length_keys] at hfits
  exact hfits

theorem sessionOf_concat {sent : List (UdpSendmsg × Handling)} (hsent : sent ≠ [])
    (y : UdpSendmsg × Handling) :
    sessionOf e (sent ++ [y]) =
      (sessionOf e sent).map fun data => data.continued y.2.reading.now (y.1.dest e) := by
  rcases List.exists_cons_of_ne_nil hsent with ⟨first, rest, rfl⟩
  rw [List.cons_append, sessionOf, List.map_append, List.map_singleton, messageOf, entryOf_concat]
  rfl

theorem sessionOf_eq_none_iff {sent : List (UdpSendmsg × Handling)} : sessionOf e sent = none ↔ sent = [] := by
  cases sent <;> simp [sessionOf]

/-- The record that an END makes of the session of some datagrams. -/
theorem enrich_end {s : SockPointer} {tracking : SessionTracking} {sent : List (UdpSendmsg × Handling)}
    (hget : tracking.get? s = sessionOf e sent) (c : InetRelease) (k : KernelCall) (h : Handling) :
    recordsOf s (enrichEventImpl (if containerLabels then some h.names else none) h.reading
        (.sessionEnd s ((k.mntnsFilter containerLabels).map fun _ => c.mntnsId)) tracking).1 =
      ((recordOf e containerLabels c h sent).map fun record => (s, record)).toList := by
  cases sent with
  | nil =>
      have hnone : tracking.get? s = none := hget
      simp [enrichEventImpl, hnone, recordsOf, recordOf]
  | cons first rest =>
      have hsome : tracking.get? s =
          some (entryOf first.2.reading first.1.pid (first.1.dest e) (rest.map (messageOf e))) := hget
      have hrecord : (entryOf first.2.reading first.1.pid (first.1.dest e)
          (rest.map (messageOf e))).toRecord h.reading.now =
            { (SessionData.opened first.2.reading first.1.pid (first.1.dest e)).toRecord h.reading.now with
              destinations := destinationInfos h.reading.now ((first :: rest).map (messageOf e)) } := by
        rw [toRecord_entryOf]
        rfl
      cases containerLabels with
      | false =>
          simp only [enrichEventImpl, hsome, hrecord]
          rfl
      | true =>
          simp only [enrichEventImpl, hsome, hrecord, KernelCall.mntnsFilter]
          rfl

/-- A send keeps both tables in step, and gives no record. -/
theorem Follow.send (h : Follow e containerLabels tracing u.1 calls) {maps : FilterMaps} {c : UdpSendmsg}
    (hcall : x.1.call = .send maps c)
    (hfits : {s | sinceRelease e containerLabels s (calls ++ [x]) ≠ []}.ncard ≤ BPF_HASH_SIZE) :
    let k := kernelStep e containerLabels tracing x.1
    let u' := (k.2.map (handleEvent containerLabels u x.2)).getD u
    Follow e containerLabels k.1 u'.1 (calls ++ [x]) ∧ u'.2 = u.2 := by
  cases hf : c.unfiltered e maps (x.1.mntnsFilter containerLabels) with
  | false =>
      have hsame : ∀ s, sinceRelease e containerLabels s (calls ++ [x]) =
          sinceRelease e containerLabels s calls := by
        intro s
        rw [sinceRelease_send hcall, hf]
        simp
      simp only [kernelStep, hcall, kprobeUdpSendmsg_of_filtered hf, Prod.swap_prod_mk, Option.map_none,
        Option.getD_none, and_true]
      refine ⟨?_, ?_⟩
      · intro s
        rw [hsame s]
        exact h.kernel s
      · intro s
        rw [hsame s]
        exact h.userland s
  | true =>
      have hsince : ∀ s, sinceRelease e containerLabels s (calls ++ [x]) =
          if c.sock = s then sinceRelease e containerLabels s calls ++ [(c, x.2)]
          else sinceRelease e containerLabels s calls := by
        intro s
        rw [sinceRelease_send hcall, hf]
        simp
      simp only [kernelStep, hcall, kprobeUdpSendmsg_of_unfiltered hf]
      by_cases hmem : c.sock ∈ tracing.keys
      · -- A CONTINUE of a socket with a session.
        have hsent := (h.kernel c.sock).1 hmem
        simp only [if_pos hmem, Prod.swap_prod_mk, Option.map_some, Option.getD_some]
        refine ⟨⟨?_, ?_⟩, ?_⟩
        · intro s
          rw [hsince s, h.kernel s]
          by_cases hs : c.sock = s
          · subst hs
            simp [hsent]
          · simp [hs]
        · intro s
          rw [handleEvent, get?_enrichEventImpl, hsince s]
          by_cases hs : c.sock = s
          · subst hs
            simp [SessionEvent.sockPointer, SessionEvent.next, h.userland, sessionOf_concat hsent]
          · simp [SessionEvent.sockPointer, hs, h.userland]
        · rcases Option.ne_none_iff_exists'.1 (mt sessionOf_eq_none_iff.1 hsent) with ⟨data, hdata⟩
          have hget : u.1.get? c.sock = some data := (h.userland c.sock).trans hdata
          simp [handleEvent, enrichEventImpl, hget, recordsOf]
      · -- A START of a socket without a session.
        have hnil : sinceRelease e containerLabels c.sock calls = [] := by
          by_contra hsent
          exact hmem ((h.kernel c.sock).2 hsent)
        have hroom : Tracing.HasRoom tracing c.sock := by
          refine h.hasRoom hmem (fun s => ?_) hfits
          rw [hsince s]
          by_cases hs : c.sock = s
          · simp [hs]
          · simp [hs, Ne.symm hs]
        simp only [if_neg hmem, Prod.swap_prod_mk, Option.map_some, Option.getD_some,
          Tracing.update_of_hasRoom hroom]
        refine ⟨⟨?_, ?_⟩, ?_⟩
        · intro s
          rw [hsince s, Dict.mem_keys_set, h.kernel s]
          by_cases hs : c.sock = s
          · subst hs
            simp
          · simp [hs, Ne.symm hs]
        · intro s
          rw [handleEvent, get?_enrichEventImpl, hsince s]
          by_cases hs : c.sock = s
          · subst hs
            simp [SessionEvent.sockPointer, SessionEvent.next, hnil, sessionOf, entryOf_nil]
          · simp [SessionEvent.sockPointer, hs, h.userland]
        · simp [handleEvent, enrichEventImpl, recordsOf]

/-- A release keeps both tables in step, and gives the record of the datagrams. -/
theorem Follow.release (h : Follow e containerLabels tracing u.1 calls) {c : InetRelease}
    (hcall : x.1.call = .release c) :
    let k := kernelStep e containerLabels tracing x.1
    let u' := (k.2.map (handleEvent containerLabels u x.2)).getD u
    Follow e containerLabels k.1 u'.1 (calls ++ [x]) ∧
      u'.2 = u.2 ++ recordAt e containerLabels calls x := by
  simp only [kernelStep, hcall, kprobeInetRelease_eq, recordAt]
  by_cases hprotocol : c.protocol = IPPROTO_UDP
  · have hsince : ∀ s, sinceRelease e containerLabels s (calls ++ [x]) =
        if c.sock = s then [] else sinceRelease e containerLabels s calls := by
      intro s
      rw [sinceRelease_release hcall]
      simp [hprotocol]
    by_cases hmem : c.sock ∈ tracing.keys
    · simp only [hprotocol, hmem, and_self, if_true, Prod.swap_prod_mk, Option.map_some, Option.getD_some]
      refine ⟨⟨?_, ?_⟩, ?_⟩
      · intro s
        rw [hsince s, Dict.mem_keys_erase, h.kernel s]
        by_cases hs : c.sock = s
        · subst hs
          simp
        · simp [hs, Ne.symm hs]
      · intro s
        rw [handleEvent, get?_enrichEventImpl_end, hsince s]
        by_cases hs : c.sock = s
        · subst hs
          simp [sessionOf]
        · simp [hs, h.userland]
      · exact congrArg (u.2 ++ ·) (enrich_end (h.userland c.sock) c x.1 x.2)
    · have hnil : sinceRelease e containerLabels c.sock calls = [] := by
        by_contra hsent
        exact hmem ((h.kernel c.sock).2 hsent)
      have hsame : ∀ s, sinceRelease e containerLabels s (calls ++ [x]) =
          sinceRelease e containerLabels s calls := by
        intro s
        rw [hsince s]
        split
        · rename_i hs
          rw [← hs, hnil]
        · rfl
      simp only [hprotocol, hmem, and_false, if_false, if_true, Prod.swap_prod_mk, Option.map_none,
        Option.getD_none, hnil, recordOf, Option.toList_none, List.append_nil, and_true]
      refine ⟨?_, ?_⟩
      · intro s
        rw [hsame s]
        exact h.kernel s
      · intro s
        rw [hsame s]
        exact h.userland s
  · have hsame : ∀ s, sinceRelease e containerLabels s (calls ++ [x]) =
        sinceRelease e containerLabels s calls := by
      intro s
      rw [sinceRelease_release hcall]
      simp [hprotocol]
    simp only [hprotocol, false_and, if_false, Prod.swap_prod_mk, Option.map_none, Option.getD_none,
      List.append_nil, and_true]
    refine ⟨?_, ?_⟩
    · intro s
      rw [hsame s]
      exact h.kernel s
    · intro s
      rw [hsame s]
      exact h.userland s

/-- Any call that finds room keeps both tables in step. -/
theorem Follow.step (h : Follow e containerLabels tracing u.1 calls) (x : KernelCall × Handling)
    (hfits : {s | sinceRelease e containerLabels s (calls ++ [x]) ≠ []}.ncard ≤ BPF_HASH_SIZE) :
    let k := kernelStep e containerLabels tracing x.1
    let u' := (k.2.map (handleEvent containerLabels u x.2)).getD u
    Follow e containerLabels k.1 u'.1 (calls ++ [x]) ∧
      u'.2 = u.2 ++ recordAt e containerLabels calls x := by
  cases hcall : x.1.call with
  | send maps c =>
      have hnone : recordAt e containerLabels calls x = [] := by
        rw [recordAt, hcall]
      rw [hnone, List.append_nil]
      exact h.send hcall hfits
  | release c => exact h.release hcall

theorem together_cons (tracing : Tracing) (u : Userland) (x : KernelCall × Handling)
    (rest : List (KernelCall × Handling)) :
    Lag.together (stages e containerLabels) tracing u (x :: rest) =
      Lag.together (stages e containerLabels) (kernelStep e containerLabels tracing x.1).1
        (((kernelStep e containerLabels tracing x.1).2.map (handleEvent containerLabels u x.2)).getD u)
        rest := by
  rw [Lag.together]
  split
  · rename_i tracing' hstep
    have hk : kernelStep e containerLabels tracing x.1 = (tracing', none) := hstep
    rw [hk]
    rfl
  · rename_i tracing' event hstep
    have hk : kernelStep e containerLabels tracing x.1 = (tracing', some event) := hstep
    rw [hk]
    rfl

theorem Follow.run (rest : List (KernelCall × Handling)) :
    ∀ {tracing : Tracing} {u : Userland} {calls : List (KernelCall × Handling)},
      Follow e containerLabels tracing u.1 calls →
      FitsTracing e containerLabels ((calls ++ rest).map Prod.fst) →
        let r := Lag.together (stages e containerLabels) tracing u rest
        Follow e containerLabels r.1 r.2.1 (calls ++ rest) ∧
          r.2.2 = u.2 ++ recordsFrom e containerLabels calls rest := by
  induction rest with
  | nil =>
      intro tracing u calls h _
      simpa [Lag.together, recordsFrom] using h
  | cons x rest ih =>
      intro tracing u calls h hfits
      have hnow := hfits ((calls ++ [x]).map Prod.fst) (rest.map Prod.fst) (by simp)
      simp only [isOpen_iff] at hnow
      rcases h.step x hnow with ⟨hnext, hrecords⟩
      rcases ih hnext (by simpa using hfits) with ⟨hlast, hrest⟩
      rw [together_cons]
      refine ⟨by simpa using hlast, ?_⟩
      rw [hrest, hrecords, recordsFrom, List.append_assoc]

end Step

/-- Whatever the interleaving of the calls in the kernel, each handled as a whole, with the handling of their
events in userland, and whatever filters and containers are in force at each call, as long as the hash of the
kernel has room for the open sockets: once the events are handled, the records are those of the releases, in
their order, each of the unfiltered datagrams of its socket since the release before, and the sessions left are
those of the datagrams that no release has followed. -/
theorem udp_records_exact (e : Endian) (containerLabels : Bool)
    {acts : List (Lag.Action KernelCall Handling)} {s : Lag.State Tracing Userland SessionEvent}
    (hrun : acts.foldlM (Lag.step (stages e containerLabels)) ⟨Dict.empty, [], Dict.empty, []⟩ = some s)
    (hhandled : s.queue = []) (hfits : FitsTracing e containerLabels (Lag.inputs acts)) :
    ∃ calls : List (KernelCall × Handling), calls.map Prod.fst = Lag.inputs acts ∧
      Lag.readings (stages e containerLabels) Dict.empty calls = Lag.deliveries acts ∧
      s.consumer.2 = recordsFrom e containerLabels [] calls ∧
      ∀ sock, s.consumer.1.get? sock = sessionOf e (sinceRelease e containerLabels sock calls) := by
  have hinit : Follow e containerLabels Dict.empty ((Dict.empty, []) : Userland).1 [] :=
    ⟨fun s => by simp [sinceRelease], fun s => rfl⟩
  rcases Lag.exists_together ⟨⟨0, fun _ => .ok []⟩, Dict.empty⟩ hrun hhandled with
    ⟨calls, hcalls, hreadings, htogether⟩
  rcases hinit.run calls (by simpa [hcalls] using hfits) with ⟨hfollow, hrecords⟩
  rw [htogether] at hfollow hrecords
  refine ⟨calls, hcalls, hreadings, ?_, hfollow.userland⟩
  simpa using hrecords

namespace Example

def webHandling (now : Int) : Handling := ⟨clock now, Dict.empty.set 7 "web"⟩

def fromWeb (call : Call) : KernelCall := ⟨call, [7]⟩

/-- Two datagrams of socket 1 from a container, and its release; userland is late all the time. -/
def lateSession : List (Lag.Action KernelCall Handling) :=
  let datagram : UdpSendmsg := ⟨1, AF_INET, 168430090, 14597, 0, 0, 123, 7⟩
  [.input (fromWeb (.send .empty datagram)), .input (fromWeb (.send .empty datagram)),
    .deliver (webHandling 5), .input (fromWeb (.release ⟨1, IPPROTO_UDP, 7⟩)),
    .deliver (webHandling 7), .deliver (webHandling 9)]

theorem lateSession_fits : FitsTracing .little true (Lag.inputs lateSession) := .of_length (by decide)

end Example

theorem record_of_late_session :
    ∃ s calls, Example.lateSession.foldlM (Lag.step (stages .little true)) ⟨Dict.empty, [], Dict.empty, []⟩ =
        some s ∧ calls.map Prod.fst = Lag.inputs Example.lateSession ∧
      recordsFrom .little true [] calls =
        [(1, ⟨123, [], [⟨"10.10.10.10", 1337, 4, 2⟩], "", some "web"⟩)] := by
  have hstate : (Example.lateSession.foldlM (Lag.step (stages .little true))
      ⟨Dict.empty, [], Dict.empty, []⟩).map (fun s => (s.queue, s.consumer.2)) =
        some ([], [(1, ⟨123, [], [⟨"10.10.10.10", 1337, 4, 2⟩], "", some "web"⟩)]) := by decide +kernel
  rcases Option.map_eq_some_iff.1 hstate with ⟨s, hs, hEq⟩
  rcases udp_records_exact .little true hs (congrArg Prod.fst hEq) Example.lateSession_fits with
    ⟨calls, hcalls, _, hrecords, _⟩
  exact ⟨s, calls, hs, hcalls, hrecords ▸ congrArg Prod.snd hEq⟩

end Udp

end PidtreeBcc
