import PidtreeBcc.Support.Tally
import PidtreeBcc.Utils

/-!
# Sessions — the userland table of UDP sessions

`enrichEventImpl` keeps one entry per socket pointer: a START opens it, a CONTINUE counts a message in
it, an END removes it and returns a record.  What a handler reads from outside (the clock, the process
tree) is an argument, so that a history of handled events determines the table.

The theorems tie the table to the history: an entry is made from the latest START of its socket and
the CONTINUEs after it, and there is one exactly while no END has followed that START.
-/

namespace PidtreeBcc

open Support

namespace Udp

/-! ## Data -/

abbrev SockPointer := BitVec 64

/-- Address and port of a datagram. -/
structure Dest where
  daddr : BitVec 32
  dport : BitVec 16
  deriving DecidableEq, Repr

structure ProcessInfo where
  pid : Nat
  cmdline : String
  username : String
  deriving DecidableEq, Repr

/-- One entry of `session_tracking`; a destination maps to its first-seen time and its count. -/
structure SessionData where
  pid : BitVec 32
  proctree : List ProcessInfo
  destinations : Dict Dest (Int × Nat)
  error : String
  lastUpdate : Int
  deriving DecidableEq, Repr

abbrev SessionTracking := Dict SockPointer SessionData

/-- A session event, with the fields that the handler reads.  The mount namespace is there when the
probe filters on container labels and the event comes from the kernel. -/
inductive SessionEvent
  | sessionStart (sockPointer : SockPointer) (pid : BitVec 32) (dest : Dest)
  | sessionContinue (sockPointer : SockPointer) (dest : Dest)
  | sessionEnd (sockPointer : SockPointer) (mntnsId : Option Nat)
  deriving DecidableEq, Repr

def SessionEvent.sockPointer : SessionEvent → SockPointer
  | sessionStart sock _ _ => sock
  | sessionContinue sock _ => sock
  | sessionEnd sock _ => sock

structure DestinationInfo where
  daddr : String
  port : BitVec 16
  duration : Int
  msgCount : Nat
  deriving DecidableEq, Repr

structure SessionRecord where
  pid : BitVec 32
  proctree : List ProcessInfo
  destinations : List DestinationInfo
  error : String
  containerName : Option String
  deriving DecidableEq, Repr

/-- A formatted traceback: a fixed header and the frames. -/
structure Traceback where
  frames : String
  deriving DecidableEq, Repr

def Traceback.text (t : Traceback) : String := "Traceback (most recent call last):\n" ++ t.frames

/-- What a handler reads from outside: the clock, and process trees or the traceback of the attempt. -/
structure Reading where
  now : Int
  crawl : BitVec 32 → Except Traceback (List ProcessInfo)

/-! ## Handlers -/

/-- `enrich_container_name`; `names` is there when the probe filters on container labels. -/
def enrichContainerName (names : Option (Dict Nat String)) (mntnsId : Option Nat)
    (record : SessionRecord) : Except PyErr SessionRecord :=
  match names, mntnsId with
  | none, _ => .ok record
  | some _, none => .error (.builtin .AttributeError)
  | some names, some id => .ok { record with containerName := some ((names.get? id).getD "") }

/-- Naming the container leaves the other fields of the record alone. -/
theorem enrichContainerName_eq_ok {names : Option (Dict Nat String)} {mntnsId : Option Nat}
    {record named : SessionRecord} (h : enrichContainerName names mntnsId record = .ok named) :
    named.pid = record.pid ∧ named.proctree = record.proctree ∧ named.error = record.error ∧
      named.destinations = record.destinations := by
  cases names with
  | none =>
      cases h
      exact ⟨rfl, rfl, rfl, rfl⟩
  | some names =>
      cases mntnsId with
      | none => cases h
      | some id =>
          cases h
          exact ⟨rfl, rfl, rfl, rfl⟩

/-- Only an event without a mount namespace cannot be named. -/
theorem exists_enrichContainerName {names : Option (Dict Nat String)} {mntnsId : Option Nat}
    (h : names = none ∨ mntnsId ≠ none) (record : SessionRecord) :
    ∃ named, enrichContainerName names mntnsId record = .ok named := by
  cases names with
  | none => exact ⟨record, rfl⟩
  | some names =>
      cases mntnsId with
      | none => simp at h
      | some id => exact ⟨_, rfl⟩

/-- The entry that a START opens. -/
def SessionData.opened (r : Reading) (pid : BitVec 32) (dest : Dest) : SessionData where
  pid := pid
  proctree :=
    match r.crawl pid with
    | .ok proctree => proctree
    | .error _ => []
  destinations := Dict.empty.set dest (r.now, 1)
  error :=
    match r.crawl pid with
    | .ok _ => ""
    | .error trace => trace.text
  lastUpdate := r.now

/-- The entry after a CONTINUE. -/
def SessionData.continued (data : SessionData) (now : Int) (dest : Dest) : SessionData :=
  { data with
    destinations := Tally.add data.destinations dest now
    lastUpdate := now }

/-- The record that an END makes of an entry. -/
def SessionData.toRecord (data : SessionData) (now : Int) : SessionRecord where
  pid := data.pid
  proctree := data.proctree
  destinations := data.destinations.entries.map (fun p =>
    { daddr := intToIp p.1.daddr, port := p.1.dport, duration := now - p.2.1, msgCount := p.2.2 })
  error := data.error
  containerName := none

def enrichEventImpl (names : Option (Dict Nat String)) (r : Reading) (event : SessionEvent)
    (tracking : SessionTracking) : Except PyErr (Option SessionRecord) × SessionTracking :=
  match event with
  -- A session that is there already is replaced.
  | .sessionStart sock pid dest => (.ok none, tracking.set sock (.opened r pid dest))
  | .sessionContinue sock dest =>
      match tracking.get? sock with
      -- The datagram of a session that is not known is counted nowhere.
      | none => (.ok none, tracking)
      | some data => (.ok none, tracking.set sock (data.continued r.now dest))
  | .sessionEnd sock mntnsId =>
      match tracking.get? sock with
      | none => (.ok none, tracking)
      | some data =>
          -- The entry is gone even if naming the container raises.
          ((enrichContainerName names mntnsId (data.toRecord r.now)).map some, tracking.erase sock)

/-! ## What one event does to the table -/

/-- The entry of the event's socket afterwards. -/
def SessionEvent.next (r : Reading) (data? : Option SessionData) : SessionEvent → Option SessionData
  | sessionStart _ pid dest => some (.opened r pid dest)
  | sessionContinue _ dest => data?.map (fun data => data.continued r.now dest)
  | sessionEnd _ _ => none

/-- An event changes the entry of its own socket and no other. -/
theorem get?_enrichEventImpl (names : Option (Dict Nat String)) (r : Reading)
    (event : SessionEvent) (tracking : SessionTracking) (s : SockPointer) :
    (enrichEventImpl names r event tracking).2.get? s =
      if event.sockPointer = s then event.next r (tracking.get? s) else tracking.get? s := by
  cases event with
  | sessionStart sock pid dest =>
      by_cases hs : sock = s <;>
        simp [enrichEventImpl, SessionEvent.next, SessionEvent.sockPointer, Dict.get?_set, hs]
  | sessionContinue sock dest =>
      by_cases hs : sock = s
      · subst hs
        -- A CONTINUE of an unknown socket leaves it unknown.
        cases h : tracking.get? sock <;>
          simp [enrichEventImpl, SessionEvent.next, SessionEvent.sockPointer, h]
      · cases h : tracking.get? sock <;>
          simp [enrichEventImpl, SessionEvent.sockPointer, Dict.get?_set, h, hs]
  | sessionEnd sock mntnsId =>
      by_cases hs : sock = s
      · subst hs
        cases h : tracking.get? sock <;>
          simp [enrichEventImpl, SessionEvent.next, SessionEvent.sockPointer, Dict.get?_erase, h]
      · cases h : tracking.get? sock <;>
          simp [enrichEventImpl, SessionEvent.sockPointer, Dict.get?_erase, h, hs]

theorem get?_enrichEventImpl_end (names : Option (Dict Nat String)) (r : Reading) (sock : SockPointer)
    (mntnsId : Option Nat) (tracking : SessionTracking) (s : SockPointer) :
    (enrichEventImpl names r (.sessionEnd sock mntnsId) tracking).2.get? s =
      if sock = s then none else tracking.get? s :=
  get?_enrichEventImpl names r (.sessionEnd sock mntnsId) tracking s

/-- The record of an END is that of the entry it removes, with a container name. -/
theorem enrichEventImpl_eq_record {names : Option (Dict Nat String)} {r : Reading}
    {event : SessionEvent} {tracking : SessionTracking} {record : SessionRecord}
    (h : (enrichEventImpl names r event tracking).1 = .ok (some record)) :
    ∃ sock mntnsId data, event = .sessionEnd sock mntnsId ∧ tracking.get? sock = some data ∧
      enrichContainerName names mntnsId (data.toRecord r.now) = .ok record := by
  cases event with
  | sessionStart sock pid dest => simp [enrichEventImpl] at h
  | sessionContinue sock dest =>
      simp only [enrichEventImpl] at h
      split at h <;> cases h
  | sessionEnd sock mntnsId =>
      cases hget : tracking.get? sock with
      | none => simp [enrichEventImpl, hget] at h
      | some data =>
          simp only [enrichEventImpl, hget] at h
          rcases map_eq_ok.1 h with ⟨named, hnamed, heq⟩
          cases heq
          exact ⟨sock, mntnsId, data, rfl, hget, hnamed⟩

theorem enrichEventImpl_end_of_tracked {names : Option (Dict Nat String)} {r : Reading}
    {sock : SockPointer} {mntnsId : Option Nat} {tracking : SessionTracking} {data : SessionData}
    (hget : tracking.get? sock = some data) (hnames : names = none ∨ mntnsId ≠ none) :
    ∃ record, (enrichEventImpl names r (.sessionEnd sock mntnsId) tracking).1 =
      .ok (some record) := by
  rcases exists_enrichContainerName hnames (data.toRecord r.now) with ⟨named, hnamed⟩
  simp only [enrichEventImpl, hget]
  exact ⟨named, map_eq_ok.2 ⟨named, hnamed, rfl⟩⟩

/-- A CONTINUE or END of a socket without an entry does nothing. -/
theorem enrichEventImpl_of_untracked {names : Option (Dict Nat String)} {r : Reading}
    {event : SessionEvent} {tracking : SessionTracking}
    (hstart : ∀ sock pid dest, event ≠ .sessionStart sock pid dest)
    (hget : tracking.get? event.sockPointer = none) :
    enrichEventImpl names r event tracking = (.ok none, tracking) := by
  cases event with
  | sessionStart sock pid dest => exact absurd rfl (hstart sock pid dest)
  | sessionContinue sock dest =>
      have hnone : tracking.get? sock = none := hget
      simp [enrichEventImpl, hnone]
  | sessionEnd sock mntnsId =>
      have hnone : tracking.get? sock = none := hget
      simp [enrichEventImpl, hnone]

/-! ## Histories -/

/-- An event that was handled, with what its handler read. -/
structure Handled where
  reading : Reading
  event : SessionEvent

/-- The table after a history of events, from the empty table on. -/
def trackingAfter (names : Option (Dict Nat String)) (hist : List Handled) : SessionTracking :=
  hist.foldl (fun tracking h => (enrichEventImpl names h.reading h.event tracking).2) Dict.empty

theorem trackingAfter_concat (names : Option (Dict Nat String)) (hist : List Handled) (h : Handled) :
    trackingAfter names (hist ++ [h]) =
      (enrichEventImpl names h.reading h.event (trackingAfter names hist)).2 := by
  simp [trackingAfter]

/-- The destination that a START or CONTINUE of socket `s` carries. -/
def SessionEvent.destOf (s : SockPointer) : SessionEvent → Option Dest
  | sessionStart sock _ dest => if sock = s then some dest else none
  | sessionContinue sock dest => if sock = s then some dest else none
  | sessionEnd _ _ => none

/-- The messages of socket `s` in a history: destination and time of each. -/
def messages (s : SockPointer) (hist : List Handled) : List (Dest × Int) :=
  hist.filterMap (fun h => (h.event.destOf s).map (fun dest => (dest, h.reading.now)))

/-- The latest START of `s` in the history was handled with reading `r`, and only CONTINUEs of `s`
came since. -/
def Opened (s : SockPointer) (hist : List Handled) (r : Reading) (pid : BitVec 32) (dest : Dest)
    (since : List Handled) : Prop :=
  (∃ before, hist = before ++ ⟨r, .sessionStart s pid dest⟩ :: since) ∧
    ∀ h ∈ since, h.event.sockPointer = s → ∃ dest', h.event = .sessionContinue s dest'

/-- Every START of `s` in the history is followed by an END of `s`. -/
def Closed (s : SockPointer) (hist : List Handled) : Prop :=
  ∀ before r pid dest since, hist = before ++ ⟨r, .sessionStart s pid dest⟩ :: since →
    ∃ h ∈ since, ∃ mntnsId, h.event = .sessionEnd s mntnsId

/-- Where an element of a longer history stands: at its end, or before it. -/
theorem concat_eq_append_cons {hist before since : List Handled} {h x : Handled}
    (hEq : hist ++ [h] = before ++ x :: since) :
    (x = h ∧ since = [] ∧ before = hist) ∨
      ∃ since', since = since' ++ [h] ∧ hist = before ++ x :: since' := by
  rcases List.eq_nil_or_concat since with rfl | ⟨since', h', rfl⟩
  · left
    rcases List.append_inj' hEq rfl with ⟨hinit, hlast⟩
    exact ⟨by simpa using hlast.symm, rfl, hinit.symm⟩
  · right
    rw [List.concat_eq_append, ← List.cons_append, ← List.append_assoc] at hEq
    rcases List.append_inj' hEq rfl with ⟨hinit, hlast⟩
    have hh : h' = h := by simpa using hlast.symm
    exact ⟨since', by simp [hh], hinit⟩

/-- A socket that is opened was opened just now, or was opened before and the event did not end it. -/
theorem Opened.concat {s : SockPointer} {hist : List Handled} {h : Handled} {r : Reading}
    {pid : BitVec 32} {dest : Dest} {since : List Handled}
    (hopen : Opened s (hist ++ [h]) r pid dest since) :
    (h = ⟨r, .sessionStart s pid dest⟩ ∧ since = []) ∨
      ∃ since', since = since' ++ [h] ∧ Opened s hist r pid dest since' ∧
        (h.event.sockPointer = s → ∃ dest', h.event = .sessionContinue s dest') := by
  rcases hopen with ⟨⟨before, hEq⟩, hcont⟩
  rcases concat_eq_append_cons hEq with ⟨hx, hnil, _⟩ | ⟨since', hsince, hinit⟩
  · exact Or.inl ⟨hx.symm, hnil⟩
  · refine Or.inr ⟨since', hsince, ⟨⟨before, hinit⟩, ?_⟩, ?_⟩
    · intro x hx
      exact hcont x (by simp [hsince, hx])
    · exact hcont h (by simp [hsince])

/-- A socket that is closed was ended just now, or was closed before and the event did not start
it. -/
theorem Closed.concat {s : SockPointer} {hist : List Handled} {h : Handled}
    (hclosed : Closed s (hist ++ [h])) :
    (∃ mntnsId, h.event = .sessionEnd s mntnsId) ∨
      (Closed s hist ∧ ∀ pid dest, h.event ≠ .sessionStart s pid dest) := by
  by_cases hend : ∃ mntnsId, h.event = .sessionEnd s mntnsId
  · exact Or.inl hend
  · right
    constructor
    · intro before r pid dest since hEq
      rcases hclosed before r pid dest (since ++ [h]) (by simp [hEq]) with ⟨x, hx, hxend⟩
      rcases List.mem_append.1 hx with hx | hx
      · exact ⟨x, hx, hxend⟩
      · rw [List.mem_singleton.1 hx] at hxend
        exact absurd hxend hend
    · intro pid dest hstart
      rcases hclosed hist h.reading pid dest [] (by rw [← hstart]) with ⟨x, hx, _⟩
      simp at hx

theorem closed_nil (s : SockPointer) : Closed s [] := by
  intro before r pid dest since hEq
  simp at hEq

theorem closed_concat_end {s : SockPointer} {h : Handled} {mntnsId : Option Nat}
    (hend : h.event = .sessionEnd s mntnsId) (hist : List Handled) : Closed s (hist ++ [h]) := by
  intro before r pid dest since hEq
  rcases concat_eq_append_cons hEq with ⟨hx, _, _⟩ | ⟨since', hsince, _⟩
  · rw [← hx] at hend
    cases hend
  · exact ⟨h, by simp [hsince], mntnsId, hend⟩

theorem Closed.append {s : SockPointer} {hist : List Handled} {h : Handled}
    (hclosed : Closed s hist) (hstart : ∀ pid dest, h.event ≠ .sessionStart s pid dest) :
    Closed s (hist ++ [h]) := by
  intro before r pid dest since hEq
  rcases concat_eq_append_cons hEq with ⟨hx, _, _⟩ | ⟨since', hsince, hinit⟩
  · exact absurd (congrArg Handled.event hx).symm (hstart pid dest)
  · rcases hclosed before r pid dest since' hinit with ⟨x, hx, hxend⟩
    exact ⟨x, by simp [hsince, hx], hxend⟩

theorem Opened.append {s : SockPointer} {hist : List Handled} {h : Handled} {r : Reading}
    {pid : BitVec 32} {dest : Dest} {since : List Handled} (hopen : Opened s hist r pid dest since)
    (hcont : h.event.sockPointer = s → ∃ dest', h.event = .sessionContinue s dest') :
    Opened s (hist ++ [h]) r pid dest (since ++ [h]) := by
  rcases hopen with ⟨⟨before, hEq⟩, hsince⟩
  refine ⟨⟨before, by simp [hEq]⟩, ?_⟩
  intro x hx
  rcases List.mem_append.1 hx with hx | hx
  · exact hsince x hx
  · rw [List.mem_singleton.1 hx]
    exact hcont

/-- A history leaves a socket opened or closed. -/
theorem opened_or_closed (s : SockPointer) (hist : List Handled) :
    (∃ r pid dest since, Opened s hist r pid dest since) ∨ Closed s hist := by
  induction hist using List.reverseRecOn with
  | nil => exact Or.inr (closed_nil s)
  | append_singleton hist h ih =>
      have hkeep : (∀ pid dest, h.event ≠ .sessionStart s pid dest) →
          (h.event.sockPointer = s → ∃ dest', h.event = .sessionContinue s dest') →
          (∃ r pid dest since, Opened s (hist ++ [h]) r pid dest since) ∨ Closed s (hist ++ [h]) := by
        intro hstart hcont
        rcases ih with ⟨r, pid, dest, since, hopen⟩ | hclosed
        · exact Or.inl ⟨r, pid, dest, since ++ [h], hopen.append hcont⟩
        · exact Or.inr (hclosed.append hstart)
      rcases h with ⟨r, event⟩
      cases event with
      | sessionStart sock pid dest =>
          by_cases hs : sock = s
          · subst hs
            exact Or.inl ⟨r, pid, dest, [], ⟨hist, rfl⟩, by simp⟩
          · refine hkeep ?_ (fun h => absurd h hs)
            intro pid' dest' hEq
            cases hEq
            exact hs rfl
      | sessionContinue sock dest =>
          refine hkeep (by simp) ?_
          rintro rfl
          exact ⟨dest, rfl⟩
      | sessionEnd sock mntnsId =>
          by_cases hs : sock = s
          · subst hs
            exact Or.inr (closed_concat_end rfl hist)
          · exact hkeep (by simp) (fun h => absurd h hs)

/-! ## The table and the history -/

/-- The entry that a START and the messages since it make. -/
def entryOf (r : Reading) (pid : BitVec 32) (dest : Dest) (msgs : List (Dest × Int)) : SessionData :=
  { SessionData.opened r pid dest with
    destinations := Tally.ofList ((dest, r.now) :: msgs)
    lastUpdate := (msgs.getLastD (dest, r.now)).2 }

theorem entryOf_nil (r : Reading) (pid : BitVec 32) (dest : Dest) :
    entryOf r pid dest [] = .opened r pid dest := rfl

theorem entryOf_concat (r : Reading) (pid : BitVec 32) (dest : Dest) (msgs : List (Dest × Int))
    (dest' : Dest) (now : Int) :
    entryOf r pid dest (msgs ++ [(dest', now)]) = (entryOf r pid dest msgs).continued now dest' := by
  have htally : Tally.ofList ((dest, r.now) :: (msgs ++ [(dest', now)])) =
      Tally.add (Tally.ofList ((dest, r.now) :: msgs)) dest' now := by
    rw [← List.cons_append, Tally.ofList_concat]
  simp [entryOf, SessionData.continued, htally]

theorem messages_concat (s : SockPointer) (hist : List Handled) (h : Handled) :
    messages s (hist ++ [h]) =
      messages s hist ++ ((h.event.destOf s).map (fun dest => (dest, h.reading.now))).toList := by
  cases hd : h.event.destOf s <;> simp [messages, hd]

/-- The table holds for every socket what the history says. -/
theorem trackingAfter_spec (names : Option (Dict Nat String)) (hist : List Handled)
    (s : SockPointer) :
    (∀ r pid dest since, Opened s hist r pid dest since →
        (trackingAfter names hist).get? s = some (entryOf r pid dest (messages s since))) ∧
      (Closed s hist → (trackingAfter names hist).get? s = none) := by
  induction hist using List.reverseRecOn with
  | nil =>
      refine ⟨?_, fun _ => rfl⟩
      rintro r pid dest since ⟨⟨before, hEq⟩, _⟩
      simp at hEq
  | append_singleton hist h ih =>
      rcases ih with ⟨ihopen, ihclosed⟩
      rw [trackingAfter_concat, get?_enrichEventImpl]
      constructor
      · intro r pid dest since hopen
        rcases hopen.concat with ⟨rfl, rfl⟩ | ⟨since', rfl, hopen', hcont⟩
        · simp [SessionEvent.sockPointer, SessionEvent.next, messages, entryOf_nil]
        · have hold := ihopen r pid dest since' hopen'
          rw [hold, messages_concat]
          by_cases hs : h.event.sockPointer = s
          · rcases hcont hs with ⟨dest', hevent⟩
            simp [hevent, SessionEvent.sockPointer, SessionEvent.next, SessionEvent.destOf,
              entryOf_concat]
          · have hdest : h.event.destOf s = none := by
              cases hevent : h.event <;> simp [SessionEvent.destOf]
              all_goals
                intro hEq
                exact hs (by simp [hevent, SessionEvent.sockPointer, hEq])
            simp [hs, hdest]
      · intro hclosed
        rcases hclosed.concat with ⟨mntnsId, hend⟩ | ⟨hclosed', hstart⟩
        · simp [hend, SessionEvent.sockPointer, SessionEvent.next]
        · have hold := ihclosed hclosed'
          by_cases hs : h.event.sockPointer = s
          · rw [if_pos hs, hold]
            cases hevent : h.event with
            | sessionStart sock pid dest =>
                have hsock : sock = s := by simpa [hevent, SessionEvent.sockPointer] using hs
                exact absurd (hsock ▸ hevent) (hstart pid dest)
            | sessionContinue sock dest => rfl
            | sessionEnd sock mntnsId => rfl
          · rw [if_neg hs, hold]

/-! ## Records -/

/-- The time of the first message to a destination. -/
def firstSeen (msgs : List (Dest × Int)) (dest : Dest) : Int :=
  ((msgs.find? (fun msg => msg.1 = dest)).map Prod.snd).getD default

/-- What a record says of the destinations of some messages: each destination once, in first-seen
order, with the time since its first message and the number of its messages. -/
def destinationInfos (now : Int) (msgs : List (Dest × Int)) : List DestinationInfo :=
  (msgs.map Prod.fst).eraseDups.map (fun dest =>
    { daddr := intToIp dest.daddr
      port := dest.dport
      duration := now - firstSeen msgs dest
      msgCount := (msgs.map Prod.fst).count dest })

theorem toRecord_entryOf (r : Reading) (pid : BitVec 32) (dest : Dest) (msgs : List (Dest × Int))
    (now : Int) :
    (entryOf r pid dest msgs).toRecord now =
      { (SessionData.opened r pid dest).toRecord now with
        destinations := destinationInfos now ((dest, r.now) :: msgs) } := by
  simp [SessionData.toRecord, entryOf, Tally.entries_ofList, destinationInfos, firstSeen,
    List.map_map, Function.comp_def]

theorem firstSeen_le {msgs : List (Dest × Int)} {now : Int} (h : ∀ msg ∈ msgs, msg.2 ≤ now)
    {dest : Dest} (hdest : dest ∈ msgs.map Prod.fst) : firstSeen msgs dest ≤ now := by
  cases hfind : msgs.find? (fun msg => msg.1 = dest) with
  | none =>
      rcases List.mem_map.1 hdest with ⟨msg, hmsg, hEq⟩
      simpa [hEq] using List.find?_eq_none.1 hfind msg hmsg
  | some msg => simpa [firstSeen, hfind] using h msg (List.mem_of_find?_eq_some hfind)

/-- No duration is negative when the messages are not later than the record. -/
theorem duration_nonneg {msgs : List (Dest × Int)} {now : Int} (h : ∀ msg ∈ msgs, msg.2 ≤ now) :
    ∀ info ∈ destinationInfos now msgs, 0 ≤ info.duration := by
  intro info hinfo
  rcases List.mem_map.1 hinfo with ⟨dest, hdest, rfl⟩
  have hle := firstSeen_le h (List.mem_eraseDups.1 hdest)
  exact Int.sub_nonneg_of_le hle

/-- The clock readings of a history never go back. -/
def Monotonic (hist : List Handled) : Prop :=
  hist.Pairwise (fun x y => x.reading.now ≤ y.reading.now)

theorem Opened.messages_le {s : SockPointer} {hist : List Handled} {h : Handled} {r : Reading}
    {pid : BitVec 32} {dest : Dest} {since : List Handled} (hopen : Opened s hist r pid dest since)
    (hclock : Monotonic (hist ++ [h])) :
    ∀ msg ∈ (dest, r.now) :: messages s since, msg.2 ≤ h.reading.now := by
  rcases hopen with ⟨⟨before, rfl⟩, _⟩
  have hle : ∀ x ∈ before ++ ⟨r, .sessionStart s pid dest⟩ :: since,
      x.reading.now ≤ h.reading.now := by
    intro x hx
    exact (List.pairwise_append.1 hclock).2.2 x hx h (by simp)
  intro msg hmsg
  rcases List.mem_cons.1 hmsg with rfl | hmsg
  · exact hle ⟨r, .sessionStart s pid dest⟩ (by simp)
  · rcases List.mem_filterMap.1 hmsg with ⟨x, hx, hxmsg⟩
    rcases Option.map_eq_some_iff.1 hxmsg with ⟨dest', _, rfl⟩
    exact hle x (by simp [hx])

/-- A record is returned at an END of an opened socket only, and it is made from the START that opened
the socket and from the CONTINUEs of the socket since; an END of an opened socket does return one.
An END or CONTINUE of a closed socket returns nothing and changes nothing. -/
theorem session_records_exact (names : Option (Dict Nat String)) (hist : List Handled) (h : Handled)
    (hclock : Monotonic (hist ++ [h])) :
    (∀ record, (enrichEventImpl names h.reading h.event (trackingAfter names hist)).1 =
        .ok (some record) →
      ∃ s mntnsId, h.event = .sessionEnd s mntnsId ∧
        (∃ r pid dest since, Opened s hist r pid dest since) ∧
        ∀ r pid dest since, Opened s hist r pid dest since →
          record.pid = pid ∧ record.proctree = (SessionData.opened r pid dest).proctree ∧
          record.error = (SessionData.opened r pid dest).error ∧
          record.destinations = destinationInfos h.reading.now ((dest, r.now) :: messages s since) ∧
          ∀ info ∈ record.destinations, 0 ≤ info.duration) ∧
      (∀ s mntnsId r pid dest since, h.event = .sessionEnd s mntnsId →
        Opened s hist r pid dest since → (names = none ∨ mntnsId ≠ none) →
          ∃ record, (enrichEventImpl names h.reading h.event (trackingAfter names hist)).1 =
            .ok (some record)) ∧
      ((∀ s pid dest, h.event ≠ .sessionStart s pid dest) → Closed h.event.sockPointer hist →
        enrichEventImpl names h.reading h.event (trackingAfter names hist) =
          (.ok none, trackingAfter names hist)) := by
  refine ⟨?_, ?_, ?_⟩
  · intro record hrecord
    rcases enrichEventImpl_eq_record hrecord with ⟨s, mntnsId, data, hevent, hget, hnamed⟩
    have htable := trackingAfter_spec names hist s
    refine ⟨s, mntnsId, hevent, ?_, ?_⟩
    · -- A closed socket has no entry to make a record of.
      rcases opened_or_closed s hist with hopened | hclosed
      · exact hopened
      · rw [htable.2 hclosed] at hget
        cases hget
    · intro r pid dest since hopen
      rw [htable.1 r pid dest since hopen] at hget
      cases hget
      rw [toRecord_entryOf] at hnamed
      rcases enrichContainerName_eq_ok hnamed with ⟨hpid, hproctree, herror, hdestinations⟩
      refine ⟨hpid, hproctree, herror, hdestinations, ?_⟩
      rw [hdestinations]
      exact duration_nonneg (hopen.messages_le hclock)
  · intro s mntnsId r pid dest since hevent hopen hnames
    rw [hevent]
    exact enrichEventImpl_end_of_tracked ((trackingAfter_spec names hist s).1 _ _ _ _ hopen) hnames
  · intro hstart hclosed
    apply enrichEventImpl_of_untracked hstart
    exact (trackingAfter_spec names hist h.event.sockPointer).2 hclosed

/-! ### A session of three messages to two destinations -/

namespace Example

def clock (now : Int) : Reading := ⟨now, fun _ => .ok []⟩

/-- A START at time 5 and two CONTINUEs, with an event of another socket in between. -/
def history : List Handled :=
  [⟨clock 5, .sessionStart 1 123 ⟨168430090, 1337⟩⟩,
    ⟨clock 6, .sessionContinue 2 ⟨168430090, 53⟩⟩,
    ⟨clock 7, .sessionContinue 1 ⟨16777343, 1337⟩⟩,
    ⟨clock 9, .sessionContinue 1 ⟨168430090, 1337⟩⟩]

end Example

/-- The END at time 10 returns the two destinations with their durations and counts. -/
theorem session_record_of_history :
    ∃ record,
      (enrichEventImpl none (Example.clock 10) (.sessionEnd 1 none)
        (trackingAfter none Example.history)).1 = .ok (some record) ∧
      record.destinations = [⟨"10.10.10.10", 1337, 5, 2⟩, ⟨"127.0.0.1", 1337, 3, 1⟩] := by
  have hclock : Monotonic (Example.history ++ [⟨Example.clock 10, .sessionEnd 1 none⟩]) := by
    simp [Monotonic, Example.history, Example.clock]
  have hopen : Opened 1 Example.history (Example.clock 5) 123 ⟨168430090, 1337⟩
      Example.history.tail := by
    refine ⟨⟨[], rfl⟩, ?_⟩
    intro h hmem
    simp only [Example.history, List.tail_cons, List.mem_cons, List.not_mem_nil, or_false] at hmem
    rcases hmem with rfl | rfl | rfl <;> simp [SessionEvent.sockPointer]
  rcases session_records_exact none Example.history ⟨Example.clock 10, .sessionEnd 1 none⟩ hclock
    with ⟨hexact, hreturned, _⟩
  rcases hreturned 1 none _ _ _ _ rfl hopen (Or.inl rfl) with ⟨record, hrecord⟩
  refine ⟨record, hrecord, ?_⟩
  rcases hexact record hrecord with ⟨s, mntnsId, hevent, _, hfields⟩
  cases hevent
  rw [(hfields _ _ _ _ hopen).2.2.2.1]
  decide

end Udp

end PidtreeBcc
