import PidtreeBcc.Main.Output
import PidtreeBcc.Plugins.Pipeline
import PidtreeBcc.Support.JsonRoundTrip

/-!
# Lines — the text on the output and what a reader gets from it

Every worker puts `json.dumps` of its events on the queue, and the loop prints them, one to a line.  The
command lines, user names and tracebacks in an event are under the control of the processes that are
watched.  Whatever they are, a reader who splits the text at the newlines and decodes each line has the events
that were printed.
-/

namespace PidtreeBcc

open Support

/-! ## Events as values -/

namespace Plugins

def jsonText (s : String) : Json := .str (Str.ofString s)

/-- The keys that `_process_pt` adds to a process. -/
def loginMembers : Option (Nat × String) → List (Str × Json)
  | none => []
  | some (loginuid, username) =>
      [(Str.ofString "loginuid", .int loginuid), (Str.ofString "loginname", jsonText username)]

def processJson (proc : NetListen.TreeProcess) : Json :=
  .obj ([(Str.ofString "pid", .int proc.info.pid), (Str.ofString "cmdline", jsonText proc.info.cmdline),
    (Str.ofString "username", jsonText proc.info.username)] ++ loginMembers proc.login)

def EventValue.toJson : EventValue → Json
  | .num n => .int n
  | .text s => jsonText s
  | .proctree procs => .arr (procs.map processJson)

def toJson (event : EventDict) : Json :=
  .obj (event.entries.map fun entry => (Str.ofString entry.1, entry.2.toJson))

theorem ofChar_injective : Function.Injective CodePoint.ofChar := by
  intro c d h
  have hval : c.toNat = d.toNat := by simpa [CodePoint.ofChar] using h
  rw [← Char.ofNat_toNat c, hval, Char.ofNat_toNat]

theorem ofString_injective : Function.Injective Str.ofString := by
  intro s s' h
  exact String.toList_inj.1 (List.map_injective_iff.2 ofChar_injective h)

theorem plain_jsonText (s : String) : (jsonText s).Plain := by
  unfold jsonText Json.Plain
  exact Json.unsplit_ofString s

theorem plain_int (n : Int) : (Json.int n).Plain := by
  unfold Json.Plain
  trivial

theorem plain_processJson (proc : NetListen.TreeProcess) : (processJson proc).Plain := by
  unfold processJson Json.Plain
  rw [Json.plainMembers_iff]
  rcases proc.login with _ | ⟨loginuid, username⟩
  · have hkeys : ["pid", "cmdline", "username"].Nodup := by decide
    have hmapped := hkeys.map ofString_injective
    refine ⟨hmapped, ?_⟩
    simp [loginMembers, Json.unsplit_ofString, plain_jsonText, plain_int]
  · have hkeys : ["pid", "cmdline", "username", "loginuid", "loginname"].Nodup := by decide
    have hmapped := hkeys.map ofString_injective
    refine ⟨hmapped, ?_⟩
    simp [loginMembers, Json.unsplit_ofString, plain_jsonText, plain_int]

theorem EventValue.plain_toJson : ∀ value : EventValue, value.toJson.Plain
  | .num n => plain_int n
  | .text s => plain_jsonText s
  | .proctree procs => by
      unfold toJson Json.Plain
      rw [Json.plainItems_iff]
      intro v hv
      rcases List.mem_map.1 hv with ⟨proc, _, rfl⟩
      exact plain_processJson proc

/-- The keys of a dictionary are distinct, and its strings have no surrogates. -/
theorem plain_toJson (event : EventDict) : (toJson event).Plain := by
  unfold toJson Json.Plain
  rw [Json.plainMembers_iff, List.map_map]
  constructor
  · have hkeys : event.entries.map (Prod.fst ∘ fun entry => (Str.ofString entry.1, entry.2.toJson)) =
        (event.entries.map Prod.fst).map Str.ofString := by
      rw [List.map_map]
      rfl
    rw [hkeys]
    exact event.nodup.map ofString_injective
  · intro m hm
    rcases List.mem_map.1 hm with ⟨entry, _, rfl⟩
    exact ⟨Json.unsplit_ofString _, entry.2.plain_toJson⟩

end Plugins

/-! ## Records -/

namespace Main

/-- What a worker hands to `json.dumps`. -/
structure Record where
  value : Json
  plain : value.Plain

def Record.ofEvent (event : Plugins.EventDict) : Record := ⟨Plugins.toJson event, Plugins.plain_toJson event⟩

/-- `json.dumps`. -/
def Record.line (record : Record) : String := String.ofList (Json.dumps record.value)

theorem Record.toList_line (record : Record) : record.line.toList = Json.dumps record.value :=
  String.toList_ofList

theorem Record.loads_line (record : Record) : Json.loads record.line.toList = some record.value := by
  rw [record.toList_line, Json.loads_dumps record.plain]

theorem Record.not_newline_mem (record : Record) : '\n' ∉ record.line.toList := by
  intro h
  rw [record.toList_line] at h
  exact absurd (Json.printable_dumps record.value _ h) (by decide)

theorem Record.line_injective {r r' : Record} (h : r.line = r'.line) : r.value = r'.value := by
  have hread := r.loads_line
  rw [h, r'.loads_line] at hread
  exact (Option.some.inj hread).symm

/-! ## Text -/

/-- The complete lines of a text. -/
def completeLines (text : List Char) : List (List Char) := (text.splitOn '\n').dropLast

/-- What a reader of the output gets. -/
def readRecords (text : List Char) : Option (List Json) := (completeLines text).mapM Json.loads

/-- Behind the last newline of a text there is a line that is not complete. -/
theorem splitOn_outText {lines : List String} (h : ∀ line ∈ lines, '\n' ∉ line.toList) {rest : List Char}
    (hrest : '\n' ∉ rest) : (outText lines ++ rest).splitOn '\n' = lines.map String.toList ++ [rest] := by
  induction lines with
  | nil => exact List.splitOn_eq_singleton hrest
  | cons line lines ih =>
      have hlater := ih fun l hl => h l (List.mem_cons_of_mem _ hl)
      unfold outText at hlater ⊢
      rw [List.flatMap_cons, List.append_assoc, List.append_assoc, List.singleton_append,
        List.splitOn_append_cons_self_of_not_mem (h line (by simp)), hlater]
      rfl

theorem completeLines_outText {lines : List String} (h : ∀ line ∈ lines, '\n' ∉ line.toList) {rest : List Char}
    (hrest : '\n' ∉ rest) : completeLines (outText lines ++ rest) = lines.map String.toList := by
  rw [completeLines, splitOn_outText h hrest, List.dropLast_concat]

/-- The text of printed records reads as the records, whatever of a line stands behind them. -/
theorem readRecords_outText (records : List Record) {rest : List Char} (hrest : '\n' ∉ rest) :
    readRecords (outText (records.map Record.line) ++ rest) = some (records.map Record.value) := by
  have hlines : ∀ line ∈ records.map Record.line, '\n' ∉ line.toList := by
    intro line hline
    rcases List.mem_map.1 hline with ⟨record, _, rfl⟩
    exact record.not_newline_mem
  rw [readRecords, completeLines_outText hlines hrest, List.map_map]
  clear hlines
  induction records with
  | nil => rfl
  | cons record records ih =>
      have hread := record.loads_line
      rw [List.map_cons, List.mapM_cons, ih]
      simp [hread]

theorem printable_outText (records : List Record) :
    ∀ c ∈ outText (records.map Record.line), c = '\n' ∨ Json.Printable c := by
  intro c hc
  rcases List.mem_flatMap.1 hc with ⟨line, hline, hmem⟩
  rcases List.mem_map.1 hline with ⟨record, _, rfl⟩
  rcases List.mem_append.1 hmem with hmem | hmem
  · rw [record.toList_line] at hmem
    exact Or.inr (Json.printable_dumps record.value c hmem)
  · exact Or.inl (List.mem_singleton.1 hmem)

/-- A part of the text of one line at most is that of the line, or has no newline. -/
theorem split_of_prefix {hand : List String} {part : List Char} (hlength : hand.length ≤ 1)
    (hlines : ∀ line ∈ hand, '\n' ∉ line.toList) (hpart : part <+: outText hand) :
    ∃ full later rest, hand = full ++ later ∧ part = outText full ++ rest ∧ '\n' ∉ rest := by
  match hand with
  | [] =>
      have hnil : part = [] := List.prefix_nil.1 hpart
      exact ⟨[], [], [], rfl, by simp [hnil, outText], by simp⟩
  | [line] =>
      have htext : outText [line] = line.toList ++ ['\n'] := by simp [outText]
      rw [htext, List.prefix_concat_iff] at hpart
      rcases hpart with hall | hsome
      · exact ⟨[line], [], [], rfl, by simp [hall, htext], by simp⟩
      · exact ⟨[], [line], part, rfl, by simp [outText], fun hmem => hlines line (by simp) (hsome.subset hmem)⟩
  | _ :: _ :: _ => simp at hlength

/-! ## Runs -/

/-- Every line that a worker puts is that of a record. -/
def PutsRecords (actions : List Action) : Prop :=
  ∀ i line, Action.put i line ∈ actions → ∃ record : Record, line = record.line

/-- A step leaves what was put for a run alone, or puts one more line. -/
theorem puts_of_step {args : Args} {s s' : State} {a : Action} (h : step args s a = some s') (r : Nat) :
    s'.io.puts r = s.io.puts r ∨ ∃ i line, a = .put i line ∧ s'.io.puts r = s.io.puts r ++ [line] := by
  cases transition_of_step h with
  | main hfree hmain =>
      cases hmain with
      | openOutput hphase =>
          left
          unfold Io.smartOpen
          split <;> rfl
      | _ => exact Or.inl rfl
  | @put i line w hworker halive =>
      by_cases hr : r = w.run
      · subst hr
        exact Or.inr ⟨i, line, rfl, by simp [Io.put]⟩
      · exact Or.inl (Function.update_of_ne hr _ _)
  | _ => exact Or.inl rfl

/-- What was put on the queues so far are lines of records. -/
theorem puts_records {args : Args} {actions : List Action} {s : State}
    (hrun : actions.foldlM (step args) init = some s) (hputs : PutsRecords actions) (r : Nat) :
    ∃ records : List Record, s.io.puts r = records.map Record.line := by
  refine Run.foldlM_inv_of_mem (I := fun s => ∃ records : List Record, s.io.puts r = records.map Record.line)
    ?_ ⟨[], rfl⟩ hrun
  rintro a ha t t' ⟨records, hrecords⟩ hstep
  rcases puts_of_step hstep r with hsame | ⟨i, line, rfl, hline⟩
  · exact ⟨records, hsame.trans hrecords⟩
  · rcases hputs i line ha with ⟨record, rfl⟩
    exact ⟨records ++ [record], by rw [hline, hrecords, List.map_append, List.map_singleton]⟩

/-- The lines that stand complete in the output: the printed ones, and in the current run those of the line in
hand. -/
def State.complete (s : State) (full : List String) (r : Nat) : List String :=
  s.io.printed r ++ if r = s.run then full else []

/-- The complete lines are the first that were put. -/
theorem Written.complete_prefix {args : Args} {s : State} {hand full later : List String} {part : List Char}
    (h : Written args s) (htail : Tail args s hand part) (hhand : hand = full ++ later) (r : Nat) :
    s.complete full r <+: s.io.puts r := by
  unfold State.complete
  by_cases hr : r = s.run
  · subst hr
    refine ⟨later ++ s.io.outputQueue s.run, ?_⟩
    rw [if_pos rfl, htail.lines, hhand]
    simp
  · rcases h.lines r with ⟨hand', _, hlines⟩
    refine ⟨hand' ++ s.io.outputQueue r, ?_⟩
    rw [if_neg hr, hlines]
    simp

/-- The text of the output is that of the complete lines, and some of one that is not. -/
theorem Tail.out_complete {args : Args} {s : State} {hand full : List String} {part rest : List Char}
    (htail : Tail args s hand part) (hpart : part = outText full ++ rest) :
    s.io.out = outText (if args.opensFile then s.complete full s.io.opened
      else (List.range (s.run + 1)).flatMap (s.complete full)) ++ rest := by
  rw [htail.out, hpart, ← List.append_assoc, ← outText_append]
  congr 2
  cases hfile : args.opensFile with
  | true =>
      simp only [State.shown, hfile, if_true, State.complete, List.append_cancel_left_eq]
      by_cases hfull : full = []
      · simp [hfull]
      · -- Something of the current run is in the file, so the file is its.
        have hsome : part ++ (s.handle args).buffer ≠ [] := by
          rcases full with _ | ⟨line, full⟩
          · exact absurd rfl hfull
          · simp [hpart, outText]
        rw [if_pos (htail.opened hsome)]
  | false =>
      have hbefore : (List.range s.run).flatMap (s.complete full) =
          (List.range s.run).flatMap s.io.printed := by
        refine List.flatMap_congr ?_
        intro r hr
        simp [State.complete, Nat.ne_of_lt (List.mem_range.1 hr)]
      simp [State.shown, hfile, List.range_succ, hbefore, State.complete]

/-- Whatever strings the events have: in every state of a run in which no restart is raised while a line is on
its way, the text on the output is printable ASCII and newlines, and a reader has from its complete lines the
values of records.  These are, of each run, the first of the records that its workers put on the queue: those that
were printed, and at most one more, when it has gone out and the loop has not noticed or was left. -/
theorem output_decodes (args : Args) {actions : List Action} {s : State}
    (hrun : actions.foldlM (step args) init = some s) (hputs : PutsRecords actions)
    (hunbroken : Run.StepsMeet (step args) (fun s a => unbroken s a = true) init actions) :
    ∃ records later : Nat → List Record,
      (∀ r, s.io.puts r = (records r ++ later r).map Record.line ∧
        ∃ hand, hand.length ≤ 1 ∧ (records r).map Record.line = s.io.printed r ++ hand ∧
          (s.phase.Whole = true → hand = [])) ∧
      (∀ c ∈ s.io.out, c = '\n' ∨ Json.Printable c) ∧
      readRecords s.io.out = some ((if args.opensFile then records s.io.opened
        else (List.range (s.run + 1)).flatMap records).map Record.value) := by
  have hwritten : Written args s := Run.foldlM_of_stepsMeet
    (fun _ _ _ h hunbroken hstep => h.step hunbroken hstep) (written_init args) hunbroken hrun
  rcases hwritten.tail with ⟨hand, part, htail⟩
  rcases puts_records hrun hputs s.run with ⟨current, hcurrent⟩
  have hhand : ∀ line ∈ hand, line ∈ current.map Record.line := by
    intro line hline
    rw [← hcurrent, htail.lines]
    simp [hline]
  have hlines : ∀ line ∈ hand, '\n' ∉ line.toList := by
    intro line hline
    rcases List.mem_map.1 (hhand line hline) with ⟨record, _, rfl⟩
    exact record.not_newline_mem
  have hpart : part <+: outText hand := (List.prefix_append part _).trans htail.given.isPrefix
  rcases split_of_prefix htail.length hlines hpart with ⟨full, tail, rest, hsplit, hfull, hrest⟩
  have hrecords : ∀ r, ∃ records later : List Record, records.map Record.line = s.complete full r ∧
      s.io.puts r = (records ++ later).map Record.line := by
    intro r
    rcases puts_records hrun hputs r with ⟨put, hput⟩
    rcases hwritten.complete_prefix htail hsplit r with ⟨queued, hqueued⟩
    rw [hput, eq_comm] at hqueued
    rcases List.map_eq_append_iff.1 hqueued with ⟨records, later, rfl, hcomplete, _⟩
    exact ⟨records, later, hcomplete, hput⟩
  choose records later hcomplete hall using hrecords
  have hout : s.io.out = outText ((if args.opensFile then records s.io.opened
      else (List.range (s.run + 1)).flatMap records).map Record.line) ++ rest := by
    rw [htail.out_complete hfull]
    congr 2
    cases args.opensFile with
    | true => exact (hcomplete _).symm
    | false =>
        simp only [Bool.false_eq_true, if_false, List.map_flatMap]
        exact List.flatMap_congr fun r _ => (hcomplete r).symm
  refine ⟨records, later, ?_, ?_, ?_⟩
  · intro r
    refine ⟨hall r, if r = s.run then full else [], ?_, hcomplete r, ?_⟩
    · have hlength : full.length ≤ 1 := by
        have hle := htail.length
        rw [hsplit, List.length_append] at hle
        omega
      split
      · exact hlength
      · simp
    · intro hwhole
      -- Nothing of a line in hand is in the output.
      have hnone := htail.given.whole hwhole
      have hnil : full = [] := by
        rcases full with _ | ⟨line, full⟩
        · rfl
        · simp [hfull, outText] at hnone
      simp [hnil]
  · intro c hc
    rw [hout] at hc
    rcases List.mem_append.1 hc with hc | hc
    · exact printable_outText _ c hc
    · have hmem : c ∈ outText (current.map Record.line) := by
        have hin : c ∈ outText hand := hpart.subset (by simp [hfull, hc])
        rcases List.mem_flatMap.1 hin with ⟨line, hline, hchar⟩
        exact List.mem_flatMap.2 ⟨line, hhand line hline, hchar⟩
      exact printable_outText _ c hmem
  · rw [hout]
    exact readRecords_outText _ hrest

namespace Example

/-- An event of a process whose command line ends the line and goes on like a record of its own. -/
def forging : Record :=
  .ofEvent <| Dict.empty.update
    [("pid", .num 100),
      ("proctree", .proctree [⟨⟨100, "sh\n\x7b\"pid\": 1\x7d\n", "mallory"⟩, some (1000, "mallory")⟩])]

/-- A run that prints one line, which goes out in two writes. -/
def printing (line : String) : List Action :=
  [.openOutput, .loaded, .append, .fork, .record, .startWatchdog, .enterLoop, .put 0 line, .get, .print,
    .write 0 7, .write 0 1000, .flushed]

end Example

/-- The reader has the one event that was printed, and no record that the command line forges. -/
theorem forged_line_decoded : ∃ s,
    (Example.printing Example.forging.line).foldlM (step Example.toFile) init = some s ∧
      readRecords s.io.out = some [Example.forging.value] := by
  have hstate : ((Example.printing Example.forging.line).foldlM (step Example.toFile) init).map
      (fun s => (s.io.printed 0, s.io.opened, s.phase)) =
        some ([Example.forging.line], 0, .polling) := by decide +kernel
  have hunbroken : Run.StepsMeet (step Example.toFile) (fun s a => unbroken s a = true) init
      (Example.printing Example.forging.line) := by decide +kernel
  rcases Option.map_eq_some_iff.1 hstate with ⟨s, hs, hEq⟩
  have hprinted : s.io.printed 0 = [Example.forging.line] := congrArg Prod.fst hEq
  have hopened : s.io.opened = 0 := congrArg (fun x => x.2.1) hEq
  have hphase : s.phase = .polling := congrArg (fun x => x.2.2) hEq
  have hputs : PutsRecords (Example.printing Example.forging.line) := by
    intro i line hmem
    simp only [Example.printing, List.mem_cons, List.not_mem_nil, or_false, reduceCtorEq, false_or,
      Action.put.injEq] at hmem
    exact ⟨Example.forging, hmem.2⟩
  rcases output_decodes Example.toFile hs hputs hunbroken with ⟨records, _, hlines, _, hread⟩
  rcases (hlines 0).2 with ⟨hand, _, hone, hwhole⟩
  rw [hprinted, hwhole (by simp [hphase, Phase.Whole, Phase.Leaving]), List.append_nil] at hone
  refine ⟨s, hs, ?_⟩
  rw [hread, if_pos (by decide), hopened]
  -- The record that was printed has the line of the event, and so its value.
  rcases List.map_eq_singleton_iff.1 hone with ⟨record, hrecord, hline⟩
  rw [hrecord, List.map_singleton, Record.line_injective hline]

end Main

end PidtreeBcc
