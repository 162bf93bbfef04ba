import PidtreeBcc.Plugins.Sourceipmap
import PidtreeBcc.Support.Links
import PidtreeBcc.Udp.Sessions

/-!
# ProcessTree — crawling a process and its ancestors

`crawl_process_tree` reads a process, then its parent, and so on, until a parent has the id 0.  Nothing in
the loop bounds it: it ends because the parents of a process do not go round in a circle.
-/

namespace PidtreeBcc

open Support

namespace Probes

open Udp (ProcessInfo Traceback)
open Relation (ReflTransGen TransGen)

/-! ## The crawl -/

/-- What `psutil` reads of a process. -/
structure PsProcess where
  cmdline : List String
  username : String
  ppid : Nat
  deriving DecidableEq, Repr

/-- The processes as they can be read at one time; a process that is gone, or not ours to read, raises. -/
abbrev ProcessTable := Nat → Except Traceback PsProcess

/-- `' '.join(cmdline).strip()`. -/
def cmdlineText (cmdline : List String) : String :=
  String.ofList (Plugins.strip (" ".intercalate cmdline).toList)

def processInfo (pid : Nat) (proc : PsProcess) : ProcessInfo :=
  ⟨pid, cmdlineText proc.cmdline, proc.username⟩

/-- `crawl_process_tree`, with the table at each round of the loop; `none` is a loop that has not ended
after the given number of rounds. -/
def crawlProcessTree : (Nat → ProcessTable) → Nat → Nat → Option (Except Traceback (List ProcessInfo))
  | _, 0, _ => none
  | tables, rounds + 1, pid =>
      -- Process 0 has no entry, and is the parent of the first ones.
      if pid = 0 then some (.ok [])
      else
        match tables 0 pid with
        -- The part of the tree that was read is given up with it.
        | .error trace => some (.error trace)
        | .ok proc =>
            (crawlProcessTree (fun i => tables (i + 1)) rounds proc.ppid).map fun rest =>
              rest.map (processInfo pid proc :: ·)

/-- Another round does not matter to a crawl that has ended. -/
theorem crawl_succ : ∀ {n pid : Nat} {tables : Nat → ProcessTable}
    {r : Except Traceback (List ProcessInfo)}, crawlProcessTree tables n pid = some r →
      crawlProcessTree tables (n + 1) pid = some r
  | 0, pid, tables, r, h => by simp [crawlProcessTree] at h
  | n + 1, pid, tables, r, h => by
      unfold crawlProcessTree at h ⊢
      split
      · simpa [*] using h
      · rename_i hpid
        rw [if_neg hpid] at h
        cases htable : tables 0 pid with
        | error trace => simpa [htable] using h
        | ok proc =>
            simp only [htable] at h ⊢
            rcases Option.map_eq_some_iff.1 h with ⟨rest, hrest, rfl⟩
            rw [crawl_succ hrest]
            rfl

/-! ## Ancestors -/

/-- The parent of a process, if it is readable and its parent has an id. -/
def parent? (table : ProcessTable) (pid : Nat) : Option Nat :=
  match table pid with
  | .error _ => none
  | .ok proc => if proc.ppid = 0 then none else some proc.ppid

abbrev IsParent (table : ProcessTable) : Nat → Nat → Prop := Links.Link (parent? table)

theorem isParent_iff {table : ProcessTable} {a b : Nat} :
    IsParent table a b ↔ ∃ proc, table a = .ok proc ∧ proc.ppid = b ∧ b ≠ 0 := by
  unfold IsParent Links.Link parent?
  cases htable : table a with
  | error trace => simp
  | ok proc =>
      by_cases hzero : proc.ppid = 0
      · simp only [if_pos hzero, reduceCtorEq, Except.ok.injEq, exists_eq_left', false_iff]
        rintro ⟨rfl, hne⟩
        exact hne hzero
      · simp only [if_neg hzero, Option.some.injEq, Except.ok.injEq, exists_eq_left']
        exact ⟨fun h => ⟨h, h ▸ hzero⟩, fun h => h.1⟩

/-- The tree has the process and all its ancestors, each once and before its parent, as the table has them. -/
structure Ancestry (table : ProcessTable) (pid : Nat) (tree : List ProcessInfo) : Prop where
  head : (tree.map (·.pid)).head? = some pid
  parents : (tree.map (·.pid)).IsChain (IsParent table)
  ancestors : ∀ a, a ∈ tree.map (·.pid) ↔ ReflTransGen (IsParent table) pid a
  once : (tree.map (·.pid)).Nodup
  infos : ∀ info ∈ tree, ∃ proc, table info.pid = .ok proc ∧ info = processInfo info.pid proc

/-! ## The crawl of a table that does not change -/

section Fixed

variable {table : ProcessTable}

/-- The crawl reads the chain of the parents, up to the first process that cannot be read. -/
theorem crawl_of_chain : ∀ {n pid : Nat} {pids : List Nat}, pid ≠ 0 →
    Links.chain (parent? table) n pid = some pids →
      crawlProcessTree (fun _ => table) (n + 1) pid =
        some (pids.mapM fun a => (table a).map (processInfo a))
  | 0, pid, pids, _, h => by simp [Links.chain] at h
  | n + 1, pid, pids, hpid, h => by
      unfold crawlProcessTree
      rw [if_neg hpid]
      cases htable : table pid with
      | error trace =>
          have hnone : parent? table pid = none := by simp [parent?, htable]
          rw [Links.chain_of_none hnone] at h
          cases h
          simp [htable, Except.map, bind, Except.bind]
      | ok proc =>
          by_cases hzero : proc.ppid = 0
          · have hnone : parent? table pid = none := by simp [parent?, htable, hzero]
            rw [Links.chain_of_none hnone] at h
            cases h
            simp [crawlProcessTree, hzero, htable, Except.map, bind, Except.bind, pure, Except.pure]
          · have hparent : IsParent table pid proc.ppid := isParent_iff.2 ⟨proc, htable, rfl, hzero⟩
            rw [Links.chain_of_link hparent] at h
            rcases Option.map_eq_some_iff.1 h with ⟨rest, hrest, rfl⟩
            have ih := crawl_of_chain hzero hrest
            simp only [ih, Option.map_some, List.mapM_cons, htable, Option.some.injEq]
            cases rest.mapM fun a => (table a).map (processInfo a) <;> rfl

/-- A crawl that ends has followed the parents to their end. -/
theorem chain_of_crawl : ∀ {n pid : Nat} {r : Except Traceback (List ProcessInfo)}, pid ≠ 0 →
    crawlProcessTree (fun _ => table) n pid = some r →
      ∃ pids, Links.chain (parent? table) n pid = some pids
  | 0, pid, r, _, h => by simp [crawlProcessTree] at h
  | n + 1, pid, r, hpid, h => by
      unfold crawlProcessTree at h
      rw [if_neg hpid] at h
      cases htable : table pid with
      | error trace =>
          have hnone : parent? table pid = none := by simp [parent?, htable]
          exact ⟨[pid], Links.chain_of_none hnone n⟩
      | ok proc =>
          by_cases hzero : proc.ppid = 0
          · have hnone : parent? table pid = none := by simp [parent?, htable, hzero]
            exact ⟨[pid], Links.chain_of_none hnone n⟩
          · have hparent : IsParent table pid proc.ppid := isParent_iff.2 ⟨proc, htable, rfl, hzero⟩
            simp only [htable] at h
            rcases Option.map_eq_some_iff.1 h with ⟨rest, hrest, _⟩
            rcases chain_of_crawl hzero hrest with ⟨pids, hpids⟩
            refine ⟨pid :: pids, ?_⟩
            rw [Links.chain_of_link hparent, hpids]
            rfl

/-- The readings of a list of processes: all of them, or the first error. -/
theorem mapM_read_eq_ok {pids : List Nat} {tree : List ProcessInfo}
    (h : (pids.mapM fun a => (table a).map (processInfo a)) = .ok tree) :
    tree.map (·.pid) = pids ∧
      ∀ info ∈ tree, ∃ proc, table info.pid = .ok proc ∧ info = processInfo info.pid proc := by
  induction pids generalizing tree with
  | nil =>
      cases h
      simp
  | cons a rest ih =>
      rw [List.mapM_cons] at h
      rcases bind_eq_ok.1 h with ⟨info, hinfo, h⟩
      rcases bind_eq_ok.1 h with ⟨tree', htree', h⟩
      rcases map_eq_ok.1 hinfo with ⟨proc, hproc, rfl⟩
      cases h
      rcases ih htree' with ⟨hpids, hinfos⟩
      refine ⟨by simp [processInfo, hpids], ?_⟩
      intro info hmem
      rcases List.mem_cons.1 hmem with rfl | hmem
      · exact ⟨proc, hproc, rfl⟩
      · exact hinfos info hmem

theorem mapM_read_eq_error {pids : List Nat} {trace : Traceback}
    (h : (pids.mapM fun a => (table a).map (processInfo a)) = .error trace) :
    ∃ a ∈ pids, table a = .error trace := by
  induction pids with
  | nil => cases h
  | cons a rest ih =>
      rw [List.mapM_cons] at h
      cases htable : table a with
      | error trace' =>
          rw [htable] at h
          cases h
          exact ⟨a, by simp, htable⟩
      | ok proc =>
          rw [htable] at h
          cases hrest : rest.mapM fun a => (table a).map (processInfo a) with
          | error trace' =>
              rw [hrest] at h
              cases h
              rcases ih hrest with ⟨b, hb, hread⟩
              exact ⟨b, List.mem_cons_of_mem a hb, hread⟩
          | ok tree =>
              rw [hrest] at h
              cases h

/-- A crawl that ends has read the chain of the parents. -/
theorem read_of_crawl {n pid : Nat} {r : Except Traceback (List ProcessInfo)} (hpid : pid ≠ 0)
    (h : crawlProcessTree (fun _ => table) n pid = some r) :
    ∃ pids, Links.chain (parent? table) n pid = some pids ∧
      r = pids.mapM fun a => (table a).map (processInfo a) := by
  rcases chain_of_crawl hpid h with ⟨pids, hpids⟩
  have hsucc := crawl_succ h
  rw [crawl_of_chain hpid hpids] at hsucc
  exact ⟨pids, hpids, (Option.some.inj hsucc).symm⟩

/-- A tree that the crawl returns is that of the process. -/
theorem ancestry_of_crawl {n pid : Nat} {tree : List ProcessInfo} (hpid : pid ≠ 0)
    (h : crawlProcessTree (fun _ => table) n pid = some (.ok tree)) : Ancestry table pid tree := by
  rcases read_of_crawl hpid h with ⟨pids, hpids, hmap⟩
  rcases mapM_read_eq_ok hmap.symm with ⟨hEq, hinfos⟩
  rcases Links.isChain_of_chain hpids with ⟨hhead, hchain, _⟩
  subst hEq
  exact
    { head := hhead
      parents := hchain
      ancestors := Links.mem_chain_iff hpids
      once := Links.nodup_of_chain hpids
      infos := hinfos }

/-- While the processes do not change: the crawl of a process ends just when its ancestors do not go round in
a circle, and then after no more rounds than there are readable processes and two; a tree that it returns has
the process and all its ancestors, each once and before its parent; and an error that it raises is that of the
process or of an ancestor. -/
theorem crawl_exact {readable : Finset Nat} (hreadable : ∀ a proc, table a = .ok proc → a ∈ readable)
    {pid : Nat} (hpid : pid ≠ 0) :
    ((∃ rounds r, crawlProcessTree (fun _ => table) rounds pid = some r) ↔
        ¬ ∃ a, ReflTransGen (IsParent table) pid a ∧ TransGen (IsParent table) a a) ∧
      ((¬ ∃ a, ReflTransGen (IsParent table) pid a ∧ TransGen (IsParent table) a a) →
        ∃ r, crawlProcessTree (fun _ => table) (readable.card + 2) pid = some r) ∧
      (∀ rounds tree, crawlProcessTree (fun _ => table) rounds pid = some (.ok tree) →
        Ancestry table pid tree) ∧
      ∀ rounds trace, crawlProcessTree (fun _ => table) rounds pid = some (.error trace) →
        ∃ a, ReflTransGen (IsParent table) pid a ∧ table a = .error trace := by
  have hlinks : ∀ a, parent? table a ≠ none → a ∈ readable := by
    intro a hsome
    cases htable : table a with
    | error trace => simp [parent?, htable] at hsome
    | ok proc => exact hreadable a proc htable
  refine ⟨⟨?_, ?_⟩, ?_, ?_, ?_⟩
  · rintro ⟨rounds, r, h⟩
    rcases read_of_crawl hpid h with ⟨pids, hpids, _⟩
    exact (Links.exists_chain_iff hlinks).1 ⟨rounds, pids, hpids⟩
  · intro hacyclic
    rcases (Links.exists_chain_iff hlinks).2 hacyclic with ⟨n, pids, hpids⟩
    exact ⟨n + 1, _, crawl_of_chain hpid hpids⟩
  · intro hacyclic
    rcases Links.exists_chain_of_acyclic readable pid (fun a _ hsome => hlinks a hsome)
      (fun a hreach hcycle => hacyclic ⟨a, hreach, hcycle⟩) with ⟨pids, hpids⟩
    exact ⟨_, crawl_of_chain hpid hpids⟩
  · exact fun rounds tree h => ancestry_of_crawl hpid h
  · intro rounds trace h
    rcases read_of_crawl hpid h with ⟨pids, hpids, hmap⟩
    rcases mapM_read_eq_error hmap.symm with ⟨a, hmem, htable⟩
    exact ⟨a, (Links.mem_chain_iff hpids a).1 hmem, htable⟩

end Fixed

/-! ### A shell and its ancestors -/

namespace Example

def shell : ProcessTable
  | 300 => .ok ⟨["curl", "10.0.0.1"], "ann", 200⟩
  | 200 => .ok ⟨["bash"], "ann", 1⟩
  | 1 => .ok ⟨["init"], "root", 0⟩
  | _ => .error ⟨"NoSuchProcess"⟩

theorem mem_of_readable (a : Nat) (proc : PsProcess) (h : shell a = .ok proc) :
    a ∈ ({300, 200, 1} : Finset Nat) := by
  unfold shell at h
  split at h
  · simp
  · simp
  · simp
  · cases h

end Example

theorem crawl_of_shell : Ancestry Example.shell 300
    [⟨300, "curl 10.0.0.1", "ann"⟩, ⟨200, "bash", "ann"⟩, ⟨1, "init", "root"⟩] :=
  (crawl_exact Example.mem_of_readable (by decide)).2.2.1 4 _ (by decide +kernel)

end Probes

end PidtreeBcc
