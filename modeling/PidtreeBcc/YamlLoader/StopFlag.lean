import PidtreeBcc.YamlLoader.Construct
import PidtreeBcc.YamlLoader.RestartedFetcher

/-!
# StopFlag — the stop flag of the fetcher thread

The loader of the configuration file is given the stop flag, and the loaders of the files that it includes
are not.  As each of them takes the place of the one before it, only the first include of a parse goes to a
loader that knows the flag: a thread that is started for another one has none.
-/

namespace PidtreeBcc

open Support

namespace YamlLoader

variable {V : Type}

/-! ## The includes of a parse -/

/-- An include that comes to be constructed; a remote one may find a fetcher thread that is alive. -/
inductive Visit
  | file
  | remote (fetcherAlive : Bool)
  deriving DecidableEq, Repr

def Visit.startsFetcher : Visit → Bool
  | file => false
  | remote fetcherAlive => !fetcherAlive

/-- The includes so far, whether there is a fetcher thread, dead or alive, and the number of questions that
have been put to the outside. -/
structure Course where
  visits : List Visit
  hasFetcher : Bool
  questions : Nat
  deriving DecidableEq, Repr

namespace Course

def asked (course : Course) : Course := { course with questions := course.questions + 1 }

def visitFile (course : Course) : Course := { course with visits := course.visits ++ [.file] }

def visitRemote (fetcherAlive : Bool) (course : Course) : Course :=
  { course with
    visits := course.visits ++ [.remote fetcherAlive]
    hasFetcher := true }

end Course

section Visits

variable (construct : Node V → Construction V) (outside : Outside V)

def visitPath (path : String) : Eff Unit Course (Node V) := do
  let course ← get
  modify Course.asked
  match outside.reads course.questions path with
  | none => throw ()
  | some node => return node

def visitUrl (url : String) : Eff Unit Course String := do
  let course ← get
  modify Course.asked
  modify (Course.visitRemote (course.hasFetcher && outside.isAlive course.questions))
  match outside.output course.questions url with
  | none => throw ()
  | some path => return path

def visitName (loaderName name : String) : Eff Unit Course String :=
  if isRemote name then visitUrl outside name
  else do
    modify Course.visitFile
    return includePath loaderName name

/-- The include of a file, and those in the file that it names, in the order in which they come. -/
def visitInclude : Nat → String → String → Eff Unit Course (Data V)
  | 0, _, _ => throw ()
  | depth + 1, loaderName, name => do
      let filepath ← visitName outside loaderName name
      let node ← visitPath outside filepath
      (construct node).run (visitInclude depth filepath) ()

/-- The includes of a configuration file, until there are none or loading fails. -/
def visits (depth : Nat) (configFile : String) (hasFetcher : Bool) (questions : Nat) : List Visit :=
  (Eff.exec
    (do
      let node ← visitPath outside configFile
      (construct node).run (visitInclude construct outside depth configFile) ())
    ⟨[], hasFetcher, questions⟩).2.visits

end Visits

/-! ## The threads that are started -/

/-- Every fetcher thread that was started in between has the stop flag. -/
def FlagReachesFetchers (stopFlag : Option Nat) (before after : LoaderClass) : Prop :=
  ∃ flags, after.started = before.started ++ flags ∧ ∀ flag ∈ flags, flag = stopFlag

/-- The flags of the threads: that of the parse for the first include, none for the others. -/
def startedFlags (stopFlag : Option Nat) : List Visit → List (Option Nat)
  | [] => []
  | visit :: later =>
      (if visit.startsFetcher then [stopFlag] else []) ++
        (later.filter Visit.startsFetcher).map fun _ => none

/-- The flag that the next include sees. -/
def nextFlag (stopFlag : Option Nat) (visits : List Visit) : Option Nat :=
  if visits = [] then stopFlag else none

theorem startedFlags_append (stopFlag : Option Nat) (visits : List Visit) (visit : Visit) :
    startedFlags stopFlag (visits ++ [visit]) = startedFlags stopFlag visits ++
      if visit.startsFetcher then [nextFlag stopFlag visits] else [] := by
  cases visits with
  | nil => cases hstarts : visit.startsFetcher <;> simp [startedFlags, nextFlag, hstarts]
  | cons first later =>
      cases hstarts : visit.startsFetcher <;> simp [startedFlags, nextFlag, hstarts, List.filter_append]

theorem mem_startedFlags {stopFlag flag : Option Nat} {visits : List Visit}
    (h : flag ∈ startedFlags stopFlag visits) : flag = stopFlag ∨ flag = none := by
  cases visits with
  | nil => simp [startedFlags] at h
  | cons first later =>
      rcases List.mem_append.1 h with h | h
      · cases hstarts : first.startsFetcher with
        | false => simp [hstarts] at h
        | true => exact Or.inl (by simpa [hstarts] using h)
      · rcases List.mem_map.1 h with ⟨visit, _, rfl⟩
        exact Or.inr rfl

theorem forall_startedFlags_iff (stopFlag : Option Nat) (visits : List Visit) :
    (∀ flag ∈ startedFlags stopFlag visits, flag = stopFlag) ↔
      stopFlag = none ∨ ∀ visit ∈ visits.tail, visit ≠ .remote false := by
  have hstarts : ∀ visit : Visit, visit.startsFetcher = true ↔ visit = .remote false := by
    intro visit
    rcases visit with _ | (_ | _) <;> simp [Visit.startsFetcher]
  cases visits with
  | nil => simp [startedFlags]
  | cons first later =>
      have hfirst : ∀ flag ∈ (if first.startsFetcher then [stopFlag] else []), flag = stopFlag := by
        intro flag hflag
        split at hflag <;> simp_all
      constructor
      · intro h
        by_cases hnone : stopFlag = none
        · exact Or.inl hnone
        · -- A later thread has no flag.
          refine Or.inr fun visit hvisit hremote => hnone ?_
          refine (h none ?_).symm
          exact List.mem_append_right _ (List.mem_map.2
            ⟨visit, List.mem_filter.2 ⟨hvisit, (hstarts visit).2 hremote⟩, rfl⟩)
      · rintro h flag hflag
        rcases List.mem_append.1 hflag with hflag | hflag
        · exact hfirst flag hflag
        · rcases List.mem_map.1 hflag with ⟨visit, hvisit, rfl⟩
          rcases List.mem_filter.1 hvisit with ⟨hvisit, hstart⟩
          rcases h with hnone | hlater
          · exact hnone.symm
          · exact absurd ((hstarts visit).1 hstart) (hlater visit hvisit)

/-! ## The loaders and the includes -/

/-- The class at a point of the parse: `flag` is what the next include is to see. -/
structure Follows (before : LoaderClass) (stopFlag flag : Option Nat) (cls : LoaderClass) (course : Course) :
    Prop where
  started : cls.started = before.started ++ startedFlags stopFlag course.visits
  fetcher : cls.remoteFetcher.isSome = course.hasFetcher
  questions : cls.questions = course.questions
  next : flag = nextFlag stopFlag course.visits

/-- One more include, with the thread that is started for it. -/
theorem Follows.visit {before : LoaderClass} {stopFlag flag : Option Nat} {cls cls' : LoaderClass}
    {course course' : Course} (h : Follows before stopFlag flag cls course) (visit : Visit)
    (hstarted : cls'.started = cls.started ++ if visit.startsFetcher then [flag] else [])
    (hfetcher : cls'.remoteFetcher.isSome = course'.hasFetcher) (hquestions : cls'.questions = course'.questions)
    (hvisits : course'.visits = course.visits ++ [visit]) : Follows before stopFlag none cls' course' := by
  refine ⟨?_, hfetcher, hquestions, ?_⟩
  · calc
      cls'.started
          = before.started ++ startedFlags stopFlag course.visits ++
              if visit.startsFetcher then [nextFlag stopFlag course.visits] else [] := by
            rw [hstarted, h.started, h.next]
      _ = before.started ++ startedFlags stopFlag course'.visits := by
            rw [hvisits, startedFlags_append, List.append_assoc]
  · simp [nextFlag, hvisits]

/-- The loader that is registered has the flag that the next include is to see. -/
def Registered (before : LoaderClass) (stopFlag : Option Nat) (cls : LoaderClass) (course : Course) : Prop :=
  ∃ self, cls.constructor = some self ∧ Follows before stopFlag self.stopFlag cls course

/-- What is left of that when loading fails. -/
def Failed (before : LoaderClass) (stopFlag : Option Nat) (cls : LoaderClass) (course : Course) : Prop :=
  ∃ flag, Follows before stopFlag flag cls course

section Simulation

open Eff

variable {construct : Node V → Construction V} {outside : Outside V} {before : LoaderClass}
  {stopFlag flag : Option Nat}

theorem openFile_simulates (path : String) :
    Simulates (Follows before stopFlag flag) (Follows before stopFlag flag) (Failed before stopFlag)
      (openFile outside path) (visitPath outside path) := by
  intro cls course h
  have hasked : Follows before stopFlag flag cls.asked course.asked :=
    ⟨h.started, h.fetcher, by simp [LoaderClass.asked, Course.asked, h.questions], h.next⟩
  have hvisit : exec (visitPath outside path) course =
      (match outside.reads course.questions path with
        | none => .error ()
        | some node => .ok node,
        course.asked) := by
    simp only [visitPath, exec_bind, exec_get, exec_modify]
    cases outside.reads course.questions path <;> rfl
  rw [exec_openFile, hvisit, h.questions]
  cases outside.reads course.questions path with
  | none => exact ⟨flag, hasked⟩
  | some node => exact ⟨rfl, hasked⟩

/-- A thread that a remote include starts has the flag of the loader that is registered. -/
theorem includeRemote_simulates (url : String) :
    Simulates (Follows before stopFlag flag) (Follows before stopFlag none) (Failed before stopFlag)
      (includeRemote outside url flag) (visitUrl outside url) := by
  intro cls course h
  have hvisit : exec (visitUrl outside url) course =
      (match outside.output course.questions url with
        | none => .error ()
        | some path => .ok path,
        course.asked.visitRemote (course.hasFetcher && outside.isAlive course.questions)) := by
    simp only [visitUrl, exec_bind, exec_get, exec_modify]
    cases outside.output course.questions url <;> rfl
  have hnext : Follows before stopFlag none
      (if course.hasFetcher && outside.isAlive course.questions then cls.asked
        else cls.asked.startFetcher flag)
      (course.asked.visitRemote (course.hasFetcher && outside.isAlive course.questions)) := by
    cases halive : course.hasFetcher && outside.isAlive course.questions with
    -- A new thread is started with the flag.
    | false => exact h.visit (.remote false) rfl rfl (congrArg (· + 1) h.questions) rfl
    | true =>
        -- The thread is taken over.
        have hfetcher : cls.remoteFetcher.isSome = true := by
          rw [h.fetcher]
          exact (Bool.and_eq_true_iff.1 halive).1
        exact h.visit (.remote true) (List.append_nil _).symm hfetcher (congrArg (· + 1) h.questions) rfl
  rw [exec_includeRemote, hvisit, h.fetcher, h.questions]
  cases outside.output course.questions url with
  | none => exact ⟨none, hnext⟩
  | some path => exact ⟨rfl, hnext⟩

/-- Every include comes with the flag of the loader that is registered, and those after it see none. -/
theorem filePath_simulates (self loader : LoaderInstance) (name : String) :
    Simulates (Follows before stopFlag self.stopFlag) (Follows before stopFlag none) (Failed before stopFlag)
      (filePath outside self loader name) (visitName outside loader.name name) := by
  unfold filePath visitName
  cases isRemote name with
  | true => exact includeRemote_simulates name
  | false =>
      intro cls course h
      exact ⟨rfl, h.visit .file (List.append_nil _).symm h.fetcher h.questions rfl⟩

/-- The new loader is the one that the next include goes to. -/
theorem yamlLoad_simulates {depth : Nat} {path : String} (node : Node V) (includedFiles : Nat)
    (h : ∀ loader : LoaderInstance, loader.name = path → ∀ name,
      Simulates (Registered before stopFlag) (Registered before stopFlag) (Failed before stopFlag)
        (callConstructor (includeFile construct outside depth) loader name)
        (visitInclude construct outside depth path name)) :
    Simulates (Follows before stopFlag flag) (Registered before stopFlag) (Failed before stopFlag)
      (yamlLoad construct (includeFile construct outside depth) node path includedFiles flag)
      ((construct node).run (visitInclude construct outside depth path) ()) := by
  intro cls course hfollows
  have hregistered : Registered before stopFlag (cls.register ⟨path, includedFiles, flag⟩) course :=
    ⟨⟨path, includedFiles, flag⟩, rfl, hfollows.started, hfollows.fetcher, hfollows.questions, hfollows.next⟩
  have hfailed : ∀ cls course, Registered before stopFlag cls course → Failed before stopFlag cls course := by
    rintro cls course ⟨self, _, hfollows⟩
    exact ⟨self.stopFlag, hfollows⟩
  exact Simulates.run .ConstructorError () hfailed (h ⟨path, includedFiles, flag⟩ rfl) (construct node) _ _
    hregistered

theorem callConstructor_simulates : ∀ (depth : Nat) (loader : LoaderInstance) (name : String),
    Simulates (Registered before stopFlag) (Registered before stopFlag) (Failed before stopFlag)
      (callConstructor (includeFile construct outside depth) loader name)
      (visitInclude construct outside depth loader.name name)
  | 0, loader, name => by
      rintro cls course ⟨self, hself, hfollows⟩
      rw [exec_callConstructor hself]
      exact ⟨self.stopFlag, hfollows⟩
  | depth + 1, loader, name => by
      rintro cls course ⟨self, hself, hfollows⟩
      rw [exec_callConstructor hself]
      -- From here on the loaders have no flag.
      have hload : ∀ filepath, Simulates (Follows before stopFlag none) (Registered before stopFlag)
          (Failed before stopFlag)
          (tryCatch
            (do
              let node ← openFile outside filepath
              modify (LoaderClass.append self.includedFiles filepath)
              yamlLoad construct (includeFile construct outside depth) node filepath self.includedFiles none)
            fun err => throw (if err = .OSError then .YAMLError else err))
          (do
            let node ← visitPath outside filepath
            (construct node).run (visitInclude construct outside depth filepath) ()) := by
        intro filepath
        refine Simulates.tryCatch ((openFile_simulates filepath).bind fun node => ?_) fun err => ⟨_, rfl⟩
        refine Simulates.modify_bind (Q := Follows before stopFlag none)
          (fun cls course h => ⟨h.started, h.fetcher, h.questions, h.next⟩) ?_
        exact yamlLoad_simulates node self.includedFiles fun loader' hloader' name' =>
          hloader' ▸ callConstructor_simulates depth loader' name'
      exact (filePath_simulates self loader name).bind hload cls course hfollows

end Simulation

/-- The threads that a parse starts: the first include sees the flag, the others see none. -/
theorem started_loadConfig (construct : Node V → Construction V) (outside : Outside V) (depth : Nat)
    (configFile : String) (stopFlag : Option Nat) (cls : LoaderClass) :
    (Eff.exec (loadConfig construct outside depth configFile stopFlag) cls).2.started =
      cls.started ++ startedFlags stopFlag
        (visits construct outside depth configFile cls.remoteFetcher.isSome cls.questions) := by
  have hload : Eff.Simulates (Follows cls stopFlag stopFlag) (Registered cls stopFlag) (Failed cls stopFlag)
      (openFile outside configFile >>= fun node => yamlLoad construct (includeFile construct outside depth) node
        configFile cls.fileLists.length stopFlag)
      (visitPath outside configFile >>= fun node =>
        (construct node).run (visitInclude construct outside depth configFile) ()) :=
    (openFile_simulates configFile).bind fun node =>
      yamlLoad_simulates node cls.fileLists.length fun loader hloader name =>
        hloader ▸ callConstructor_simulates depth loader name
  have hstart : Follows cls stopFlag stopFlag { cls with fileLists := cls.fileLists ++ [[]] }
      ⟨[], cls.remoteFetcher.isSome, cls.questions⟩ := ⟨(List.append_nil _).symm, rfl, rfl, rfl⟩
  have hrun := hload _ _ hstart
  rw [exec_loadConfig]
  unfold visits
  generalize Eff.exec (openFile outside configFile >>= _) _ = r at hrun ⊢
  generalize Eff.exec (visitPath outside configFile >>= _) _ = r' at hrun ⊢
  -- Both fail or neither does.
  rcases r with ⟨err | data, cls'⟩ <;> rcases r' with ⟨err' | data', course⟩
  · rcases hrun with ⟨flag, hfollows⟩
    exact hfollows.started
  · exact False.elim hrun
  · exact False.elim hrun
  · rcases hrun with ⟨_, self, _, hfollows⟩
    exact hfollows.started

/-- The threads of a run are started as the process allows: with the flag of the run, or without one. -/
theorem allows_of_started (construct : Node V → Construction V) (outside : Outside V) (depth : Nat)
    (configFile : String) (st : Process) (cls : LoaderClass) :
    ∃ flags, (Eff.exec (loadConfig construct outside depth configFile (some st.run)) cls).2.started =
      cls.started ++ flags ∧ ∀ flag ∈ flags, ∀ url, st.allows (.call url flag) = true := by
  refine ⟨_, started_loadConfig construct outside depth configFile (some st.run) cls, ?_⟩
  intro flag hflag url
  rcases mem_startedFlags hflag with rfl | rfl <;> simp [Process.allows]

/-- The stop flag reaches the threads just when none was given or every remote include but the first include
of the parse finds a thread that is alive. -/
theorem stop_flag_reaches_fetchers_iff (construct : Node V → Construction V) (outside : Outside V)
    (depth : Nat) (configFile : String) (stopFlag : Option Nat) (cls : LoaderClass) :
    FlagReachesFetchers stopFlag cls (Eff.exec (loadConfig construct outside depth configFile stopFlag) cls).2 ↔
      stopFlag = none ∨
        ∀ visit ∈ (visits construct outside depth configFile cls.remoteFetcher.isSome cls.questions).tail,
          visit ≠ .remote false := by
  rw [← forall_startedFlags_iff, FlagReachesFetchers, started_loadConfig]
  constructor
  · rintro ⟨flags, hflags, hall⟩
    rw [List.append_cancel_left hflags]
    exact hall
  · exact fun hall => ⟨_, rfl, hall⟩

/-! ### A local include before the first remote one -/

namespace Example

def localFirst : Node String := .sequence [.include "a.yaml", .include "https://host/b.yaml"]

/-- The remote file is fetched; there is no fetcher thread before. -/
def fetched : Outside String where
  reads _ path := [("/etc/main.yaml", localFirst), ("/etc/a.yaml", .scalar (some "one")),
    ("/tmp/conf/b.yaml", .scalar (some "two"))].lookup path
  isAlive _ := true
  output _ _ := some "/tmp/conf/b.yaml"

def newProcess : LoaderClass := ⟨none, [], none, [], 0⟩

end Example

/-- The file is loaded, and the thread that was started for it has no flag. -/
theorem local_include_drops_flag :
    (∃ r, (Eff.exec (loadConfig constructDocument Example.fetched 1 "/etc/main.yaml" (some 0))
      Example.newProcess).1 = .ok r) ∧
      ¬ FlagReachesFetchers (some 0) Example.newProcess
        (Eff.exec (loadConfig constructDocument Example.fetched 1 "/etc/main.yaml" (some 0))
          Example.newProcess).2 := by
  have hstarted : (Eff.exec (loadConfig constructDocument Example.fetched 1 "/etc/main.yaml" (some 0))
      Example.newProcess).2.started = [none] := by decide +kernel
  have hloads : (Eff.exec (loadConfig constructDocument Example.fetched 1 "/etc/main.yaml" (some 0))
      Example.newProcess).1.isOk = true := by decide +kernel
  refine ⟨?_, ?_⟩
  · cases hr : (Eff.exec (loadConfig constructDocument Example.fetched 1 "/etc/main.yaml" (some 0))
      Example.newProcess).1 with
    | ok r => exact ⟨r, rfl⟩
    | error err =>
        rw [hr] at hloads
        cases hloads
  · rintro ⟨flags, hflags, hall⟩
    rw [hstarted] at hflags
    have hmem : none ∈ flags := by
      rw [← List.nil_append flags]
      exact hflags ▸ List.mem_singleton_self none
    cases hall none hmem

end YamlLoader

end PidtreeBcc
