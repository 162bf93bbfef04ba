import PidtreeBcc.Support.Dict
import PidtreeBcc.Support.Effects
import Mathlib.Data.List.Sort
import Mathlib.Data.String.Basic

/-!
# Include — configuration files that include others

`FileIncludeLoader` constructs a node `!include name` by loading the file of that name with a new loader.
Every loader registers its own `include_file` on the class, over that of the loader before it, so that a
node is constructed by the loader that was created last.

In what order PyYAML constructs the nodes of a document is a parameter of the model: a construction asks for
the content of one include after the other.
-/

namespace PidtreeBcc

open Support

namespace YamlLoader

/-! ## Documents -/

/-- A node of a document, its merge keys and aliases resolved.  `V` are the scalars other than `None`, equal
where Python finds them equal; an empty file has the node of `None`. -/
inductive Node (V : Type)
  | scalar (value : Option V)
  | sequence (value : List (Node V))
  | mapping (value : List (Node V × Node V))
  | include (name : String)

/-- What a document is loaded into. -/
inductive Data (V : Type)
  | scalar (value : Option V)
  | list (items : List (Data V))
  | dict (entries : List (Option V × Data V))

variable {V : Type}

namespace Data

/-- The dictionary key that the value makes, if it can be hashed. -/
def key? : Data V → Option (Option V)
  | scalar value => some value
  | list _ => none
  | dict _ => none

/-- The dictionary of the entries, of which a later one overwrites an earlier one. -/
def ofEntries [DecidableEq V] (entries : List (Option V × Data V)) : Data V :=
  .dict (entries.foldl (fun d entry => Assoc.set entry.1 entry.2 d) [])

end Data

namespace Node

mutual

/-- The names that the node includes. -/
def includes : Node V → List String
  | .scalar _ => []
  | .sequence value => includesAll value
  | .mapping value => includesPairs value
  | .include name => [name]

def includesAll : List (Node V) → List String
  | [] => []
  | node :: nodes => node.includes ++ includesAll nodes

def includesPairs : List (Node V × Node V) → List String
  | [] => []
  | (key, value) :: rest => key.includes ++ value.includes ++ includesPairs rest

end

variable [DecidableEq V]

mutual

/-- The data of the node, each include replaced by its content.  There is none if an include has no content,
or if a key of a mapping cannot be hashed. -/
def subst (content : String → Option (Data V)) : Node V → Option (Data V)
  | .scalar value => some (.scalar value)
  | .sequence value => (substAll content value).map .list
  | .mapping value => (substPairs content value).map .ofEntries
  | .include name => content name

def substAll (content : String → Option (Data V)) : List (Node V) → Option (List (Data V))
  | [] => some []
  | node :: nodes =>
      (node.subst content).bind fun data =>
        (substAll content nodes).map fun rest => data :: rest

def substPairs (content : String → Option (Data V)) :
    List (Node V × Node V) → Option (List (Option V × Data V))
  | [] => some []
  | (key, value) :: nodes =>
      ((key.subst content).bind Data.key?).bind fun k =>
        (value.subst content).bind fun data =>
          (substPairs content nodes).map fun rest => (k, data) :: rest

end

end Node

/-- The construction of a document, which asks for the content of its includes. -/
abbrev Construction (V : Type) := Asking String (Data V) (Data V)

/-- What the loaders expect of PyYAML: the constructor that is registered for includes is called for the
includes of the document, and what it returns takes their place. -/
structure Faithful [DecidableEq V] (construct : Node V → Construction V) : Prop where
  eval : ∀ node content, (construct node).eval content = node.subst content
  asks : ∀ node name, (construct node).Asks name → name ∈ node.includes

/-! ## Paths -/

/-- `os.path.isabs`. -/
def isabs (path : String) : Bool := path.toList.head? = some '/'

/-- `os.path.dirname`: what comes before the last slash, the slashes at its end removed unless there is
nothing else. -/
def dirname (path : String) : String :=
  let head := (path.toList.reverse.dropWhile (· ≠ '/')).reverse
  -- Also for a name without a directory, whose head is empty.
  if head.all (· = '/') then String.ofList head
  else String.ofList (head.reverse.dropWhile (· = '/')).reverse

/-- `os.path.join`. -/
def join (path name : String) : String :=
  if isabs name then name
  else if path = "" ∨ path.toList.getLast? = some '/' then path ++ name
  else path ++ "/" ++ name

/-- The path of a file that the file of the given name includes. -/
def includePath (loaderName name : String) : String :=
  if !isabs name then join (dirname loaderName) name else name

/-- `re.match(r'^https?://', name)`. -/
def isRemote (name : String) : Bool :=
  "http://".toList.isPrefixOf name.toList || "https://".toList.isPrefixOf name.toList

/-- `sorted(set(paths))`. -/
def sortedSet (paths : List String) : List String := paths.dedup.insertionSort (· ≤ ·)

theorem mem_sortedSet {paths : List String} {path : String} : path ∈ sortedSet paths ↔ path ∈ paths := by
  simp [sortedSet]

theorem sortedSet_pairwise (paths : List String) : (sortedSet paths).Pairwise (· < ·) := by
  have hnodup : (sortedSet paths).Nodup :=
    (List.perm_insertionSort (· ≤ ·) paths.dedup).nodup_iff.2 (List.nodup_dedup paths)
  have hsorted : (sortedSet paths).SortedLE := List.sortedLE_insertionSort
  exact (hsorted.sortedLT_of_nodup hnodup).pairwise

/-! ## Loaders -/

inductive LoadErr
  | OSError
  | YAMLError
  | ConstructorError
  | ValueError
  | RecursionError
  deriving DecidableEq, Repr

/-- What the outside answers to the questions that the loading thread puts to it, by the number of the
question: the document of a file that can be opened, whether the fetcher thread is alive, and the output path
of a remote file that is fetched in time. -/
structure Outside (V : Type) where
  reads : Nat → String → Option (Node V)
  isAlive : Nat → Bool
  output : Nat → String → Option String

/-- An instance of `FileIncludeLoader`; the list of files is the number of a list in the store. -/
structure LoaderInstance where
  name : String
  includedFiles : Nat
  stopFlag : Option Nat
  deriving DecidableEq, Repr

/-- The class, as far as it is shared by its instances, and the lists of files.  `constructor` is the instance
whose `include_file` is registered, `remoteFetcher` the stop flag of the thread, if there is one; `started`
are the flags of all threads that have been started. -/
structure LoaderClass where
  constructor : Option LoaderInstance
  fileLists : List (List String)
  remoteFetcher : Option (Option Nat)
  started : List (Option Nat)
  questions : Nat
  deriving DecidableEq, Repr

namespace LoaderClass

def fileList (cls : LoaderClass) (includedFiles : Nat) : List String :=
  (cls.fileLists[includedFiles]?).getD []

/-- `self.add_constructor('!include', self.include_file)`. -/
def register (self : LoaderInstance) (cls : LoaderClass) : LoaderClass :=
  { cls with constructor := some self }

/-- `included_files.append(filepath)`. -/
def append (includedFiles : Nat) (filepath : String) (cls : LoaderClass) : LoaderClass :=
  { cls with fileLists := cls.fileLists.modify includedFiles fun files => files ++ [filepath] }

/-- A new fetcher thread with the stop flag. -/
def startFetcher (stopFlag : Option Nat) (cls : LoaderClass) : LoaderClass :=
  { cls with
    remoteFetcher := some stopFlag
    started := cls.started ++ [stopFlag] }

def asked (cls : LoaderClass) : LoaderClass := { cls with questions := cls.questions + 1 }

end LoaderClass

/-- Loading, which may raise at any point; what was done until then stays. -/
abbrev LoadM (α : Type) := Eff LoadErr LoaderClass α

/-- `open(path)`, with the document that is then read. -/
def openFile (outside : Outside V) (path : String) : LoadM (Node V) := do
  let cls ← get
  modify LoaderClass.asked
  match outside.reads cls.questions path with
  | none => throw .OSError
  | some node => return node

open Eff in
theorem exec_openFile (outside : Outside V) (path : String) (cls : LoaderClass) :
    exec (openFile outside path) cls =
      (match outside.reads cls.questions path with
        | none => .error .OSError
        | some node => .ok node,
        cls.asked) := by
  simp only [openFile, exec_bind, exec_get, exec_modify]
  cases outside.reads cls.questions path <;> rfl

/-- `FileIncludeLoader(stream, included_files, stop_flag)`. -/
def newLoader (name : String) (includedFiles : Nat) (stopFlag : Option Nat) : LoadM LoaderInstance := do
  let self : LoaderInstance := ⟨name, includedFiles, stopFlag⟩
  modify (LoaderClass.register self)
  return self

/-- `include_remote`, seen from the thread that loads. -/
def includeRemote (outside : Outside V) (url : String) (stopFlag : Option Nat) : LoadM String := do
  let cls ← get
  modify LoaderClass.asked
  -- A thread that was started for another include, or by an earlier parse, is taken over.
  if !(cls.remoteFetcher.isSome && outside.isAlive cls.questions) then
    modify (LoaderClass.startFetcher stopFlag)
  -- The wait for the first copy of the file ended with it, or with the timeout.
  match outside.output cls.questions url with
  | none => throw .ValueError
  | some path => return path

open Eff in
theorem exec_includeRemote (outside : Outside V) (url : String) (stopFlag : Option Nat) (cls : LoaderClass) :
    exec (includeRemote outside url stopFlag) cls =
      (match outside.output cls.questions url with
        | none => .error .ValueError
        | some path => .ok path,
        if cls.remoteFetcher.isSome && outside.isAlive cls.questions then cls.asked
        else cls.asked.startFetcher stopFlag) := by
  simp only [includeRemote, exec_bind, exec_get, exec_modify]
  cases cls.remoteFetcher.isSome && outside.isAlive cls.questions <;>
    cases outside.output cls.questions url <;> rfl

/-- The path of an included file; a remote one is fetched. -/
def filePath (outside : Outside V) (self loader : LoaderInstance) (name : String) : LoadM String :=
  if isRemote name then includeRemote outside name self.stopFlag
  else pure (includePath loader.name name)

/-- An include that has come to a loader: it goes to the method that is registered at the moment. -/
def callConstructor (includeFile : LoaderInstance → LoaderInstance → String → LoadM (Data V))
    (loader : LoaderInstance) (name : String) : LoadM (Data V) := do
  let cls ← get
  match cls.constructor with
  | none => throw .ConstructorError
  -- The loader that constructs the node need not be the one whose method this is.
  | some self => includeFile self loader name

open Eff in
theorem exec_callConstructor {includeFile : LoaderInstance → LoaderInstance → String → LoadM (Data V)}
    {loader self : LoaderInstance} {name : String} {cls : LoaderClass} (h : cls.constructor = some self) :
    exec (callConstructor includeFile loader name) cls = exec (includeFile self loader name) cls := by
  simp only [callConstructor, exec_bind, exec_get, h]

section Load

variable (construct : Node V → Construction V) (outside : Outside V)

/-- `yaml.load` of an open file with a new loader. -/
def yamlLoad (includeFile : LoaderInstance → LoaderInstance → String → LoadM (Data V)) (node : Node V)
    (name : String) (includedFiles : Nat) (stopFlag : Option Nat) : LoadM (Data V) := do
  let loader ← newLoader name includedFiles stopFlag
  (construct node).run (callConstructor includeFile loader) .ConstructorError

/-- `include_file`; the calls can be nested to a depth. -/
def includeFile : Nat → LoaderInstance → LoaderInstance → String → LoadM (Data V)
  | 0, _, _, _ => throw .RecursionError
  | depth + 1, self, loader, name => do
      -- The directory is that of `loader`, the list of files and the stop flag are those of `self`.
      let filepath ← filePath outside self loader name
      tryCatch
        (do
          let node ← openFile outside filepath
          modify (LoaderClass.append self.includedFiles filepath)
          -- The new loader is not given the stop flag.
          yamlLoad construct (includeFile depth) node filepath self.includedFiles none)
        fun err => throw (if err = .OSError then .YAMLError else err)

/-- The part of `parse_config` that loads the files: the data, and the sorted list of the files. -/
def loadConfig (depth : Nat) (configFile : String) (stopFlag : Option Nat) :
    LoadM (Data V × List String) := do
  -- `get_loader_instance`: the list is shared by all the loaders of the parse.
  let cls ← get
  let includedFiles := cls.fileLists.length
  modify fun cls => { cls with fileLists := cls.fileLists ++ [[]] }
  let node ← openFile outside configFile
  let data ← yamlLoad construct (includeFile construct outside depth) node configFile includedFiles stopFlag
  let cls ← get
  return (data, sortedSet (configFile :: cls.fileList includedFiles))

open Eff in
/-- The list of files is new, and read when all is loaded. -/
theorem exec_loadConfig (depth : Nat) (configFile : String) (stopFlag : Option Nat) (cls : LoaderClass) :
    exec (loadConfig construct outside depth configFile stopFlag) cls =
      match exec
        (do
          let node ← openFile outside configFile
          yamlLoad construct (includeFile construct outside depth) node configFile cls.fileLists.length stopFlag)
        { cls with fileLists := cls.fileLists ++ [[]] } with
      | (.ok data, cls') => (.ok (data, sortedSet (configFile :: cls'.fileList cls.fileLists.length)), cls')
      | (.error err, cls') => (.error err, cls') := by
  simp only [loadConfig, exec_bind, exec_get, exec_modify]
  rcases exec (openFile outside configFile) { cls with fileLists := cls.fileLists ++ [[]] } with
    ⟨err | node, cls'⟩
  · rfl
  · dsimp only
    rcases exec (yamlLoad construct (includeFile construct outside depth) node configFile
      cls.fileLists.length stopFlag) cls' with ⟨err | data, cls''⟩ <;> rfl

end Load

end YamlLoader

end PidtreeBcc
