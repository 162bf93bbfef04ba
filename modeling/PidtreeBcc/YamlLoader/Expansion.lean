import PidtreeBcc.YamlLoader.Construct
import Mathlib.Data.Fintype.Card
import Mathlib.Logic.Relation
import Mathlib.Order.Filter.AtTopBot.Basic
import Mathlib.Order.Filter.Finite

/-!
# Expansion — includes are replaced by the contents of their files

A file's content is its document with each include replaced by the content of the file that it names, seen
from the directory of the file.  Where the includes of the local files go round in no circle this determines
the contents, and loading the configuration file computes its content together with the list of the files it
is made of, whichever loader constructs a node.
-/

namespace PidtreeBcc

open Support

namespace YamlLoader

variable {V ι : Type}

/-! ## Substitution -/

namespace Node

mutual

/-- The keys of all mappings are plain scalars. -/
def PlainKeys : Node V → Prop
  | .scalar _ => True
  | .sequence value => plainKeysAll value
  | .mapping value => plainKeysPairs value
  | .include _ => True

def plainKeysAll : List (Node V) → Prop
  | [] => True
  | node :: nodes => node.PlainKeys ∧ plainKeysAll nodes

def plainKeysPairs : List (Node V × Node V) → Prop
  | [] => True
  | (key, value) :: rest => (∃ k, key = .scalar k) ∧ value.PlainKeys ∧ plainKeysPairs rest

end

variable [DecidableEq V] {content content' : String → Option (Data V)}

mutual

/-- Only the contents of the includes matter. -/
theorem subst_congr : ∀ node : Node V, (∀ name ∈ node.includes, content' name = content name) →
    node.subst content' = node.subst content
  | .scalar _, _ => by simp [subst]
  | .sequence value, h => by
      have hvalue := substAll_congr value (by simpa [includes] using h)
      simp [subst, hvalue]
  | .mapping value, h => by
      have hvalue := substPairs_congr value (by simpa [includes] using h)
      simp [subst, hvalue]
  | .include name, h => by
      simpa [subst] using h name (by simp [includes])

theorem substAll_congr : ∀ nodes : List (Node V),
    (∀ name ∈ includesAll nodes, content' name = content name) →
      substAll content' nodes = substAll content nodes
  | [], _ => by simp [substAll]
  | node :: nodes, h => by
      have hnode := subst_congr node fun name hname => h name (by simp [includesAll, hname])
      have hnodes := substAll_congr nodes fun name hname => h name (by simp [includesAll, hname])
      simp [substAll, hnode, hnodes]

theorem substPairs_congr : ∀ nodes : List (Node V × Node V),
    (∀ name ∈ includesPairs nodes, content' name = content name) →
      substPairs content' nodes = substPairs content nodes
  | [], _ => by simp [substPairs]
  | (key, value) :: nodes, h => by
      have hkey := subst_congr key fun name hname => h name (by simp [includesPairs, hname])
      have hvalue := subst_congr value fun name hname => h name (by simp [includesPairs, hname])
      have hnodes := substPairs_congr nodes fun name hname =>
        h name (by simp [includesPairs, hname])
      simp [substPairs, hkey, hvalue, hnodes]

end

mutual

/-- An include without content leaves the node without data. -/
theorem content_of_subst : ∀ {node : Node V} {data : Data V}, node.subst content = some data →
    ∀ name ∈ node.includes, ∃ d, content name = some d
  | .scalar _, _, _ => by simp [includes]
  | .sequence value, data, h => by
      rcases Option.map_eq_some_iff.1 (by simpa only [subst] using h) with ⟨items, hitems, _⟩
      simpa only [includes] using content_of_substAll hitems
  | .mapping value, data, h => by
      rcases Option.map_eq_some_iff.1 (by simpa only [subst] using h) with ⟨entries, hentries, _⟩
      simpa only [includes] using content_of_substPairs hentries
  | .include name, data, h => by
      intro name' hname
      obtain rfl : name' = name := by simpa [includes] using hname
      exact ⟨data, by simpa only [subst] using h⟩

theorem content_of_substAll : ∀ {nodes : List (Node V)} {items : List (Data V)},
    substAll content nodes = some items → ∀ name ∈ includesAll nodes, ∃ d, content name = some d
  | [], _, _ => by simp [includesAll]
  | node :: nodes, items, h => by
      rcases Option.bind_eq_some_iff.1 (by simpa only [substAll] using h) with ⟨data, hdata, hrest⟩
      rcases Option.map_eq_some_iff.1 hrest with ⟨rest, hrest, _⟩
      intro name hname
      rcases List.mem_append.1 (by simpa only [includesAll] using hname) with hname | hname
      · exact content_of_subst hdata name hname
      · exact content_of_substAll hrest name hname

theorem content_of_substPairs : ∀ {nodes : List (Node V × Node V)} {entries : List (Option V × Data V)},
    substPairs content nodes = some entries →
      ∀ name ∈ includesPairs nodes, ∃ d, content name = some d
  | [], _, _ => by simp [includesPairs]
  | (key, value) :: nodes, entries, h => by
      rcases Option.bind_eq_some_iff.1 (by simpa only [substPairs] using h) with ⟨k, hk, hrest⟩
      rcases Option.bind_eq_some_iff.1 hk with ⟨keyData, hkey, _⟩
      rcases Option.bind_eq_some_iff.1 hrest with ⟨data, hdata, hrest⟩
      rcases Option.map_eq_some_iff.1 hrest with ⟨rest, hrest, _⟩
      intro name hname
      simp only [includesPairs, List.mem_append] at hname
      rcases hname with (hname | hname) | hname
      · exact content_of_subst hkey name hname
      · exact content_of_subst hdata name hname
      · exact content_of_substPairs hrest name hname

end

mutual

/-- With plain keys the contents of the includes are enough. -/
theorem subst_of_plainKeys : ∀ {node : Node V}, node.PlainKeys →
    (∀ name ∈ node.includes, ∃ d, content name = some d) → ∃ data, node.subst content = some data
  | .scalar value, _, _ => ⟨.scalar value, by simp [subst]⟩
  | .sequence value, hplain, h => by
      rcases substAll_of_plainKeys (by simpa only [PlainKeys] using hplain)
        (by simpa only [includes] using h) with ⟨items, hitems⟩
      exact ⟨.list items, by simp [subst, hitems]⟩
  | .mapping value, hplain, h => by
      rcases substPairs_of_plainKeys (by simpa only [PlainKeys] using hplain)
        (by simpa only [includes] using h) with ⟨entries, hentries⟩
      exact ⟨.ofEntries entries, by simp [subst, hentries]⟩
  | .include name, _, h => by
      simpa only [subst] using h name (by simp [includes])

theorem substAll_of_plainKeys : ∀ {nodes : List (Node V)}, plainKeysAll nodes →
    (∀ name ∈ includesAll nodes, ∃ d, content name = some d) →
      ∃ items, substAll content nodes = some items
  | [], _, _ => ⟨[], by simp [substAll]⟩
  | node :: nodes, hplain, h => by
      simp only [plainKeysAll] at hplain
      rcases subst_of_plainKeys hplain.1 fun name hname => h name (by simp [includesAll, hname]) with
        ⟨data, hdata⟩
      rcases substAll_of_plainKeys hplain.2 fun name hname => h name (by simp [includesAll, hname]) with
        ⟨items, hitems⟩
      exact ⟨data :: items, by simp [substAll, hdata, hitems]⟩

theorem substPairs_of_plainKeys : ∀ {nodes : List (Node V × Node V)}, plainKeysPairs nodes →
    (∀ name ∈ includesPairs nodes, ∃ d, content name = some d) →
      ∃ entries, substPairs content nodes = some entries
  | [], _, _ => ⟨[], by simp [substPairs]⟩
  | (key, value) :: nodes, hplain, h => by
      simp only [plainKeysPairs] at hplain
      rcases hplain with ⟨⟨k, rfl⟩, hvalue, hnodes⟩
      rcases subst_of_plainKeys hvalue fun name hname => h name (by simp [includesPairs, hname]) with
        ⟨data, hdata⟩
      rcases substPairs_of_plainKeys hnodes fun name hname => h name (by simp [includesPairs, hname]) with
        ⟨entries, hentries⟩
      exact ⟨(k, data) :: entries, by simp [substPairs, subst, Data.key?, hdata, hentries]⟩

end

end Node

/-! ## Local files -/

/-- The files that a path can open, by their identity: a file may have several paths. -/
structure LocalFiles (ι V : Type) where
  opens : String → Option ι
  document : ι → Node V
  isLocal : ∀ i, ∀ name ∈ (document i).includes, isRemote name = false

namespace LocalFiles

variable (fs : LocalFiles ι V)

def read (path : String) : Option (Node V) := (fs.opens path).map fs.document

/-- The outside of a thread that loads local files. -/
def outside : Outside V := ⟨fun _ path => fs.read path, fun _ => false, fun _ _ => none⟩

/-- The file at the first path includes the second. -/
def Includes (path path' : String) : Prop :=
  ∃ node name, fs.read path = some node ∧ name ∈ node.includes ∧ path' = includePath path name

/-- The path is the first one or that of a file that is transitively included. -/
def Reaches : String → String → Prop := Relation.ReflTransGen fs.Includes

/-- The one file, found at some path, includes the other. -/
def Links (i j : ι) : Prop :=
  ∃ path path', fs.opens path = some i ∧ fs.Includes path path' ∧ fs.opens path' = some j

/-- No file includes itself, directly or through others. -/
def Acyclic : Prop := ∀ i, ¬ Relation.TransGen fs.Links i i

/-- The contents of the files: the document of each with its includes replaced by the contents of the files
that they name.  A path that cannot be opened has no content. -/
def IsContent [DecidableEq V] (content : String → Option (Data V)) : Prop :=
  ∀ path, content path = (fs.read path).bind fun node =>
    node.subst fun name => content (includePath path name)

variable {fs}

theorem isLocal_of_read {path name : String} {node : Node V} (hread : fs.read path = some node)
    (hname : name ∈ node.includes) : isRemote name = false := by
  rcases Option.map_eq_some_iff.1 hread with ⟨i, _, rfl⟩
  exact fs.isLocal i name hname

/-- Finitely many files without a circle are included in some order. -/
theorem wellFounded_includes [Finite ι] (h : fs.Acyclic) : WellFounded (flip fs.Includes) := by
  have htrans : IsTrans ι (Relation.TransGen (flip fs.Links)) := ⟨fun _ _ _ => Relation.TransGen.trans⟩
  have hirrefl : Std.Irrefl (Relation.TransGen (flip fs.Links)) :=
    ⟨fun i hi => h i (Relation.transGen_swap.1 hi)⟩
  have hfiles : WellFounded (flip fs.Links) :=
    Subrelation.wf (fun hlink => Relation.TransGen.single hlink) (Finite.wellFounded_of_trans_of_irrefl _)
  -- A path that cannot be opened includes nothing.
  have hclosed : ∀ path, fs.opens path = none → Acc (flip fs.Includes) path := by
    intro path hopens
    refine ⟨path, ?_⟩
    rintro path' ⟨node, name, hread, _⟩
    simp [read, hopens] at hread
  have hopen : ∀ i path, fs.opens path = some i → Acc (flip fs.Includes) path := by
    intro i
    induction i using hfiles.induction with
    | _ i ih =>
        intro path hopens
        refine ⟨path, fun path' hincludes => ?_⟩
        cases hopens' : fs.opens path' with
        | none => exact hclosed path' hopens'
        | some j => exact ih j ⟨path, path', hopens, hincludes, hopens'⟩ path' hopens'
  refine ⟨fun path => ?_⟩
  cases hopens : fs.opens path with
  | none => exact hclosed path hopens
  | some i => exact hopen i path hopens

variable [DecidableEq V] {content : String → Option (Data V)}

/-- Without a circle the files have contents. -/
theorem exists_isContent (hwf : WellFounded (flip fs.Includes)) :
    ∃ content : String → Option (Data V), fs.IsContent content := by
  classical
  -- The includes of a file come before it.
  refine ⟨hwf.fix fun path rec => (fs.read path).bind fun node =>
    node.subst fun name =>
      if h : fs.Includes path (includePath path name) then rec (includePath path name) h else none, ?_⟩
  intro path
  rw [hwf.fix_eq]
  cases hread : fs.read path with
  | none => rfl
  | some node =>
      refine Node.subst_congr _ fun name hname => ?_
      exact dif_pos ⟨node, name, hread, hname, rfl⟩

/-- A content is made of all the files that are reached. -/
theorem read_of_reaches (hcontent : fs.IsContent content) {path path' : String}
    (hreaches : fs.Reaches path path') : ∀ {data : Data V}, content path = some data →
      ∃ node, fs.read path' = some node := by
  induction hreaches using Relation.ReflTransGen.head_induction_on with
  | refl =>
      intro data hdata
      rw [hcontent] at hdata
      rcases Option.bind_eq_some_iff.1 hdata with ⟨node, hread, _⟩
      exact ⟨node, hread⟩
  | head hincludes _ ih =>
      intro data hdata
      rcases hincludes with ⟨node, name, hread, hname, rfl⟩
      rw [hcontent, hread] at hdata
      rcases Node.content_of_subst hdata name hname with ⟨d, hd⟩
      exact ih hd

/-- Files that are all there, with plain keys, have a content. -/
theorem content_of_reaches (hwf : WellFounded (flip fs.Includes)) (hcontent : fs.IsContent content)
    (path : String) : (∀ path', fs.Reaches path path' → ∃ node, fs.read path' = some node ∧ node.PlainKeys) →
      ∃ data, content path = some data := by
  induction path using hwf.induction with
  | _ path ih =>
      intro h
      rcases h path .refl with ⟨node, hread, hplain⟩
      rw [hcontent, hread]
      refine Node.subst_of_plainKeys hplain fun name hname => ?_
      have hincludes : fs.Includes path (includePath path name) := ⟨node, name, hread, hname, rfl⟩
      exact ih _ hincludes fun path' hreaches => h path' (.head hincludes hreaches)

/-! ## Files up to a depth -/

/-- The content of a file if the includes are not nested deeper than that. -/
def expand (fs : LocalFiles ι V) : Nat → String → Option (Data V)
  | 0, _ => none
  | depth + 1, path => (fs.read path).bind fun node =>
      node.subst fun name => fs.expand depth (includePath path name)

theorem expand_eventually (hwf : WellFounded (flip fs.Includes)) (hcontent : fs.IsContent content)
    (path : String) : ∀ᶠ depth in Filter.atTop, fs.expand depth path = content path := by
  induction path using hwf.induction with
  | _ path ih =>
      cases hread : fs.read path with
      | none =>
          refine Filter.Eventually.of_forall fun depth => ?_
          cases depth <;> simp [expand, hcontent path, hread]
      | some node =>
          have hnames : ∀ᶠ depth in Filter.atTop, ∀ name ∈ {name | name ∈ node.includes},
              fs.expand depth (includePath path name) = content (includePath path name) :=
            (Filter.eventually_all_finite (List.finite_toSet node.includes)).2 fun name hname =>
              ih _ ⟨node, name, hread, hname, rfl⟩
          rcases Filter.eventually_atTop.1 hnames with ⟨depth, hdepth⟩
          refine Filter.eventually_atTop.2 ⟨depth + 1, fun n hn => ?_⟩
          cases n with
          | zero => omega
          | succ n =>
              simp only [expand, hcontent path, hread, Option.bind_some]
              exact Node.subst_congr _ (hdepth n (by omega))

end LocalFiles

/-! ## Loading -/

/-- The list is there, with the elements of `A` so far. -/
structure Lists (includedFiles : Nat) (A : Set String) (cls : LoaderClass) : Prop where
  allocated : includedFiles < cls.fileLists.length
  files : ∀ path, path ∈ cls.fileList includedFiles ↔ path ∈ A

/-- The includes go to a loader that fills the list. -/
structure Fills (includedFiles : Nat) (A : Set String) (cls : LoaderClass) : Prop
    extends Lists includedFiles A cls where
  registered : ∃ self, cls.constructor = some self ∧ self.includedFiles = includedFiles

theorem Lists.append {includedFiles : Nat} {A : Set String} {cls : LoaderClass}
    (h : Lists includedFiles A cls) (path : String) :
    Lists includedFiles (A ∪ {path}) (cls.append includedFiles path) := by
  refine ⟨by simpa [LoaderClass.append] using h.allocated, fun path' => ?_⟩
  have hlist : (cls.append includedFiles path).fileList includedFiles =
      cls.fileList includedFiles ++ [path] := by
    simp [LoaderClass.append, LoaderClass.fileList, h.allocated]
  calc
    path' ∈ (cls.append includedFiles path).fileList includedFiles
        ↔ path' ∈ cls.fileList includedFiles ∨ path' = path := by simp [hlist]
    _ ↔ path' ∈ A ∪ {path} := by
          rw [h.files path']
          rfl

namespace LocalFiles

open Eff

variable {fs : LocalFiles ι V} {includedFiles : Nat}

theorem openFile_computes (path : String) :
    Computes (Lists includedFiles) (Lists includedFiles) (openFile fs.outside path) (fs.read path) ∅ := by
  intro A cls hlists
  have hasked : Lists includedFiles (A ∪ ∅) cls.asked := by
    rw [Set.union_empty]
    exact ⟨hlists.allocated, hlists.files⟩
  have hreads : fs.outside.reads cls.questions path = fs.read path := rfl
  rw [exec_openFile, hreads]
  cases fs.read path with
  | none => exact ⟨.OSError, rfl⟩
  | some node => exact ⟨rfl, hasked⟩

/-- A new loader takes the place of the one before it, if there is one. -/
theorem newLoader_computes (name : String) (stopFlag : Option Nat) :
    Computes (Lists includedFiles) (Fills includedFiles) (newLoader name includedFiles stopFlag)
      (some ⟨name, includedFiles, stopFlag⟩) ∅ := by
  intro A cls hlists
  rw [Set.union_empty]
  exact ⟨rfl, ⟨hlists.allocated, hlists.files⟩, ⟨name, includedFiles, stopFlag⟩, rfl, rfl⟩

/-- An include goes to a loader of the same list, whichever it is. -/
theorem callConstructor_computes
    {includeFile : LoaderInstance → LoaderInstance → String → LoadM (Data V)} {loader : LoaderInstance}
    {name : String} {value : Option (Data V)} {B : Set String}
    (h : ∀ self : LoaderInstance, self.includedFiles = includedFiles →
      Computes (Fills includedFiles) (Fills includedFiles) (includeFile self loader name) value B) :
    Computes (Fills includedFiles) (Fills includedFiles) (callConstructor includeFile loader name) value B := by
  intro A cls hfills
  rcases hfills.registered with ⟨self, hself, hlist⟩
  rw [exec_callConstructor hself]
  exact h self hlist A cls hfills

/-- The files that are reached from the includes of the document that a path opens. -/
def below (fs : LocalFiles ι V) (path : String) : Set String :=
  {path' | ∃ node name, fs.read path = some node ∧ name ∈ node.includes ∧
    fs.Reaches (includePath path name) path'}

theorem setOf_reaches (fs : LocalFiles ι V) (path : String) :
    {path' | fs.Reaches path path'} = {path} ∪ fs.below path := by
  ext path'
  constructor
  · intro h
    rcases Relation.ReflTransGen.cases_head h with rfl | ⟨next, ⟨node, name, hread, hname, rfl⟩, hrest⟩
    · exact Or.inl rfl
    · exact Or.inr ⟨node, name, hread, hname, hrest⟩
  · rintro (rfl | ⟨node, name, hread, hname, hrest⟩)
    · exact .refl
    · exact .head ⟨node, name, hread, hname, rfl⟩ hrest

variable [DecidableEq V] {construct : Node V → Construction V}

/-- What is asked for in the construction of a document that has data are its includes. -/
theorem asked_eq_includes (hfaithful : Faithful construct) {node : Node V}
    {content : String → Option (Data V)} {data : Data V} (hdata : node.subst content = some data)
    (name : String) : name ∈ (construct node).asked content ↔ name ∈ node.includes := by
  constructor
  · exact fun hasked => hfaithful.asks node name (Asking.asks_of_mem_asked hasked)
  · intro hname
    by_contra hnot
    -- Without its content nothing would change, but the document needs it.
    let without : String → Option (Data V) := fun n => if n = name then none else content n
    have hothers : ∀ n ∈ (construct node).asked content, without n = content n := by
      intro n hn
      refine if_neg ?_
      rintro rfl
      exact hnot hn
    have hsame : node.subst without = some data := by
      calc
        node.subst without
            = (construct node).eval without := (hfaithful.eval node without).symm
        _ = (construct node).eval content := Asking.eval_congr hothers
        _ = node.subst content := hfaithful.eval node content
        _ = some data := hdata
    rcases Node.content_of_subst hsame name hname with ⟨d, hd⟩
    simp [without] at hd

/-- The construction of a document, each of its includes being loaded. -/
theorem construct_computes (hfaithful : Faithful construct) {node : Node V} {loader : LoaderInstance}
    {includeFile : LoaderInstance → LoaderInstance → String → LoadM (Data V)}
    {value : String → Option (Data V)} {B : String → Set String}
    (h : ∀ self : LoaderInstance, self.includedFiles = includedFiles → ∀ name ∈ node.includes,
      Computes (Fills includedFiles) (Fills includedFiles) (includeFile self loader name) (value name) (B name)) :
    Computes (Fills includedFiles) (Fills includedFiles)
      ((construct node).run (callConstructor includeFile loader) .ConstructorError)
      (node.subst value) (⋃ name ∈ node.includes, B name) := by
  have hanswer : ∀ name, (construct node).Asks name →
      Computes (Fills includedFiles) (Fills includedFiles) (callConstructor includeFile loader name)
        (value name) (B name) := fun name hasks =>
    callConstructor_computes fun self hself => h self hself name (hfaithful.asks node name hasks)
  have hrun := Computes.run LoadErr.ConstructorError hanswer
  rw [hfaithful.eval] at hrun
  refine hrun.congr fun data hdata => ?_
  ext path
  simp [asked_eq_includes hfaithful hdata]

/-- A document is constructed by a new loader, each of its includes being loaded. -/
theorem yamlLoad_computes (hfaithful : Faithful construct) {depth : Nat} {path : String} {node : Node V}
    (stopFlag : Option Nat) (hread : fs.read path = some node)
    (h : ∀ self loader : LoaderInstance, self.includedFiles = includedFiles → loader.name = path →
      ∀ name ∈ node.includes, Computes (Fills includedFiles) (Fills includedFiles)
        (includeFile construct fs.outside depth self loader name)
        (fs.expand depth (includePath path name)) {path' | fs.Reaches (includePath path name) path'}) :
    Computes (Lists includedFiles) (Fills includedFiles)
      (yamlLoad construct (includeFile construct fs.outside depth) node path includedFiles stopFlag)
      (node.subst fun name => fs.expand depth (includePath path name)) (fs.below path) := by
  have hset : fs.below path =
      ∅ ∪ ⋃ name ∈ node.includes, {path' | fs.Reaches (includePath path name) path'} := by
    ext path'
    simp [below, hread]
  rw [hset]
  refine (newLoader_computes path stopFlag).bind (g := fun _ => node.subst _) fun loader hloader => ?_
  obtain rfl : _ = loader := Option.some.inj hloader
  exact construct_computes hfaithful fun self hself name hname => h self _ hself rfl name hname

/-- An include is loaded into the content of its file, and all files that are reached are put on the list. -/
theorem includeFile_computes (hfaithful : Faithful construct) :
    ∀ (depth : Nat) {self loader : LoaderInstance} {name : String}, self.includedFiles = includedFiles →
      isRemote name = false →
        Computes (Fills includedFiles) (Fills includedFiles) (includeFile construct fs.outside depth self loader name)
          (fs.expand depth (includePath loader.name name))
          {path | fs.Reaches (includePath loader.name name) path}
  | 0, _, _, _, _, _ => Computes.throw LoadErr.RecursionError _
  | depth + 1, self, loader, name, hself, hlocal => by
      have hpath : includeFile construct fs.outside (depth + 1) self loader name =
          tryCatch
            (do
              let node ← openFile fs.outside (includePath loader.name name)
              modify (LoaderClass.append self.includedFiles (includePath loader.name name))
              yamlLoad construct (includeFile construct fs.outside depth) node
                (includePath loader.name name) self.includedFiles none)
            fun err => throw (if err = .OSError then .YAMLError else err) := by
        simp [includeFile, filePath, hlocal]
      rw [hpath, hself]
      -- The nested loader resolves the names in the file against this path.
      generalize includePath loader.name name = path
      refine (Computes.tryCatch ?_ fun err => ⟨_, rfl⟩).of_imp fun A cls hfills => hfills.toLists
      rw [setOf_reaches, ← Set.empty_union ({path} ∪ fs.below path)]
      refine (openFile_computes path).bind
        (g := fun node => node.subst fun name => fs.expand depth (includePath path name))
        fun node hread => ?_
      have happend : Computes (Lists includedFiles) (Lists includedFiles)
          (modify (LoaderClass.append includedFiles path) : LoadM PUnit) (some ⟨⟩) {path} :=
        Computes.modify fun A cls hlists => hlists.append path
      refine happend.bind
        (g := fun _ => node.subst fun name => fs.expand depth (includePath path name)) fun _ _ => ?_
      exact yamlLoad_computes hfaithful none hread fun self' loader' hself' hloader' name' hname' =>
        hloader' ▸ includeFile_computes hfaithful depth hself' (isLocal_of_read hread hname')

/-- The configuration file is loaded into its content, with the list of the files that are reached. -/
theorem loadConfig_exec (fs : LocalFiles ι V) (hfaithful : Faithful construct) (depth : Nat) (configFile : String)
    (stopFlag : Option Nat) (cls : LoaderClass) :
    match fs.expand (depth + 1) configFile with
    | some data => ∃ files, (exec (loadConfig construct fs.outside depth configFile stopFlag) cls).1 =
        .ok (data, sortedSet files) ∧ ∀ path, path ∈ files ↔ fs.Reaches configFile path
    | none => ∃ err, (exec (loadConfig construct fs.outside depth configFile stopFlag) cls).1 = .error err := by
  have hload : Computes (Lists cls.fileLists.length) (Fills cls.fileLists.length)
      (openFile fs.outside configFile >>= fun node =>
        yamlLoad construct (includeFile construct fs.outside depth) node configFile cls.fileLists.length stopFlag)
      (fs.expand (depth + 1) configFile) (fs.below configFile) := by
    rw [← Set.empty_union (fs.below configFile)]
    refine (openFile_computes configFile).bind
      (g := fun node => node.subst fun name => fs.expand depth (includePath configFile name))
      fun node hread => ?_
    exact yamlLoad_computes hfaithful stopFlag hread fun self loader hself hloader name hname =>
      hloader ▸ includeFile_computes hfaithful depth hself (isLocal_of_read hread hname)
  have hnew : Lists cls.fileLists.length ∅ { cls with fileLists := cls.fileLists ++ [[]] } :=
    ⟨by simp, by simp [LoaderClass.fileList]⟩
  have hrun := hload ∅ _ hnew
  rw [exec_loadConfig]
  rcases hexec : exec (openFile fs.outside configFile >>= fun node => yamlLoad construct
    (includeFile construct fs.outside depth) node configFile cls.fileLists.length stopFlag)
    { cls with fileLists := cls.fileLists ++ [[]] } with ⟨r, cls'⟩
  rw [hexec] at hrun
  cases hexpand : fs.expand (depth + 1) configFile with
  | none =>
      rw [hexpand] at hrun
      rcases hrun with ⟨err, hr⟩
      obtain rfl : r = .error err := hr
      exact ⟨err, rfl⟩
  | some data =>
      rw [hexpand] at hrun
      rcases hrun with ⟨hr, hfills⟩
      obtain rfl : r = .ok data := hr
      refine ⟨configFile :: cls'.fileList cls.fileLists.length, rfl, fun path => ?_⟩
      calc
        path ∈ configFile :: cls'.fileList cls.fileLists.length
            ↔ path = configFile ∨ path ∈ ∅ ∪ fs.below configFile := by
              rw [List.mem_cons, hfills.files path]
        _ ↔ path ∈ {configFile} ∪ fs.below configFile := by simp
        _ ↔ fs.Reaches configFile path := by
              rw [← setOf_reaches]
              rfl

open Eff in
/-- From some depth on, what is loaded is the content of the file, with the sorted list of the files that are
reached. -/
theorem loadConfig_eventually {fs : LocalFiles ι V} (hwf : WellFounded (flip fs.Includes))
    (hfaithful : Faithful construct) {content : String → Option (Data V)} (hcontent : fs.IsContent content)
    (configFile : String) (stopFlag : Option Nat) (cls : LoaderClass) :
    ∃ depth, ∀ n, depth ≤ n →
      match content configFile with
      | some data => ∃ files,
          (exec (loadConfig construct fs.outside n configFile stopFlag) cls).1 = .ok (data, files) ∧
            files.Pairwise (· < ·) ∧ ∀ path, path ∈ files ↔ fs.Reaches configFile path
      | none => ∃ err, (exec (loadConfig construct fs.outside n configFile stopFlag) cls).1 = .error err := by
  -- Loading at a depth gives the content up to one level more.
  rcases Filter.eventually_atTop.1 (expand_eventually hwf hcontent configFile) with ⟨depth, hdepth⟩
  refine ⟨depth, fun n hn => ?_⟩
  have hload := fs.loadConfig_exec hfaithful n configFile stopFlag cls
  rw [hdepth (n + 1) (by omega)] at hload
  cases hdata : content configFile with
  | none => simpa [hdata] using hload
  | some data =>
      rw [hdata] at hload
      rcases hload with ⟨files, hexec, hfiles⟩
      exact ⟨sortedSet files, hexec, sortedSet_pairwise files, fun path => mem_sortedSet.trans (hfiles path)⟩

end LocalFiles

open Eff in
/-- The local files have contents, and loading a configuration file gives its content with the sorted list of
the files that are reached; it raises if there is no content, as when one of the files is missing. -/
theorem includes_expanded [DecidableEq V] [Finite ι] (construct : Node V → Construction V)
    (hfaithful : Faithful construct) (fs : LocalFiles ι V) (hacyclic : fs.Acyclic) :
    (∃ content, fs.IsContent content) ∧
      ∀ content, fs.IsContent content → ∀ (configFile : String) (stopFlag : Option Nat) (cls : LoaderClass),
        (∃ depth, ∀ n, depth ≤ n →
          match content configFile with
          | some data => ∃ files,
              (exec (loadConfig construct fs.outside n configFile stopFlag) cls).1 = .ok (data, files) ∧
                files.Pairwise (· < ·) ∧ ∀ path, path ∈ files ↔ fs.Reaches configFile path
          | none => ∃ err, (exec (loadConfig construct fs.outside n configFile stopFlag) cls).1 = .error err) ∧
        ((∀ path, fs.Reaches configFile path → ∃ node, fs.read path = some node ∧ node.PlainKeys) →
          ∃ data, content configFile = some data) ∧
        ((∃ path, fs.Reaches configFile path ∧ fs.opens path = none) → content configFile = none) := by
  have hwf := LocalFiles.wellFounded_includes hacyclic
  refine ⟨LocalFiles.exists_isContent hwf, fun content hcontent configFile stopFlag cls => ⟨?_, ?_, ?_⟩⟩
  · exact LocalFiles.loadConfig_eventually hwf hfaithful hcontent configFile stopFlag cls
  · exact LocalFiles.content_of_reaches hwf hcontent configFile
  · -- A content would be made of a file that is missing.
    rintro ⟨path, hreaches, hopens⟩
    cases hdata : content configFile with
    | none => rfl
    | some data =>
        rcases LocalFiles.read_of_reaches hcontent hreaches hdata with ⟨node, hread⟩
        simp [LocalFiles.read, hopens] at hread

/-! ### A file that is included at two levels, under two paths -/

namespace Example

/-- Two probes, each with a setting that is included. -/
def documents : Fin 3 → Node String
  | 0 => .mapping [
      (.scalar (some "tcp_connect"), .mapping [(.scalar (some "excludeports"), .include "sub/a.yaml")]),
      (.scalar (some "udp_session"), .mapping [(.scalar (some "excludeports"),
        .sequence [.include "/opt/b.yaml", .include "sub/a.yaml"])])]
  | 1 => .sequence [.scalar (some "22"), .include "b.yaml"]
  | 2 => .scalar (some "80-443")

/-- The main file with its includes replaced. -/
def expanded : Data String :=
  .dict [
    (some "tcp_connect", .dict [(some "excludeports", .list [.scalar (some "22"), .scalar (some "80-443")])]),
    (some "udp_session", .dict [(some "excludeports",
      .list [.scalar (some "80-443"), .list [.scalar (some "22"), .scalar (some "80-443")]])])]

/-- `/etc/sub/b.yaml` is a link. -/
def table : List (String × Fin 3) :=
  [("/etc/main.yaml", 0), ("/etc/sub/a.yaml", 1), ("/etc/sub/b.yaml", 2), ("/opt/b.yaml", 2)]

def localFiles : LocalFiles (Fin 3) String := ⟨fun path => table.lookup path, documents, by decide +kernel⟩

def unloaded : LoaderClass := ⟨none, [], none, [], 0⟩

/-- Every include goes to a file with a higher number. -/
theorem acyclic_localFiles : localFiles.Acyclic := by
  have htable : ∀ entry ∈ table, ∀ name ∈ (documents entry.2).includes, ∀ j,
      table.lookup (includePath entry.1 name) = some j → entry.2 < j := by decide +kernel
  have hlink : ∀ i j, localFiles.Links i j → i < j := by
    rintro i j ⟨path, path', hopens, ⟨node, name, hread, hname, rfl⟩, hopens'⟩
    have hmem : (path, i) ∈ table := (Assoc.lookup_eq_some_iff_mem (by decide +kernel)).1 hopens
    have hnode : localFiles.read path = some (documents i) := by simp [LocalFiles.read, hopens]; rfl
    obtain rfl : documents i = node := Option.some.inj (hnode.symm.trans hread)
    exact htable (path, i) hmem name hname j hopens'
  intro i hcircle
  have hlt : ∀ j, Relation.TransGen localFiles.Links i j → i < j := by
    intro j h
    induction h with
    | single h => exact hlink _ _ h
    | tail _ h ih => exact lt_trans ih (hlink _ _ h)
  exact lt_irrefl i (hlt i hcircle)

theorem content_main {content : String → Option (Data String)} (hcontent : localFiles.IsContent content) :
    content "/etc/main.yaml" = some expanded := by
  have hb : content "/opt/b.yaml" = some (.scalar (some "80-443")) := by
    rw [hcontent]
    rfl
  have hlink : content "/etc/sub/b.yaml" = some (.scalar (some "80-443")) := by
    rw [hcontent]
    rfl
  have ha : content "/etc/sub/a.yaml" = some (.list [.scalar (some "22"), .scalar (some "80-443")]) := by
    have hread : localFiles.read "/etc/sub/a.yaml" = some (documents 1) := rfl
    have hpath : includePath "/etc/sub/a.yaml" "b.yaml" = "/etc/sub/b.yaml" := by decide +kernel
    rw [hcontent, hread]
    simp [documents, Node.subst, Node.substAll, hpath, hlink]
  have hread : localFiles.read "/etc/main.yaml" = some (documents 0) := rfl
  have hpatha : includePath "/etc/main.yaml" "sub/a.yaml" = "/etc/sub/a.yaml" := by decide +kernel
  have hpathb : includePath "/etc/main.yaml" "/opt/b.yaml" = "/opt/b.yaml" := by decide +kernel
  rw [hcontent, hread]
  simp [documents, expanded, Node.subst, Node.substAll, Node.substPairs, Data.key?, Data.ofEntries, Assoc.set,
    hpatha, hpathb, ha, hb]

end Example

theorem nested_includes_expanded :
    ∃ depth, ∀ n, depth ≤ n → ∃ files,
      (Eff.exec (loadConfig constructDocument Example.localFiles.outside n "/etc/main.yaml" none)
        Example.unloaded).1 = .ok (Example.expanded, files) ∧
      ∀ path, path ∈ files ↔ Example.localFiles.Reaches "/etc/main.yaml" path := by
  have hexpanded := includes_expanded constructDocument faithful_constructDocument Example.localFiles
    Example.acyclic_localFiles
  rcases hexpanded with ⟨⟨content, hcontent⟩, hload⟩
  rcases hload content hcontent "/etc/main.yaml" none Example.unloaded with ⟨⟨depth, hdepth⟩, _, _⟩
  refine ⟨depth, fun n hn => ?_⟩
  have hn := hdepth n hn
  rw [Example.content_main hcontent] at hn
  rcases hn with ⟨files, hexec, _, hfiles⟩
  exact ⟨files, hexec, hfiles⟩

end YamlLoader

end PidtreeBcc
