import PidtreeBcc.Containers.Lookups
import PidtreeBcc.Support.ShortCircuit

/-!
# LabelPatterns — the entries of `container_labels`

An entry is a list of pieces `label=pattern`, all of which have to match; one entry that matches is enough.
The entries are tried one after the other in one `try` block for each container.  A piece without `=`
cannot be unpacked, so once an entry comes to such a piece the container is left out, whatever the
entries after it say.

The filter for two lists of entries is the union of the filters for each of them just when no container
that the second list selects makes an entry of the first list come to such a piece.
-/

namespace PidtreeBcc

open Support

namespace Containers

namespace LabelFilter

variable (fnmatch : String → String → Bool)

/-- `label_key in labels and fnmatch.fnmatch(labels[label_key], pattern)`, after the unpacking. -/
def pieceMatches (labels : Dict String String) : List String → Except PyErr Bool
  | [labelKey, pattern] => .ok ((labels.get? labelKey).any fun value => fnmatch value pattern)
  | _ => .error (.builtin .ValueError)

def entryMatches (labels : Dict String String) (entry : String) : Except PyErr Bool :=
  (unpackPatternSet entry).allM (pieceMatches fnmatch labels)

/-- `labels and any(...)` -/
def labelsMatch (patterns : List String) (labels : Dict String String) : Except PyErr Bool :=
  if labels.entries = [] then .ok false else patterns.anyM (entryMatches fnmatch labels)

variable (inspect : String → Except PyErr InspectData)

/-- One round of the loop, where `inspect_container` ends as given; an inspection without a name that can
be read counts as one that fails. -/
def selected (patterns : List String) (containerId : String) : Option (String × String) :=
  match inspect containerId with
  | .error _ => none
  | .ok containerInfo =>
      match labelsMatch fnmatch patterns containerInfo.labels with
      | .ok true => some (containerId, extractContainerName containerInfo)
      | _ => none

def filterContainersWithLabelPatterns (containerIds patterns : List String) :
    List (String × String) :=
  containerIds.filterMap (selected fnmatch inspect patterns)

/-! ## Entries -/

/-- The piece is `label=pattern`, and the label has a value that matches. -/
def PieceMatches (labels : Dict String String) (piece : List String) : Prop :=
  ∃ labelKey pattern value, piece = [labelKey, pattern] ∧ labels.get? labelKey = some value ∧
    fnmatch value pattern = true

/-- All pieces of the entry match. -/
def Matches (labels : Dict String String) (entry : String) : Prop :=
  ∀ piece ∈ unpackPatternSet entry, PieceMatches fnmatch labels piece

/-- The entry has a piece without `=`, and all pieces before it match. -/
def ComesToMalformed (labels : Dict String String) (entry : String) : Prop :=
  ∃ before piece after, unpackPatternSet entry = before ++ [piece] :: after ∧
    ∀ other ∈ before, PieceMatches fnmatch labels other

variable {fnmatch} {inspect} {labels : Dict String String}

theorem unpackPatternSet_cases {entry : String} {piece : List String}
    (h : piece ∈ unpackPatternSet entry) :
    (∃ labelKey pattern, piece = [labelKey, pattern]) ∨ ∃ malformed, piece = [malformed] := by
  obtain ⟨s, -, rfl⟩ := List.mem_map.1 h
  by_cases hequals : '=' ∈ s <;> simp [splitEquals, hequals]

theorem pieceMatches_eq_true_iff {piece : List String} :
    pieceMatches fnmatch labels piece = .ok true ↔ PieceMatches fnmatch labels piece := by
  constructor
  · intro h
    unfold pieceMatches at h
    split at h
    · obtain ⟨value, hvalue, hmatch⟩ := (Option.any_eq_true _ _).1 (Except.ok.inj h)
      exact ⟨_, _, value, rfl, hvalue, hmatch⟩
    · cases h
  · rintro ⟨labelKey, pattern, value, rfl, hvalue, hmatch⟩
    simp [pieceMatches, hvalue, hmatch]

theorem entryMatches_eq_true_iff {entry : String} :
    entryMatches fnmatch labels entry = .ok true ↔ Matches fnmatch labels entry := by
  rw [entryMatches, ShortCircuit.allM_eq_true_iff]
  exact forall₂_congr fun _ _ => pieceMatches_eq_true_iff

theorem raises_entryMatches_iff {entry : String} :
    ShortCircuit.Raises (entryMatches fnmatch labels) entry ↔
      ComesToMalformed fnmatch labels entry := by
  rw [ShortCircuit.Raises, entryMatches, ShortCircuit.raises_allM_iff]
  constructor
  · rintro ⟨before, piece, after, hpieces, hbefore, err, hraises⟩
    have hmem : piece ∈ unpackPatternSet entry := by simp [hpieces]
    rcases unpackPatternSet_cases hmem with ⟨labelKey, pattern, rfl⟩ | ⟨malformed, rfl⟩
    · cases hraises
    · exact ⟨before, malformed, after, hpieces,
        fun other hother => pieceMatches_eq_true_iff.1 (hbefore other hother)⟩
  · rintro ⟨before, malformed, after, hpieces, hbefore⟩
    exact ⟨before, [malformed], after, hpieces,
      fun other hother => pieceMatches_eq_true_iff.2 (hbefore other hother), _, rfl⟩

/-! ## Lists of entries -/

variable (fnmatch)

/-- An entry comes to a piece without `=`, and no entry before it matches. -/
def RaisesFor (patterns : List String) (labels : Dict String String) : Prop :=
  ∃ before entry after, patterns = before ++ entry :: after ∧
    (∀ other ∈ before, ¬ Matches fnmatch labels other) ∧ ComesToMalformed fnmatch labels entry

/-- An entry matches, and no entry before it comes to a piece without `=`. -/
def SelectsFor (patterns : List String) (labels : Dict String String) : Prop :=
  ∃ before entry after, patterns = before ++ entry :: after ∧
    (∀ other ∈ before, ¬ ComesToMalformed fnmatch labels other) ∧ Matches fnmatch labels entry

variable {fnmatch} {patterns patterns' : List String}

theorem raises_anyM_iff :
    (∃ err, patterns.anyM (entryMatches fnmatch labels) = .error err) ↔
      RaisesFor fnmatch patterns labels := by
  rw [ShortCircuit.raises_anyM_iff]
  simp only [raises_entryMatches_iff, ne_eq, entryMatches_eq_true_iff, RaisesFor]

theorem anyM_eq_true_iff :
    patterns.anyM (entryMatches fnmatch labels) = .ok true ↔ SelectsFor fnmatch patterns labels := by
  rw [ShortCircuit.anyM_eq_true_iff]
  simp only [raises_entryMatches_iff, entryMatches_eq_true_iff, SelectsFor]

/-- The entries of both lists select a container just when those of one of them do, unless the first list
raises and the second one selects. -/
theorem labelsMatch_append_iff :
    (labelsMatch fnmatch (patterns ++ patterns') labels = .ok true ↔
        labelsMatch fnmatch patterns labels = .ok true ∨
          labelsMatch fnmatch patterns' labels = .ok true) ↔
      (labels.entries ≠ [] →
        ¬ (RaisesFor fnmatch patterns labels ∧ SelectsFor fnmatch patterns' labels)) := by
  by_cases hlabels : labels.entries = []
  · simp [labelsMatch, hlabels]
  · simp only [labelsMatch, hlabels, if_false, ← raises_anyM_iff, ← anyM_eq_true_iff,
      ShortCircuit.anyM_append]
    rcases hfirst : patterns.anyM (entryMatches fnmatch labels) with err | _ | _
    · -- An exception: the second list is not asked.
      simp [hlabels]
    · simp
    · simp

/-! ## Containers -/

theorem selected_eq_some_iff {id : String} {found : String × String} :
    selected fnmatch inspect patterns id = some found ↔
      ∃ info, inspect id = .ok info ∧ labelsMatch fnmatch patterns info.labels = .ok true ∧
        found = (id, extractContainerName info) := by
  unfold selected
  rcases hinspect : inspect id with err | info
  · simp
  · rcases hmatch : labelsMatch fnmatch patterns info.labels with err | _ | _ <;>
      simp [hmatch, eq_comm]

theorem mem_filter_iff {ids : List String} {found : String × String} :
    found ∈ filterContainersWithLabelPatterns fnmatch inspect ids patterns ↔
      ∃ id ∈ ids, ∃ info, inspect id = .ok info ∧
        labelsMatch fnmatch patterns info.labels = .ok true ∧
          found = (id, extractContainerName info) := by
  simp only [filterContainersWithLabelPatterns, List.mem_filterMap, selected_eq_some_iff]

/-- A listed container that can be inspected is found just when its labels match. -/
theorem mem_filter_self_iff {ids : List String} {id : String} {info : InspectData} (hid : id ∈ ids)
    (hinfo : inspect id = .ok info) :
    (id, extractContainerName info) ∈ filterContainersWithLabelPatterns fnmatch inspect ids patterns ↔
      labelsMatch fnmatch patterns info.labels = .ok true := by
  rw [mem_filter_iff]
  constructor
  · rintro ⟨id', -, info', hinfo', hmatch, hEq⟩
    obtain rfl : id = id' := congrArg Prod.fst hEq
    obtain rfl : info' = info := Except.ok.inj (hinfo'.symm.trans hinfo)
    exact hmatch
  · intro hmatch
    exact ⟨id, hid, info, hinfo, hmatch, rfl⟩

/-- The filter for two lists of entries is the union of the filters for each of them just when no container
for which the first list raises is selected by the second one. -/
theorem filter_append_iff (fnmatch : String → String → Bool)
    (inspect : String → Except PyErr InspectData) (ids patterns patterns' : List String) :
    (∀ found, found ∈ filterContainersWithLabelPatterns fnmatch inspect ids (patterns ++ patterns') ↔
        found ∈ filterContainersWithLabelPatterns fnmatch inspect ids patterns ∨
          found ∈ filterContainersWithLabelPatterns fnmatch inspect ids patterns') ↔
      ∀ id ∈ ids, ∀ info, inspect id = .ok info → info.labels.entries ≠ [] →
        ¬ (RaisesFor fnmatch patterns info.labels ∧ SelectsFor fnmatch patterns' info.labels) := by
  constructor
  · intro h id hid info hinfo
    have hself := h (id, extractContainerName info)
    simp only [mem_filter_self_iff hid hinfo] at hself
    exact labelsMatch_append_iff.1 hself
  · intro h found
    constructor
    · intro hfound
      obtain ⟨id, hid, info, hinfo, hmatch, rfl⟩ := mem_filter_iff.1 hfound
      have hone := (labelsMatch_append_iff.2 (h id hid info hinfo)).1 hmatch
      exact hone.imp (mem_filter_self_iff hid hinfo).2 (mem_filter_self_iff hid hinfo).2
    · rintro (hfound | hfound)
      · obtain ⟨id, hid, info, hinfo, hmatch, rfl⟩ := mem_filter_iff.1 hfound
        exact (mem_filter_self_iff hid hinfo).2
          ((labelsMatch_append_iff.2 (h id hid info hinfo)).2 (.inl hmatch))
      · obtain ⟨id, hid, info, hinfo, hmatch, rfl⟩ := mem_filter_iff.1 hfound
        exact (mem_filter_self_iff hid hinfo).2
          ((labelsMatch_append_iff.2 (h id hid info hinfo)).2 (.inr hmatch))

/-- One container with the label `app=web`. -/
def oneContainer (_ : String) : Except PyErr InspectData :=
  .ok ⟨"/web-1", Dict.empty.set "app" "web", some 100⟩

theorem malformed_entry_hides_container :
    filterContainersWithLabelPatterns Containers.fnmatch oneContainer ["c1"] ["app=web"] =
        [("c1", "web-1")] ∧
      filterContainersWithLabelPatterns Containers.fnmatch oneContainer ["c1"] ["app", "app=web"] = [] ∧
      filterContainersWithLabelPatterns Containers.fnmatch oneContainer ["c1"] ["app=web", "app"] =
        [("c1", "web-1")] := by
  decide +kernel

/-! ## Entries that are well formed -/

/-- Every piece of the entry has a `=`. -/
def WellFormed (entry : String) : Prop := ∀ piece ∈ entry.toList.splitOn ',', '=' ∈ piece

theorem not_comesToMalformed {entry : String} (h : WellFormed entry) :
    ¬ ComesToMalformed fnmatch labels entry := by
  rintro ⟨before, malformed, after, hpieces, -⟩
  have hmem : [malformed] ∈ unpackPatternSet entry := by simp [hpieces]
  obtain ⟨s, hs, hsplit⟩ := List.mem_map.1 hmem
  simp [splitEquals, h s hs] at hsplit

/-- Entries that are well formed select the containers with labels that one of them matches, in whatever
order they stand. -/
theorem mem_filter_of_wellFormed {ids : List String} (h : ∀ entry ∈ patterns, WellFormed entry)
    {found : String × String} :
    found ∈ filterContainersWithLabelPatterns fnmatch inspect ids patterns ↔
      ∃ id ∈ ids, ∃ info, inspect id = .ok info ∧ info.labels.entries ≠ [] ∧
        (∃ entry ∈ patterns, Matches fnmatch info.labels entry) ∧
          found = (id, extractContainerName info) := by
  have hmatch : ∀ labels : Dict String String, labelsMatch fnmatch patterns labels = .ok true ↔
      labels.entries ≠ [] ∧ ∃ entry ∈ patterns, Matches fnmatch labels entry := by
    intro labels
    by_cases hlabels : labels.entries = []
    · simp [labelsMatch, hlabels]
    · simp only [labelsMatch, hlabels, if_false, anyM_eq_true_iff, ne_eq, not_false_eq_true, true_and]
      constructor
      · rintro ⟨before, entry, after, rfl, -, hentry⟩
        exact ⟨entry, by simp, hentry⟩
      · rintro ⟨entry, hmem, hentry⟩
        obtain ⟨before, after, rfl⟩ := List.append_of_mem hmem
        exact ⟨before, entry, after, rfl,
          fun other hother => not_comesToMalformed (h other (List.mem_append_left _ hother)), hentry⟩
  simp only [mem_filter_iff, hmatch, and_assoc]

/-! ## The memoised inspection -/

/-- What is remembered of the outside is what it says. -/
structure Agrees (w : Snapshot) (caches : Caches) : Prop where
  client : ∀ client, caches.client.get? () = some client → client = w.client
  inspect : ∀ id data, caches.inspect.get? id = some data → w.inspect w.client id = .ok data

theorem agrees_init (w : Snapshot) : Agrees w .init where
  client := by simp [Caches.init]
  inspect := by simp [Caches.init]

theorem matchesPatternSet_eq (labels : Dict String String) (pieces : List (List String)) :
    matchesPatternSet labels pieces = pieces.allM (pieceMatches Containers.fnmatch labels) := by
  fun_induction matchesPatternSet labels pieces with
  | case1 => rfl
  | case2 labelKey pattern rest hvalue =>
      have hpiece : pieceMatches Containers.fnmatch labels [labelKey, pattern] = .ok false := by
        simp [pieceMatches, hvalue]
      rw [ShortCircuit.allM_cons_of_false hpiece]
  | case3 labelKey pattern rest value hvalue hmatch ih =>
      have hpiece : pieceMatches Containers.fnmatch labels [labelKey, pattern] = .ok true := by
        simp [pieceMatches, hvalue, hmatch]
      rw [ShortCircuit.allM_cons_of_true hpiece, ih]
  | case4 labelKey pattern rest value hvalue hmatch =>
      have hpiece : pieceMatches Containers.fnmatch labels [labelKey, pattern] = .ok false := by
        simp [pieceMatches, hvalue, hmatch]
      rw [ShortCircuit.allM_cons_of_false hpiece]
  | case5 piece rest hpiece =>
      have hraises : pieceMatches Containers.fnmatch labels piece = .error (.builtin .ValueError) := by
        unfold pieceMatches
        split
        · exact absurd rfl (hpiece _ _)
        · rfl
      rw [ShortCircuit.allM_cons_of_error hraises]

theorem matchesAny_eq (labels : Dict String String) (patterns : List String) :
    matchesAny labels (patterns.map unpackPatternSet) =
      patterns.anyM (entryMatches Containers.fnmatch labels) := by
  induction patterns with
  | nil => rfl
  | cons entry patterns ih =>
      have hentry : matchesPatternSet labels (unpackPatternSet entry) =
          entryMatches Containers.fnmatch labels entry := matchesPatternSet_eq labels _
      rw [List.map_cons, matchesAny, hentry, ih]
      rcases hmatch : entryMatches Containers.fnmatch labels entry with err | _ | _
      · exact (ShortCircuit.anyM_cons_of_error hmatch).symm
      · exact (ShortCircuit.anyM_cons_of_false hmatch).symm
      · exact (ShortCircuit.anyM_cons_of_true hmatch).symm

theorem labelsMatch_eq (patterns : List String) (labels : Dict String String) :
    Containers.labelsMatch patterns labels = labelsMatch Containers.fnmatch patterns labels := by
  rw [Containers.labelsMatch, labelsMatch, matchesAny_eq]

variable {w : Snapshot} {caches : Caches}

theorem Agrees.inspectContainer (h : Agrees w caches) (id : String) :
    (Containers.inspectContainer w id caches).1 = w.inspect w.client id ∧
      Agrees w (Containers.inspectContainer w id caches).2 := by
  unfold Containers.inspectContainer
  cases hcached : caches.inspect.get? id with
  | some data =>
      refine ⟨(h.inspect id data hcached).symm, h.client, fun id' data' hget => ?_⟩
      rcases LruCache.get?_of_store hget with ⟨rfl, rfl⟩ | hget
      · exact h.inspect id data hcached
      · exact h.inspect id' data' hget
  | none =>
      have hclient : (detectContainerizerClient w caches).1 = w.client := by
        cases hget : caches.client.get? () with
        | none => simp [detectContainerizerClient, hget]
        | some client => simp [detectContainerizerClient, hget, h.client client hget]
      have hdetect : Agrees w (detectContainerizerClient w caches).2 := by
        refine ⟨fun client hget => ?_, h.inspect⟩
        rcases LruCache.get?_of_store hget with ⟨-, rfl⟩ | hget
        · exact hclient
        · exact h.client client hget
      simp only [hclient]
      cases hinspect : w.inspect w.client id with
      | error err => exact ⟨rfl, hdetect⟩
      | ok data =>
          refine ⟨rfl, hdetect.client, fun id' data' hget => ?_⟩
          rcases LruCache.get?_of_store hget with ⟨rfl, rfl⟩ | hget
          · exact hinspect
          · exact hdetect.inspect id' data' hget

/-- While the caches agree with the outside, the filter of a listing is the one for its inspections. -/
theorem filterContainersWithLabelPatterns_eq (patterns : List String) :
    ∀ (ids : List String) {caches : Caches}, Agrees w caches →
      (Containers.filterContainersWithLabelPatterns w patterns ids caches).1 =
        filterContainersWithLabelPatterns Containers.fnmatch (w.inspect w.client) ids patterns
  | [], _, _ => rfl
  | id :: ids, caches, h => by
      obtain ⟨hinspect, hrest⟩ := h.inspectContainer id
      have ih := filterContainersWithLabelPatterns_eq patterns ids hrest
      simp only [Containers.filterContainersWithLabelPatterns, ih, hinspect, labelsMatch_eq]
      rw [filterContainersWithLabelPatterns, filterContainersWithLabelPatterns, List.filterMap_cons, selected]
      rcases w.inspect w.client id with err | info
      · rfl
      · rcases hmatch : labelsMatch Containers.fnmatch patterns info.labels with err | _ | _ <;>
          simp [hmatch]

end LabelFilter

end Containers

end PidtreeBcc
