import PidtreeBcc.YamlLoader.Include

/-!
# Construct — the order in which a document is constructed

PyYAML leaves the content of a sequence or a mapping to a generator and runs the generators afterwards, in
the order in which they were made.  So a document is constructed level by level: the nodes of a level in
their order, then what they contain.  The outcome is the same as if each node was replaced where it stands.
-/

namespace PidtreeBcc

open Support

namespace YamlLoader

variable {V : Type}

namespace Node

/-! ## Levels -/

/-- The nodes that the generator of a node constructs; the first component marks the keys. -/
def children : Node V → List (Bool × Node V)
  | .scalar _ => []
  | .sequence value => value.map fun node => (false, node)
  | .mapping value => value.flatMap fun entry => [(true, entry.1), (false, entry.2)]
  | .include _ => []

mutual

/-- How many levels there are below the node. -/
def height : Node V → Nat
  | .scalar _ => 0
  | .sequence value => heightAll value + 1
  | .mapping value => heightPairs value + 1
  | .include _ => 0

def heightAll : List (Node V) → Nat
  | [] => 0
  | node :: nodes => max node.height (heightAll nodes)

def heightPairs : List (Node V × Node V) → Nat
  | [] => 0
  | (key, value) :: rest => max (max key.height value.height) (heightPairs rest)

end

theorem height_le_heightAll : ∀ {nodes : List (Node V)} {node : Node V}, node ∈ nodes →
    node.height ≤ heightAll nodes
  | first :: rest, node, h => by
      simp only [heightAll]
      rcases List.mem_cons.1 h with rfl | h
      · exact Nat.le_max_left _ _
      · exact Nat.le_trans (height_le_heightAll h) (Nat.le_max_right _ _)

theorem height_le_heightPairs : ∀ {nodes : List (Node V × Node V)} {entry : Node V × Node V},
    entry ∈ nodes → max entry.1.height entry.2.height ≤ heightPairs nodes
  | first :: rest, entry, h => by
      simp only [heightPairs]
      rcases List.mem_cons.1 h with rfl | h
      · exact Nat.le_max_left _ _
      · exact Nat.le_trans (height_le_heightPairs h) (Nat.le_max_right _ _)

theorem height_lt_of_mem_children {node : Node V} {child : Bool × Node V} (h : child ∈ node.children) :
    child.2.height < node.height := by
  cases node with
  | scalar value => simp [children] at h
  | «include» name => simp [children] at h
  | sequence value =>
      rcases List.mem_map.1 h with ⟨child, hchild, rfl⟩
      have hle := height_le_heightAll hchild
      simp only [height]
      omega
  | mapping value =>
      rcases List.mem_flatMap.1 h with ⟨entry, hentry, hchild⟩
      have hle := height_le_heightPairs hentry
      simp only [height]
      rcases List.mem_cons.1 hchild with rfl | hchild
      · exact Nat.lt_succ_of_le (Nat.le_trans (Nat.le_max_left _ _) hle)
      · obtain rfl := List.mem_singleton.1 hchild
        exact Nat.lt_succ_of_le (Nat.le_trans (Nat.le_max_right _ _) hle)

theorem mem_includesAll {name : String} : ∀ {nodes : List (Node V)},
    name ∈ includesAll nodes ↔ ∃ node ∈ nodes, name ∈ node.includes
  | [] => by simp [includesAll]
  | node :: nodes => by
      have ih : name ∈ includesAll nodes ↔ _ := mem_includesAll
      simp [includesAll, ih]

theorem mem_includesPairs {name : String} : ∀ {nodes : List (Node V × Node V)},
    name ∈ includesPairs nodes ↔ ∃ entry ∈ nodes, name ∈ entry.1.includes ∨ name ∈ entry.2.includes
  | [] => by simp [includesPairs]
  | entry :: nodes => by
      have ih : name ∈ includesPairs nodes ↔ _ := mem_includesPairs
      simp [includesPairs, ih, or_assoc]

theorem includes_of_mem_children {node : Node V} {child : Bool × Node V} (h : child ∈ node.children)
    {name : String} (hname : name ∈ child.2.includes) : name ∈ node.includes := by
  cases node with
  | scalar value => simp [children] at h
  | «include» name => simp [children] at h
  | sequence value =>
      rcases List.mem_map.1 h with ⟨child, hchild, rfl⟩
      exact mem_includesAll.2 ⟨child, hchild, hname⟩
  | mapping value =>
      rcases List.mem_flatMap.1 h with ⟨entry, hentry, hchild⟩
      refine mem_includesPairs.2 ⟨entry, hentry, ?_⟩
      rcases List.mem_cons.1 hchild with rfl | hchild
      · exact Or.inl hname
      · obtain rfl := List.mem_singleton.1 hchild
        exact Or.inr hname

end Node

/-! ## Construction -/

/-- The entries of a mapping, whose keys and values have been constructed in turn. -/
def entriesOf : List (Data V) → List (Option V × Data V)
  | .scalar key :: value :: rest => (key, value) :: entriesOf rest
  | _ => []

variable [DecidableEq V]

/-- What the generator of a node makes of the objects. -/
def Node.assemble : Node V → List (Data V) → Data V
  | .mapping _, objects => .ofEntries (entriesOf objects)
  | _, objects => .list objects

/-- The nodes of a level are constructed.  A sequence or a mapping has no content yet, and cannot be a key. -/
def constructObjects : List (Bool × Node V) → (List (Option (Data V)) → Construction V) → Construction V
  | [], next => next []
  | (_, .scalar value) :: rest, next =>
      constructObjects rest fun objects => next (some (.scalar value) :: objects)
  | (isKey, .include name) :: rest, next =>
      .ask name fun data =>
        -- A key is tested before its value is constructed.
        if isKey ∧ data.key? = none then .fails
        else constructObjects rest fun objects => next (some data :: objects)
  | (isKey, _) :: rest, next =>
      if isKey then .fails else constructObjects rest fun objects => next (none :: objects)

/-- The sequences and mappings of a level take their contents from the next one. -/
def fill : List (Bool × Node V) → List (Option (Data V)) → List (Data V) → List (Data V)
  | _ :: level, some object :: objects, contents => object :: fill level objects contents
  | child :: level, none :: objects, contents =>
      let n := child.2.children.length
      child.2.assemble (contents.take n) :: fill level objects (contents.drop n)
  | _, _, _ => []

/-- The rounds of the loop in `construct_document`. -/
def constructLevels : Nat → List (Bool × Node V) → (List (Data V) → Construction V) → Construction V
  | 0, _, next => next []
  | rounds + 1, level, next =>
      constructObjects level fun objects =>
        constructLevels rounds (level.flatMap fun child => child.2.children) fun contents =>
          next (fill level objects contents)

/-- `construct_document`. -/
def constructDocument (node : Node V) : Construction V :=
  constructLevels (node.height + 1) [(false, node)] fun objects =>
    match objects with
    | [data] => .done data
    | _ => .fails

/-! ## The outcome -/

section Outcome

variable (content : String → Option (Data V))

/-- The object of a node, which is missing for a sequence or a mapping. -/
def objectOf : Bool × Node V → Option (Option (Data V))
  | (_, .scalar value) => some (some (.scalar value))
  | (isKey, .include name) =>
      (content name).bind fun data => if isKey ∧ data.key? = none then none else some (some data)
  | (isKey, _) => if isKey then none else some none

/-- The data of a node, which has to make a key if it is one. -/
def substChild (child : Bool × Node V) : Option (Data V) :=
  (child.2.subst content).bind fun data => if child.1 ∧ data.key? = none then none else some data

variable {content}

omit [DecidableEq V] in
theorem eval_constructObjects (level : List (Bool × Node V))
    (next : List (Option (Data V)) → Construction V) :
    (constructObjects level next).eval content =
      (level.mapM (objectOf content)).bind fun objects => (next objects).eval content := by
  induction level generalizing next with
  | nil => rfl
  | cons child level ih =>
      rcases child with ⟨isKey, node⟩
      have hrest : ∀ object : Option (Data V),
          (constructObjects level fun objects => next (object :: objects)).eval content =
            (level.mapM (objectOf content)).bind fun objects => (next (object :: objects)).eval content :=
        fun object => ih _
      rw [List.mapM_cons]
      cases node with
      | scalar value => simp [constructObjects, objectOf, hrest, Option.bind_assoc]
      | «include» name =>
          simp only [constructObjects, objectOf, Asking.eval]
          cases content name with
          | none => simp
          | some data =>
              by_cases hkey : isKey = true ∧ data.key? = none
              · simp [hkey, Asking.eval]
              · simp [hkey, hrest, Option.bind_assoc]
      | sequence value =>
          cases isKey <;> simp [constructObjects, objectOf, hrest, Asking.eval, Option.bind_assoc]
      | mapping value =>
          cases isKey <;> simp [constructObjects, objectOf, hrest, Asking.eval, Option.bind_assoc]

/-! ## Replacing each node where it stands -/

/-- The sequence of the data that a node contains. -/
theorem substAll_eq_mapM (nodes : List (Node V)) :
    Node.substAll content nodes =
      (nodes.map fun node => (false, node)).mapM (substChild content) := by
  induction nodes with
  | nil => simp [Node.substAll]
  | cons node nodes ih =>
      rw [List.map_cons, List.mapM_cons, ← ih]
      simp only [Node.substAll, substChild]
      cases node.subst content <;> cases Node.substAll content nodes <;> rfl

theorem substPairs_eq_mapM (nodes : List (Node V × Node V)) :
    Node.substPairs content nodes =
      ((nodes.flatMap fun entry => [(true, entry.1), (false, entry.2)]).mapM
        (substChild content)).map entriesOf := by
  induction nodes with
  | nil => simp [Node.substPairs, entriesOf]
  | cons entry nodes ih =>
      rcases entry with ⟨key, value⟩
      rw [List.flatMap_cons, List.cons_append, List.mapM_cons, List.cons_append, List.mapM_cons,
        List.nil_append]
      simp only [Node.substPairs, ih, substChild]
      cases key.subst content with
      | none => rfl
      | some keyData =>
          cases value.subst content with
          | none => cases keyData <;> simp [Data.key?]
          | some data =>
              generalize List.mapM (substChild content) _ = contents
              cases keyData <;> cases contents <;> simp [Data.key?, entriesOf]

/-- A sequence or a mapping is made of what it contains. -/
theorem subst_eq_children {node : Node V} (hobject : objectOf content (false, node) = some none) :
    node.subst content = (node.children.mapM (substChild content)).map node.assemble := by
  cases node with
  | scalar value => simp [objectOf] at hobject
  | «include» name =>
      rcases Option.bind_eq_some_iff.1 hobject with ⟨data, _, hdata⟩
      simp at hdata
  | sequence value =>
      simp only [Node.subst, substAll_eq_mapM, Node.children]
      rfl
  | mapping value =>
      simp only [Node.subst, substPairs_eq_mapM, Node.children, Option.map_map]
      rfl

/-- The three kinds of nodes: one that cannot be constructed, one with an object of its own, and a sequence
or a mapping. -/
theorem objectOf_cases (content : String → Option (Data V)) (child : Bool × Node V) :
    (objectOf content child = none ∧ substChild content child = none) ∨
    (∃ data, objectOf content child = some (some data) ∧ substChild content child = some data ∧
      child.2.children = []) ∨
    (objectOf content child = some none ∧
      substChild content child = (child.2.children.mapM (substChild content)).map child.2.assemble) := by
  rcases child with ⟨isKey, node⟩
  have hcontainer : objectOf content (false, node) = some none →
      substChild content (false, node) = (node.children.mapM (substChild content)).map node.assemble := by
    intro hobject
    rw [← subst_eq_children hobject]
    simp [substChild]
  cases node with
  | scalar value =>
      exact Or.inr (Or.inl ⟨.scalar value, rfl, by simp [substChild, Node.subst, Data.key?], rfl⟩)
  | «include» name =>
      cases hcontent : content name with
      | none => exact Or.inl ⟨by simp [objectOf, hcontent], by simp [substChild, Node.subst, hcontent]⟩
      | some data =>
          by_cases hkey : isKey = true ∧ data.key? = none
          · exact Or.inl ⟨by simp [objectOf, hcontent, hkey], by simp [substChild, Node.subst, hcontent, hkey]⟩
          · refine Or.inr (Or.inl ⟨data, ?_, ?_, rfl⟩)
            · simp [objectOf, hcontent, hkey]
            · simp [substChild, Node.subst, hcontent, hkey]
  | sequence value =>
      cases isKey with
      | false => exact Or.inr (Or.inr ⟨rfl, hcontainer rfl⟩)
      | true => exact Or.inl ⟨rfl, by simp [substChild, Node.subst, Option.bind_map, Data.key?]⟩
  | mapping value =>
      cases isKey with
      | false => exact Or.inr (Or.inr ⟨rfl, hcontainer rfl⟩)
      | true => exact Or.inl ⟨rfl, by simp [substChild, Node.subst, Data.key?, Data.ofEntries]⟩

theorem length_of_mapM {level : List (Bool × Node V)} : ∀ {objects : List (Data V)},
    level.mapM (substChild content) = some objects → objects.length = level.length := by
  induction level with
  | nil => simp
  | cons child level ih =>
      intro objects h
      rw [List.mapM_cons] at h
      rcases Option.bind_eq_some_iff.1 h with ⟨object, _, htail⟩
      rcases Option.bind_eq_some_iff.1 htail with ⟨rest, hrest, hobjects⟩
      obtain rfl : object :: rest = objects := Option.some.inj hobjects
      have hlength := ih hrest
      simp [hlength]

/-- A level is its objects, filled with the data of the level below. -/
theorem mapM_substChild (level : List (Bool × Node V)) :
    level.mapM (substChild content) =
      (level.mapM (objectOf content)).bind fun objects =>
        ((level.flatMap fun child => child.2.children).mapM (substChild content)).map
          (fill level objects) := by
  induction level with
  | nil => rfl
  | cons child level ih =>
      rw [List.mapM_cons, List.mapM_cons, List.flatMap_cons, ih]
      rcases objectOf_cases content child with ⟨hobject, hchild⟩ |
        ⟨data, hobject, hchild, hchildren⟩ | ⟨hobject, hchild⟩
      · rw [hobject, hchild]
        rfl
      · rw [hobject, hchild, hchildren, List.nil_append]
        cases level.mapM (objectOf content) with
        | none => rfl
        | some objects =>
            generalize List.mapM (substChild content) _ = contents
            cases contents <;> rfl
      · -- The contents of the node come before those of the nodes after it.
        rw [hobject, hchild, List.mapM_append]
        cases hbelow : child.2.children.mapM (substChild content) with
        | none => cases level.mapM (objectOf content) <;> rfl
        | some below =>
            have hlength := length_of_mapM hbelow
            cases level.mapM (objectOf content) with
            | none => rfl
            | some objects =>
                generalize List.mapM (substChild content) _ = contents
                cases contents with
                | none => rfl
                | some contents => simp [fill, ← hlength]

theorem eval_constructLevels : ∀ {rounds : Nat} {level : List (Bool × Node V)}
    {next : List (Data V) → Construction V}, (∀ child ∈ level, child.2.height < rounds) →
      (constructLevels rounds level next).eval content =
        (level.mapM (substChild content)).bind fun objects => (next objects).eval content
  | 0, [], _, _ => rfl
  | 0, child :: level, _, h => by simpa using h child (by simp)
  | rounds + 1, level, next, h => by
      have hbelow : ∀ child ∈ level.flatMap fun child => child.2.children, child.2.height < rounds := by
        intro below hbelow
        rcases List.mem_flatMap.1 hbelow with ⟨child, hchild, hmem⟩
        exact Nat.lt_of_lt_of_le (Node.height_lt_of_mem_children hmem) (Nat.le_of_lt_succ (h child hchild))
      -- The nodes of the next level are less high.
      rw [mapM_substChild]
      unfold constructLevels
      rw [eval_constructObjects]
      cases level.mapM (objectOf content) with
      | none => rfl
      | some objects =>
          simp only [Option.bind_some, Option.bind_map]
          exact eval_constructLevels hbelow

/-! ## What is asked for -/

omit [DecidableEq V] in
theorem asks_constructObjects {name : String} : ∀ {level : List (Bool × Node V)}
    {next : List (Option (Data V)) → Construction V}, (constructObjects level next).Asks name →
      (∃ child ∈ level, name ∈ child.2.includes) ∨ ∃ objects, (next objects).Asks name := by
  intro level
  induction level with
  | nil => exact fun h => Or.inr ⟨[], h⟩
  | cons child level ih =>
      intro next h
      have hrest : ∀ object : Option (Data V),
          (constructObjects level fun objects => next (object :: objects)).Asks name →
            (∃ c ∈ child :: level, name ∈ c.2.includes) ∨ ∃ objects, (next objects).Asks name := by
        intro object hasks
        rcases ih hasks with ⟨c, hc, hname⟩ | ⟨objects, hobjects⟩
        · exact Or.inl ⟨c, List.mem_cons_of_mem _ hc, hname⟩
        · exact Or.inr ⟨object :: objects, hobjects⟩
      rcases child with ⟨isKey, node⟩
      cases node with
      | scalar value => exact hrest _ h
      | «include» name' =>
          cases h with
          | here => exact Or.inl ⟨(isKey, .include name), by simp, by simp [Node.includes]⟩
          | later data hasks =>
              dsimp only at hasks
              by_cases hkey : isKey = true ∧ data.key? = none
              · rw [if_pos hkey] at hasks
                cases hasks
              · rw [if_neg hkey] at hasks
                exact hrest _ hasks
      | sequence value =>
          cases isKey with
          | true => cases h
          | false => exact hrest _ h
      | mapping value =>
          cases isKey with
          | true => cases h
          | false => exact hrest _ h

theorem asks_constructLevels {name : String} : ∀ {rounds : Nat} {level : List (Bool × Node V)}
    {next : List (Data V) → Construction V}, (constructLevels rounds level next).Asks name →
      (∃ child ∈ level, name ∈ child.2.includes) ∨ ∃ objects, (next objects).Asks name
  | 0, _, _, h => Or.inr ⟨[], h⟩
  | rounds + 1, level, next, h => by
      rcases asks_constructObjects h with hlevel | ⟨objects, hobjects⟩
      · exact Or.inl hlevel
      · rcases asks_constructLevels hobjects with ⟨below, hbelow, hname⟩ | ⟨contents, hcontents⟩
        · rcases List.mem_flatMap.1 hbelow with ⟨child, hchild, hmem⟩
          exact Or.inl ⟨child, hchild, Node.includes_of_mem_children hmem hname⟩
        · exact Or.inr ⟨fill level objects contents, hcontents⟩

/-- Constructing level by level is as good as replacing each include where it stands. -/
theorem faithful_constructDocument : Faithful (constructDocument (V := V)) where
  eval node content := by
    unfold constructDocument
    rw [eval_constructLevels (by simp)]
    cases hdata : node.subst content <;> simp [substChild, hdata, Asking.eval]
  asks node name h := by
    rcases asks_constructLevels h with ⟨child, hchild, hname⟩ | ⟨objects, hobjects⟩
    · obtain rfl := List.mem_singleton.1 hchild
      exact hname
    · split at hobjects <;> cases hobjects

end Outcome

end YamlLoader

end PidtreeBcc
