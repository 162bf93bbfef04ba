import PidtreeBcc.Utils

/-!
# Structs — filter entries and the C structures made from them

- `FilterEntry` is one element of a `filters` list, `PortSpec` one element of its port lists;
- `CPortRange`, `CFilterKey` and `CFilterValue` are the structures shared with the BPF program.
-/

namespace PidtreeBcc

def NET_FILTER_MAX_PORT_RANGES : Nat := 8

/-! ## Configuration values -/

/-- A port of a configuration list: an integer, or a string that may be a range. -/
inductive PortSpec
  | int (n : Int)
  | str (s : String)
  deriving DecidableEq, Repr

/-- What a configuration holds under `except_ports` or `include_ports`. -/
inductive PortsField
  | absent
  | null
  | ports (specs : List PortSpec)
  deriving DecidableEq, Repr

namespace PortsField

/-- The list if the field is a non-empty list, `[]` if `dict.get` gives something falsy. -/
def truthy : PortsField → List PortSpec
  | ports specs => specs
  | _ => []

end PortsField

/-- One network filter of a configuration. -/
structure FilterEntry where
  network : Option String
  networkMask : Option String
  exceptPorts : PortsField
  includePorts : PortsField
  deriving DecidableEq, Repr

/-- `entry[key]`. -/
def subscript (value : Option String) : Except PyErr String :=
  match value with
  | some s => .ok s
  | none => .error (.builtin .KeyError)

theorem subscript_eq_ok {value : Option String} {s : String} :
    subscript value = .ok s ↔ value = some s := by
  cases value with
  | none => simp [subscript]
  | some t => simp [subscript]

/-! ## Port ranges -/

structure CPortRange where
  lower : BitVec 16
  upper : BitVec 16
  deriving DecidableEq, Repr

/-- `lower, upper = map(int, val.split('-'))`. -/
def splitRange (s : List Char) : Except PyErr (Int × Int) :=
  match s.splitOn '-' with
  | [a, b] =>
      match pyInt a, pyInt b with
      | .ok lower, .ok upper => .ok (lower, upper)
      | _, _ => .error (.builtin .ValueError)
  | _ => .error (.builtin .ValueError)

theorem splitOn_range (a b : Nat) :
    (Nat.toDigits 10 a ++ '-' :: Nat.toDigits 10 b).splitOn '-' =
      [Nat.toDigits 10 a, Nat.toDigits 10 b] := by
  have hdash : ∀ n : Nat, '-' ∉ Nat.toDigits 10 n := by
    intro n h
    have := Nat.isDigit_of_mem_toDigits (by decide) (by decide) h
    simp at this
  have hpieces : ∀ l ∈ [Nat.toDigits 10 a, Nat.toDigits 10 b], '-' ∉ l := by
    intro l hl
    rcases List.mem_pair.1 hl with rfl | rfl <;> exact hdash _
  have hsplit := List.splitOn_intercalate '-' hpieces (by simp)
  simpa [List.intercalate, List.intersperse] using hsplit

/-- Two numerals with a dash in between are a range. -/
theorem splitRange_toDigits (a b : Nat) :
    splitRange (Nat.toDigits 10 a ++ '-' :: Nat.toDigits 10 b) = .ok ((a : Int), (b : Int)) := by
  simp [splitRange, splitOn_range, pyInt_toDigits]

/-- The bounds of a port specification before they are stored in 16 bits. -/
def PortSpec.bounds : PortSpec → Except PyErr (Int × Int)
  | .int n => .ok (n, n)
  | .str s =>
      if '-' ∈ s.toList then splitRange s.toList
      -- A string without a dash reaches the `c_uint16` fields as it is.
      else .error (.builtin .TypeError)

def CPortRange.fromConfValue (val : PortSpec) : Except PyErr CPortRange :=
  val.bounds.map (fun b => ⟨BitVec.ofInt 16 b.1, BitVec.ofInt 16 b.2⟩)

/-- The range test of the BPF program. -/
def CPortRange.matches (r : CPortRange) (port : BitVec 16) : Bool :=
  decide (r.lower ≤ port) && decide (port ≤ r.upper)

/-! ## Ranges are no numbers -/

theorem digits?_chars : ∀ {ds : List Char} {acc n : Nat}, digits? ds acc = some n →
    ∀ c ∈ ds, c.isDigit = true ∨ c = '_'
  | [], acc, n, h => by simp [digits?] at h
  | c :: rest, acc, n, h => by
      unfold digits? at h
      split at h
      · rename_i hc
        split at h
        · simpa using Or.inl hc
        · have ih := digits?_chars h
          simpa [hc] using ih
        · have ih := digits?_chars h
          simpa [hc] using ih
      · cases h

/-- A dash after the first character is no part of a number. -/
theorem signed?_of_dash {c : Char} {cs ds : List Char} (hc : c ≠ '-') :
    signed? (c :: cs ++ '-' :: ds) = none := by
  have hnone : ∀ l : List Char, digits? (l ++ '-' :: ds) 0 = none := by
    intro l
    cases hl : digits? (l ++ '-' :: ds) 0 with
    | none => rfl
    | some n => exact absurd (digits?_chars hl '-' (by simp)) (by decide)
  by_cases hplus : c = '+'
  · simp [signed?, hplus, hnone]
  · have hcons := hnone (c :: cs)
    simp only [List.cons_append] at hcons ⊢
    unfold signed?
    split
    · rename_i heq
      cases heq
      exact absurd rfl hc
    · rename_i heq
      cases heq
      exact absurd rfl hplus
    · simp [hcons]

theorem strip_append_dash {xs cs : List Char} {c : Char} (h : xs.dropWhile isSpace = c :: cs)
    (ys : List Char) : ∃ ds, strip (xs ++ '-' :: ys) = c :: cs ++ '-' :: ds := by
  refine ⟨(ys.reverse.dropWhile isSpace).reverse, ?_⟩
  have hdash : isSpace '-' = false := by decide
  have hdrop : (xs ++ '-' :: ys).dropWhile isSpace = c :: cs ++ '-' :: ys := by
    simp [List.dropWhile_append, h]
  unfold strip
  rw [hdrop, List.reverse_append, List.reverse_cons, List.append_assoc, List.dropWhile_append]
  cases ys.reverse.dropWhile isSpace with
  | nil => simp [hdash]
  | cons d ds => simp

/-- The lower bound of a range is a number. -/
theorem pyInt_of_splitRange {xs ys : List Char} {b : Int × Int} (hxs : '-' ∉ xs)
    (h : splitRange (xs ++ '-' :: ys) = .ok b) : ∃ m, pyInt xs = .ok m := by
  unfold splitRange at h
  rw [List.splitOn_append_cons_self_of_not_mem hxs] at h
  cases hx : pyInt xs with
  | ok m => exact ⟨m, rfl⟩
  | error err =>
      cases hys : ys.splitOn '-' with
      | nil => simp [hys] at h
      | cons zs rest =>
          cases rest with
          | nil => simp [hys, hx] at h
          | cons _ _ => simp [hys] at h

/-- A string that reads as a range does not read as a number. -/
theorem pyInt_of_range {s : List Char} {b : Int × Int} (hdash : '-' ∈ s) (h : splitRange s = .ok b)
    (n : Int) : pyInt s ≠ .ok n := by
  rcases List.eq_append_cons_of_mem hdash with ⟨xs, ys, rfl, hxs⟩
  rcases pyInt_of_splitRange hxs h with ⟨m, hm⟩
  -- The lower bound is a number, so it has a character that is not white space.
  cases hdrop : xs.dropWhile isSpace with
  | nil => simp [pyInt, strip, hdrop, signed?, digits?] at hm
  | cons c cs =>
      have hc : c ≠ '-' := by
        rintro rfl
        exact hxs ((hdrop ▸ List.dropWhile_suffix isSpace).subset (by simp))
      rcases strip_append_dash hdrop ys with ⟨ds, hstrip⟩
      rw [pyInt, hstrip, signed?_of_dash hc]
      exact fun hn => by cases hn

/-! ## Trie keys -/

structure CFilterKey where
  prefixlen : Nat
  data : BitVec 32
  deriving DecidableEq, Repr

def CFilterKey.fromNetworkDefinition (e : Endian) (netmask ip : String) :
    Except PyErr CFilterKey := do
  let data ← ipToInt e ip
  let bitmask ← ipToInt e netmask
  let prefixlen ← netmaskToPrefixlen netmask
  return ⟨prefixlen, data &&& bitmask⟩

/-- What the kernel compares of a key: the first `prefixlen` bits of the data bytes. -/
def CFilterKey.path (e : Endian) (k : CFilterKey) : List Bool :=
  (packL e k.data).bits.take k.prefixlen

/-! ## Trie values -/

inductive PortFilterMode
  | all
  | exclude
  | include
  deriving DecidableEq, Repr

def PortFilterMode.value : PortFilterMode → Nat
  | .all => 0
  | .exclude => 1
  | .include => 2

structure CFilterValue where
  mode : Nat
  rangeSize : BitVec 8
  ranges : Vector CPortRange NET_FILTER_MAX_PORT_RANGES
  deriving DecidableEq, Repr

/-- The ranges followed by zeroed elements. -/
def padRanges (portRanges : List CPortRange)
    (h : portRanges.length ≤ NET_FILTER_MAX_PORT_RANGES) :
    Vector CPortRange NET_FILTER_MAX_PORT_RANGES :=
  ⟨(portRanges ++
    List.replicate (NET_FILTER_MAX_PORT_RANGES - portRanges.length) (⟨0, 0⟩ : CPortRange)).toArray, by
      simpa using Nat.add_sub_cancel' h⟩

/-- `range_array_t(*port_ranges)`. -/
def rangeArray (portRanges : List CPortRange) :
    Except PyErr (Vector CPortRange NET_FILTER_MAX_PORT_RANGES) :=
  if h : portRanges.length ≤ NET_FILTER_MAX_PORT_RANGES then .ok (padRanges portRanges h)
  else .error (.builtin .IndexError)

theorem rangeArray_eq_ok {rs : List CPortRange}
    {v : Vector CPortRange NET_FILTER_MAX_PORT_RANGES} :
    rangeArray rs = .ok v ↔ ∃ h, v = padRanges rs h := by
  unfold rangeArray
  by_cases h : rs.length ≤ NET_FILTER_MAX_PORT_RANGES
  · simp [h, eq_comm]
  · simp [h]

end PidtreeBcc
