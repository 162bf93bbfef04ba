import PidtreeBcc.Support.Dict
import Mathlib.Data.List.Chain

/-!
# Json — values and their text

`dumps` writes a value the way the default encoder does: items are separated by `", "`, keys and values by
`": "`, and everything outside printable ASCII is escaped.  A text in this form stands on one line whatever
strings the value has.  `JsonLoads` reads it back.
-/

namespace Support

/-! ## Strings -/

/-- A character of a string; surrogates are characters too. -/
abbrev CodePoint := Fin 0x110000

abbrev Str := List CodePoint

namespace CodePoint

/-- The first unit of a surrogate pair. -/
def IsHigh (c : CodePoint) : Prop := 0xD800 ≤ c.val ∧ c.val < 0xDC00

/-- The second unit of a surrogate pair. -/
def IsLow (c : CodePoint) : Prop := 0xDC00 ≤ c.val ∧ c.val < 0xE000

instance (c : CodePoint) : Decidable c.IsHigh := inferInstanceAs (Decidable (_ ∧ _))

instance (c : CodePoint) : Decidable c.IsLow := inferInstanceAs (Decidable (_ ∧ _))

def ofChar (c : Char) : CodePoint := ⟨c.toNat, by
  have hvalid := c.valid
  unfold UInt32.isValidChar Nat.isValidChar at hvalid
  show c.val.toNat < 0x110000
  omega⟩

/-- The character with a number, which is taken modulo their number. -/
def ofNat (n : Nat) : CodePoint := ⟨n % 0x110000, Nat.mod_lt n (by decide)⟩

/-- The units that a character is escaped as: a pair for one beyond the first plane. -/
def units (c : CodePoint) : Str :=
  if c.val < 0x10000 then [c]
  else
    [ofNat (0xD800 + (c.val - 0x10000) / 0x400), ofNat (0xDC00 + (c.val - 0x10000) % 0x400)]

end CodePoint

/-- The characters of a string without surrogates. -/
def Str.ofString (s : String) : Str := s.toList.map CodePoint.ofChar

/-- No high surrogate is followed by a low one, so that the two would be read as one character. -/
def Str.Unsplit (s : Str) : Prop := s.IsChain fun c d => ¬ (CodePoint.IsHigh c ∧ CodePoint.IsLow d)

/-! ## Numbers -/

/-- Decimal digits. -/
abbrev Digits := {ds : List Char // ∀ c ∈ ds, c.isDigit = true}

/-- The exponent of a literal: `upper` is for `E`, and the sign is there or not. -/
structure Exponent where
  upper : Bool
  sign : Option Bool
  digits : Digits
  nonempty : digits.val ≠ []
  deriving DecidableEq

/-- The literal of a float.  It has a fraction or an exponent, and an integer has neither. -/
structure FloatLit where
  negative : Bool
  whole : Nat
  frac : Digits
  exp : Option Exponent
  isFloat : frac.val ≠ [] ∨ exp ≠ none
  deriving DecidableEq

/-- The floats without a literal in the standard. -/
inductive NonFinite
  | nan
  | infinity
  | negInfinity
  deriving DecidableEq, Repr

/-! ## Values -/

/-- A value; floats are kept as their literals. -/
inductive Json
  | null
  | bool (b : Bool)
  | int (n : Int)
  | float (x : FloatLit)
  | nonFinite (x : NonFinite)
  | str (s : Str)
  | arr (items : List Json)
  | obj (members : List (Str × Json))

namespace Json

/-! ## Text -/

/-- Four hexadecimal digits. -/
def hex4 (n : Nat) : List Char :=
  [(n / 4096 % 16).digitChar, (n / 256 % 16).digitChar, (n / 16 % 16).digitChar, (n % 16).digitChar]

/-- A unit of a string: itself if it is printable ASCII, else an escape. -/
def escapeUnit (c : CodePoint) : List Char :=
  if c = 0x22 then ['\\', '"']
  else if c = 0x5C then ['\\', '\\']
  else if c = 0x0A then ['\\', 'n']
  else if c = 0x0D then ['\\', 'r']
  else if c = 0x09 then ['\\', 't']
  else if c = 0x0C then ['\\', 'f']
  else if c = 0x08 then ['\\', 'b']
  else if 0x20 ≤ c.val ∧ c.val ≤ 0x7E then [Char.ofNat c.val]
  else '\\' :: 'u' :: hex4 c.val

def dumpsStr (s : Str) : List Char :=
  '"' :: ((s.flatMap CodePoint.units).flatMap escapeUnit ++ ['"'])

def dumpsFrac (frac : Digits) : List Char := if frac.val = [] then [] else '.' :: frac.val

def dumpsSign : Option Bool → List Char
  | none => []
  | some true => ['-']
  | some false => ['+']

def dumpsExp : Option Exponent → List Char
  | none => []
  | some x => (if x.upper then 'E' else 'e') :: (dumpsSign x.sign ++ x.digits.val)

def dumpsFloat (x : FloatLit) : List Char :=
  (if x.negative then ['-'] else []) ++
    (Nat.toDigits 10 x.whole ++ (dumpsFrac x.frac ++ dumpsExp x.exp))

def dumpsNonFinite : NonFinite → List Char
  | .nan => "NaN".toList
  | .infinity => "Infinity".toList
  | .negInfinity => "-Infinity".toList

mutual

/-- The text of a value. -/
def dumps : Json → List Char
  | null => "null".toList
  | bool true => "true".toList
  | bool false => "false".toList
  | int n => (toString n).toList
  | float x => dumpsFloat x
  | nonFinite x => dumpsNonFinite x
  | str s => dumpsStr s
  | arr items => '[' :: dumpsItems items
  | obj members => '{' :: dumpsMembers members

/-- The items of an array and what closes it. -/
def dumpsItems : List Json → List Char
  | [] => [']']
  | [v] => dumps v ++ [']']
  | v :: rest => dumps v ++ ',' :: ' ' :: dumpsItems rest

/-- The members of an object and what closes it. -/
def dumpsMembers : List (Str × Json) → List Char
  | [] => ['}']
  | [(k, v)] => dumpsStr k ++ ':' :: ' ' :: (dumps v ++ ['}'])
  | (k, v) :: rest => dumpsStr k ++ ':' :: ' ' :: (dumps v ++ ',' :: ' ' :: dumpsMembers rest)

end

/-! ## Plain values -/

mutual

/-- No string of the value has its surrogates split, and the keys of each object are distinct. -/
def Plain : Json → Prop
  | str s => s.Unsplit
  | arr items => PlainItems items
  | obj members => (members.map Prod.fst).Nodup ∧ PlainMembers members
  | _ => True

def PlainItems : List Json → Prop
  | [] => True
  | v :: rest => v.Plain ∧ PlainItems rest

def PlainMembers : List (Str × Json) → Prop
  | [] => True
  | (k, v) :: rest => (k.Unsplit ∧ v.Plain) ∧ PlainMembers rest

end

theorem plainItems_iff {items : List Json} : PlainItems items ↔ ∀ v ∈ items, v.Plain := by
  induction items with
  | nil => simp [PlainItems]
  | cons v rest ih => simp [PlainItems, ih]

theorem plainMembers_iff {members : List (Str × Json)} :
    PlainMembers members ↔ ∀ m ∈ members, m.1.Unsplit ∧ m.2.Plain := by
  induction members with
  | nil => simp [PlainMembers]
  | cons m rest ih => simp [PlainMembers, ih]

/-! ## A text is one line -/

/-- Printable ASCII. -/
def Printable (c : Char) : Prop := 0x20 ≤ c.toNat ∧ c.toNat ≤ 0x7E

instance (c : Char) : Decidable (Printable c) := inferInstanceAs (Decidable (_ ∧ _))

theorem printable_digitChar {n : Nat} (h : n < 16) : Printable n.digitChar := by
  have hall : ∀ n : Fin 16, Printable n.val.digitChar := by decide
  exact hall ⟨n, h⟩

theorem printable_of_isDigit {c : Char} (h : c.isDigit = true) : Printable c := by
  rcases Char.isDigit_iff_toNat.1 h with ⟨hlow, hhigh⟩
  exact ⟨le_trans (by decide) hlow, le_trans hhigh (by decide)⟩

theorem printable_hex4 (n : Nat) : ∀ c ∈ hex4 n, Printable c := by
  have hlt : ∀ m : Nat, m % 16 < 16 := fun m => Nat.mod_lt m (by decide)
  intro c hc
  simp only [hex4, List.mem_cons, List.not_mem_nil, or_false] at hc
  rcases hc with rfl | rfl | rfl | rfl <;> exact printable_digitChar (hlt _)

theorem toNat_ofNat {n : Nat} (h : n < 0xD800) : (Char.ofNat n).toNat = n := by
  rw [Char.ofNat, dif_pos (Or.inl h)]
  rfl

/-- A test that goes through the text, and not through all characters. -/
theorem printable_of_all {cs : List Char} (h : cs.all (fun c => decide (Printable c)) = true) :
    ∀ c ∈ cs, Printable c := by
  simpa using h

/-- The units that are escaped with a letter of their own. -/
def shortEscapes : List (CodePoint × Char) :=
  [(0x22, '"'), (0x5C, '\\'), (0x0A, 'n'), (0x0D, 'r'), (0x09, 't'), (0x0C, 'f'), (0x08, 'b')]

/-- The ways in which a unit is written. -/
inductive Written (c : CodePoint) : List Char → Prop
  | short {x : Char} : (c, x) ∈ shortEscapes → Written c ['\\', x]
  | self : 0x20 ≤ c.val ∧ c.val ≤ 0x7E → c ≠ 0x22 → c ≠ 0x5C → Written c [Char.ofNat c.val]
  | hex : Written c ('\\' :: 'u' :: hex4 c.val)

theorem written_escapeUnit (c : CodePoint) : Written c (escapeUnit c) := by
  have hshort : ∀ m ∈ shortEscapes, c = m.1 → Written c ['\\', m.2] := by
    rintro m hm rfl
    exact .short hm
  -- The tests are made in the order of the table, and what passes none of them has no letter.
  unfold escapeUnit
  split_ifs with hquote hbackslash hn hr ht hf hb hrange
  · exact hshort (0x22, '"') (by simp [shortEscapes]) hquote
  · exact hshort (0x5C, '\\') (by simp [shortEscapes]) hbackslash
  · exact hshort (0x0A, 'n') (by simp [shortEscapes]) hn
  · exact hshort (0x0D, 'r') (by simp [shortEscapes]) hr
  · exact hshort (0x09, 't') (by simp [shortEscapes]) ht
  · exact hshort (0x0C, 'f') (by simp [shortEscapes]) hf
  · exact hshort (0x08, 'b') (by simp [shortEscapes]) hb
  · exact .self hrange hquote hbackslash
  · exact .hex

theorem Written.printable {c : CodePoint} {cs : List Char} (h : Written c cs) :
    ∀ d ∈ cs, Printable d := by
  cases h with
  | @short x hx =>
      have hletters : ∀ d ∈ shortEscapes.map Prod.snd, Printable d := printable_of_all rfl
      have hletter := hletters x (List.mem_map_of_mem hx)
      exact List.forall_mem_cons.2 ⟨by decide, by simpa using hletter⟩
  | self hrange _ _ =>
      rw [List.forall_mem_singleton, Printable, toNat_ofNat (by omega)]
      exact hrange
  | hex =>
      exact List.forall_mem_cons.2 ⟨by decide, List.forall_mem_cons.2 ⟨by decide, printable_hex4 _⟩⟩

theorem printable_dumpsStr (s : Str) : ∀ c ∈ dumpsStr s, Printable c := by
  intro c hc
  simp only [dumpsStr, List.mem_cons, List.mem_append, List.not_mem_nil, or_false] at hc
  rcases hc with rfl | hc | rfl
  · decide
  · rcases List.mem_flatMap.1 hc with ⟨u, _, hu⟩
    exact (written_escapeUnit u).printable c hu
  · decide

theorem printable_toDigits (n : Nat) : ∀ c ∈ Nat.toDigits 10 n, Printable c :=
  fun _ hc => printable_of_isDigit (Nat.isDigit_of_mem_toDigits (by decide) (by decide) hc)

theorem printable_int (n : Int) : ∀ c ∈ (toString n).toList, Printable c := by
  cases n with
  | ofNat n =>
      simpa [Int.toString_eq_repr, Int.repr, Nat.repr] using printable_toDigits n
  | negSucc n =>
      have hdigits := printable_toDigits (n + 1)
      simp only [Int.toString_eq_repr, Int.repr, Nat.repr]
      intro c hc
      simp only [String.toList_append, String.toList_ofList, List.mem_append] at hc
      rcases hc with hc | hc
      · have hdash : c = '-' := by simpa using hc
        rw [hdash]
        decide
      · exact hdigits c hc

theorem printable_digits (ds : Digits) : ∀ c ∈ ds.val, Printable c :=
  fun c hc => printable_of_isDigit (ds.property c hc)

theorem printable_dumpsFrac (frac : Digits) : ∀ c ∈ dumpsFrac frac, Printable c := by
  unfold dumpsFrac
  split
  · simp
  · exact List.forall_mem_cons.2 ⟨by decide, printable_digits frac⟩

theorem printable_dumpsExp (exp : Option Exponent) : ∀ c ∈ dumpsExp exp, Printable c := by
  cases exp with
  | none => simp [dumpsExp]
  | some x =>
      have hsign : ∀ c ∈ dumpsSign x.sign, Printable c := by
        rcases x.sign with _ | _ | _ <;> exact printable_of_all rfl
      refine List.forall_mem_cons.2 ⟨by split <;> decide, ?_⟩
      exact List.forall_mem_append.2 ⟨hsign, printable_digits x.digits⟩

theorem printable_dumpsFloat (x : FloatLit) : ∀ c ∈ dumpsFloat x, Printable c := by
  unfold dumpsFloat
  refine List.forall_mem_append.2 ⟨by split <;> exact printable_of_all rfl, ?_⟩
  refine List.forall_mem_append.2 ⟨printable_toDigits _, ?_⟩
  exact List.forall_mem_append.2 ⟨printable_dumpsFrac _, printable_dumpsExp _⟩

mutual

/-- Whatever its strings are, the text of a value is printable ASCII, so it stands on one line. -/
theorem printable_dumps : ∀ v : Json, ∀ c ∈ dumps v, Printable c
  | null => printable_of_all rfl
  | bool true => printable_of_all rfl
  | bool false => printable_of_all rfl
  | int n => by simpa [dumps] using printable_int n
  | float x => by simpa [dumps] using printable_dumpsFloat x
  | nonFinite x => by cases x <;> exact printable_of_all rfl
  | str s => by simpa [dumps] using printable_dumpsStr s
  | arr items => by
      have hitems := printable_dumpsItems items
      unfold dumps
      exact List.forall_mem_cons.2 ⟨by decide, hitems⟩
  | obj members => by
      have hmembers := printable_dumpsMembers members
      unfold dumps
      exact List.forall_mem_cons.2 ⟨by decide, hmembers⟩

theorem printable_dumpsItems : ∀ items : List Json, ∀ c ∈ dumpsItems items, Printable c
  | [] => printable_of_all rfl
  | [v] => by
      have hv := printable_dumps v
      unfold dumpsItems
      exact List.forall_mem_append.2 ⟨hv, printable_of_all rfl⟩
  | v :: w :: rest => by
      have hv := printable_dumps v
      have hrest := printable_dumpsItems (w :: rest)
      unfold dumpsItems
      refine List.forall_mem_append.2 ⟨hv, ?_⟩
      exact List.forall_mem_cons.2 ⟨by decide, List.forall_mem_cons.2 ⟨by decide, hrest⟩⟩

theorem printable_dumpsMembers : ∀ members : List (Str × Json), ∀ c ∈ dumpsMembers members, Printable c
  | [] => printable_of_all rfl
  | [(k, v)] => by
      have hv := printable_dumps v
      unfold dumpsMembers
      refine List.forall_mem_append.2 ⟨printable_dumpsStr k, ?_⟩
      refine List.forall_mem_cons.2 ⟨by decide, List.forall_mem_cons.2 ⟨by decide, ?_⟩⟩
      exact List.forall_mem_append.2 ⟨hv, printable_of_all rfl⟩
  | (k, v) :: m :: rest => by
      have hv := printable_dumps v
      have hrest := printable_dumpsMembers (m :: rest)
      unfold dumpsMembers
      refine List.forall_mem_append.2 ⟨printable_dumpsStr k, ?_⟩
      refine List.forall_mem_cons.2 ⟨by decide, List.forall_mem_cons.2 ⟨by decide, ?_⟩⟩
      refine List.forall_mem_append.2 ⟨hv, ?_⟩
      exact List.forall_mem_cons.2 ⟨by decide, List.forall_mem_cons.2 ⟨by decide, hrest⟩⟩

end

end Json

end Support
