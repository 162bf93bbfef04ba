import PidtreeBcc.Support.Json
import Mathlib.Data.List.TakeWhile

/-!
# JsonLoads — reading a text back

`loads` reads any text, the way the default decoder does: white space around the tokens, escapes of any kind,
repeated keys of an object, of which the last one counts.
-/

namespace Support

namespace Json

/-! ## Strings -/

def hexDigit? (c : Char) : Option Nat :=
  if c.isDigit then some (c.toNat - 48)
  else if 'a' ≤ c ∧ c ≤ 'f' then some (c.toNat - 87)
  else if 'A' ≤ c ∧ c ≤ 'F' then some (c.toNat - 55)
  else none

/-- The unit that four hexadecimal digits stand for. -/
def unit? (a b c d : Char) : Option CodePoint := do
  let a ← hexDigit? a
  let b ← hexDigit? b
  let c ← hexDigit? c
  let d ← hexDigit? d
  return CodePoint.ofNat (4096 * a + 256 * b + 16 * c + d)

/-- The character after a backslash. -/
def escape? (c : Char) : Option CodePoint :=
  if c = '"' then some (.ofNat 0x22)
  else if c = '\\' then some (.ofNat 0x5C)
  else if c = '/' then some (.ofNat 0x2F)
  else if c = 'b' then some (.ofNat 0x08)
  else if c = 'f' then some (.ofNat 0x0C)
  else if c = 'n' then some (.ofNat 0x0A)
  else if c = 'r' then some (.ofNat 0x0D)
  else if c = 't' then some (.ofNat 0x09)
  else none

/-- The units up to the closing quote, and what is left behind it. -/
def scanUnits : List Char → Option (Str × List Char)
  | [] => none
  | '"' :: rest => some ([], rest)
  | '\\' :: 'u' :: a :: b :: c :: d :: rest => do
      let unit ← unit? a b c d
      let (units, rest) ← scanUnits rest
      return (unit :: units, rest)
  | '\\' :: c :: rest => do
      let unit ← escape? c
      let (units, rest) ← scanUnits rest
      return (unit :: units, rest)
  | c :: rest =>
      -- Control characters have to be escaped.
      if c.toNat < 0x20 then none
      else do
        let (units, rest) ← scanUnits rest
        return (CodePoint.ofChar c :: units, rest)

/-- The character that a surrogate pair stands for. -/
def pair (h l : CodePoint) : CodePoint :=
  CodePoint.ofNat (0x10000 + ((h.val - 0xD800) * 0x400 + (l.val - 0xDC00)))

def joinPairs : Str → Str
  | h :: l :: rest =>
      if h.IsHigh ∧ l.IsLow then pair h l :: joinPairs rest else h :: joinPairs (l :: rest)
  | s => s

/-- A string, behind its opening quote. -/
def scanString (cs : List Char) : Option (Str × List Char) :=
  (scanUnits cs).map fun r => (joinPairs r.1, r.2)

/-! ## Numbers -/

/-- The digits at the front. -/
def spanDigits (cs : List Char) : Digits × List Char :=
  (⟨cs.takeWhile Char.isDigit, fun _ hc => List.mem_takeWhile_imp hc⟩, cs.dropWhile Char.isDigit)

/-- The whole part: `0`, or digits of which the first is another one. -/
def scanWhole : List Char → Option (Nat × List Char)
  | [] => none
  | c :: rest =>
      if c = '0' then some (0, rest)
      else if c.isDigit then
        some (Nat.ofDigitChars 10 (spanDigits (c :: rest)).1.val 0, (spanDigits (c :: rest)).2)
      else none

/-- The fraction, which is there if digits follow the point. -/
def scanFrac : List Char → Digits × List Char
  | '.' :: rest =>
      if (spanDigits rest).1.val = [] then (⟨[], by simp⟩, '.' :: rest) else spanDigits rest
  | cs => (⟨[], by simp⟩, cs)

def scanSign : List Char → Option Bool × List Char
  | '-' :: rest => (some true, rest)
  | '+' :: rest => (some false, rest)
  | cs => (none, cs)

/-- The exponent, which is there if digits follow its sign. -/
def scanExp : List Char → Option Exponent × List Char
  | [] => (none, [])
  | c :: rest =>
      if c = 'e' ∨ c = 'E' then
        let sign := scanSign rest
        let digits := spanDigits sign.2
        if h : digits.1.val = [] then (none, c :: rest)
        else (some ⟨c = 'E', sign.1, digits.1, h⟩, digits.2)
      else (none, c :: rest)

/-- A number behind its sign. -/
def scanNumber (negative : Bool) (cs : List Char) : Option (Json × List Char) := do
  let (whole, rest) ← scanWhole cs
  let frac := scanFrac rest
  let exp := scanExp frac.2
  if h : frac.1.val ≠ [] ∨ exp.1 ≠ none then
    return (float ⟨negative, whole, frac.1, exp.1, h⟩, exp.2)
  else return (int (if negative then -whole else whole), exp.2)

def scanSigned : List Char → Option (Json × List Char)
  | '-' :: rest => scanNumber true rest
  | cs => scanNumber false cs

/-! ## Values -/

def isSpace (c : Char) : Bool := c = ' ' ∨ c = '\t' ∨ c = '\n' ∨ c = '\r'

def skipSpace (cs : List Char) : List Char := cs.dropWhile isSpace

/-- A fixed word at the front. -/
def scanWord (word : String) (v : Json) (cs : List Char) : Option (Json × List Char) :=
  if word.toList <+: cs then some (v, cs.drop word.toList.length) else none

/-- A value that is no string, array or object. -/
def scanAtom (cs : List Char) : Option (Json × List Char) :=
  scanWord "null" null cs <|> scanWord "true" (bool true) cs <|> scanWord "false" (bool false) cs <|>
    scanSigned cs <|> scanWord "NaN" (nonFinite .nan) cs <|>
    scanWord "Infinity" (nonFinite .infinity) cs <|> scanWord "-Infinity" (nonFinite .negInfinity) cs

/-- The members of an object, where of those with one key the last one counts. -/
def ofPairs (pairs : List (Str × Json)) : Json := obj (Dict.empty.update pairs).entries

/-- Either the bracket that closes an empty array or object, or what `scan` reads. -/
def scanUnlessClosed (close : Char) (empty : Json) (scan : List Char → Option (Json × List Char)) :
    List Char → Option (Json × List Char)
  | [] => scan []
  | c :: rest => if c = close then some (empty, rest) else scan (c :: rest)

/-- Items that are separated by commas, up to the bracket that closes them; `more` reads those behind a
comma. -/
def scanList {α : Type} (close : Char) (one : List Char → Option (α × List Char))
    (more : List Char → Option (List α × List Char)) (cs : List Char) :
    Option (List α × List Char) := do
  let (x, rest) ← one cs
  match skipSpace rest with
  | [] => none
  | c :: rest =>
      if c = close then return ([x], rest)
      else if c = ',' then (more (skipSpace rest)).map fun r => (x :: r.1, r.2)
      else none

/-- A key, a colon and what `scan` reads behind it. -/
def scanMember (scan : List Char → Option (Json × List Char)) :
    List Char → Option ((Str × Json) × List Char)
  | '"' :: cs => do
      let (k, rest) ← scanString cs
      match skipSpace rest with
      | ':' :: rest => (scan (skipSpace rest)).map fun r => ((k, r.1), r.2)
      | _ => none
  | _ => none

mutual

/-- The value at the front and what is left; `fuel` bounds the nesting. -/
def scanOnce : Nat → List Char → Option (Json × List Char)
  | 0, _ => none
  | _ + 1, [] => none
  | fuel + 1, c :: rest =>
      if c = '"' then (scanString rest).map fun r => (str r.1, r.2)
      else if c = '[' then
        scanUnlessClosed ']' (arr []) (fun cs => (scanItems fuel cs).map fun r => (arr r.1, r.2))
          (skipSpace rest)
      else if c = '{' then
        scanUnlessClosed '}' (obj []) (fun cs => (scanMembers fuel cs).map fun r => (ofPairs r.1, r.2))
          (skipSpace rest)
      else scanAtom (c :: rest)

/-- The items of an array that has some. -/
def scanItems : Nat → List Char → Option (List Json × List Char)
  | 0, _ => none
  | fuel + 1, cs => scanList ']' (scanOnce fuel) (scanItems fuel) cs

/-- The members of an object that has some. -/
def scanMembers : Nat → List Char → Option (List (Str × Json) × List Char)
  | 0, _ => none
  | fuel + 1, cs => scanList '}' (scanMember (scanOnce fuel)) (scanMembers fuel) cs

end

/-- The value of a text, or none where the decoder raises. -/
def loads (cs : List Char) : Option Json :=
  match scanOnce (2 * cs.length + 1) (skipSpace cs) with
  | some (v, rest) => if skipSpace rest = [] then some v else none
  | none => none

/-! ## The fuel

A value is read off the front of the text, so what is left is shorter, and fuel for twice the length is as good
as any more. -/

/-- What the scanner leaves is shorter than what it was given. -/
def Shortens {α : Type} (scan : List Char → Option (α × List Char)) : Prop :=
  ∀ cs x rest, scan cs = some (x, rest) → rest.length < cs.length

theorem length_skipSpace_le (cs : List Char) : (skipSpace cs).length ≤ cs.length :=
  (List.dropWhile_suffix isSpace).length_le

theorem shortens_scanUnits : Shortens scanUnits := by
  intro cs
  fun_induction scanUnits cs with
  | case1 =>
      intro us left h
      cases h
  | case2 rest =>
      intro us left h
      cases h
      exact Nat.lt_succ_self _
  | case3 a b c d rest ih =>
      intro us left h
      simp only [Option.bind_eq_bind, Option.bind_eq_some_iff, Option.pure_def] at h
      rcases h with ⟨unit, _, ⟨units, rest'⟩, hrest, hEq⟩
      cases hEq
      have hlt := ih units rest' hrest
      simp only [List.length_cons]
      omega
  | case4 c rest _ ih =>
      intro us left h
      simp only [Option.bind_eq_bind, Option.bind_eq_some_iff, Option.pure_def] at h
      rcases h with ⟨unit, _, ⟨units, rest'⟩, hrest, hEq⟩
      cases hEq
      have hlt := ih units rest' hrest
      simp only [List.length_cons]
      omega
  | case5 c rest _ _ _ =>
      intro us left h
      cases h
  | case6 c rest _ _ _ _ ih =>
      intro us left h
      simp only [Option.bind_eq_bind, Option.bind_eq_some_iff, Option.pure_def] at h
      rcases h with ⟨⟨units, rest'⟩, hrest, hEq⟩
      cases hEq
      exact Nat.lt_succ_of_lt (ih units rest' hrest)

theorem shortens_scanString : Shortens scanString := by
  intro cs s rest h
  rcases Option.map_eq_some_iff.1 h with ⟨⟨us, rest'⟩, hunits, hEq⟩
  cases hEq
  exact shortens_scanUnits cs us rest' hunits

theorem length_spanDigits_le (cs : List Char) : (spanDigits cs).2.length ≤ cs.length :=
  (List.dropWhile_suffix Char.isDigit).length_le

theorem shortens_scanWhole : Shortens scanWhole := by
  intro cs n rest h
  unfold scanWhole at h
  split at h
  · cases h
  · rename_i c left
    split at h
    · -- A zero is the whole part, and digits behind it are left.
      cases h
      exact Nat.lt_succ_self _
    · split at h
      · rename_i hdigit
        cases h
        have hle := (List.dropWhile_suffix Char.isDigit (l := left)).length_le
        simpa [spanDigits, hdigit] using Nat.lt_succ_of_le hle
      · cases h

theorem length_scanFrac_le (cs : List Char) : (scanFrac cs).2.length ≤ cs.length := by
  unfold scanFrac
  split
  · split
    · exact le_rfl
    · exact le_trans (length_spanDigits_le _) (Nat.le_succ _)
  · exact le_rfl

theorem length_scanSign_le (cs : List Char) : (scanSign cs).2.length ≤ cs.length := by
  unfold scanSign
  split
  · exact Nat.le_succ _
  · exact Nat.le_succ _
  · exact le_rfl

theorem length_scanExp_le (cs : List Char) : (scanExp cs).2.length ≤ cs.length := by
  unfold scanExp
  split
  · exact le_rfl
  · split
    · dsimp only
      split
      · exact le_rfl
      · have hdigits := length_spanDigits_le (scanSign ‹List Char›).2
        exact le_trans hdigits (le_trans (length_scanSign_le _) (Nat.le_succ _))
    · exact le_rfl

theorem shortens_scanNumber (negative : Bool) : Shortens (scanNumber negative) := by
  intro cs v rest h
  unfold scanNumber at h
  simp only [Option.bind_eq_bind, Option.bind_eq_some_iff] at h
  rcases h with ⟨⟨whole, rest'⟩, hwhole, hEq⟩
  have hlt := shortens_scanWhole cs whole rest' hwhole
  have hle := le_trans (length_scanExp_le (scanFrac rest').2) (length_scanFrac_le rest')
  split at hEq <;> cases hEq <;> exact lt_of_le_of_lt hle hlt

theorem shortens_scanSigned : Shortens scanSigned := by
  intro cs v rest h
  unfold scanSigned at h
  split at h
  · exact Nat.lt_succ_of_lt (shortens_scanNumber true _ v rest h)
  · exact shortens_scanNumber false _ v rest h

theorem shortens_scanWord {word : String} (v : Json) (hword : word.toList ≠ []) :
    Shortens (scanWord word v) := by
  intro cs w rest h
  unfold scanWord at h
  split at h
  · rename_i hprefix
    cases h
    have hpos := List.length_pos_iff.2 hword
    have hle := hprefix.length_le
    rw [List.length_drop]
    omega
  · cases h

theorem Shortens.orElse {α : Type} {f g : List Char → Option (α × List Char)} (hf : Shortens f)
    (hg : Shortens g) : Shortens fun cs => f cs <|> g cs := by
  intro cs x rest h
  cases hcs : f cs with
  | none => exact hg cs x rest (by simpa [hcs] using h)
  | some r => exact hf cs x rest (by simpa [hcs] using h)

theorem shortens_scanAtom : Shortens scanAtom :=
  (shortens_scanWord null (by decide)).orElse <|
    (shortens_scanWord (bool true) (by decide)).orElse <|
    (shortens_scanWord (bool false) (by decide)).orElse <|
    shortens_scanSigned.orElse <|
    (shortens_scanWord (nonFinite .nan) (by decide)).orElse <|
    (shortens_scanWord (nonFinite .infinity) (by decide)).orElse <|
    shortens_scanWord (nonFinite .negInfinity) (by decide)

theorem Shortens.list {α : Type} {close : Char} {one : List Char → Option (α × List Char)}
    {more : List Char → Option (List α × List Char)} (hone : Shortens one) (hmore : Shortens more) :
    Shortens (scanList close one more) := by
  intro cs xs rest h
  unfold scanList at h
  simp only [Option.bind_eq_bind, Option.bind_eq_some_iff] at h
  rcases h with ⟨⟨x, left⟩, hx, hEq⟩
  have hlt := hone cs x left hx
  have hskip := length_skipSpace_le left
  split at hEq
  · cases hEq
  · rename_i c rest' hleft
    have hskip' := length_skipSpace_le rest'
    rw [hleft, List.length_cons] at hskip
    split at hEq
    · cases hEq
      omega
    split at hEq
    · rcases Option.map_eq_some_iff.1 hEq with ⟨⟨xs', left'⟩, hxs, hEq⟩
      cases hEq
      have hlt' := hmore (skipSpace rest') xs' left' hxs
      show left'.length < cs.length
      omega
    · cases hEq

theorem Shortens.member {scan : List Char → Option (Json × List Char)} (h : Shortens scan) :
    Shortens (scanMember scan) := by
  intro cs m rest hm
  unfold scanMember at hm
  split at hm
  · rename_i cs'
    simp only [Option.bind_eq_bind, Option.bind_eq_some_iff] at hm
    rcases hm with ⟨⟨k, left⟩, hk, hEq⟩
    have hkey := shortens_scanString cs' k left hk
    have hskip := length_skipSpace_le left
    split at hEq
    · rename_i behind hcolon
      rcases Option.map_eq_some_iff.1 hEq with ⟨⟨v, left'⟩, hv, hEq⟩
      cases hEq
      have hvalue := h (skipSpace behind) v left' hv
      have hskip' := length_skipSpace_le behind
      rw [hcolon, List.length_cons] at hskip
      show left'.length < cs'.length + 1
      omega
    · cases hEq
  · cases hm

theorem Shortens.unlessClosed {close : Char} {empty : Json}
    {scan : List Char → Option (Json × List Char)} (h : Shortens scan) :
    Shortens (scanUnlessClosed close empty scan) := by
  intro cs v rest hv
  cases cs with
  | nil => exact h [] v rest hv
  | cons c cs =>
      rw [scanUnlessClosed] at hv
      split at hv
      · cases hv
        exact Nat.lt_succ_self _
      · exact h (c :: cs) v rest hv

theorem Shortens.map {α β : Type} {scan : List Char → Option (α × List Char)} (h : Shortens scan)
    (f : α → β) : Shortens fun cs => (scan cs).map fun r => (f r.1, r.2) := by
  intro cs y rest hy
  rcases Option.map_eq_some_iff.1 hy with ⟨⟨x, left⟩, hx, hEq⟩
  cases hEq
  exact h cs x left hx

theorem shortens_scanOnce {fuel : Nat} (hitems : Shortens (scanItems fuel))
    (hmembers : Shortens (scanMembers fuel)) : Shortens (scanOnce (fuel + 1)) := by
  intro cs v rest h
  cases cs with
  | nil => cases h
  | cons c cs =>
      have hskip := length_skipSpace_le cs
      rw [scanOnce] at h
      split at h
      · exact Nat.lt_succ_of_lt (shortens_scanString.map str cs v rest h)
      split at h
      · have hlt := (hitems.map arr).unlessClosed _ v rest h
        exact Nat.lt_succ_of_lt (lt_of_lt_of_le hlt hskip)
      split at h
      · have hlt := (hmembers.map ofPairs).unlessClosed _ v rest h
        exact Nat.lt_succ_of_lt (lt_of_lt_of_le hlt hskip)
      · exact shortens_scanAtom _ v rest h

theorem shortens_values (fuel : Nat) :
    Shortens (scanOnce fuel) ∧ Shortens (scanItems fuel) ∧ Shortens (scanMembers fuel) := by
  -- The three call each other with one unit less, so the induction is on the fuel, for all of them at once.
  induction fuel with
  | zero =>
      refine ⟨?_, ?_, ?_⟩ <;>
        · intro cs x rest h
          cases h
  | succ fuel ih =>
      rcases ih with ⟨honce, hitems, hmembers⟩
      refine ⟨shortens_scanOnce hitems hmembers, ?_, ?_⟩
      · exact honce.list hitems
      · exact honce.member.list hmembers

/-- A list is read alike by scanners that agree on its first item and on what is behind it. -/
theorem scanList_congr {α : Type} {close : Char} {one one' : List Char → Option (α × List Char)}
    {more more' : List Char → Option (List α × List Char)} {cs : List Char} (hone : one' cs = one cs)
    (hshort : Shortens one) (hmore : ∀ rest : List Char, rest.length < cs.length → more' rest = more rest) :
    scanList close one' more' cs = scanList close one more cs := by
  unfold scanList
  rw [hone]
  cases hx : one cs with
  | none => rfl
  | some r =>
      have hlt := hshort cs r.1 r.2 hx
      have hskip := length_skipSpace_le r.2
      simp only [Option.bind_eq_bind, Option.bind_some]
      split
      · rfl
      · rename_i c rest hrest
        have hskip' := length_skipSpace_le rest
        rw [hrest, List.length_cons] at hskip
        rw [hmore (skipSpace rest) (by omega)]

theorem scanUnlessClosed_congr {close : Char} {empty : Json}
    {scan scan' : List Char → Option (Json × List Char)} {cs : List Char} (h : scan' cs = scan cs) :
    scanUnlessClosed close empty scan' cs = scanUnlessClosed close empty scan cs := by
  cases cs with
  | nil => exact h
  | cons c cs => rw [scanUnlessClosed, scanUnlessClosed, h]

theorem scanMember_congr {scan scan' : List Char → Option (Json × List Char)} {cs : List Char}
    (h : ∀ rest : List Char, rest.length < cs.length → scan' rest = scan rest) :
    scanMember scan' cs = scanMember scan cs := by
  unfold scanMember
  split
  · rename_i cs'
    cases hk : scanString cs' with
    | none => rfl
    | some r =>
        have hkey := shortens_scanString cs' r.1 r.2 hk
        have hskip := length_skipSpace_le r.2
        simp only [Option.bind_eq_bind, Option.bind_some]
        split
        · rename_i rest hrest
          have hskip' := length_skipSpace_le rest
          rw [hrest, List.length_cons] at hskip
          rw [h (skipSpace rest) (by rw [List.length_cons]; omega)]
        · rfl
  · rfl

/-- One more unit of fuel makes no difference when there is enough for the text. -/
theorem enough_fuel (fuel : Nat) :
    (∀ cs : List Char, 2 * cs.length + 1 ≤ fuel → scanOnce (fuel + 1) cs = scanOnce fuel cs) ∧
    (∀ cs : List Char, 2 * cs.length + 2 ≤ fuel → scanItems (fuel + 1) cs = scanItems fuel cs) ∧
    (∀ cs : List Char, 2 * cs.length + 2 ≤ fuel → scanMembers (fuel + 1) cs = scanMembers fuel cs) := by
  -- An array hands one unit less to its items, but their text is shorter by the bracket, which is worth two.
  induction fuel with
  | zero =>
      refine ⟨?_, ?_, ?_⟩ <;>
        · intro cs h
          cases h
  | succ fuel ih =>
      rcases ih with ⟨honce, hitems, hmembers⟩
      rcases shortens_values fuel with ⟨hshort, _, _⟩
      refine ⟨fun cs h => ?_, fun cs h => ?_, fun cs h => ?_⟩
      · cases cs with
        | nil => rfl
        | cons c cs =>
            have hskip := length_skipSpace_le cs
            rw [List.length_cons] at h
            have harr : scanUnlessClosed ']' (arr [])
                (fun cs => (scanItems (fuel + 1) cs).map fun r => (arr r.1, r.2)) (skipSpace cs) =
              scanUnlessClosed ']' (arr [])
                (fun cs => (scanItems fuel cs).map fun r => (arr r.1, r.2)) (skipSpace cs) :=
              scanUnlessClosed_congr (by rw [hitems (skipSpace cs) (by omega)])
            have hobj : scanUnlessClosed '}' (obj [])
                (fun cs => (scanMembers (fuel + 1) cs).map fun r => (ofPairs r.1, r.2)) (skipSpace cs) =
              scanUnlessClosed '}' (obj [])
                (fun cs => (scanMembers fuel cs).map fun r => (ofPairs r.1, r.2)) (skipSpace cs) :=
              scanUnlessClosed_congr (by rw [hmembers (skipSpace cs) (by omega)])
            rw [scanOnce, scanOnce, harr, hobj]
      · -- The items behind the first one have a shorter text, since the scanner of a value shortens.
        exact scanList_congr (honce cs (by omega)) hshort fun rest hrest => hitems rest (by omega)
      · refine scanList_congr ?_ hshort.member fun rest hrest => hmembers rest (by omega)
        exact scanMember_congr fun rest hrest => honce rest (by omega)

/-- `loads` reads what a scanner with any larger amount of fuel reads. -/
theorem scanOnce_of_le {cs : List Char} {fuel : Nat} (h : 2 * cs.length + 1 ≤ fuel) :
    scanOnce fuel cs = scanOnce (2 * cs.length + 1) cs := by
  induction fuel, h using Nat.le_induction with
  | base => rfl
  | succ fuel hle ih => rw [(enough_fuel fuel).1 cs hle, ih]

end Json

end Support
