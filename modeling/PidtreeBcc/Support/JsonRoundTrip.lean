import PidtreeBcc.Support.JsonLoads

/-!
# JsonRoundTrip — what was written is read back

`loads` reads the text that `dumps` has written of a plain value as the value.  The proof follows the value:
an atom, a string, or a list whose items are read one after the other.
-/

namespace Support

namespace Json

/-! ## Strings -/

theorem hexDigit?_digitChar {n : Nat} (h : n < 16) : hexDigit? n.digitChar = some n := by
  have hall : ∀ n : Fin 16, hexDigit? n.val.digitChar = some n.val := by decide
  exact hall ⟨n, h⟩

theorem scanUnits_hex4 {c : CodePoint} (hc : c.val < 0x10000) (rest : List Char) :
    scanUnits ('\\' :: 'u' :: (hex4 c.val ++ rest)) =
      (scanUnits rest).map fun r => (c :: r.1, r.2) := by
  have hlt : ∀ m : Nat, m % 16 < 16 := fun m => Nat.mod_lt m (by decide)
  have hsum : 4096 * (c.val / 4096 % 16) + 256 * (c.val / 256 % 16) + 16 * (c.val / 16 % 16) +
      c.val % 16 = c.val := by omega
  have hunit : CodePoint.ofNat (4096 * (c.val / 4096 % 16) + 256 * (c.val / 256 % 16) +
      16 * (c.val / 16 % 16) + c.val % 16) = c := by
    rw [hsum]
    exact Fin.ext (Nat.mod_eq_of_lt c.isLt)
  simp only [hex4, List.cons_append, List.nil_append, scanUnits, unit?, hexDigit?_digitChar (hlt _),
    Option.pure_def, Option.bind_eq_bind, Option.bind_some, hunit]
  cases scanUnits rest <;> rfl

theorem scanUnits_of_plain {c : Char} (hquote : c ≠ '"') (hbackslash : c ≠ '\\')
    (hcontrol : 0x20 ≤ c.toNat) (rest : List Char) :
    scanUnits (c :: rest) = (scanUnits rest).map fun r => (CodePoint.ofChar c :: r.1, r.2) := by
  have hnot : ¬ c.toNat < 0x20 := Nat.not_lt.2 hcontrol
  rw [scanUnits]
  · rw [if_neg hnot]
    cases scanUnits rest <;> rfl
  · exact hquote
  · intro a b c' d rest' heq
    exact absurd heq hbackslash
  · intro c' rest' heq
    exact absurd heq hbackslash

theorem scanUnits_of_escape? {x : Char} {c : CodePoint} (h : escape? x = some c) (rest : List Char) :
    scanUnits ('\\' :: x :: rest) = (scanUnits rest).map fun r => (c :: r.1, r.2) := by
  have hne : x ≠ 'u' := by
    rintro rfl
    have hnone : escape? 'u' = none := by decide
    rw [hnone] at h
    cases h
  rw [scanUnits]
  · rw [h]
    cases scanUnits rest <;> rfl
  · intro a b c' d rest' hu
    exact absurd hu hne

/-- However a unit is written, it is read as the unit. -/
theorem Written.scanUnits {c : CodePoint} {cs : List Char} (h : Written c cs) (hc : c.val < 0x10000)
    (rest : List Char) : scanUnits (cs ++ rest) = (scanUnits rest).map fun r => (c :: r.1, r.2) := by
  cases h with
  | @short x hx =>
      -- As with `printable_of_all`, the test goes through the table.
      have hall : shortEscapes.all (fun m => decide (escape? m.2 = some m.1)) = true := rfl
      have hread : escape? x = some c := by simpa using List.all_eq_true.1 hall (c, x) hx
      exact scanUnits_of_escape? hread rest
  | self hrange hquote hbackslash =>
      have hval : (Char.ofNat c.val).toNat = c.val := toNat_ofNat (by omega)
      have hchar : CodePoint.ofChar (Char.ofNat c.val) = c := Fin.ext hval
      have hne : ∀ x : Char, c ≠ CodePoint.ofChar x → Char.ofNat c.val ≠ x := by
        rintro x hx rfl
        exact hx hchar.symm
      have hcontrol : 0x20 ≤ (Char.ofNat c.val).toNat := by
        rw [hval]
        exact hrange.1
      rw [List.singleton_append, scanUnits_of_plain (hne _ hquote) (hne _ hbackslash) hcontrol, hchar]
  | hex => exact scanUnits_hex4 hc rest

theorem CodePoint.units_lt (c : CodePoint) : ∀ u ∈ c.units, u.val < 0x10000 := by
  have hc := c.isLt
  unfold CodePoint.units
  split
  · simpa
  · intro u hu
    simp only [List.mem_cons, List.not_mem_nil, or_false] at hu
    rcases hu with rfl | rfl <;> simp only [CodePoint.ofNat] <;> omega

theorem scanUnits_escape {us : Str} (h : ∀ u ∈ us, u.val < 0x10000) (rest : List Char) :
    scanUnits (us.flatMap escapeUnit ++ '"' :: rest) = some (us, rest) := by
  induction us with
  | nil => rfl
  | cons u us ih =>
      rw [List.flatMap_cons, List.append_assoc, (written_escapeUnit u).scanUnits (h u (by simp)),
        ih fun v hv => h v (List.mem_cons_of_mem _ hv)]
      rfl

/-- The units of a character beyond the first plane are a surrogate pair, which is read as the character. -/
theorem pair_units {c : CodePoint} (hc : ¬ c.val < 0x10000) : ∃ h l, c.units = [h, l] ∧ h.IsHigh ∧
    l.IsLow ∧ pair h l = c := by
  have hlt := c.isLt
  refine ⟨_, _, if_neg hc, ?_, ?_, ?_⟩
  · simp only [CodePoint.IsHigh, CodePoint.ofNat]
    omega
  · simp only [CodePoint.IsLow, CodePoint.ofNat]
    omega
  · apply Fin.ext
    simp only [pair, CodePoint.ofNat]
    omega

/-- The first unit of a string is low only if its first character is. -/
theorem head_units_isLow {d : CodePoint} {rest : Str} {l : CodePoint} {ls : Str}
    (h : (d :: rest).flatMap CodePoint.units = l :: ls) (hl : l.IsLow) : d.IsLow := by
  by_cases hd : d.val < 0x10000
  · simp only [List.flatMap_cons, CodePoint.units, if_pos hd, List.singleton_append,
      List.cons.injEq] at h
    rw [h.1]
    exact hl
  · rcases pair_units hd with ⟨h', l', hunits, hhigh, _, _⟩
    rw [List.flatMap_cons, hunits, List.cons_append, List.cons.injEq] at h
    rw [← h.1] at hl
    unfold CodePoint.IsHigh at hhigh
    unfold CodePoint.IsLow at hl
    omega

theorem joinPairs_cons_of_not {h : CodePoint} {rest : Str}
    (hnot : ∀ l ls, rest = l :: ls → ¬ (h.IsHigh ∧ l.IsLow)) :
    joinPairs (h :: rest) = h :: joinPairs rest := by
  cases rest with
  | nil => rfl
  | cons l ls => rw [joinPairs, if_neg (hnot l ls rfl)]

/-- A string is read as it was written just when no pair is split in it. -/
theorem joinPairs_units {s : Str} (h : s.Unsplit) : joinPairs (s.flatMap CodePoint.units) = s := by
  induction s with
  | nil => rfl
  | cons c rest ih =>
      have hrest := ih h.tail
      by_cases hc : c.val < 0x10000
      · -- The unit is joined to the next one only if both are halves of a pair, which `h` excludes.
        have hunits : c.units = [c] := if_pos hc
        rw [List.flatMap_cons, hunits, List.singleton_append, joinPairs_cons_of_not, hrest]
        rintro l ls hls ⟨hhigh, hlow⟩
        cases rest with
        | nil => cases hls
        | cons d rest => exact h.rel ⟨hhigh, head_units_isLow hls hlow⟩
      · rcases pair_units hc with ⟨hi, lo, hunits, hhigh, hlow, hpair⟩
        rw [List.flatMap_cons, hunits, List.cons_append, List.singleton_append, joinPairs,
          if_pos ⟨hhigh, hlow⟩, hpair, hrest]

theorem scanString_escape {s : Str} (h : s.Unsplit) (rest : List Char) :
    scanString ((s.flatMap CodePoint.units).flatMap escapeUnit ++ '"' :: rest) = some (s, rest) := by
  have hlt : ∀ u ∈ s.flatMap CodePoint.units, u.val < 0x10000 := by
    intro u hu
    rcases List.mem_flatMap.1 hu with ⟨c, _, hc⟩
    exact CodePoint.units_lt c u hc
  rw [scanString, scanUnits_escape hlt, Option.map_some, joinPairs_units h]

/-- The characters of a `String` are no surrogates. -/
theorem unsplit_ofString (s : String) : (Str.ofString s).Unsplit := by
  have hnot : ∀ c : Char, ¬ (CodePoint.ofChar c).IsHigh := by
    intro c hhigh
    have hvalid := c.valid
    unfold CodePoint.IsHigh at hhigh
    have hval : (CodePoint.ofChar c).val = c.val.toNat := rfl
    unfold UInt32.isValidChar Nat.isValidChar at hvalid
    omega
  refine List.Pairwise.isChain ?_
  refine List.pairwise_map.2 (List.pairwise_of_forall fun c d h => hnot c h.1)

/-! ## Numbers -/

/-- Behind the whole part and the fraction of a number. -/
def NumberEnds (rest : List Char) : Prop := ∀ c ∈ rest.head?, c.isDigit = false ∧ c ≠ '.'

/-- Behind a value: nothing, or what comes after an item or a member. -/
def Delimited (rest : List Char) : Prop := ∀ c ∈ rest.head?, c = ',' ∨ c = ']' ∨ c = '}'

theorem Delimited.numberEnds {rest : List Char} (h : Delimited rest) : NumberEnds rest := by
  intro c hc
  rcases h c hc with rfl | rfl | rfl <;> decide

theorem spanDigits_of_digits (ds : Digits) {rest : List Char}
    (h : ∀ c ∈ rest.head?, c.isDigit = false) : spanDigits (ds.val ++ rest) = (ds, rest) := by
  have htake : (ds.val ++ rest).takeWhile Char.isDigit = ds.val := by
    rw [List.takeWhile_append_of_pos ds.property]
    cases rest with
    | nil => simp
    | cons c rest => simp [h c rfl]
  have hdrop : (ds.val ++ rest).dropWhile Char.isDigit = rest := by
    rw [List.dropWhile_append_of_pos ds.property]
    cases rest with
    | nil => rfl
    | cons c rest => simp [h c rfl]
  unfold spanDigits
  rw [hdrop]
  exact Prod.ext (Subtype.ext htake) rfl

theorem toDigits_head {n : Nat} (h : n ≠ 0) :
    ∃ c ds, Nat.toDigits 10 n = c :: ds ∧ c ≠ '0' ∧ c.isDigit = true := by
  -- The first digit of a number is that of the number without its last digit.
  induction n using Nat.strong_induction_on with
  | _ n ih =>
      by_cases hlt : n < 10
      · refine ⟨n.digitChar, [], Nat.toDigits_of_lt_base hlt, ?_, ?_⟩
        · simpa using h
        · simpa using hlt
      · have hle : 10 ≤ n := Nat.not_lt.1 hlt
        rcases ih (n / 10) (by omega) (by omega) with ⟨c, ds, hds, hzero, hdigit⟩
        refine ⟨c, ds ++ [(n % 10).digitChar], ?_, hzero, hdigit⟩
        rw [Nat.toDigits_of_base_le (by decide) hle, hds]
        rfl

theorem scanWhole_toDigits (n : Nat) {rest : List Char} (h : ∀ c ∈ rest.head?, c.isDigit = false) :
    scanWhole (Nat.toDigits 10 n ++ rest) = some (n, rest) := by
  by_cases hn : n = 0
  · -- The digit zero is the whole part for itself.
    subst hn
    rfl
  · rcases toDigits_head hn with ⟨c, ds, hds, hzero, hdigit⟩
    have hdigits : ∀ d ∈ c :: ds, d.isDigit = true := by
      rw [← hds]
      exact fun d hd => Nat.isDigit_of_mem_toDigits (by decide) (by decide) hd
    have hspan := spanDigits_of_digits ⟨c :: ds, hdigits⟩ h
    rw [List.cons_append] at hspan
    rw [hds, List.cons_append, scanWhole, if_neg hzero, if_pos hdigit, hspan]
    simp only [← hds, Nat.ofDigitChars_ten_toDigits]

theorem scanFrac_dumpsFrac (frac : Digits) {rest : List Char} (h : NumberEnds rest) :
    scanFrac (dumpsFrac frac ++ rest) = (frac, rest) := by
  unfold dumpsFrac
  split
  · rename_i hnil
    -- Nothing is written, and what stands behind the number is no point.
    have hempty : frac = ⟨[], by simp⟩ := Subtype.ext hnil
    rw [hempty, List.nil_append]
    unfold scanFrac
    split
    · exact absurd rfl (h '.' rfl).2
    · rfl
  · rename_i hne
    have hspan := spanDigits_of_digits frac fun c hc => (h c hc).1
    rw [List.cons_append, scanFrac, hspan, if_neg hne]

theorem scanSign_dumpsSign (sign : Option Bool) {ds : List Char}
    (h : ∀ c ∈ ds.head?, c.isDigit = true) : scanSign (dumpsSign sign ++ ds) = (sign, ds) := by
  rcases sign with _ | _ | _
  · unfold dumpsSign scanSign
    rw [List.nil_append]
    split
    · exact absurd (h '-' rfl) (by decide)
    · exact absurd (h '+' rfl) (by decide)
    · rfl
  · rfl
  · rfl

theorem scanExp_dumpsExp (exp : Option Exponent) {rest : List Char} (h : Delimited rest) :
    scanExp (dumpsExp exp ++ rest) = (exp, rest) := by
  cases exp with
  | none =>
      cases rest with
      | nil => rfl
      | cons c rest =>
          have hnot : ¬ (c = 'e' ∨ c = 'E') := by
            rcases h c rfl with rfl | rfl | rfl <;> decide
          exact if_neg hnot
  | some x =>
      have hhead : ∀ c ∈ (x.digits.val ++ rest).head?, c.isDigit = true := by
        cases hds : x.digits.val with
        | nil => exact absurd hds x.nonempty
        | cons d ds =>
            intro c hc
            have hEq : d = c := by simpa using hc
            exact hEq ▸ x.digits.property d (by simp [hds])
      have hspan := spanDigits_of_digits x.digits fun c hc => (h.numberEnds c hc).1
      have hletter : (if x.upper then 'E' else 'e') = 'e' ∨ (if x.upper then 'E' else 'e') = 'E' := by
        cases x.upper <;> decide
      have hupper : decide ((if x.upper then 'E' else 'e') = 'E') = x.upper := by
        cases x.upper <;> decide
      rw [dumpsExp, List.cons_append, List.append_assoc, scanExp, if_pos hletter]
      simp only [scanSign_dumpsSign x.sign hhead, hspan, dif_neg x.nonempty, hupper]

/-- The exponent of a literal starts with its letter. -/
theorem numberEnds_dumpsExp (exp : Option Exponent) {rest : List Char} (h : NumberEnds rest) :
    NumberEnds (dumpsExp exp ++ rest) := by
  cases exp with
  | none => exact h
  | some x =>
      intro c hc
      have hEq : (if x.upper then 'E' else 'e') = c := by simpa [dumpsExp] using hc
      rw [← hEq]
      cases x.upper <;> decide

theorem noDigit_dumpsFrac (frac : Digits) {rest : List Char} (h : NumberEnds rest) :
    ∀ c ∈ (dumpsFrac frac ++ rest).head?, c.isDigit = false := by
  unfold dumpsFrac
  split
  · exact fun c hc => (h c hc).1
  · intro c hc
    have hEq : '.' = c := by simpa using hc
    rw [← hEq]
    decide

theorem scanNumber_int (negative : Bool) (n : Nat) {rest : List Char} (h : Delimited rest) :
    scanNumber negative (Nat.toDigits 10 n ++ rest) =
      some (int (if negative then -n else n), rest) := by
  have hfrac : scanFrac rest = (⟨[], by simp⟩, rest) :=
    scanFrac_dumpsFrac ⟨[], by simp⟩ h.numberEnds
  have hexp : scanExp rest = (none, rest) := scanExp_dumpsExp none h
  unfold scanNumber
  rw [scanWhole_toDigits n fun c hc => (h.numberEnds c hc).1]
  simp [hfrac, hexp]

theorem scanNumber_float (x : FloatLit) {rest : List Char} (h : Delimited rest) :
    scanNumber x.negative
        (Nat.toDigits 10 x.whole ++ (dumpsFrac x.frac ++ (dumpsExp x.exp ++ rest))) =
      some (float x, rest) := by
  have hends := numberEnds_dumpsExp x.exp h.numberEnds
  unfold scanNumber
  rw [scanWhole_toDigits x.whole (noDigit_dumpsFrac x.frac hends)]
  have hfrac := scanFrac_dumpsFrac x.frac hends
  have hexp := scanExp_dumpsExp x.exp h
  simp only [Option.bind_eq_bind, Option.bind_some, Option.pure_def, hfrac, hexp, dif_pos x.isFloat]

/-! ## Atoms -/

theorem scanWord_append (word : String) (v : Json) (rest : List Char) :
    scanWord word v (word.toList ++ rest) = some (v, rest) := by
  rw [scanWord, if_pos (List.prefix_append _ _), List.drop_left]

theorem scanWord_of_ne {word : String} {w c : Char} {ws cs : List Char} (v : Json)
    (hword : word.toList = w :: ws) (hne : w ≠ c) : scanWord word v (c :: cs) = none := by
  refine if_neg ?_
  rw [hword]
  exact fun hprefix => hne (List.cons_prefix_cons.1 hprefix).1

/-- A text that starts with no word is read as a number first. -/
theorem scanAtom_of_number {c : Char} {cs : List Char} {r : Json × List Char} (hn : 'n' ≠ c)
    (ht : 't' ≠ c) (hf : 'f' ≠ c) (h : scanSigned (c :: cs) = some r) :
    scanAtom (c :: cs) = some r := by
  unfold scanAtom
  rw [scanWord_of_ne null rfl hn, scanWord_of_ne (bool true) rfl ht,
    scanWord_of_ne (bool false) rfl hf, h]
  rfl

theorem ne_of_isDigit {c w : Char} (hc : c.isDigit = true) (hw : w.isDigit = false) : w ≠ c := by
  rintro rfl
  rw [hc] at hw
  cases hw

theorem scanAtom_of_digit {c : Char} {cs : List Char} {r : Json × List Char} (hc : c.isDigit = true)
    (h : scanNumber false (c :: cs) = some r) : scanAtom (c :: cs) = some r := by
  refine scanAtom_of_number (ne_of_isDigit hc rfl) (ne_of_isDigit hc rfl) (ne_of_isDigit hc rfl) ?_
  rw [scanSigned]
  · exact h
  · intro rest hEq
    cases hEq
    cases hc

theorem scanAtom_of_minus {cs : List Char} {r : Json × List Char}
    (h : scanNumber true cs = some r) : scanAtom ('-' :: cs) = some r :=
  scanAtom_of_number (by decide) (by decide) (by decide) h

theorem scanAtom_toDigits {n : Nat} {cs : List Char} {r : Json × List Char}
    (h : scanNumber false (Nat.toDigits 10 n ++ cs) = some r) :
    scanAtom (Nat.toDigits 10 n ++ cs) = some r := by
  cases hds : Nat.toDigits 10 n with
  | nil => exact absurd hds Nat.toDigits_ne_nil
  | cons d ds =>
      have hd : d ∈ Nat.toDigits 10 n := by simp [hds]
      rw [hds, List.cons_append] at h
      exact scanAtom_of_digit (Nat.isDigit_of_mem_toDigits (by decide) (by decide) hd) h

theorem scanAtom_int (n : Int) {rest : List Char} (h : Delimited rest) :
    scanAtom ((toString n).toList ++ rest) = some (int n, rest) := by
  cases n with
  | ofNat n =>
      have htext : (toString (Int.ofNat n)).toList = Nat.toDigits 10 n := by
        simp [Int.toString_eq_repr, Int.repr, Nat.repr]
      rw [htext]
      exact scanAtom_toDigits (scanNumber_int false n h)
  | negSucc n =>
      have htext : (toString (Int.negSucc n)).toList = '-' :: Nat.toDigits 10 (n + 1) := by
        simp [Int.toString_eq_repr, Int.repr, Nat.repr]
      rw [htext]
      exact scanAtom_of_minus (scanNumber_int true (n + 1) h)

theorem scanAtom_float (x : FloatLit) {rest : List Char} (h : Delimited rest) :
    scanAtom (dumpsFloat x ++ rest) = some (float x, rest) := by
  have hnumber := scanNumber_float x h
  unfold dumpsFloat
  cases hneg : x.negative with
  | true =>
      rw [hneg] at hnumber
      simp only [if_true, List.append_assoc, List.cons_append, List.nil_append]
      exact scanAtom_of_minus hnumber
  | false =>
      rw [hneg] at hnumber
      simp only [Bool.false_eq_true, if_false, List.append_assoc, List.nil_append]
      exact scanAtom_toDigits hnumber

theorem scanAtom_nonFinite (x : NonFinite) (rest : List Char) :
    scanAtom (dumpsNonFinite x ++ rest) = some (nonFinite x, rest) := by
  cases x with
  | nan => exact scanWord_append "NaN" (nonFinite .nan) rest
  | infinity => exact scanWord_append "Infinity" (nonFinite .infinity) rest
  | negInfinity => exact scanWord_append "-Infinity" (nonFinite .negInfinity) rest

/-- A character that starts no string, array or object, and closes none. -/
def StartsAtom (c : Char) : Prop :=
  c ≠ '"' ∧ c ≠ '[' ∧ c ≠ '{' ∧ c ≠ ']' ∧ c ≠ '}' ∧ isSpace c = false

instance (c : Char) : Decidable (StartsAtom c) := inferInstanceAs (Decidable (_ ∧ _))

theorem startsAtom_of_isDigit {c : Char} (h : c.isDigit = true) : StartsAtom c := by
  have hne : ∀ x : Char, x.isDigit = false → c ≠ x := fun x hx => (ne_of_isDigit h hx).symm
  refine ⟨hne _ rfl, hne _ rfl, hne _ rfl, hne _ rfl, hne _ rfl, ?_⟩
  simp [isSpace, hne ' ' rfl, hne '\t' rfl, hne '\n' rfl, hne '\r' rfl]

theorem toDigits_startsAtom (n : Nat) (cs : List Char) :
    ∃ c rest, Nat.toDigits 10 n ++ cs = c :: rest ∧ StartsAtom c := by
  cases hds : Nat.toDigits 10 n with
  | nil => exact absurd hds Nat.toDigits_ne_nil
  | cons d ds =>
      have hd : d ∈ Nat.toDigits 10 n := by simp [hds]
      exact ⟨d, _, rfl, startsAtom_of_isDigit (Nat.isDigit_of_mem_toDigits (by decide) (by decide) hd)⟩

/-- What `dumps` writes of a value that is no string, array or object. -/
def Atomic (v : Json) : Prop :=
  ∃ c cs, dumps v = c :: cs ∧ StartsAtom c ∧
    ∀ rest, Delimited rest → scanAtom (dumps v ++ rest) = some (v, rest)

theorem atomic_null : Atomic null := by
  refine ⟨'n', _, rfl, by decide, fun rest _ => ?_⟩
  show scanAtom ("null".toList ++ rest) = _
  unfold scanAtom
  rw [scanWord_append]
  rfl

theorem atomic_bool (b : Bool) : Atomic (bool b) := by
  cases b with
  | true =>
      refine ⟨'t', _, rfl, by decide, fun rest _ => ?_⟩
      show scanAtom ("true".toList ++ rest) = _
      have hnull : scanWord "null" null ("true".toList ++ rest) = none :=
        scanWord_of_ne null rfl (by decide)
      unfold scanAtom
      rw [hnull, scanWord_append]
      rfl
  | false =>
      refine ⟨'f', _, rfl, by decide, fun rest _ => ?_⟩
      show scanAtom ("false".toList ++ rest) = _
      have hnull : scanWord "null" null ("false".toList ++ rest) = none :=
        scanWord_of_ne null rfl (by decide)
      have htrue : scanWord "true" (bool true) ("false".toList ++ rest) = none :=
        scanWord_of_ne (bool true) rfl (by decide)
      unfold scanAtom
      rw [hnull, htrue, scanWord_append]
      rfl

theorem atomic_int (n : Int) : Atomic (int n) := by
  have hhead : ∃ c cs, dumps (int n) = c :: cs ∧ StartsAtom c := by
    cases n with
    | ofNat n =>
        rcases toDigits_startsAtom n [] with ⟨c, cs, hcs, hc⟩
        refine ⟨c, cs, ?_, hc⟩
        rw [← hcs]
        simp [dumps, Int.toString_eq_repr, Int.repr, Nat.repr]
    | negSucc n =>
        refine ⟨'-', Nat.toDigits 10 (n + 1), ?_, by decide⟩
        simp [dumps, Int.toString_eq_repr, Int.repr, Nat.repr]
  rcases hhead with ⟨c, cs, hcs, hc⟩
  refine ⟨c, cs, hcs, hc, fun rest hrest => ?_⟩
  simpa only [dumps] using scanAtom_int n hrest

theorem atomic_float (x : FloatLit) : Atomic (float x) := by
  have hhead : ∃ c cs, dumps (float x) = c :: cs ∧ StartsAtom c := by
    cases hneg : x.negative with
    | true =>
        refine ⟨'-', Nat.toDigits 10 x.whole ++ (dumpsFrac x.frac ++ dumpsExp x.exp), ?_, by decide⟩
        simp [dumps, dumpsFloat, hneg]
    | false =>
        rcases toDigits_startsAtom x.whole (dumpsFrac x.frac ++ dumpsExp x.exp) with ⟨c, cs, hcs, hc⟩
        refine ⟨c, cs, ?_, hc⟩
        rw [← hcs]
        simp [dumps, dumpsFloat, hneg]
  rcases hhead with ⟨c, cs, hcs, hc⟩
  refine ⟨c, cs, hcs, hc, fun rest hrest => ?_⟩
  simpa only [dumps] using scanAtom_float x hrest

theorem atomic_nonFinite (x : NonFinite) : Atomic (nonFinite x) := by
  have hscan : ∀ rest, Delimited rest →
      scanAtom (dumps (nonFinite x) ++ rest) = some (nonFinite x, rest) := by
    intro rest _
    simpa only [dumps] using scanAtom_nonFinite x rest
  cases x with
  | nan => exact ⟨'N', _, rfl, by decide, hscan⟩
  | infinity => exact ⟨'I', _, rfl, by decide, hscan⟩
  | negInfinity => exact ⟨'-', _, rfl, by decide, hscan⟩

theorem skipSpace_of_not {c : Char} (h : isSpace c = false) (cs : List Char) :
    skipSpace (c :: cs) = c :: cs := by
  simp [skipSpace, h]

/-- With enough fuel the value at the front is `v`. -/
def Reads (v : Json) : Prop :=
  ∃ bound, ∀ fuel ≥ bound, ∀ rest, Delimited rest → scanOnce fuel (dumps v ++ rest) = some (v, rest)

def ReadsItems (items : List Json) : Prop :=
  ∃ bound, ∀ fuel ≥ bound, ∀ rest, scanItems fuel (dumpsItems items ++ rest) = some (items, rest)

def ReadsMembers (members : List (Str × Json)) : Prop :=
  ∃ bound, ∀ fuel ≥ bound, ∀ rest,
    scanMembers fuel (dumpsMembers members ++ rest) = some (members, rest)

/-- A step of the scanner takes one unit of fuel, so it is enough to read with one unit more. -/
theorem enough_of_succ {P : Nat → Prop} {bound : Nat} (h : ∀ fuel ≥ bound, P (fuel + 1)) :
    ∃ bound, ∀ fuel ≥ bound, P fuel := by
  refine ⟨bound + 1, fun fuel hfuel => ?_⟩
  cases fuel with
  | zero => cases hfuel
  | succ fuel => exact h fuel (Nat.le_of_succ_le_succ hfuel)

theorem Atomic.reads {v : Json} (h : Atomic v) : Reads v := by
  rcases h with ⟨c, cs, hcs, hc, hscan⟩
  refine enough_of_succ fun fuel (_ : fuel ≥ 0) rest hrest => ?_
  rcases hc with ⟨hquote, hbracket, hbrace, _⟩
  have hatom := hscan rest hrest
  rw [hcs, List.cons_append] at hatom ⊢
  rw [scanOnce, if_neg hquote, if_neg hbracket, if_neg hbrace, hatom]

theorem reads_str {s : Str} (h : s.Unsplit) : Reads (str s) := by
  refine enough_of_succ fun fuel (_ : fuel ≥ 0) rest _ => ?_
  have hscan := scanString_escape h rest
  simp only [dumps, dumpsStr, List.cons_append, List.append_assoc, List.nil_append]
  rw [scanOnce, if_pos rfl, hscan]
  rfl

/-- How the text of a value starts. -/
theorem dumps_head (v : Json) : ∃ c cs, dumps v = c :: cs ∧ isSpace c = false ∧ c ≠ ']' ∧ c ≠ '}' := by
  have hatomic : ∀ w : Json, Atomic w →
      ∃ c cs, dumps w = c :: cs ∧ isSpace c = false ∧ c ≠ ']' ∧ c ≠ '}' := by
    rintro w ⟨c, cs, hcs, ⟨_, _, _, hbracket, hbrace, hspace⟩, _⟩
    exact ⟨c, cs, hcs, hspace, hbracket, hbrace⟩
  cases v with
  | null => exact hatomic _ atomic_null
  | bool b => exact hatomic _ (atomic_bool b)
  | int n => exact hatomic _ (atomic_int n)
  | float x => exact hatomic _ (atomic_float x)
  | nonFinite x => exact hatomic _ (atomic_nonFinite x)
  | str s => exact ⟨'"', _, rfl, by decide, by decide, by decide⟩
  | arr items => exact ⟨'[', dumpsItems items, by rw [dumps], by decide, by decide, by decide⟩
  | obj members => exact ⟨'{', dumpsMembers members, by rw [dumps], by decide, by decide, by decide⟩

theorem delimited_cons {c : Char} (h : c = ',' ∨ c = ']' ∨ c = '}') (cs : List Char) :
    Delimited (c :: cs) := by
  intro d hd
  have hEq : c = d := by simpa using hd
  exact hEq ▸ h

/-! The text of a list of items or members that is not empty. -/

theorem dumpsItems_cons_cons (v w : Json) (rest : List Json) :
    dumpsItems (v :: w :: rest) = dumps v ++ ',' :: ' ' :: dumpsItems (w :: rest) := by
  rw [dumpsItems]
  exact fun h => by cases h

theorem dumpsMembers_cons_cons (k : Str) (v : Json) (m : Str × Json) (rest : List (Str × Json)) :
    dumpsMembers ((k, v) :: m :: rest) =
      dumpsStr k ++ ':' :: ' ' :: (dumps v ++ ',' :: ' ' :: dumpsMembers (m :: rest)) := by
  rw [dumpsMembers]
  exact fun h => by cases h

theorem dumpsItems_head (v : Json) (rest : List Json) :
    ∃ c cs, dumpsItems (v :: rest) = c :: cs ∧ isSpace c = false ∧ c ≠ ']' := by
  rcases dumps_head v with ⟨c, cs, hcs, hspace, hbracket, _⟩
  cases rest with
  | nil => exact ⟨c, cs ++ [']'], by rw [dumpsItems, hcs]; rfl, hspace, hbracket⟩
  | cons w rest => exact ⟨c, _, by rw [dumpsItems_cons_cons, hcs]; rfl, hspace, hbracket⟩

theorem dumpsMembers_head (m : Str × Json) (rest : List (Str × Json)) :
    ∃ cs, dumpsMembers (m :: rest) = '"' :: cs := by
  rcases m with ⟨k, v⟩
  cases rest with
  | nil => exact ⟨_, by rw [dumpsMembers, dumpsStr]; rfl⟩
  | cons m' rest => exact ⟨_, by rw [dumpsMembers_cons_cons, dumpsStr]; rfl⟩

theorem scanList_last {α : Type} {close : Char} {one : List Char → Option (α × List Char)}
    {more : List Char → Option (List α × List Char)} {cs rest : List Char} {x : α}
    (hclose : isSpace close = false) (h : one cs = some (x, close :: rest)) :
    scanList close one more cs = some ([x], rest) := by
  unfold scanList
  rw [h]
  simp only [Option.bind_eq_bind, Option.bind_some, skipSpace_of_not hclose, if_true, Option.pure_def]

theorem scanList_next {α : Type} {close : Char} {one : List Char → Option (α × List Char)}
    {more : List Char → Option (List α × List Char)} {cs rest left : List Char} {x : α} {xs : List α}
    (hclose : close ≠ ',') (h : one cs = some (x, ',' :: ' ' :: rest)) (hskip : skipSpace rest = rest)
    (hmore : more rest = some (xs, left)) : scanList close one more cs = some (x :: xs, left) := by
  have hcomma : skipSpace (',' :: ' ' :: rest) = ',' :: ' ' :: rest := skipSpace_of_not (by decide) _
  have hspace : skipSpace (' ' :: rest) = rest := by
    show skipSpace rest = rest
    exact hskip
  unfold scanList
  rw [h]
  simp only [Option.bind_eq_bind, Option.bind_some, hcomma, if_neg hclose.symm, if_true, hspace, hmore,
    Option.map_some]

theorem Reads.items {v : Json} (h : Reads v) : ReadsItems [v] := by
  rcases h with ⟨bound, hbound⟩
  refine enough_of_succ fun fuel (hfuel : fuel ≥ bound) rest => ?_
  have hv := hbound fuel hfuel (']' :: rest) (delimited_cons (by simp) _)
  rw [dumpsItems, List.append_assoc, scanItems]
  exact scanList_last (by decide) hv

theorem ReadsItems.cons {v w : Json} {rest : List Json} (hv : Reads v)
    (hrest : ReadsItems (w :: rest)) : ReadsItems (v :: w :: rest) := by
  rcases hv with ⟨bound, hbound⟩
  rcases hrest with ⟨bound', hbound'⟩
  rcases dumpsItems_head w rest with ⟨c, cs, hcs, hspace, _⟩
  refine enough_of_succ fun fuel (hfuel : fuel ≥ max bound bound') left => ?_
  have hv := hbound fuel (le_trans (le_max_left _ _) hfuel)
    (',' :: ' ' :: (dumpsItems (w :: rest) ++ left)) (delimited_cons (by simp) _)
  have hitems := hbound' fuel (le_trans (le_max_right _ _) hfuel) left
  have hskip : skipSpace (dumpsItems (w :: rest) ++ left) = dumpsItems (w :: rest) ++ left := by
    rw [hcs]
    exact skipSpace_of_not hspace _
  rw [dumpsItems_cons_cons, List.append_assoc, scanItems]
  exact scanList_next (by decide) hv hskip hitems

theorem scanMember_dumps {k : Str} {v : Json} {fuel : Nat} {rest : List Char} (hk : k.Unsplit)
    (hv : scanOnce fuel (dumps v ++ rest) = some (v, rest)) :
    scanMember (scanOnce fuel) (dumpsStr k ++ ':' :: ' ' :: (dumps v ++ rest)) =
      some ((k, v), rest) := by
  rcases dumps_head v with ⟨c, cs, hcs, hspace, _⟩
  have hcolon : skipSpace (':' :: ' ' :: (dumps v ++ rest)) = ':' :: ' ' :: (dumps v ++ rest) :=
    skipSpace_of_not (by decide) _
  have hskip : skipSpace (' ' :: (dumps v ++ rest)) = dumps v ++ rest := by
    rw [hcs]
    exact skipSpace_of_not hspace _
  have hkey := scanString_escape hk (':' :: ' ' :: (dumps v ++ rest))
  simp only [dumpsStr, List.cons_append, List.append_assoc, List.nil_append]
  rw [scanMember, hkey]
  simp only [Option.bind_eq_bind, Option.bind_some, hcolon, hskip, hv, Option.map_some]

theorem ReadsMembers.one {k : Str} {v : Json} (hk : k.Unsplit) (hv : Reads v) :
    ReadsMembers [(k, v)] := by
  rcases hv with ⟨bound, hbound⟩
  refine enough_of_succ fun fuel (hfuel : fuel ≥ bound) rest => ?_
  have hv := hbound fuel hfuel ('}' :: rest) (delimited_cons (by simp) _)
  have hmember := scanMember_dumps hk hv
  simp only [dumpsMembers, List.append_assoc, List.cons_append, List.nil_append]
  rw [scanMembers]
  exact scanList_last (by decide) hmember

theorem ReadsMembers.cons {k : Str} {v : Json} {m : Str × Json} {rest : List (Str × Json)}
    (hk : k.Unsplit) (hv : Reads v) (hrest : ReadsMembers (m :: rest)) :
    ReadsMembers ((k, v) :: m :: rest) := by
  rcases hv with ⟨bound, hbound⟩
  rcases hrest with ⟨bound', hbound'⟩
  rcases dumpsMembers_head m rest with ⟨cs, hcs⟩
  refine enough_of_succ fun fuel (hfuel : fuel ≥ max bound bound') left => ?_
  have hv := hbound fuel (le_trans (le_max_left _ _) hfuel)
    (',' :: ' ' :: (dumpsMembers (m :: rest) ++ left)) (delimited_cons (by simp) _)
  have hmembers := hbound' fuel (le_trans (le_max_right _ _) hfuel) left
  have hskip : skipSpace (dumpsMembers (m :: rest) ++ left) = dumpsMembers (m :: rest) ++ left := by
    rw [hcs]
    exact skipSpace_of_not (c := '"') (by decide) _
  rw [dumpsMembers_cons_cons]
  simp only [List.append_assoc, List.cons_append]
  rw [scanMembers]
  exact scanList_next (by decide) (scanMember_dumps hk hv) hskip hmembers

/-- Pairs with distinct keys are the members. -/
theorem ofPairs_of_nodup {pairs : List (Str × Json)} (h : (pairs.map Prod.fst).Nodup) :
    ofPairs pairs = obj pairs :=
  congrArg obj (Dict.entries_update_of_nodup (d := Dict.empty) h)

theorem reads_arr_nil : Reads (arr []) := by
  refine enough_of_succ fun fuel (_ : fuel ≥ 0) rest _ => ?_
  rfl

theorem reads_obj_nil : Reads (obj []) := by
  refine enough_of_succ fun fuel (_ : fuel ≥ 0) rest _ => ?_
  rfl

theorem ReadsItems.arr {v : Json} {rest : List Json} (h : ReadsItems (v :: rest)) :
    Reads (arr (v :: rest)) := by
  rcases h with ⟨bound, hbound⟩
  rcases dumpsItems_head v rest with ⟨c, cs, hcs, hspace, hbracket⟩
  refine enough_of_succ fun fuel (hfuel : fuel ≥ bound) left _ => ?_
  have hitems := hbound fuel hfuel left
  rw [hcs, List.cons_append] at hitems
  rw [dumps, List.cons_append, hcs, List.cons_append, scanOnce, if_neg (by decide), if_pos rfl,
    skipSpace_of_not hspace, scanUnlessClosed, if_neg hbracket, hitems]
  rfl

theorem ReadsMembers.obj {m : Str × Json} {rest : List (Str × Json)}
    (hnodup : ((m :: rest).map Prod.fst).Nodup) (h : ReadsMembers (m :: rest)) :
    Reads (obj (m :: rest)) := by
  rcases h with ⟨bound, hbound⟩
  rcases dumpsMembers_head m rest with ⟨cs, hcs⟩
  refine enough_of_succ fun fuel (hfuel : fuel ≥ bound) left _ => ?_
  have hmembers := hbound fuel hfuel left
  rw [hcs, List.cons_append] at hmembers
  rw [dumps, List.cons_append, hcs, List.cons_append, scanOnce, if_neg (by decide),
    if_neg (by decide), if_pos rfl, skipSpace_of_not (by decide), scanUnlessClosed,
    if_neg (by decide), hmembers, Option.map_some, ofPairs_of_nodup hnodup]

mutual

theorem reads : ∀ v : Json, v.Plain → Reads v
  | null, _ => atomic_null.reads
  | bool b, _ => (atomic_bool b).reads
  | int n, _ => (atomic_int n).reads
  | float x, _ => (atomic_float x).reads
  | nonFinite x, _ => (atomic_nonFinite x).reads
  | str s, h => reads_str (by simpa only [Plain] using h)
  | arr items, h => by
      have hitems := readsItems items (by simpa only [Plain] using h)
      cases items with
      | nil => exact reads_arr_nil
      | cons v rest => exact (hitems (by simp)).arr
  | obj members, h => by
      have h : (members.map Prod.fst).Nodup ∧ PlainMembers members := by simpa only [Plain] using h
      have hmembers := readsMembers members h.2
      cases members with
      | nil => exact reads_obj_nil
      | cons m rest => exact (hmembers (by simp)).obj h.1

theorem readsItems : ∀ items : List Json, PlainItems items → items ≠ [] → ReadsItems items
  | [], _, hne => absurd rfl hne
  | [v], h, _ => (reads v h.1).items
  | v :: w :: rest, h, _ => .cons (reads v h.1) (readsItems (w :: rest) h.2 (by simp))

theorem readsMembers :
    ∀ members : List (Str × Json), PlainMembers members → members ≠ [] → ReadsMembers members
  | [], _, hne => absurd rfl hne
  | [(_, v)], h, _ => .one h.1.1 (reads v h.1.2)
  | (_, v) :: m :: rest, h, _ => .cons h.1.1 (reads v h.1.2) (readsMembers (m :: rest) h.2 (by simp))

end

/-! ## The round trip -/

/-- The text of a plain value is read as the value. -/
theorem loads_dumps {v : Json} (h : v.Plain) : loads (dumps v) = some v := by
  rcases reads v h with ⟨bound, hbound⟩
  rcases dumps_head v with ⟨c, cs, hcs, hspace, _⟩
  have hskip : skipSpace (dumps v) = dumps v := by
    rw [hcs]
    exact skipSpace_of_not hspace cs
  -- The bound may be more than the fuel that `loads` has; the scanner reads the same with either.
  have hread := hbound (max bound (2 * (dumps v).length + 1)) (le_max_left _ _) []
    (fun c hc => by cases hc)
  rw [List.append_nil, scanOnce_of_le (le_max_right _ _)] at hread
  unfold loads
  rw [hskip, hread]
  rfl

end Json

end Support
