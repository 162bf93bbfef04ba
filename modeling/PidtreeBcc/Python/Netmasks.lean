import PidtreeBcc.Python.Inet

/-!
# Netmasks — a netmask as its value and as its prefix length

The value of a netmask comes from `inet_aton`, its prefix length from `ipaddress`.  The two fit together
just when the value consists of ones followed by zeros, and a mask of that form is the only kind whose
networks are given by the first bits of their addresses.
-/

namespace PidtreeBcc

/-- The value of the netmask consists of ones followed by zeros. -/
def PrefixMask (netmask : String) : Prop := ∃ m n, inetAton netmask = .ok m ∧ m.Contiguous n

/-! ## Numerals -/

section Numerals

/-- One digit of a number in base `base`. -/
def cDigitStep (base acc : Nat) (c : Char) : Option Nat :=
  match hexVal? c with
  | some d => if d < base then some (base * acc + d) else none
  | none => none

variable {c : Char} {cs : List Char}

theorem cDigits?_of_ne_nil (base : Nat) (h : cs ≠ []) :
    cDigits? base cs = cs.foldlM (cDigitStep base) 0 := by
  cases cs with
  | nil => exact absurd rfl h
  | cons c cs => rfl

theorem cDigitStep_of_isDigit (base acc : Nat) (h : c.isDigit = true) :
    cDigitStep base acc c =
      if c.toNat - '0'.toNat < base then some (base * acc + (c.toNat - '0'.toNat)) else none := by
  simp [cDigitStep, hexVal?, h]

theorem digit_lt_ten (h : c.isDigit = true) : c.toNat - '0'.toNat < 10 := by
  have hle : c.toNat ≤ '9'.toNat := (Char.isDigit_iff_toNat.1 h).2
  have hnine : '9'.toNat = 57 := rfl
  have hzero : '0'.toNat = 48 := rfl
  omega

theorem foldlM_cDigitStep_ten :
    ∀ {cs : List Char} (acc : Nat), (∀ c ∈ cs, c.isDigit = true) →
      cs.foldlM (cDigitStep 10) acc = some (Nat.ofDigitChars 10 cs acc)
  | [], acc, _ => rfl
  | c :: cs, acc, hd => by
      have hc := hd c (by simp)
      have ih := foldlM_cDigitStep_ten (10 * acc + (c.toNat - '0'.toNat))
        fun x hx => hd x (List.mem_cons_of_mem c hx)
      rw [List.foldlM_cons, cDigitStep_of_isDigit 10 acc hc, if_pos (digit_lt_ten hc),
        Nat.ofDigitChars_cons]
      exact ih

/-- Read in a smaller base, a numeral stands for no more than in base ten, and for zero only if it is
zero. -/
theorem foldlM_cDigitStep_le {base : Nat} (hpos : 0 < base) (hbase : base ≤ 10) :
    ∀ {cs : List Char} {acc acc' v : Nat}, (∀ c ∈ cs, c.isDigit = true) → acc ≤ acc' →
      (acc = 0 → acc' = 0) → cs.foldlM (cDigitStep base) acc = some v →
      v ≤ Nat.ofDigitChars 10 cs acc' ∧ (v = 0 → Nat.ofDigitChars 10 cs acc' = 0)
  | [], acc, acc', v, _, hle, hzero, h => by
      have hv : acc = v := by simpa using h
      subst hv
      exact ⟨hle, hzero⟩
  | c :: cs, acc, acc', v, hd, hle, hzero, h => by
      have hc := hd c (by simp)
      rw [List.foldlM_cons, cDigitStep_of_isDigit base acc hc] at h
      rw [Nat.ofDigitChars_cons]
      rcases Option.bind_eq_some_iff.1 h with ⟨next, hnext, hrest⟩
      have hEq : base * acc + (c.toNat - '0'.toNat) = next :=
        Option.some.inj (Option.ite_none_right_eq_some.1 hnext).2
      subst hEq
      refine foldlM_cDigitStep_le hpos hbase
        (fun x hx => hd x (List.mem_cons_of_mem c hx)) ?_ ?_ hrest
      · have hmul : base * acc ≤ 10 * acc' := Nat.mul_le_mul hbase hle
        omega
      · intro hsum
        have hacc : acc = 0 := by
          rcases Nat.mul_eq_zero.1 (by omega : base * acc = 0) with hzero' | hzero'
          · omega
          · exact hzero'
        have hacc' := hzero hacc
        omega

/-- A number of digits only, as C reads it, is at most its value in base ten. -/
theorem cNumber?_le (hne : cs ≠ []) (hd : ∀ c ∈ cs, c.isDigit = true) {v : Nat}
    (h : cNumber? cs = some v) :
    v ≤ Nat.ofDigitChars 10 cs 0 ∧ (v = 0 → Nat.ofDigitChars 10 cs 0 = 0) := by
  unfold cNumber? at h
  split at h
  · exact absurd (hd 'x' (by simp)) (by decide)
  · exact absurd (hd 'X' (by simp)) (by decide)
  · -- The leading zero makes the number octal.
    rename_i d ds
    rw [cDigits?_of_ne_nil 8 (by simp)] at h
    have hle := foldlM_cDigitStep_le (by omega) (by omega)
      (fun x hx => hd x (List.mem_cons_of_mem '0' hx)) (Nat.le_refl 0) (fun h => h) h
    simpa [Nat.ofDigitChars_cons] using hle
  · rw [cDigits?_of_ne_nil 10 hne, foldlM_cDigitStep_ten 0 hd] at h
    have hv : Nat.ofDigitChars 10 cs 0 = v := by simpa using h
    omega

/-- An octet that `ipaddress` accepts has the same value for C. -/
theorem cNumber?_of_parseOctet? {b : BitVec 8} (h : parseOctet? cs = some b) :
    cNumber? cs = some b.toNat ∧ cs ≠ [] ∧ ∀ c ∈ cs, c.isDigit = true := by
  unfold parseOctet? at h
  split at h
  · cases h
  · rename_i hcond
    push Not at hcond
    rcases hcond with ⟨hne, hdigits, _, hlead, hle⟩
    have hd : ∀ c ∈ cs, c.isDigit = true := by
      simpa [List.all_eq_true] using hdigits
    refine ⟨?_, hne, hd⟩
    have hten : cNumber? cs = cDigits? 10 cs := by
      unfold cNumber?
      split
      · exact absurd (hd 'x' (by simp)) (by decide)
      · exact absurd (hd 'X' (by simp)) (by decide)
      · exact absurd (hlead (by simp)) (by simp)
      · rfl
    have hb : BitVec.ofNat 8 (Nat.ofDigitChars 10 cs 0) = b := by simpa using h
    rw [hten, cDigits?_of_ne_nil 10 hne, foldlM_cDigitStep_ten 0 hd, ← hb, BitVec.toNat_ofNat,
      Nat.mod_eq_of_lt (by omega)]

end Numerals

/-! ## The two readings -/

section Readings

variable {netmask : String} {m : Ipv4} {k n : Nat}

theorem takeWhile_of_isDigit_or_dot {s : List Char} (h : ∀ c ∈ s, c.isDigit = true ∨ c = '.') :
    s.takeWhile (fun c => !isSpace c) = s := by
  rw [List.takeWhile_eq_self_iff]
  intro c hc
  rcases h c hc with hd | rfl
  · by_contra hs
    have hs' : isSpace c = true := by simpa using hs
    simp only [isSpace, Bool.or_eq_true, decide_eq_true_eq] at hs'
    rcases hs' with ((((rfl | rfl) | rfl) | rfl) | rfl) | rfl <;> simp at hd
  · decide

/-- A prefix length in digits is a small number for C, which is no mask unless it is zero. -/
theorem prefixlen_of_digits (hdigits : prefixFromPrefixString? netmask.toList = some k)
    (haton : inetAton netmask = .ok m) (hmask : m.Contiguous n) : k = n := by
  unfold prefixFromPrefixString? at hdigits
  rcases Option.ite_none_right_eq_some.1 hdigits with ⟨⟨hne, hall, hle⟩, hk⟩
  have hd : ∀ c ∈ netmask.toList, c.isDigit = true := by simpa [List.all_eq_true] using hall
  have hdot : netmask.toList.splitOn '.' = [netmask.toList] := by
    refine List.splitOnP_eq_singleton ?_
    intro c hc
    have hcd := hd c hc
    by_contra hEq
    have hEq' : c = '.' := by simpa using hEq
    simp [hEq'] at hcd
  unfold inetAton at haton
  rw [takeWhile_of_isDigit_or_dot fun c hc => Or.inl (hd c hc), hdot] at haton
  cases hnumber : cNumber? netmask.toList with
  | none => simp [hnumber] at haton
  | some v =>
      rcases cNumber?_le hne hd hnumber with ⟨hv, hzero⟩
      have hsmall : v < 33 := by omega
      have hm : packL .big (BitVec.ofNat 32 v) = m := by
        simpa [hnumber, atonParts?, (by omega : v < 4294967296)] using haton
      have hnone : ∀ v : Fin 33, ∀ n : Fin 33,
          (packL .big (BitVec.ofNat 32 v)).Contiguous n → v.val = 0 ∧ n.val = 0 := by
        decide +kernel
      rw [← hm] at hmask
      have hboth := hnone ⟨v, hsmall⟩ ⟨n, Nat.lt_succ_of_le hmask.1⟩ hmask
      have hkzero := hzero hboth.1
      have hnzero : n = 0 := hboth.2
      have hkEq : Nat.ofDigitChars 10 netmask.toList 0 = k := by simpa using hk
      omega

theorem mapM_cNumber? : ∀ {parts : List (List Char)} {octets : List (BitVec 8)},
    parts.mapM parseOctet? = some octets →
      parts.mapM cNumber? = some (octets.map BitVec.toNat) ∧ parts.length = octets.length ∧
        ∀ p ∈ parts, ∀ c ∈ p, c.isDigit = true
  | [], octets, h => by
      have hnil : [] = octets := by simpa using h
      subst hnil
      exact ⟨rfl, rfl, by simp⟩
  | p :: parts, octets, h => by
      rw [List.mapM_cons] at h
      rcases Option.bind_eq_some_iff.1 h with ⟨b, hb, hrest⟩
      rcases Option.bind_eq_some_iff.1 hrest with ⟨bs, hbs, hEq⟩
      cases hEq
      rcases mapM_cNumber? hbs with ⟨hnumbers, hlength, hdigits⟩
      rcases cNumber?_of_parseOctet? hb with ⟨hnumber, _, hd⟩
      refine ⟨?_, by simp [hlength], ?_⟩
      · rw [List.mapM_cons, hnumber, hnumbers]
        rfl
      · intro q hq
        rcases List.mem_cons.1 hq with rfl | hq
        · exact hd
        · exact hdigits q hq

/-- A dotted quad that `ipaddress` accepts has the same bytes for C. -/
theorem inetAton_of_ipIntFromString? (h : ipIntFromString? netmask.toList = some m) :
    inetAton netmask = .ok m := by
  unfold ipIntFromString? at h
  split at h
  · rename_i b0 b1 b2 b3 hparts
    cases h
    rcases mapM_cNumber? hparts with ⟨hnumbers, hlength, hdigits⟩
    have hjoin : ['.'].intercalate (netmask.toList.splitOn '.') = netmask.toList :=
      List.intercalate_splitOn '.'
    have hchars : ∀ c ∈ netmask.toList, c.isDigit = true ∨ c = '.' := by
      rcases List.length_eq_four.1 hlength with ⟨p0, p1, p2, p3, hfour⟩
      rw [hfour] at hdigits hjoin
      intro c hc
      rw [← hjoin] at hc
      simp only [List.intercalate, List.intersperse, List.flatten_cons, List.flatten_nil,
        List.mem_append, List.mem_singleton, List.append_nil] at hc
      rcases hc with hc | hc | hc | hc | hc | hc | hc
      all_goals first
        | exact Or.inr hc
        | exact Or.inl (hdigits _ (by simp) c hc)
    have hvalue : atonParts? [b0.toNat, b1.toNat, b2.toNat, b3.toNat] =
        some (unpackL .big ⟨b0, b1, b2, b3⟩).toNat := by
      simp [atonParts?, toNat_unpackL_big, b0.isLt, b1.isLt, b2.isLt, b3.isLt]
    simp only [List.map_cons, List.map_nil] at hnumbers
    simp [inetAton, takeWhile_of_isDigit_or_dot hchars, hnumbers, hvalue]
  · cases h

/-- The prefix length of a netmask whose value consists of ones followed by zeros. -/
theorem prefixlen_of_contiguous (hlen : ipNetworkPrefixlen netmask = .ok k)
    (haton : inetAton netmask = .ok m) (hmask : m.Contiguous n) : k = n := by
  unfold ipNetworkPrefixlen at hlen
  cases hdigits : prefixFromPrefixString? netmask.toList with
  | some k' =>
      rw [hdigits] at hlen
      cases hlen
      exact prefixlen_of_digits hdigits haton hmask
  | none =>
      rw [hdigits] at hlen
      unfold prefixFromIpString? at hlen
      cases hquad : ipIntFromString? netmask.toList with
      | none => simp [hquad] at hlen
      | some m' =>
          have hm : m' = m := by
            rw [inetAton_of_ipIntFromString? hquad] at haton
            exact Except.ok.inj haton
          have hones : contiguousLen? m'.bits = some n := by
            rw [hm]
            exact hmask.contiguousLen?
          simpa [hquad, hones, eq_comm] using hlen

end Readings

/-! ## Masks and prefixes -/

section Words

variable {m w : List Bool} {k : Nat}

theorem zipWith_and_set_eq_iff (hm : m.length = w.length) {i : Nat} (hi : i < w.length) :
    List.zipWith (· && ·) (w.set i (!w[i])) m = List.zipWith (· && ·) w m ↔
      m[i]? = some false := by
  constructor
  · intro hEq
    have hbit := congrArg (fun l : List Bool => l[i]?) hEq
    have him : i < m.length := hm ▸ hi
    simp only [List.getElem?_zipWith, List.getElem?_set_self hi, List.getElem?_eq_getElem hi,
      List.getElem?_eq_getElem him, Option.some.injEq] at hbit
    cases hw : w[i] <;> simp_all
  · intro hclear
    rw [List.getElem?_eq_getElem (hm ▸ hi), Option.some.injEq] at hclear
    refine List.ext_getElem (by simp) ?_
    intro j hj _
    rw [List.getElem_zipWith, List.getElem_zipWith]
    by_cases hij : i = j
    · subst hij
      simp [hclear]
    · rw [List.getElem_set_ne hij]

theorem take_set_eq_iff {i : Nat} (hi : i < w.length) :
    (w.set i (!w[i])).take k = w.take k ↔ k ≤ i := by
  constructor
  · intro hEq
    by_contra hik
    have hbit := congrArg (fun l : List Bool => l[i]?) hEq
    simp only [List.getElem?_take_of_lt (Nat.lt_of_not_le hik), List.getElem?_set_self hi,
      List.getElem?_eq_getElem hi, Option.some.injEq] at hbit
    cases hw : w[i] <;> simp_all
  · intro hik
    exact List.take_set_of_le hik

/-- If the words that agree with `w` under a mask are those that agree with it on the first `k` bits,
the mask consists of `k` ones followed by zeros. -/
theorem eq_replicate_of_mask (hm : m.length = w.length) (hk : k ≤ w.length)
    (h : ∀ v : List Bool, v.length = w.length →
      (List.zipWith (· && ·) v m = List.zipWith (· && ·) w m ↔ v.take k = w.take k)) :
    m = List.replicate k true ++ List.replicate (w.length - k) false := by
  refine List.ext_getElem (by simp [hm, hk]) ?_
  intro i hi _
  have hiw : i < w.length := hm ▸ hi
  -- Flip bit number `i` alone.
  have hflip := h (w.set i (!w[i])) (by simp)
  rw [zipWith_and_set_eq_iff hm hiw, take_set_eq_iff hiw, List.getElem?_eq_getElem hi,
    Option.some.injEq] at hflip
  rw [List.getElem_append]
  by_cases hik : i < k
  · have hset : m[i] = true := by simpa using (not_congr hflip).2 (Nat.not_le.2 hik)
    simpa [hik] using hset
  · simpa [hik] using hflip.2 (Nat.le_of_not_lt hik)

end Words

theorem exists_byteBits {l : List Bool} (h : l.length = 8) : ∃ b, byteBits b = l := by
  obtain ⟨b0, b1, b2, b3, b4, b5, b6, b7, rfl⟩ :
      ∃ b0 b1 b2 b3 b4 b5 b6 b7, l = [b0, b1, b2, b3, b4, b5, b6, b7] := by
    match l, h with
    | [b0, b1, b2, b3, b4, b5, b6, b7], _ => exact ⟨b0, b1, b2, b3, b4, b5, b6, b7, rfl⟩
  have hbit : ∀ i, (BitVec.ofBoolListBE [b0, b1, b2, b3, b4, b5, b6, b7]).getMsbD i =
      [b0, b1, b2, b3, b4, b5, b6, b7].getD i false := by
    intro i
    exact BitVec.getMsbD_ofBoolListBE
  refine ⟨BitVec.ofBoolListBE [b0, b1, b2, b3, b4, b5, b6, b7], ?_⟩
  unfold byteBits
  rw [hbit 0, hbit 1, hbit 2, hbit 3, hbit 4, hbit 5, hbit 6, hbit 7]
  rfl

namespace Ipv4

theorem exists_bits {l : List Bool} (h : l.length = 32) : ∃ a : Ipv4, a.bits = l := by
  rcases exists_byteBits (l := l.take 8) (by simp [h]) with ⟨b0, h0⟩
  rcases exists_byteBits (l := (l.drop 8).take 8) (by simp [h]) with ⟨b1, h1⟩
  rcases exists_byteBits (l := ((l.drop 8).drop 8).take 8) (by simp [h]) with ⟨b2, h2⟩
  rcases exists_byteBits (l := ((l.drop 8).drop 8).drop 8) (by simp [h]) with ⟨b3, h3⟩
  refine ⟨⟨b0, b1, b2, b3⟩, ?_⟩
  simp only [bits, h0, h1, h2, h3, List.append_assoc, List.take_append_drop]

theorem Contiguous.unique {m : Ipv4} {n n' : Nat} (h : m.Contiguous n) (h' : m.Contiguous n') :
    n = n' := by
  have hlen := h.contiguousLen?
  rw [h'.contiguousLen?] at hlen
  exact (Option.some.inj hlen).symm

/-- If the network of an address is given by its first bits, the mask consists of that many ones
followed by zeros. -/
theorem contiguous_of_prefix {m : Ipv4} (network : Ipv4) {k : Nat} (hk : k ≤ 32)
    (h : ∀ a : Ipv4, a.and m = network.and m ↔ a.bits.take k = network.bits.take k) :
    m.Contiguous k := by
  refine ⟨hk, ?_⟩
  have hmask := eq_replicate_of_mask (m := m.bits) (w := network.bits) (k := k) (by simp)
    (by simpa using hk) ?_
  · simpa using hmask
  · intro v hv
    rcases exists_bits (by simpa using hv) with ⟨a, rfl⟩
    rw [← h a, ← bits_and, ← bits_and, bits_injective.eq_iff]

end Ipv4

end PidtreeBcc
