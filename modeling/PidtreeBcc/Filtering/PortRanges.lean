import PidtreeBcc.Filtering.PortMap

/-!
# PortRanges — one range string, two decoders

The global port filters go through `port_range_mapper`, the port lists of a network filter through
`CPortRange`.  The first clamps and builds a half-open range, the second stores both bounds in 16 bits and
compares inclusively.
-/

namespace PidtreeBcc

/-- The range string `a-b`. -/
def rangeString (a b : Nat) : String :=
  String.ofList (Nat.toDigits 10 a ++ '-' :: Nat.toDigits 10 b)

/-- The decoder of the global lists takes the string for the closed interval. -/
def MapperExact (a b : Nat) : Prop :=
  ∃ ports, portRangeMapper (rangeString a b).toList = .ok ports ∧
    ∀ port : BitVec 16, port ≠ 0 →
      ((port.toNat : Int) ∈ ports ↔ a ≤ port.toNat ∧ port.toNat ≤ b)

/-- The decoder of the network filters takes the string for the closed interval. -/
def RangeExact (a b : Nat) : Prop :=
  ∃ r, CPortRange.fromConfValue (.str (rangeString a b)) = .ok r ∧
    ∀ port : BitVec 16, port ≠ 0 → (r.matches port = true ↔ a ≤ port.toNat ∧ port.toNat ≤ b)

section Bounds

variable {a b : Nat}

theorem forall_port_iff {P : Nat → Prop} :
    (∀ port : BitVec 16, port ≠ 0 → P port.toNat) ↔ ∀ p, 1 ≤ p → p ≤ 65535 → P p := by
  constructor
  · intro h p hp₁ hp₂
    have hport : (BitVec.ofNat 16 p).toNat = p := Nat.mod_eq_of_lt (by omega)
    have hne : BitVec.ofNat 16 p ≠ 0 := by
      intro hEq
      rw [hEq] at hport
      exact absurd hport (by simpa using by omega)
    have hP := h _ hne
    rwa [hport] at hP
  · intro h port hne
    refine h port.toNat ?_ (by omega)
    refine Nat.pos_of_ne_zero ?_
    intro hzero
    exact hne (BitVec.eq_of_toNat_eq hzero)

theorem portRangeMapper_rangeString :
    portRangeMapper (rangeString a b).toList =
      .ok (pyRange (max 1 (a : Int)) (min 65535 ((b : Int) + 1))) := by
  simp [portRangeMapper, rangeString, splitRange_toDigits, Except.map]

theorem fromConfValue_rangeString :
    CPortRange.fromConfValue (.str (rangeString a b)) =
      .ok ⟨BitVec.ofNat 16 a, BitVec.ofNat 16 b⟩ := by
  simp [CPortRange.fromConfValue, PortSpec.bounds, rangeString, splitRange_toDigits, Except.map]

/-- The half-open range stops before 65535, whatever the upper bound is. -/
theorem mapperExact_iff : MapperExact a b ↔ 65535 < a ∨ b < 65535 := by
  unfold MapperExact
  simp only [portRangeMapper_rangeString, Except.ok.injEq, exists_eq_left', mem_pyRange]
  rw [forall_port_iff (P := fun p => max 1 (a : Int) ≤ p ∧ (p : Int) < min 65535 ((b : Int) + 1) ↔
    a ≤ p ∧ p ≤ b)]
  constructor
  · intro h
    have hlast := h 65535 (by omega) (by omega)
    omega
  · intro h p hp₁ hp₂
    omega

/-- A bound above 65535 wraps around. -/
theorem rangeExact_iff :
    RangeExact a b ↔ (a ≤ 65535 ∧ (b ≤ 65535 ∨ b % 65536 = 65535)) ∨
      (65535 < a ∧ b % 65536 < max 1 (a % 65536)) := by
  unfold RangeExact
  simp only [fromConfValue_rangeString, Except.ok.injEq, exists_eq_left', CPortRange.matches,
    BitVec.le_def, BitVec.toNat_ofNat, Bool.and_eq_true, decide_eq_true_eq]
  rw [forall_port_iff (P := fun p => a % 2 ^ 16 ≤ p ∧ p ≤ b % 2 ^ 16 ↔ a ≤ p ∧ p ≤ b)]
  constructor
  · intro h
    rcases Nat.lt_or_ge 65535 a with ha | ha
    · -- No port is in the interval, so the least one that the stored bounds allow is none.
      have hleast := h (max 1 (a % 65536)) (by omega) (by omega)
      omega
    · have hlast := h 65535 (by omega) (by omega)
      omega
  · intro h p hp₁ hp₂
    omega

end Bounds

/-- Both decoders take the string `a-b` for the closed interval from `a` to `b`. -/
def DecodersAgree (a b : Nat) : Prop :=
  ∃ ports r, portRangeMapper (rangeString a b).toList = .ok ports ∧
    CPortRange.fromConfValue (.str (rangeString a b)) = .ok r ∧
    ∀ port : BitVec 16, port ≠ 0 →
      ((port.toNat : Int) ∈ ports ↔ r.matches port = true) ∧
        (r.matches port = true ↔ a ≤ port.toNat ∧ port.toNat ≤ b)

theorem decodersAgree_iff_exact {a b : Nat} : DecodersAgree a b ↔ MapperExact a b ∧ RangeExact a b := by
  constructor
  · rintro ⟨ports, r, hports, hr, hagree⟩
    refine ⟨⟨ports, hports, ?_⟩, r, hr, fun port hport => (hagree port hport).2⟩
    exact fun port hport => (hagree port hport).1.trans (hagree port hport).2
  · rintro ⟨⟨ports, hports, hmapper⟩, r, hr, hrange⟩
    refine ⟨ports, r, hports, hr, ?_⟩
    exact fun port hport =>
      ⟨(hmapper port hport).trans (hrange port hport).symm, hrange port hport⟩

/-- The decoders agree on the interval just when it ends below 65535, or when it starts beyond the last
port and its bounds do not wrap around to an interval. -/
theorem decoders_agree_iff (a b : Nat) :
    DecodersAgree a b ↔
      (a ≤ 65535 ∧ b < 65535) ∨ (65535 < a ∧ b % 65536 < max 1 (a % 65536)) := by
  rw [decodersAgree_iff_exact, mapperExact_iff, rangeExact_iff]
  omega

/-- Port 65535 is in `60000-65535` for a network filter, and not for the global filters. -/
theorem last_port_disagrees :
    portRangeMapper (rangeString 60000 65535).toList = .ok (pyRange 60000 65535) ∧
      CPortRange.fromConfValue (.str (rangeString 60000 65535)) = .ok ⟨60000, 65535⟩ ∧
      (65535 : Int) ∉ pyRange 60000 65535 ∧
      (⟨60000, 65535⟩ : CPortRange).matches 65535 = true ∧ ¬ DecodersAgree 60000 65535 := by
  refine ⟨?_, ?_, by simp [mem_pyRange], by decide, ?_⟩
  · simpa using portRangeMapper_rangeString (a := 60000) (b := 65535)
  · simpa using fromConfValue_rangeString (a := 60000) (b := 65535)
  · intro hagree
    have hmapper := mapperExact_iff.1 (decodersAgree_iff_exact.1 hagree).1
    omega

end PidtreeBcc
