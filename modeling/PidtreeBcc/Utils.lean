import PidtreeBcc.Python.Inet

/-!
# Utils — the pure helpers of `utils.py`
-/

namespace PidtreeBcc

/-- `ip_to_int`: the integer encoding is that of the host. -/
def ipToInt (e : Endian) (network : String) : Except PyErr (BitVec 32) :=
  (inetAton network).map (unpackL e)

/-- `int_to_ip`, which always packs little-endian. -/
def intToIp (encodedIp : BitVec 32) : String := inetNtoa (packL .little encodedIp)

def netmaskToPrefixlen (netmask : String) : Except PyErr Nat := ipNetworkPrefixlen netmask

def roundNearestMultiple (value factor headroom : Nat) : Nat :=
  factor * ((value + headroom) / factor + 1)

theorem ipToInt_eq_ok {e : Endian} {s : String} {n : BitVec 32} :
    ipToInt e s = .ok n ↔ ∃ a, inetAton s = .ok a ∧ unpackL e a = n := map_eq_ok

theorem intToIp_injective : Function.Injective intToIp := by
  intro a b h
  have hpack : packL .little a = packL .little b := inetNtoa_injective h
  simpa using congrArg (unpackL .little) hpack

/-- The rounded value exceeds the input by at least the headroom. -/
theorem lt_roundNearestMultiple {factor : Nat} (hf : 0 < factor) (value headroom : Nat) :
    value + headroom < roundNearestMultiple value factor headroom := by
  have hdiv := Nat.lt_mul_div_succ (value + headroom) hf
  simpa [roundNearestMultiple] using hdiv

example : ipToInt .little "127.0.0.1" = .ok 16777343 := by decide

example : roundNearestMultiple 27 10 4 = 40 := by decide

end PidtreeBcc
