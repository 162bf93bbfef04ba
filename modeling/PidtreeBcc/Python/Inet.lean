import Mathlib.Data.BitVec
import Mathlib.Data.List.TakeWhile
import PidtreeBcc.Python.Builtins

/-!
# Inet — IPv4 addresses as Python's standard library sees them

An address is its four bytes in network order.  `struct` turns them into an unsigned 32-bit integer
and back, in the byte order of the host (`'=L'`) or in a fixed one (`'<L'`), so that order is an
argument of the functions below.

`inetAton` and `ipNetworkPrefixlen` follow `inet(3)` and the `ipaddress` module on strings.
-/

namespace PidtreeBcc

/-! ## Bytes and words -/

/-- An IPv4 address, byte by byte in network order. -/
structure Ipv4 where
  (b0 b1 b2 b3 : BitVec 8)
  deriving DecidableEq, Repr

inductive Endian
  | little
  | big
  deriving DecidableEq, Repr

/-- `struct.unpack` of an unsigned 32-bit integer from four bytes. -/
def unpackL : Endian → Ipv4 → BitVec 32
  | .little, a => a.b3 ++ a.b2 ++ a.b1 ++ a.b0
  | .big, a => a.b0 ++ a.b1 ++ a.b2 ++ a.b3

/-- `struct.pack`, the four bytes of an unsigned 32-bit integer as they lie in memory. -/
def packL : Endian → BitVec 32 → Ipv4
  | .little, n => ⟨n.extractLsb' 0 8, n.extractLsb' 8 8, n.extractLsb' 16 8, n.extractLsb' 24 8⟩
  | .big, n => ⟨n.extractLsb' 24 8, n.extractLsb' 16 8, n.extractLsb' 8 8, n.extractLsb' 0 8⟩

/-- A 16-bit number in network order, read on the host. -/
def ntohs : Endian → BitVec 16 → BitVec 16
  | .little, n => n.extractLsb' 0 8 ++ n.extractLsb' 8 8
  | .big, n => n

namespace Ipv4

/-- Bitwise conjunction, byte by byte. -/
def and (a m : Ipv4) : Ipv4 := ⟨a.b0 &&& m.b0, a.b1 &&& m.b1, a.b2 &&& m.b2, a.b3 &&& m.b3⟩

end Ipv4

/-- Bits of a byte, most significant first. -/
def byteBits (b : BitVec 8) : List Bool :=
  [b.getMsbD 0, b.getMsbD 1, b.getMsbD 2, b.getMsbD 3,
    b.getMsbD 4, b.getMsbD 5, b.getMsbD 6, b.getMsbD 7]

/-- The 32 bits of an address, first bit of the first byte first. -/
def Ipv4.bits (a : Ipv4) : List Bool :=
  byteBits a.b0 ++ byteBits a.b1 ++ byteBits a.b2 ++ byteBits a.b3

@[simp] theorem length_byteBits (b : BitVec 8) : (byteBits b).length = 8 := rfl

@[simp] theorem Ipv4.length_bits (a : Ipv4) : a.bits.length = 32 := rfl

@[simp] theorem packL_unpackL (e : Endian) (a : Ipv4) : packL e (unpackL e a) = a := by
  obtain ⟨b0, b1, b2, b3⟩ := a
  cases e <;> simp only [packL, unpackL, Ipv4.mk.injEq] <;> refine ⟨?_, ?_, ?_, ?_⟩ <;>
    -- Each byte is compared bit by bit.
    (apply BitVec.eq_of_getLsbD_eq
     intro i hi
     grind)

@[simp] theorem unpackL_packL (e : Endian) (n : BitVec 32) : unpackL e (packL e n) = n := by
  cases e <;>
    (apply BitVec.eq_of_getLsbD_eq
     intro i hi
     simp only [packL, unpackL, BitVec.getLsbD_append, BitVec.getLsbD_extractLsb']
     grind)

theorem unpackL_injective (e : Endian) : Function.Injective (unpackL e) := by
  intro a b h
  simpa using congrArg (packL e) h

/-- Masking commutes with the choice of a byte order. -/
theorem unpackL_and (e : Endian) (a m : Ipv4) :
    unpackL e (a.and m) = unpackL e a &&& unpackL e m := by
  cases e <;>
    (apply BitVec.eq_of_getLsbD_eq
     intro i hi
     simp only [unpackL, Ipv4.and, BitVec.getLsbD_append, BitVec.getLsbD_and]
     grind)

theorem byteBits_and (x y : BitVec 8) :
    byteBits (x &&& y) = List.zipWith (· && ·) (byteBits x) (byteBits y) := by
  simp [byteBits]

theorem byteBits_injective : Function.Injective byteBits := by
  intro x y h
  apply BitVec.eq_of_getMsbD_eq
  intro i hi
  simp only [byteBits, List.cons.injEq] at h
  have hcases : i = 0 ∨ i = 1 ∨ i = 2 ∨ i = 3 ∨ i = 4 ∨ i = 5 ∨ i = 6 ∨ i = 7 := by omega
  rcases hcases with rfl | rfl | rfl | rfl | rfl | rfl | rfl | rfl <;> simp [h]

namespace Ipv4

theorem bits_and (a m : Ipv4) : (a.and m).bits = List.zipWith (· && ·) a.bits m.bits := by
  simp only [bits, and, byteBits_and]
  rfl

theorem bits_injective : Function.Injective bits := by
  rintro ⟨a0, a1, a2, a3⟩ ⟨b0, b1, b2, b3⟩ h
  simp only [bits] at h
  have h3 := List.append_inj' h (by simp)
  have h2 := List.append_inj' h3.1 (by simp)
  have h1 := List.append_inj' h2.1 (by simp)
  rw [byteBits_injective h1.1, byteBits_injective h1.2, byteBits_injective h2.2,
    byteBits_injective h3.2]

end Ipv4

/-! ## Dotted quads -/

/-- Characters of the decimal dotted-quad notation of an address. -/
def dottedChars (a : Ipv4) : List Char :=
  ['.'].intercalate
    [Nat.toDigits 10 a.b0.toNat, Nat.toDigits 10 a.b1.toNat,
      Nat.toDigits 10 a.b2.toNat, Nat.toDigits 10 a.b3.toNat]

/-- `socket.inet_ntoa`. -/
def inetNtoa (a : Ipv4) : String := String.ofList (dottedChars a)

theorem not_dot_mem_toDigits (n : Nat) : '.' ∉ Nat.toDigits 10 n := by
  intro h
  have := Nat.isDigit_of_mem_toDigits (by decide) (by decide) h
  simp at this

theorem splitOn_dottedChars (a : Ipv4) :
    (dottedChars a).splitOn '.' =
      [Nat.toDigits 10 a.b0.toNat, Nat.toDigits 10 a.b1.toNat,
        Nat.toDigits 10 a.b2.toNat, Nat.toDigits 10 a.b3.toNat] := by
  refine List.splitOn_intercalate '.' ?_ (by simp)
  intro l hl
  simp only [List.mem_cons, List.not_mem_nil, or_false] at hl
  rcases hl with rfl | rfl | rfl | rfl <;> exact not_dot_mem_toDigits _

/-! ## `inet_aton` -/

def hexVal? (c : Char) : Option Nat :=
  if c.isDigit then some (c.toNat - '0'.toNat)
  else if 'a' ≤ c ∧ c ≤ 'f' then some (c.toNat - 'a'.toNat + 10)
  else if 'A' ≤ c ∧ c ≤ 'F' then some (c.toNat - 'A'.toNat + 10)
  else none

/-- Digits of a number in base `base`, at least one of them. -/
def cDigits? (base : Nat) : List Char → Option Nat
  | [] => none
  | cs => cs.foldlM (fun acc c =>
      match hexVal? c with
      | some d => if d < base then some (base * acc + d) else none
      | none => none) 0

/-- A part of an address as C reads a number: `0x` is hexadecimal, a leading `0` octal. -/
def cNumber? : List Char → Option Nat
  | '0' :: 'x' :: ds => cDigits? 16 ds
  | '0' :: 'X' :: ds => cDigits? 16 ds
  | '0' :: d :: ds => cDigits? 8 (d :: ds)
  | ds => cDigits? 10 ds

/-- The value of one to four parts: the last one fills the bytes that are left. -/
def atonParts? : List Nat → Option Nat
  | [a] => if a < 2 ^ 32 then some a else none
  | [a, b] => if a < 2 ^ 8 ∧ b < 2 ^ 24 then some (a * 2 ^ 24 + b) else none
  | [a, b, c] =>
      if a < 2 ^ 8 ∧ b < 2 ^ 8 ∧ c < 2 ^ 16 then some (a * 2 ^ 24 + b * 2 ^ 16 + c) else none
  | [a, b, c, d] =>
      if a < 2 ^ 8 ∧ b < 2 ^ 8 ∧ c < 2 ^ 8 ∧ d < 2 ^ 8 then
        some (a * 2 ^ 24 + b * 2 ^ 16 + c * 2 ^ 8 + d)
      else none
  | _ => none

/-- `socket.inet_aton`: what follows the first white space is ignored. -/
def inetAton (s : String) : Except PyErr Ipv4 :=
  match ((s.toList.takeWhile (fun c => !isSpace c)).splitOn '.').mapM cNumber? with
  | none => .error (.builtin .OSError)
  | some parts =>
      match atonParts? parts with
      | none => .error (.builtin .OSError)
      | some n => .ok (packL .big (BitVec.ofNat 32 n))

/-! ## Netmasks -/

/-- The number of leading ones of a word of ones followed by zeros. -/
def contiguousLen? (bits : List Bool) : Option Nat :=
  let n := (bits.takeWhile id).length
  if bits = List.replicate n true ++ List.replicate (bits.length - n) false then some n else none

/-- `_prefix_from_prefix_string`: a prefix length in ASCII digits. -/
def prefixFromPrefixString? (s : List Char) : Option Nat :=
  if s ≠ [] ∧ s.all Char.isDigit = true ∧ Nat.ofDigitChars 10 s 0 ≤ 32 then
    some (Nat.ofDigitChars 10 s 0)
  else none

/-- `_parse_octet`: decimal, at most three digits, no leading zero. -/
def parseOctet? (s : List Char) : Option (BitVec 8) :=
  if s = [] ∨ s.all Char.isDigit = false ∨ 3 < s.length ∨ (s ≠ ['0'] ∧ s.head? = some '0') ∨
      255 < Nat.ofDigitChars 10 s 0 then none
  else some (BitVec.ofNat 8 (Nat.ofDigitChars 10 s 0))

/-- `_ip_int_from_string`. -/
def ipIntFromString? (s : List Char) : Option Ipv4 :=
  match (s.splitOn '.').mapM parseOctet? with
  | some [b0, b1, b2, b3] => some ⟨b0, b1, b2, b3⟩
  | _ => none

/-- `_prefix_from_ip_string`: a netmask, or else a host mask (zeros followed by ones). -/
def prefixFromIpString? (s : List Char) : Option Nat :=
  match ipIntFromString? s with
  | none => none
  | some m =>
      match contiguousLen? m.bits with
      | some n => some n
      | none => contiguousLen? (m.bits.map not)

/-- `ipaddress.ip_network('0.0.0.0/{}'.format(netmask)).prefixlen`. -/
def ipNetworkPrefixlen (netmask : String) : Except PyErr Nat :=
  match prefixFromPrefixString? netmask.toList with
  | some n => .ok n
  | none =>
      match prefixFromIpString? netmask.toList with
      | some n => .ok n
      | none => .error (.builtin .ValueError)

/-- `n` ones followed by zeros. -/
def Ipv4.Contiguous (m : Ipv4) (n : Nat) : Prop :=
  n ≤ 32 ∧ m.bits = List.replicate n true ++ List.replicate (32 - n) false

instance (m : Ipv4) (n : Nat) : Decidable (m.Contiguous n) :=
  inferInstanceAs (Decidable (_ ∧ _))

theorem takeWhile_replicate_append (n k : Nat) :
    (List.replicate n true ++ List.replicate k false).takeWhile id = List.replicate n true := by
  induction n with
  | zero => cases k <;> simp [List.replicate_succ]
  | succ n ih => simp [List.replicate_succ, ih]

theorem contiguousLen?_eq_some_iff {bits : List Bool} {n : Nat} (hn : n ≤ bits.length) :
    contiguousLen? bits = some n ↔
      bits = List.replicate n true ++ List.replicate (bits.length - n) false := by
  constructor
  · intro h
    simp only [contiguousLen?] at h
    split at h
    · rename_i hbits
      cases h
      exact hbits
    · cases h
  · intro h
    have hlen : (bits.takeWhile id).length = n := by
      rw [h, takeWhile_replicate_append, List.length_replicate]
    simp only [contiguousLen?, hlen]
    simpa using h

/-! ## Round trips -/

theorem cNumber?_toDigits (b : BitVec 8) : cNumber? (Nat.toDigits 10 b.toNat) = some b.toNat := by
  have hall : ∀ n : Fin 256, cNumber? (Nat.toDigits 10 n) = some n.val := by
    decide +kernel
  exact hall ⟨b.toNat, b.isLt⟩

theorem parseOctet?_toDigits (b : BitVec 8) : parseOctet? (Nat.toDigits 10 b.toNat) = some b := by
  have hall : ∀ n : Fin 256, parseOctet? (Nat.toDigits 10 n) = some (BitVec.ofNat 8 n) := by
    decide +kernel
  simpa using hall ⟨b.toNat, b.isLt⟩

theorem isSpace_of_mem_dottedChars {a : Ipv4} {c : Char} (h : c ∈ dottedChars a) :
    isSpace c = false := by
  have hcases : c.isDigit = true ∨ c = '.' := by
    simp only [dottedChars, List.intercalate, List.intersperse, List.flatten_cons,
      List.flatten_nil, List.mem_append, List.mem_singleton, List.append_nil] at h
    rcases h with h | h | h | h | h | h | h
    all_goals first
      | exact Or.inl (Nat.isDigit_of_mem_toDigits (by decide) (by decide) h)
      | exact Or.inr h
  rcases hcases with hd | rfl
  · by_contra hs
    have hs' : isSpace c = true := by simpa using hs
    simp only [isSpace, Bool.or_eq_true, decide_eq_true_eq] at hs'
    rcases hs' with ((((rfl | rfl) | rfl) | rfl) | rfl) | rfl <;> simp at hd
  · decide

theorem takeWhile_dottedChars (a : Ipv4) :
    (dottedChars a).takeWhile (fun c => !isSpace c) = dottedChars a := by
  rw [List.takeWhile_eq_self_iff]
  intro c hc
  simp [isSpace_of_mem_dottedChars hc]

theorem toNat_unpackL_big (a : Ipv4) :
    (unpackL .big a).toNat =
      a.b0.toNat * 2 ^ 24 + a.b1.toNat * 2 ^ 16 + a.b2.toNat * 2 ^ 8 + a.b3.toNat := by
  have or_eq : ∀ (x : Nat) (y : BitVec 8), x <<< 8 ||| y.toNat = x * 2 ^ 8 + y.toNat := by
    intro x y
    rw [← Nat.shiftLeft_add_eq_or_of_lt y.isLt, Nat.shiftLeft_eq]
  simp only [unpackL, BitVec.toNat_append, or_eq]
  omega

/-- Reading the notation of an address back gives the address. -/
theorem inetAton_inetNtoa (a : Ipv4) : inetAton (inetNtoa a) = .ok a := by
  have hparts : ((dottedChars a).splitOn '.').mapM cNumber? =
      some [a.b0.toNat, a.b1.toNat, a.b2.toNat, a.b3.toNat] := by
    simp [splitOn_dottedChars, cNumber?_toDigits]
  have hvalue : atonParts? [a.b0.toNat, a.b1.toNat, a.b2.toNat, a.b3.toNat] =
      some (unpackL .big a).toNat := by
    simp [atonParts?, toNat_unpackL_big, a.b0.isLt, a.b1.isLt, a.b2.isLt, a.b3.isLt]
  simp [inetAton, inetNtoa, takeWhile_dottedChars, hparts, hvalue]

theorem inetNtoa_injective : Function.Injective inetNtoa := by
  intro a b h
  have hab : inetAton (inetNtoa a) = inetAton (inetNtoa b) := congrArg inetAton h
  simpa [inetAton_inetNtoa] using hab

theorem ipIntFromString?_dottedChars (a : Ipv4) : ipIntFromString? (dottedChars a) = some a := by
  simp [ipIntFromString?, splitOn_dottedChars, parseOctet?_toDigits]

theorem prefixFromPrefixString?_dottedChars (a : Ipv4) :
    prefixFromPrefixString? (dottedChars a) = none := by
  have hdot : (dottedChars a).all Char.isDigit = false := by
    rw [List.all_eq_false]
    exact ⟨'.', by simp [dottedChars, List.intercalate, List.intersperse], by decide⟩
  simp [prefixFromPrefixString?, hdot]

theorem Ipv4.Contiguous.contiguousLen? {m : Ipv4} {n : Nat} (h : m.Contiguous n) :
    PidtreeBcc.contiguousLen? m.bits = some n := by
  rw [contiguousLen?_eq_some_iff (by simpa using h.1)]
  simpa using h.2

/-- A contiguous netmask in dotted-quad notation has the prefix length one expects. -/
theorem ipNetworkPrefixlen_inetNtoa {m : Ipv4} {n : Nat} (h : m.Contiguous n) :
    ipNetworkPrefixlen (inetNtoa m) = .ok n := by
  simp [ipNetworkPrefixlen, inetNtoa, prefixFromPrefixString?_dottedChars, prefixFromIpString?,
    ipIntFromString?_dottedChars, h.contiguousLen?]

/-! ## Masked bits -/

theorem zipWith_and_replicate_true : ∀ (l : List Bool) (n : Nat), n ≤ l.length →
    List.zipWith (· && ·) l (List.replicate n true ++ List.replicate (l.length - n) false) =
      l.take n ++ List.replicate (l.length - n) false
  | [], n, hn => by
      have hn0 : n = 0 := by simpa using hn
      simp [hn0]
  | b :: l, 0, _ => by
      have ih := zipWith_and_replicate_true l 0 (Nat.zero_le _)
      simpa [List.replicate_succ] using ih
  | b :: l, n + 1, hn => by
      have ih := zipWith_and_replicate_true l n (by simpa using hn)
      simpa [List.replicate_succ] using ih

/-- Masking with `n` ones keeps the first `n` bits and clears the others. -/
theorem Ipv4.Contiguous.bits_and {m : Ipv4} {n : Nat} (h : m.Contiguous n) (a : Ipv4) :
    (a.and m).bits = a.bits.take n ++ List.replicate (32 - n) false := by
  rw [Ipv4.bits_and, h.2]
  simpa using zipWith_and_replicate_true a.bits n (by simpa using h.1)

theorem Ipv4.Contiguous.take_bits_and {m : Ipv4} {n : Nat} (h : m.Contiguous n) (a : Ipv4) :
    (a.and m).bits.take n = a.bits.take n := by
  have hlen : (a.bits.take n).length = n := by simpa using h.1
  rw [h.bits_and a, List.take_left' hlen]

/-- Two addresses agree under a contiguous mask when their first bits do. -/
theorem Ipv4.Contiguous.and_eq_and_iff {m : Ipv4} {n : Nat} (h : m.Contiguous n) (a b : Ipv4) :
    a.and m = b.and m ↔ a.bits.take n = b.bits.take n := by
  constructor
  · intro hab
    rw [← h.take_bits_and a, ← h.take_bits_and b, hab]
  · intro hab
    apply Ipv4.bits_injective
    rw [h.bits_and a, h.bits_and b, hab]

end PidtreeBcc
