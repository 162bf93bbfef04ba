import Mathlib.Data.List.Basic

/-!
# Builtins — the parts of Python that the model rests on

- the exceptions a modelled function can raise;
- `int()` on a string, on ASCII digits;
- `str.split` on a separator character, which is `List.splitOn` on the characters;
- the order in which a `set` is iterated, which is left open.
-/

namespace PidtreeBcc

/-! ## Exceptions -/

inductive ErrKind
  | ValueError
  | KeyError
  | TypeError
  | IndexError
  | AttributeError
  | OSError
  | Exception
  deriving DecidableEq, Repr

/-- An exception: raised by the interpreter or the standard library, or by a `raise` of the source
with its text. -/
inductive PyErr
  | builtin (kind : ErrKind)
  | raised (kind : ErrKind) (text : String)
  deriving DecidableEq, Repr

instance decidableEqExcept {ε α : Type*} [DecidableEq ε] [DecidableEq α] :
    DecidableEq (Except ε α)
  | .ok a, .ok b => decidable_of_iff (a = b) (by simp)
  | .error a, .error b => decidable_of_iff (a = b) (by simp)
  | .ok _, .error _ => isFalse (by simp)
  | .error _, .ok _ => isFalse (by simp)

section Ok

universe u

variable {ε : Type*} {α β : Type u}

theorem bind_eq_ok {x : Except ε α} {f : α → Except ε β} {b : β} :
    (x >>= f) = .ok b ↔ ∃ a, x = .ok a ∧ f a = .ok b := by
  cases x with
  | error err =>
      refine iff_of_false ?_ ?_
      · intro h
        cases h
      · rintro ⟨_, h, _⟩
        cases h
  | ok a =>
      constructor
      · exact fun h => ⟨a, rfl, h⟩
      · rintro ⟨a', h, h'⟩
        cases h
        exact h'

theorem map_eq_ok {x : Except ε α} {f : α → β} {b : β} :
    x.map f = .ok b ↔ ∃ a, x = .ok a ∧ f a = b := by
  cases x with
  | error err => simp [Except.map]
  | ok a => simp [Except.map]

theorem mapM_eq_ok {f : α → Except ε β} {l : List α} :
    ∀ {bs : List β}, l.mapM f = .ok bs ↔ List.Forall₂ (fun a b => f a = .ok b) l bs := by
  induction l with
  | nil =>
      intro bs
      cases bs with
      | nil => exact iff_of_true rfl .nil
      | cons b bs => exact iff_of_false (fun h => by cases h) (fun h => by cases h)
  | cons a l ih =>
      intro bs
      rw [List.mapM_cons, bind_eq_ok]
      constructor
      · rintro ⟨b, hb, hrest⟩
        rcases bind_eq_ok.1 hrest with ⟨bs', hbs', hbs⟩
        cases hbs
        exact .cons hb (ih.1 hbs')
      · intro h
        cases h with
        | @cons _ b _ bs' hb hbs' => exact ⟨b, hb, bind_eq_ok.2 ⟨bs', ih.2 hbs', rfl⟩⟩

theorem exists_mapM_eq_ok {f : α → Except ε β} {l : List α} :
    (∃ bs, l.mapM f = .ok bs) ↔ ∀ a ∈ l, ∃ b, f a = .ok b := by
  induction l with
  | nil => exact iff_of_true ⟨[], rfl⟩ (by simp)
  | cons a l ih =>
      rw [List.forall_mem_cons, ← ih]
      constructor
      · rintro ⟨bs, hbs⟩
        cases mapM_eq_ok.1 hbs with
        | @cons _ b _ bs' hb hbs' => exact ⟨⟨b, hb⟩, bs', mapM_eq_ok.2 hbs'⟩
      · rintro ⟨⟨b, hb⟩, bs, hbs⟩
        exact ⟨b :: bs, mapM_eq_ok.2 (.cons hb (mapM_eq_ok.1 hbs))⟩

end Ok

/-! ## `int()` -/

/-- White space that `int()` strips. -/
def isSpace (c : Char) : Bool :=
  c = ' ' || c = '\t' || c = '\n' || c = '\r' || c = '\x0b' || c = '\x0c'

def strip (s : List Char) : List Char :=
  ((s.dropWhile isSpace).reverse.dropWhile isSpace).reverse

/-- Decimal digits, a single underscore being allowed between two of them. -/
def digits? : List Char → Nat → Option Nat
  | [], _ => none
  | c :: rest, acc =>
      if c.isDigit then
        match rest with
        | [] => some (10 * acc + (c.toNat - '0'.toNat))
        | '_' :: rest' => digits? rest' (10 * acc + (c.toNat - '0'.toNat))
        | c' :: rest' => digits? (c' :: rest') (10 * acc + (c.toNat - '0'.toNat))
      else none

/-- An optional sign followed by digits. -/
def signed? : List Char → Option Int
  | '-' :: ds => (digits? ds 0).map (fun n => -Int.ofNat n)
  | '+' :: ds => (digits? ds 0).map Int.ofNat
  | ds => (digits? ds 0).map Int.ofNat

/-- `int(s)`. -/
def pyInt (s : List Char) : Except PyErr Int :=
  match signed? (strip s) with
  | some n => .ok n
  | none => .error (.builtin .ValueError)

theorem digits?_eq_ofDigitChars :
    ∀ {ds : List Char} {acc : Nat}, ds ≠ [] → (∀ c ∈ ds, c.isDigit = true) →
      digits? ds acc = some (Nat.ofDigitChars 10 ds acc)
  | [], _, hne, _ => absurd rfl hne
  | [c], acc, _, hd => by
      have hc : c.isDigit = true := hd c (by simp)
      simp [digits?, hc, Nat.ofDigitChars_cons]
  | c :: c' :: rest, acc, _, hd => by
      have hc : c.isDigit = true := hd c (by simp)
      have hc' : c'.isDigit = true := hd c' (by simp)
      -- A digit is not the separator, so the underscore branch is not taken.
      have hund : c' ≠ '_' := by
        intro hEq
        simp [hEq] at hc'
      have hrest : ∀ x ∈ c' :: rest, x.isDigit = true := by
        intro x hx
        exact hd x (List.mem_cons_of_mem _ hx)
      have ih := @digits?_eq_ofDigitChars (c' :: rest)
        (10 * acc + (c.toNat - '0'.toNat)) (by simp) hrest
      simpa [digits?, hc, hund, Nat.ofDigitChars_cons (c := c)] using ih

theorem strip_of_isDigit {s : List Char} (h : ∀ c ∈ s, c.isDigit = true) : strip s = s := by
  have hspace : ∀ c ∈ s, isSpace c = false := by
    intro c hc
    have hd := h c hc
    by_contra hs
    have hs' : isSpace c = true := by simpa using hs
    simp only [isSpace, Bool.or_eq_true, decide_eq_true_eq] at hs'
    rcases hs' with ((((rfl | rfl) | rfl) | rfl) | rfl) | rfl <;> simp at hd
  have hdrop : ∀ l : List Char, (∀ c ∈ l, isSpace c = false) → l.dropWhile isSpace = l := by
    intro l hl
    cases l with
    | nil => rfl
    | cons c rest => simp [List.dropWhile, hl c (by simp)]
  have hrev : ∀ c ∈ s.reverse, isSpace c = false := by
    intro c hc
    exact hspace c (List.mem_reverse.1 hc)
  simp [strip, hdrop s hspace, hdrop s.reverse hrev]

theorem signed?_of_isDigit {s : List Char} (h : ∀ c ∈ s, c.isDigit = true) :
    signed? s = (digits? s 0).map Int.ofNat := by
  cases s with
  | nil => rfl
  | cons c rest =>
      have hc : c.isDigit = true := h c (by simp)
      have hminus : c ≠ '-' := by
        intro hEq
        simp [hEq] at hc
      have hplus : c ≠ '+' := by
        intro hEq
        simp [hEq] at hc
      simp [signed?, hminus, hplus]

/-- `int()` reads a decimal numeral back. -/
theorem pyInt_toDigits (n : Nat) : pyInt (Nat.toDigits 10 n) = .ok (n : Int) := by
  have hd : ∀ c ∈ Nat.toDigits 10 n, c.isDigit = true := by
    intro c hc
    exact Nat.isDigit_of_mem_toDigits (by decide) (by decide) hc
  have hparse : digits? (Nat.toDigits 10 n) 0 = some n := by
    rw [digits?_eq_ofDigitChars Nat.toDigits_ne_nil hd, Nat.ofDigitChars_ten_toDigits]
  have hsigned : signed? (Nat.toDigits 10 n) = some (n : Int) := by
    rw [signed?_of_isDigit hd, hparse]
    rfl
  simp [pyInt, strip_of_isDigit hd, hsigned]

/-! ## Iteration order of a set -/

/-- The order in which the elements of a `set` come out: any rearrangement of them. -/
structure IterOrder (α : Type*) where
  run : List α → List α
  perm : ∀ l, (run l).Perm l

namespace IterOrder

variable {α : Type*}

/-- The order in which the elements were listed. -/
def listed : IterOrder α := ⟨id, fun l => List.Perm.refl l⟩

/-- The reverse order. -/
def reversed : IterOrder α := ⟨List.reverse, List.reverse_perm⟩

@[simp] theorem mem_run (o : IterOrder α) {l : List α} {a : α} : a ∈ o.run l ↔ a ∈ l :=
  (o.perm l).mem_iff

theorem nodup_run (o : IterOrder α) {l : List α} (h : l.Nodup) : (o.run l).Nodup :=
  (o.perm l).nodup_iff.2 h

end IterOrder

end PidtreeBcc
