import Mathlib.Data.Finset.Card
import Mathlib.Data.List.Chain
import Mathlib.Logic.Relation

/-!
# Links — following a link from element to element

Every element has at most one link.  Following the links from an element ends at one without a link, or goes
round a cycle for ever; where only finitely many elements have a link there is no third way.

- `chain` follows the links with a bound on the number of elements;
- `exists_chain_iff`: it ends just when no cycle can be reached;
- `nodup_of_chain` and `mem_chain_iff`: the elements met are different, and are all that can be reached.
-/

namespace Support

namespace Links

variable {α : Type*}

/-- The elements met on the way to one without a link, if there are at most `n` of them. -/
def chain (next : α → Option α) : Nat → α → Option (List α)
  | 0, _ => none
  | n + 1, a =>
      match next a with
      | none => some [a]
      | some b => (chain next n b).map (a :: ·)

/-- There is a link from `a` to `b`. -/
def Link (next : α → Option α) (a b : α) : Prop := next a = some b

open Relation (ReflTransGen TransGen)

variable {next : α → Option α}

theorem chain_of_none {a : α} (h : next a = none) (n : Nat) : chain next (n + 1) a = some [a] := by
  simp [chain, h]

theorem chain_of_link {a b : α} (h : Link next a b) (n : Nat) :
    chain next (n + 1) a = (chain next n b).map (a :: ·) := by
  simp only [Link] at h
  simp [chain, h]

/-- A larger bound changes nothing. -/
theorem chain_mono : ∀ {n m : Nat} {a : α} {l : List α}, n ≤ m → chain next n a = some l →
    chain next m a = some l
  | 0, _, a, l, _, h => by simp [chain] at h
  | n + 1, 0, a, l, hnm, _ => absurd hnm (Nat.not_succ_le_zero n)
  | n + 1, m + 1, a, l, hnm, h => by
      cases hnext : next a with
      | none =>
          rw [chain_of_none hnext] at h ⊢
          exact h
      | some b =>
          rw [chain_of_link hnext] at h ⊢
          rcases Option.map_eq_some_iff.1 h with ⟨l', hl', rfl⟩
          rw [chain_mono (Nat.le_of_succ_le_succ hnm) hl']
          rfl

theorem chain_unique {n m : Nat} {a : α} {l l' : List α} (h : chain next n a = some l)
    (h' : chain next m a = some l') : l = l' := by
  have hmax := chain_mono (Nat.le_max_left n m) h
  have hmax' := chain_mono (Nat.le_max_right n m) h'
  exact Option.some.inj (hmax.symm.trans hmax')

/-- What is met: first the element itself, then its links, up to an element that has none. -/
theorem isChain_of_chain : ∀ {n : Nat} {a : α} {l : List α}, chain next n a = some l →
    l.head? = some a ∧ l.IsChain (Link next) ∧ ∃ last, l.getLast? = some last ∧ next last = none
  | 0, a, l, h => by simp [chain] at h
  | n + 1, a, l, h => by
      cases hnext : next a with
      | none =>
          rw [chain_of_none hnext] at h
          cases h
          exact ⟨rfl, by simp, a, rfl, hnext⟩
      | some b =>
          rw [chain_of_link hnext] at h
          rcases Option.map_eq_some_iff.1 h with ⟨l', hl', rfl⟩
          rcases isChain_of_chain hl' with ⟨hhead, hchain, last, hlast, hend⟩
          refine ⟨rfl, ?_, last, ?_, hend⟩
          · cases l' with
            | nil => simp at hhead
            | cons c rest =>
                cases hhead
                exact List.isChain_cons_cons.2 ⟨hnext, hchain⟩
          · rw [List.getLast?_cons, hlast]
            rfl

/-- Beyond a link the chain is shorter. -/
theorem chain_tail {n : Nat} {a b : α} {l : List α} (h : chain next n a = some l)
    (hlink : Link next a b) : ∃ l', chain next n b = some l' ∧ l = a :: l' := by
  cases n with
  | zero => simp [chain] at h
  | succ n =>
      rw [chain_of_link hlink] at h
      rcases Option.map_eq_some_iff.1 h with ⟨l', hl', rfl⟩
      exact ⟨l', chain_mono (Nat.le_succ n) hl', rfl⟩

theorem chain_shorter {n : Nat} {a b : α} {l : List α} (h : chain next n a = some l)
    (hlinks : TransGen (Link next) a b) :
    ∃ l', chain next n b = some l' ∧ l'.length < l.length := by
  induction hlinks with
  | single hlink =>
      rcases chain_tail h hlink with ⟨l', hl', rfl⟩
      exact ⟨l', hl', by simp⟩
  | tail _ hlink ih =>
      rcases ih with ⟨l₀, hl₀, hlt⟩
      rcases chain_tail hl₀ hlink with ⟨l', hl', rfl⟩
      refine ⟨l', hl', Nat.lt_trans ?_ hlt⟩
      simp

theorem mem_chain_iff : ∀ {n : Nat} {a : α} {l : List α}, chain next n a = some l →
    ∀ b, b ∈ l ↔ ReflTransGen (Link next) a b
  | 0, a, l, h => by simp [chain] at h
  | n + 1, a, l, h => by
      intro b
      cases hnext : next a with
      | none =>
          rw [chain_of_none hnext] at h
          cases h
          rw [List.mem_singleton, Relation.ReflTransGen.cases_head_iff]
          constructor
          · exact fun hb => Or.inl hb.symm
          · rintro (hb | ⟨c, hlink, _⟩)
            · exact hb.symm
            · simp [Link, hnext] at hlink
      | some c =>
          rw [chain_of_link hnext] at h
          rcases Option.map_eq_some_iff.1 h with ⟨l', hl', rfl⟩
          rw [List.mem_cons, mem_chain_iff hl' b, Relation.ReflTransGen.cases_head_iff (a := a)]
          constructor
          · rintro (hb | hb)
            · exact Or.inl hb.symm
            · exact Or.inr ⟨c, hnext, hb⟩
          · rintro (hb | ⟨c', hlink, hb⟩)
            · exact Or.inl hb.symm
            · have hEq : c = c' := Option.some.inj (hnext.symm.trans hlink)
              exact Or.inr (hEq ▸ hb)

theorem nodup_of_chain : ∀ {n : Nat} {a : α} {l : List α}, chain next n a = some l → l.Nodup
  | 0, a, l, h => by simp [chain] at h
  | n + 1, a, l, h => by
      cases hnext : next a with
      | none =>
          rw [chain_of_none hnext] at h
          cases h
          simp
      | some b =>
          have hchain := h
          rw [chain_of_link hnext] at h
          rcases Option.map_eq_some_iff.1 h with ⟨l', hl', rfl⟩
          refine List.nodup_cons.2 ⟨?_, nodup_of_chain hl'⟩
          -- If `a` came again, its chain would be shorter than itself.
          intro hmem
          have hcycle : TransGen (Link next) a a :=
            Relation.TransGen.head' hnext ((mem_chain_iff hl' a).1 hmem)
          rcases chain_shorter hchain hcycle with ⟨l₀, hl₀, hlt⟩
          rw [chain_unique hchain hl₀] at hlt
          exact Nat.lt_irrefl _ hlt

/-- Without a cycle the chain is no longer than there are elements with a link, and one more. -/
theorem exists_chain_of_acyclic [DecidableEq α] : ∀ (S : Finset α) (a : α),
    (∀ b, ReflTransGen (Link next) a b → next b ≠ none → b ∈ S) →
      (∀ b, ReflTransGen (Link next) a b → ¬ TransGen (Link next) b b) →
        ∃ l, chain next (S.card + 1) a = some l := by
  intro S
  induction hcard : S.card generalizing S with
  | zero =>
      intro a hS _
      have hnone : next a = none := by
        by_contra hsome
        have hmem := hS a .refl hsome
        simp [Finset.card_eq_zero.1 hcard] at hmem
      exact ⟨[a], chain_of_none hnone 0⟩
  | succ n ih =>
      intro a hS hacyclic
      cases hnext : next a with
      | none => exact ⟨[a], chain_of_none hnext _⟩
      | some b =>
          have ha : a ∈ S := hS a .refl (by simp [hnext])
          have hfrom : ∀ c, ReflTransGen (Link next) b c → ReflTransGen (Link next) a c :=
            fun c hc => Relation.ReflTransGen.head hnext hc
          have herase : (S.erase a).card = n := by simp [Finset.card_erase_of_mem ha, hcard]
          have hne : ∀ c, ReflTransGen (Link next) b c → c ≠ a := by
            rintro c hc rfl
            exact hacyclic c .refl (Relation.TransGen.head' hnext hc)
          rcases ih (S.erase a) herase b
              (fun c hc hsome => Finset.mem_erase.2 ⟨hne c hc, hS c (hfrom c hc) hsome⟩)
              (fun c hc => hacyclic c (hfrom c hc)) with ⟨l, hl⟩
          refine ⟨a :: l, ?_⟩
          rw [chain_of_link hnext, hl]
          rfl

/-- Following the links ends just when no cycle can be reached. -/
theorem exists_chain_iff [DecidableEq α] {S : Finset α} (hS : ∀ b, next b ≠ none → b ∈ S) {a : α} :
    (∃ n l, chain next n a = some l) ↔
      ¬ ∃ b, ReflTransGen (Link next) a b ∧ TransGen (Link next) b b := by
  constructor
  · rintro ⟨n, l, h⟩ ⟨b, hreach, hcycle⟩
    have hb : ∃ l', chain next n b = some l' := by
      rcases Relation.reflTransGen_iff_eq_or_transGen.1 hreach with rfl | htrans
      · exact ⟨l, h⟩
      · rcases chain_shorter h htrans with ⟨l', hl', _⟩
        exact ⟨l', hl'⟩
    rcases hb with ⟨l', hl'⟩
    rcases chain_shorter hl' hcycle with ⟨l₀, hl₀, hlt⟩
    rw [chain_unique hl' hl₀] at hlt
    exact Nat.lt_irrefl _ hlt
  · intro hacyclic
    rcases exists_chain_of_acyclic S a (fun b _ hsome => hS b hsome)
      (fun b hreach hcycle => hacyclic ⟨b, hreach, hcycle⟩) with ⟨l, hl⟩
    exact ⟨_, l, hl⟩

end Links

end Support
