import Mathlib.Data.List.Forall2

/-!
# Cover — words with places left open

A pattern fixes some places of a word of bits and leaves the others open.  `covers` decides whether the
words of one pattern all fit some pattern of a list, without going through the words: it follows the
places, and splits one that is left open only as long as the patterns at hand differ there.
-/

namespace Support

abbrev Pattern := List (Option Bool)

namespace Pattern

/-- The pattern allows the bit in this place. -/
def Allows (place : Option Bool) (b : Bool) : Prop := place = none ∨ place = some b

instance (place : Option Bool) (b : Bool) : Decidable (Allows place b) :=
  inferInstanceAs (Decidable (_ ∨ _))

/-- The word is as long as the pattern and has the bits that it fixes. -/
def Fits (w : List Bool) (q : Pattern) : Prop := List.Forall₂ (fun b place => Allows place b) w q

section Fits

variable {w : List Bool} {q : Pattern} {b : Bool} {place : Option Bool}

@[simp] theorem fits_nil_iff : Fits w [] ↔ w = [] := List.forall₂_nil_right_iff

@[simp] theorem fits_cons_iff : Fits (b :: w) (place :: q) ↔ Allows place b ∧ Fits w q :=
  List.forall₂_cons

@[simp] theorem nil_fits_iff : Fits [] q ↔ q = [] := by
  cases q with
  | nil => simp
  | cons place q => exact iff_of_false nofun nofun

theorem Fits.length_eq (h : Fits w q) : w.length = q.length := List.Forall₂.length_eq h

/-- Some word fits. -/
theorem exists_fits : ∀ q : Pattern, ∃ w, Fits w q
  | [] => ⟨[], by simp⟩
  | none :: q =>
      let ⟨w, hw⟩ := exists_fits q
      ⟨false :: w, by simp [Allows, hw]⟩
  | some b :: q =>
      let ⟨w, hw⟩ := exists_fits q
      ⟨b :: w, by simp [Allows, hw]⟩

theorem fits_map_some {p : List Bool} : Fits w (p.map some) ↔ w = p := by
  induction p generalizing w with
  | nil => simp
  | cons b p ih =>
      cases w with
      | nil => simp
      | cons b' w => simp [Allows, ih, eq_comm]

/-- A pattern that leaves every place open takes any word of its length. -/
theorem fits_replicate_none {n : Nat} : Fits w (List.replicate n none) ↔ w.length = n := by
  induction n generalizing w with
  | zero => simp
  | succ n ih =>
      cases w with
      | nil => simp [List.replicate_succ]
      | cons b w => simp [List.replicate_succ, Allows, ih]

theorem fits_append {q' : Pattern} {w' : List Bool} (h : w.length = q.length) :
    Fits (w ++ w') (q ++ q') ↔ Fits w q ∧ Fits w' q' := by
  induction w generalizing q with
  | nil =>
      have hq : q = [] := List.length_eq_zero_iff.1 h.symm
      simp [hq]
  | cons b w ih =>
      cases q with
      | nil => simp at h
      | cons place q =>
          have hlen : w.length = q.length := by simpa using h
          simp [ih hlen, and_assoc]

end Fits

/-! ## Prefixes -/

/-- The words of length `n` that begin with `p`. -/
def ofPrefix (n : Nat) (p : List Bool) : Pattern := p.map some ++ List.replicate (n - p.length) none

theorem fits_ofPrefix_iff {n : Nat} {p w : List Bool} (hp : p.length ≤ n) (hw : w.length = n) :
    Fits w (ofPrefix n p) ↔ p <+: w := by
  have hsplit := List.take_append_drop p.length w
  have htake : (w.take p.length).length = (p.map some).length := by simp [hw, hp]
  have hrest : (w.drop p.length).length = n - p.length := by simp [hw]
  rw [← hsplit, ofPrefix, fits_append htake, fits_map_some, fits_replicate_none, hsplit,
    List.prefix_iff_eq_take]
  exact ⟨fun h => h.1.symm, fun h => ⟨h.symm, hrest⟩⟩

@[simp] theorem length_ofPrefix {n : Nat} {p : List Bool} (hp : p.length ≤ n) :
    (ofPrefix n p).length = n := by
  simp [ofPrefix, hp]

/-! ## Masks -/

/-- The words that agree with `v` where the mask is set. -/
def masked (mask v : List Bool) : Pattern :=
  List.zipWith (fun m b => if m then some b else none) mask v

theorem fits_masked_iff {w mask v : List Bool} (hmask : mask.length = w.length)
    (hv : v.length = w.length) :
    Fits w (masked mask v) ↔
      List.zipWith (· && ·) w mask = List.zipWith (· && ·) v mask := by
  induction w generalizing mask v with
  | nil =>
      rw [List.length_eq_zero_iff.1 hmask, List.length_eq_zero_iff.1 hv]
      simp [masked]
  | cons b w ih =>
      cases mask with
      | nil => simp at hmask
      | cons m mask =>
          cases v with
          | nil => simp at hv
          | cons b' v =>
              have ih := @ih mask v (by simpa using hmask) (by simpa using hv)
              unfold masked at ih ⊢
              cases m <;> simp [Allows, ih, eq_comm]

@[simp] theorem length_masked (mask v : List Bool) :
    (masked mask v).length = min mask.length v.length := by
  simp [masked]

/-! ## The common part -/

/-- What two patterns say of one place; `none` if they contradict each other. -/
def meetPlace : Option Bool → Option Bool → Option (Option Bool)
  | none, place => some place
  | place, none => some place
  | some a, some b => if a = b then some (some a) else none

/-- The words that fit both, if there are any. -/
def meet : Pattern → Pattern → Option Pattern
  | [], [] => some []
  | place :: q, place' :: q' =>
      match meetPlace place place', meet q q' with
      | some common, some rest => some (common :: rest)
      | _, _ => none
  | _, _ => none

theorem allows_meetPlace_iff {place place' : Option Bool} {b : Bool} :
    (∃ common, meetPlace place place' = some common ∧ Allows common b) ↔
      Allows place b ∧ Allows place' b := by
  cases place <;> cases place' <;> simp only [meetPlace, Allows] <;> grind

theorem fits_meet_iff {q q' : Pattern} {w : List Bool} :
    (∃ common, meet q q' = some common ∧ Fits w common) ↔ Fits w q ∧ Fits w q' := by
  induction q generalizing q' w with
  | nil =>
      cases q' with
      | nil => simp [meet]
      | cons place' q' => cases w <;> simp [meet]
  | cons place q ih =>
      cases q' with
      | nil => cases w <;> simp [meet]
      | cons place' q' =>
          cases w with
          | nil =>
              refine iff_of_false ?_ (by simp)
              rintro ⟨common, hmeet, hfits⟩
              simp only [meet] at hmeet
              split at hmeet
              · cases hmeet
                simp at hfits
              · cases hmeet
          | cons b w =>
              rw [fits_cons_iff, fits_cons_iff, and_and_and_comm, ← allows_meetPlace_iff, ← ih]
              simp only [meet]
              cases meetPlace place place' <;> cases meet q q' <;> simp

theorem length_meet {q q' common : Pattern} (h : meet q q' = some common) :
    common.length = q.length := by
  induction q generalizing q' common with
  | nil =>
      cases q' with
      | nil =>
          cases h
          rfl
      | cons place' q' => cases h
  | cons place q ih =>
      cases q' with
      | nil => cases h
      | cons place' q' =>
          simp only [meet] at h
          split at h
          · rename_i hrest
            cases h
            simp [ih hrest]
          · cases h

/-! ## Covering -/

/-- What is left of the patterns that allow the bit first. -/
def after (b : Bool) (S : List Pattern) : List Pattern :=
  S.filterMap fun
    | [] => none
    | place :: q => if Allows place b then some q else none

theorem exists_fits_cons_iff {b : Bool} {S : List Pattern} {w : List Bool} :
    (∃ s ∈ S, Fits (b :: w) s) ↔ ∃ s ∈ after b S, Fits w s := by
  constructor
  · rintro ⟨s, hs, hfits⟩
    cases s with
    | nil => cases hfits
    | cons place q =>
        rcases fits_cons_iff.1 hfits with ⟨hplace, hrest⟩
        exact ⟨q, List.mem_filterMap.2 ⟨_, hs, if_pos hplace⟩, hrest⟩
  · rintro ⟨q, hq, hfits⟩
    rcases List.mem_filterMap.1 hq with ⟨s, hs, hafter⟩
    cases s with
    | nil => cases hafter
    | cons place q' =>
        simp only [Option.ite_none_right_eq_some, Option.some.injEq] at hafter
        rcases hafter with ⟨hplace, rfl⟩
        exact ⟨_, hs, fits_cons_iff.2 ⟨hplace, hfits⟩⟩

/-- Every word of the pattern fits one of the list. -/
def covers : Pattern → List Pattern → Bool
  | [], S => decide ([] ∈ S)
  | place :: q, S =>
      -- Neither without a pattern nor with one that takes anything is there anything to split.
      if S = [] then false
      else if List.replicate (q.length + 1) none ∈ S then true
      else
        match place with
        | some b => covers q (after b S)
        | none => covers q (after false S) && covers q (after true S)

/-- The recursion follows the places of the pattern. -/
theorem covers_iff {q : Pattern} {S : List Pattern} :
    covers q S = true ↔ ∀ w, Fits w q → ∃ s ∈ S, Fits w s := by
  induction q generalizing S with
  | nil => simp [covers]
  | cons place q ih =>
      unfold covers
      by_cases hnil : S = []
      · -- The pattern has a word, which fits nothing.
        rcases exists_fits (place :: q) with ⟨w, hw⟩
        simp only [hnil, if_true, Bool.false_eq_true, false_iff]
        intro h
        rcases h w hw with ⟨s, hs, _⟩
        cases hs
      by_cases hopen : List.replicate (q.length + 1) none ∈ S
      · simp only [hnil, hopen, if_false, if_true, true_iff]
        exact fun w hw => ⟨_, hopen, fits_replicate_none.2 hw.length_eq⟩
      simp only [hnil, hopen, if_false]
      have hcons : (∀ w, Fits w (place :: q) → ∃ s ∈ S, Fits w s) ↔
          ∀ b, Allows place b → ∀ w, Fits w q → ∃ s ∈ after b S, Fits w s := by
        constructor
        · intro h b hb w hw
          exact exists_fits_cons_iff.1 (h (b :: w) (fits_cons_iff.2 ⟨hb, hw⟩))
        · intro h w hw
          cases w with
          | nil => simp at hw
          | cons b w =>
              rcases fits_cons_iff.1 hw with ⟨hb, hrest⟩
              exact exists_fits_cons_iff.2 (h b hb w hrest)
      rw [hcons]
      cases place with
      | some b => simp [Allows, ih]
      | none => simp [Allows, ih, Bool.forall_bool]

-- The two halves of a pattern cover it, one of them does not.
example : covers [some true, none, none]
    [[some true, some true, none], [none, some false, none]] = true := by decide

example : covers [some true, none, none] [[some true, some true, none]] = false := by decide

end Pattern

end Support
