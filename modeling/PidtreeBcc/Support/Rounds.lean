import Mathlib.Data.List.Nodup

/-!
# Rounds — attending to everyone in turn

A sequence of visits attends to everyone in turn if between two consecutive visits to the same element
all the others are visited.

- `rounds l k part` goes round a list `k` times and then starts once more;
- rounds of a list without repetitions attend to everyone in turn.
-/

namespace Support

namespace Rounds

variable {α : Type*}

/-- Between two consecutive visits to the same element every other element of `l` is visited. -/
def EachInTurn (l visits : List α) : Prop :=
  ∀ before a between after, visits = before ++ a :: (between ++ a :: after) → a ∉ between →
    ∀ b ∈ l, b ≠ a → b ∈ between

def rounds (l : List α) (k : Nat) (part : List α) : List α := (List.replicate k l).flatten ++ part

@[simp] theorem rounds_zero (l part : List α) : rounds l 0 part = part := by simp [rounds]

theorem rounds_succ (l : List α) (k : Nat) (part : List α) :
    rounds l (k + 1) part = l ++ rounds l k part := by
  simp [rounds, List.replicate_succ]

/-- Where a round is complete, the next one starts. -/
theorem rounds_self (l : List α) (k : Nat) : rounds l k l = rounds l (k + 1) [] := by
  simp [rounds, List.replicate_succ']

theorem rounds_append (l : List α) (k : Nat) (part rest : List α) :
    rounds l k part ++ rest = rounds l k (part ++ rest) := by
  simp [rounds]

theorem mem_of_mem_rounds {l part : List α} {k : Nat} {a : α} (hpart : part ⊆ l)
    (h : a ∈ rounds l k part) : a ∈ l := by
  rcases List.mem_append.1 h with h | h
  · obtain ⟨round, hround, ha⟩ := List.mem_flatten.1 h
    rwa [List.eq_of_mem_replicate hround] at ha
  · exact hpart h

/-- Rounds begin with the list, or end before its end. -/
theorem rounds_prefix {l part : List α} (hpart : part <+: l) (k : Nat) :
    ∃ more, rounds l k part <+: l ++ more := by
  cases k with
  | zero => exact ⟨[], by simpa using hpart⟩
  | succ k => exact ⟨rounds l k part, (rounds_succ l k part).symm ▸ List.prefix_rfl⟩

/-- A visit that does not take place in the first part takes place in the second. -/
theorem split_of_not_mem {part rest before after : List α} {a : α} (hpart : a ∉ part)
    (h : part ++ rest = before ++ a :: after) :
    ∃ skipped, before = part ++ skipped ∧ rest = skipped ++ a :: after := by
  rcases List.append_eq_append_iff.1 h with ⟨skipped, hskipped, hrest⟩ | ⟨skipped, hskipped, hafter⟩
  · exact ⟨skipped, hskipped, hrest⟩
  · cases skipped with
    | nil => exact ⟨[], by simpa using hskipped.symm, by simpa using hafter.symm⟩
    | cons c skipped =>
        have hc : a = c := (List.cons.inj hafter).1
        exact absurd (by simp [hskipped, hc]) hpart

/-- What stands between a visit to `a` and the next one, if the visits go on with the rest of the round
and then with the next round. -/
theorem eq_of_next_visit {pre post more rest between after : List α} {a : α} (hpre : a ∉ pre)
    (hpost : a ∉ post) (hrest : rest <+: pre ++ a :: more) (hbetween : a ∉ between)
    (h : post ++ rest = between ++ a :: after) : between = post ++ pre := by
  obtain ⟨skipped, rfl, rfl⟩ := split_of_not_mem hpost h
  have hskip : a ∉ skipped := fun hmem => hbetween (List.mem_append_right _ hmem)
  obtain ⟨tail, htail⟩ := hrest
  have hsame : skipped ++ a :: (after ++ tail) = pre ++ a :: more := by simpa using htail
  obtain ⟨extra, rfl, hextra⟩ := split_of_not_mem hskip hsame
  -- The next round comes to `a` right after what it has before it.
  cases extra with
  | nil => simp
  | cons c extra =>
      have hc : a = c := (List.cons.inj hextra).1
      exact absurd (by simp [hc]) hpre

/-- Visits of which none is repeated. -/
theorem eachInTurn_of_nodup {l visits : List α} (h : visits.Nodup) : EachInTurn l visits := by
  rintro before a between after rfl
  simp [List.nodup_append] at h

/-- One more round before visits that begin with a round, or with a part of one. -/
theorem EachInTurn.round {l visits more : List α} (hl : l.Nodup) (hmore : visits <+: l ++ more)
    (h : EachInTurn l visits) : EachInTurn l (l ++ visits) := by
  intro before a between after hvisits hbetween b hb hne
  rcases List.append_eq_append_iff.1 hvisits with ⟨skipped, -, hlater⟩ | ⟨round, hround, hrest⟩
  · -- The first of the two visits comes after this round.
    exact h skipped a between after hlater hbetween b hb hne
  · cases round with
    | nil => exact h [] a between after (by simpa using hrest.symm) hbetween b hb hne
    | cons c post =>
        obtain ⟨rfl, hnext⟩ := List.cons.inj hrest
        obtain rfl : l = before ++ a :: post := hround
        have hnot : a ∉ before ++ post := (List.nodup_cons.1 (List.nodup_middle.1 hl)).1
        have hprefix : visits <+: before ++ a :: (post ++ more) := by simpa using hmore
        have hEq : between = post ++ before :=
          eq_of_next_visit (fun hmem => hnot (List.mem_append_left _ hmem))
            (fun hmem => hnot (List.mem_append_right _ hmem)) hprefix hbetween hnext.symm
        rw [hEq]
        simp only [List.mem_append, List.mem_cons] at hb ⊢
        tauto

theorem eachInTurn_rounds {l part : List α} (hl : l.Nodup) (hpart : part <+: l) (k : Nat) :
    EachInTurn l (rounds l k part) := by
  induction k with
  | zero =>
      rw [rounds_zero]
      exact eachInTurn_of_nodup (hl.sublist hpart.sublist)
  | succ k ih =>
      obtain ⟨more, hmore⟩ := rounds_prefix hpart k
      rw [rounds_succ]
      exact ih.round hl hmore

end Rounds

end Support
