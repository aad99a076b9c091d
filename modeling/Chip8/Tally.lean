import Chip8.Op

/-! # Tally

How often each operation was executed, and how often a word was none. Only counts above zero are kept. -/

namespace Chip8

structure Tally where
  entries : List (Option Op × Nat)
deriving DecidableEq

namespace Tally

def empty : Tally := ⟨[]⟩

def bumpIn (k : Option Op) : List (Option Op × Nat) → List (Option Op × Nat)
  | [] => [(k, 1)]
  | (k', n) :: es => if k' = k then (k', n + 1) :: es else (k', n) :: bumpIn k es

def bump (t : Tally) (k : Option Op) : Tally := ⟨bumpIn k t.entries⟩

def count (t : Tally) (k : Option Op) : Nat := (t.entries.lookup k).getD 0

def total (t : Tally) : Nat := t.entries.foldr (fun e n => e.2 + n) 0

/-- The name under which an operation, or a word that is none, is counted. -/
def label : Option Op → String
  | some op => op.name
  | none => "UNKNOWN"

theorem total_bump (t : Tally) (k : Option Op) : (t.bump k).total = t.total + 1 := by
  obtain ⟨es⟩ := t
  simp only [total, bump]
  induction es with
  | nil => rfl
  | cons e es ih =>
    obtain ⟨k', n⟩ := e
    rw [bumpIn]
    split
    · simp only [List.foldr_cons]; omega
    · simp only [List.foldr_cons, ih]; omega

theorem count_cons (k k' : Option Op) (n : Nat) (es : List (Option Op × Nat)) :
    count ⟨(k, n) :: es⟩ k' = if k = k' then n else count ⟨es⟩ k' := by
  by_cases h : k = k'
  · subst h
    rw [if_pos rfl, count, List.lookup_cons_self]
    rfl
  · have hne : (k' == k) = false := beq_false_of_ne (Ne.symm h)
    rw [if_neg h, count, count, List.lookup_cons, hne]

theorem count_bump (t : Tally) (k k' : Option Op) : (t.bump k).count k' = t.count k' + if k = k' then 1 else 0 := by
  obtain ⟨es⟩ := t
  simp only [bump]
  induction es with
  | nil =>
    rw [bumpIn, count_cons]
    by_cases h : k = k' <;> simp [h, count]
  | cons e es ih =>
    obtain ⟨j, n⟩ := e
    rw [bumpIn]
    by_cases hj : j = k
    · rw [if_pos hj, count_cons, count_cons, hj]
      by_cases h : k = k'
      · rw [if_pos h, if_pos h, if_pos h]
      · rw [if_neg h, if_neg h, if_neg h, Nat.add_zero]
    · rw [if_neg hj, count_cons, count_cons, ih]
      by_cases h : j = k'
      · have hk : k ≠ k' := fun hk => hj (h.trans hk.symm)
        rw [if_pos h, if_pos h, if_neg hk, Nat.add_zero]
      · rw [if_neg h, if_neg h]

/-- A key that is counted for the first time comes last. -/
theorem keys_bump (t : Tally) (k : Option Op) : (t.bump k).entries.map Prod.fst =
    if k ∈ t.entries.map Prod.fst then t.entries.map Prod.fst else t.entries.map Prod.fst ++ [k] := by
  obtain ⟨es⟩ := t
  simp only [bump]
  induction es with
  | nil => rfl
  | cons e es ih =>
    obtain ⟨j, n⟩ := e
    rw [bumpIn]
    by_cases hj : j = k
    · simp [hj]
    · rw [if_neg hj]
      simp only [List.map_cons, ih]
      by_cases hk : k ∈ es.map Prod.fst
      · rw [if_pos hk, if_pos (List.mem_cons_of_mem _ hk)]
      · have hk' : k ∉ j :: es.map Prod.fst := by
          rw [List.mem_cons, not_or]
          exact ⟨Ne.symm hj, hk⟩
        rw [if_neg hk, if_neg hk', List.cons_append]

theorem pos_bump {t : Tally} (h : ∀ e ∈ t.entries, 0 < e.2) (k : Option Op) : ∀ e ∈ (t.bump k).entries, 0 < e.2 := by
  obtain ⟨es⟩ := t
  simp only [bump] at h ⊢
  induction es with
  | nil =>
    intro e he
    obtain rfl := List.mem_singleton.mp he
    exact Nat.one_pos
  | cons e es ih =>
    obtain ⟨j, n⟩ := e
    rw [List.forall_mem_cons] at h
    rw [bumpIn]
    by_cases hj : j = k
    · rw [if_pos hj, List.forall_mem_cons]
      exact ⟨Nat.succ_pos n, h.2⟩
    · rw [if_neg hj, List.forall_mem_cons]
      exact ⟨h.1, ih h.2⟩

end Tally
end Chip8
