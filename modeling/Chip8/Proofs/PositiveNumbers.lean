import Chip8.Cli.PositiveInt
import Chip8.Proofs.Spelling

/-! # Which texts are positive integers

What a text of the command line is taken for follows from the integer that it spells, if it spells one (`positiveInt_eq_iff`). The
message about an integer below one shows it in base ten. A numeral in base ten is short enough for that, one after a base mark need
not be (`exists_mark_of_tooLongToShow`), and then the message itself fails. -/

namespace Chip8

namespace Numeral
open Text
variable {base n : Nat} {s : List Char}

theorem DigitRun.lt_pow (h : DigitRun base s n) : n < base ^ s.countP (· != '_') := by
  have hstep {n d k : Nat} (hn : n < base ^ k) (hd : d < base) : base * n + d < base ^ (k + 1) :=
    calc base * n + d < base * (n + 1) := Nat.add_lt_add_left hd (base * n)
      _ ≤ base * base ^ k := Nat.mul_le_mul_left base hn
      _ = base ^ (k + 1) := Nat.pow_succ'.symm
  have hdigit {c : Char} {d : Nat} (h : digitIn? base c = some d) : [c].countP (· != '_') = 1 :=
    List.countP_singleton.trans (if_pos (bne_iff_ne.mpr (ne_underscore h)))
  induction h with
  | single h =>
    rw [hdigit h, Nat.pow_one]
    exact digitIn?_lt h
  | next hs h ih =>
    rw [List.countP_append, hdigit h]
    exact hstep ih (digitIn?_lt h)
  | apart hs h ih =>
    rw [List.countP_append, List.countP_cons_of_neg (by decide), hdigit h]
    exact hstep ih (digitIn?_lt h)

/-- The largest digit over and over is the last number of so many digits. -/
theorem digitRun_replicate {c : Char} {k : Nat} (h : digitIn? base c = some (base - 1)) (hk : 0 < k) :
    DigitRun base (List.replicate k c) (base ^ k - 1) := by
  have hpos : 0 < base := Nat.lt_of_le_of_lt (Nat.zero_le _) (digitIn?_lt h)
  induction k, hk using Nat.le_induction with
  | base => simpa using DigitRun.single h
  | succ k hk ih =>
    have hle : base ≤ base * base ^ k := Nat.le_mul_of_pos_right base (Nat.pow_pos hpos)
    have hnext : base * (base ^ k - 1) + (base - 1) = base ^ (k + 1) - 1 := by
      rw [Nat.pow_succ', Nat.mul_sub_one]
      omega
    rw [List.replicate_succ', ← hnext]
    exact .next ih h

/-- A decimal numeral has no more than `maxDigits` digits, so only a mark lets a number have more. -/
theorem Literal.hasMark (h : Literal s n) (hn : 10 ^ maxDigits ≤ n) : HasMark s := by
  cases h with
  | decimal h hlen hzero =>
    have hpow : 10 ^ s.countP (· != '_') ≤ 10 ^ maxDigits := Nat.pow_le_pow_right (n := 10) (by decide) hlen
    exact absurd (Nat.lt_of_lt_of_le h.lt_pow hpow) (Nat.not_lt.mpr hn)
  | marked hz hmark h => exact ⟨_, _, _, _, rfl, hz, hmark⟩
  | markedSpaced hz hmark h => exact ⟨_, _, _, _, rfl, hz, hmark⟩

theorem SignedLiteral.of_neg {i : Int} (h : SignedLiteral s i) (hi : i < 0) :
    ∃ t, ∃ n : Nat, s = '-' :: t ∧ i = -(n : Int) ∧ Literal t n := by
  cases h with
  | bare h | plus h => omega
  | @minus t n h => exact ⟨t, n, rfl, rfl, h⟩

end Numeral

namespace Cli
open Numeral
variable {text : String} {n : Int}

theorem positiveInt_of_spells (h : Spells text n) : positiveInt text =
    if 0 < n then .ok n else if isTooLongToShow n then .error .tooLongToShow else .error (.notPositive n) := by
  rw [positiveInt, anyBase_eq_ok.mpr h]

theorem positiveInt_of_not_spells (h : ∀ n, ¬ Spells text n) : positiveInt text = .error (.malformed text) := by
  rw [positiveInt]
  cases hread : anyBase text with
  | ok n => exact absurd (anyBase_eq_ok.mp hread) (h n)
  | error e => rfl

/-- What a text is taken for, by the integer that it spells. -/
inductive ReadsAs (text : String) : Except PositiveIntError Int → Prop
  | positive {n : Int} (h : Spells text n) (hn : 0 < n) : ReadsAs text (.ok n)
  | notPositive {n : Int} (h : Spells text n) (hn : n ≤ 0) (hlen : n.natAbs < 10 ^ maxDigits) :
    ReadsAs text (.error (.notPositive n))
  | tooLongToShow {n : Int} (h : Spells text n) (hn : n ≤ 0) (hlen : 10 ^ maxDigits ≤ n.natAbs) :
    ReadsAs text (.error .tooLongToShow)
  | malformed (h : ∀ n, ¬ Spells text n) : ReadsAs text (.error (.malformed text))

theorem positiveInt_of_readsAs {x : Except PositiveIntError Int} (h : ReadsAs text x) : positiveInt text = x := by
  cases h with
  | positive h hn => rw [positiveInt_of_spells h, if_pos hn]
  | notPositive h hn hlen =>
    rw [positiveInt_of_spells h, if_neg (Int.not_lt.mpr hn), if_neg]
    exact fun hlong => Nat.not_le_of_lt hlen (isTooLongToShow_iff.mp hlong)
  | tooLongToShow h hn hlen =>
    rw [positiveInt_of_spells h, if_neg (Int.not_lt.mpr hn), if_pos (isTooLongToShow_iff.mpr hlen)]
  | malformed h => exact positiveInt_of_not_spells h

theorem exists_readsAs (text : String) : ∃ x, ReadsAs text x := by
  by_cases hspells : ∃ n, Spells text n
  · obtain ⟨n, h⟩ := hspells
    rcases Int.lt_or_le 0 n with hn | hn
    · exact ⟨_, .positive h hn⟩
    · rcases Nat.lt_or_ge n.natAbs (10 ^ maxDigits) with hlen | hlen
      · exact ⟨_, .notPositive h hn hlen⟩
      · exact ⟨_, .tooLongToShow h hn hlen⟩
  · exact ⟨_, .malformed (not_exists.mp hspells)⟩

theorem readsAs_positiveInt (text : String) : ReadsAs text (positiveInt text) := by
  obtain ⟨x, h⟩ := exists_readsAs text
  rwa [positiveInt_of_readsAs h]

/-- The message fails only about a numeral with a minus sign and a base mark. -/
theorem exists_mark_of_tooLongToShow (h : positiveInt text = .error .tooLongToShow) :
    ∃ before s after, text.toList = before ++ '-' :: s ++ after ∧ HasMark s := by
  have hreads := readsAs_positiveInt text
  rw [h] at hreads
  cases hreads with
  | @tooLongToShow n hspells hn hlen =>
    obtain ⟨before, s, after, htext, -, hs⟩ := hspells
    have hne : n ≠ 0 := by
      rintro rfl
      exact Nat.not_le_of_lt (Nat.pow_pos (n := maxDigits) (by decide)) hlen
    obtain ⟨t, m, rfl, rfl, ht⟩ := hs.of_neg (Int.lt_iff_le_and_ne.mpr ⟨hn, hne⟩)
    rw [Int.natAbs_neg, Int.natAbs_natCast] at hlen
    exact ⟨before, t, after, htext, ht.hasMark hlen⟩

theorem spells_hexadecimal {k : Nat} (hk : 0 < k) :
    Spells (String.ofList ('-' :: '0' :: 'x' :: List.replicate k 'f')) (-(16 ^ k - 1 : Nat)) := by
  have hzero : Text.digit? '0' = some 0 := by decide
  have hmark : baseMark? 'x' = some 16 := rfl
  have hf : Text.digitIn? 16 'f' = some (16 - 1) := by decide
  refine ⟨[], _, [], ?_, by simp, .minus (.marked hzero hmark (digitRun_replicate hf hk))⟩
  rw [String.toList_ofList, List.nil_append, List.append_nil]

theorem positiveInt_hexadecimal {k : Nat} (hk : 0 < k) (hlen : 10 ^ maxDigits ≤ 16 ^ k - 1) :
    positiveInt (String.ofList ('-' :: '0' :: 'x' :: List.replicate k 'f')) = .error .tooLongToShow := by
  refine positiveInt_of_readsAs (.tooLongToShow (spells_hexadecimal hk) ?_ ?_)
  · exact Int.neg_nonpos_of_nonneg (Int.natCast_nonneg _)
  · rwa [Int.natAbs_neg, Int.natAbs_natCast]

theorem positiveInt_eq_iff {x : Except PositiveIntError Int} : positiveInt text = x ↔ ReadsAs text x := by
  refine ⟨?_, positiveInt_of_readsAs⟩
  rintro rfl
  exact readsAs_positiveInt text

theorem positiveInt_long_negative :
    (∃ n ≤ 0, Spells (String.ofList ('-' :: '0' :: 'x' :: List.replicate 3572 'f')) n) ∧
    positiveInt (String.ofList ('-' :: '0' :: 'x' :: List.replicate 3572 'f')) = .error .tooLongToShow := by
  refine ⟨⟨_, ?_, spells_hexadecimal (by decide)⟩, positiveInt_hexadecimal (by decide) (by decide +kernel)⟩
  exact Int.neg_nonpos_of_nonneg (Int.natCast_nonneg _)

end Cli
end Chip8
