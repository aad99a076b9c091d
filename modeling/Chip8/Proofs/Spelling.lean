import Chip8.Numeral.Integer
import Mathlib.Algebra.Group.Nat.Defs
import Mathlib.Data.List.TakeWhile

/-! # Spellings of integers

`Spells text n` says by rules of grammar that a text is a numeral of `n`, in base ten or after a mark of another base. Each part of
the reader takes what its rule allows, for the number that the rule says, and nothing else (`unsigned_eq_ok`, `marked_eq_ok`,
`signed_eq_ok`), so the reader as a whole accepts the spellings of integers and no other text (`anyBase_eq_ok`). -/

namespace Chip8

namespace Text
variable {c : Char} {d base : Nat} {s before after : List Char}

/-! ### Digits and blanks -/

theorem exists_zero_of_digit? (h : digit? c = some d) : ∃ z ∈ digitZeros, d < 10 ∧ c = Char.ofNat (z + d) := by
  obtain ⟨z, hz, rfl⟩ := Option.map_eq_some_iff.mp h
  have hrange := List.find?_some hz
  simp only [Bool.and_eq_true, decide_eq_true_eq] at hrange
  refine ⟨z, List.mem_of_find?_eq_some hz, by omega, ?_⟩
  rw [show z + (c.toNat - z) = c.toNat by omega, Char.ofNat_toNat]

theorem isBlank_of_digit? (h : digit? c = some d) : isBlank c = false := by
  obtain ⟨z, hz, hd, rfl⟩ := exists_zero_of_digit? h
  have hdigits : ∀ z ∈ digitZeros, ∀ d < 10, isBlank (Char.ofNat (z + d)) = false := by decide +kernel
  exact hdigits z hz d hd

theorem isBlank_of_letterDigit? (h : letterDigit? c = some d) : isBlank c = false := by
  have hrange : 97 ≤ c.toNat ∧ c.toNat ≤ 122 ∨ 65 ≤ c.toNat ∧ c.toNat ≤ 90 := by
    unfold letterDigit? at h
    split at h
    · rename_i hlower
      exact .inl hlower
    · split at h
      · rename_i hupper
        exact .inr hupper
      · cases h
  simp only [isBlank, Bool.or_eq_false_iff, Bool.and_eq_false_iff, beq_eq_false_iff_ne, decide_eq_false_iff_not]
  omega

theorem isBlank_of_digitIn? (h : digitIn? base c = some d) : isBlank c = false := by
  have hor := (Option.filter_eq_some_iff.mp h).1
  rcases Option.or_eq_some_iff.mp hor with hd | ⟨-, hd⟩
  · exact isBlank_of_digit? hd
  · exact isBlank_of_letterDigit? hd

theorem digitIn?_eq_none (hdigit : digit? c = none) (hletter : letterDigit? c = none) (base : Nat) :
    digitIn? base c = none := by
  rw [digitIn?, hdigit, hletter]
  rfl

/-! ### Trimming -/

theorem exists_eq_trim (s : List Char) :
    ∃ before after, s = before ++ trim s ++ after ∧ ∀ c ∈ before ++ after, isBlank c = true := by
  refine ⟨s.takeWhile isBlank, ((s.dropWhile isBlank).reverse.takeWhile isBlank).reverse, ?_, fun c hc => ?_⟩
  · rw [trim, List.append_assoc, ← List.reverse_append, List.takeWhile_append_dropWhile, List.reverse_reverse,
      List.takeWhile_append_dropWhile]
  · rcases List.mem_append.mp hc with hc | hc
    · exact List.mem_takeWhile_imp hc
    · exact List.mem_takeWhile_imp (List.mem_reverse.mp hc)

theorem dropWhile_blanks (hbefore : ∀ c ∈ before, isBlank c = true) (hs : ∀ c, s.head? = some c → isBlank c = false) :
    (before ++ s).dropWhile isBlank = s := by
  rw [List.dropWhile_append_of_pos hbefore]
  cases s with
  | nil => rfl
  | cons c s =>
    refine List.dropWhile_cons_of_neg ?_
    rw [hs c rfl]
    exact Bool.false_ne_true

/-- A text that neither begins nor ends with a blank is what remains when the blanks around it go. -/
theorem trim_append (hblank : ∀ c ∈ before ++ after, isBlank c = true) (hne : s ≠ [])
    (hfirst : ∀ c, s.head? = some c → isBlank c = false) (hlast : ∀ c, s.getLast? = some c → isBlank c = false) :
    trim (before ++ s ++ after) = s := by
  have hbefore : (before ++ (s ++ after)).dropWhile isBlank = s ++ after := by
    obtain ⟨c, t, rfl⟩ := List.exists_cons_of_ne_nil hne
    exact dropWhile_blanks (fun c hc => hblank c (List.mem_append_left after hc)) hfirst
  have hafter : (after.reverse ++ s.reverse).dropWhile isBlank = s.reverse := by
    refine dropWhile_blanks (fun c hc => hblank c (List.mem_append_right before (List.mem_reverse.mp hc))) fun c hc => hlast c ?_
    rwa [List.head?_reverse] at hc
  rw [trim, List.append_assoc, hbefore, List.reverse_append, hafter, List.reverse_reverse]

end Text

namespace Numeral
open Text
variable {base n d : Nat} {c : Char} {s t : List Char} {i : Int} {text : String}

/-- Digits of a base with single underscores between them, and the number that they denote. -/
inductive DigitRun (base : Nat) : List Char → Nat → Prop
  | single {c : Char} {d : Nat} (h : digitIn? base c = some d) : DigitRun base [c] d
  | next {s : List Char} {n : Nat} {c : Char} {d : Nat} (hs : DigitRun base s n) (h : digitIn? base c = some d) :
    DigitRun base (s ++ [c]) (base * n + d)
  | apart {s : List Char} {n : Nat} {c : Char} {d : Nat} (hs : DigitRun base s n) (h : digitIn? base c = some d) :
    DigitRun base (s ++ ['_', c]) (base * n + d)

/-- A number without a sign: decimal digits, of which the first is zero only if all are, or digits after a base mark and perhaps
an underscore. -/
inductive Literal : List Char → Nat → Prop
  | decimal {s : List Char} {n : Nat} (h : DigitRun 10 s n) (hlen : s.countP (· != '_') ≤ maxDigits)
    (hzero : n = 0 ∨ s.head?.bind digit? ≠ some 0) : Literal s n
  | marked {z mark : Char} {base : Nat} {s : List Char} {n : Nat} (hz : digit? z = some 0)
    (hmark : baseMark? mark = some base) (h : DigitRun base s n) : Literal (z :: mark :: s) n
  | markedSpaced {z mark : Char} {base : Nat} {s : List Char} {n : Nat} (hz : digit? z = some 0)
    (hmark : baseMark? mark = some base) (h : DigitRun base s n) : Literal (z :: mark :: '_' :: s) n

inductive SignedLiteral : List Char → Int → Prop
  | bare {s : List Char} {n : Nat} (h : Literal s n) : SignedLiteral s n
  | plus {s : List Char} {n : Nat} (h : Literal s n) : SignedLiteral ('+' :: s) n
  | minus {s : List Char} {n : Nat} (h : Literal s n) : SignedLiteral ('-' :: s) (-n)

/-- The text is a numeral of `i` with blanks around it. -/
def Spells (text : String) (i : Int) : Prop :=
  ∃ before s after, text.toList = before ++ s ++ after ∧ (∀ c ∈ before ++ after, isBlank c = true) ∧ SignedLiteral s i

/-! ### Runs of digits -/

theorem digitIn?_underscore (base : Nat) : digitIn? base '_' = none := digitIn?_eq_none (by decide) (by decide) base

theorem ne_underscore (h : digitIn? base c = some d) : c ≠ '_' := by
  rintro rfl
  rw [digitIn?_underscore] at h
  cases h

theorem isDigitOr_of_digit (h : digitIn? base c = some d) : isDigitOr base c = true := by
  rw [isDigitOr, h]
  exact Bool.or_true _

theorem exists_digit (h : isDigitOr base c = true) (hc : c ≠ '_') : ∃ d, digitIn? base c = some d := by
  rw [isDigitOr, Bool.or_eq_true, beq_iff_eq] at h
  exact Option.isSome_iff_exists.mp (h.resolve_left hc)

theorem spaced_append (hs : spaced s = true) (ht : spaced t = true) :
    spaced (s ++ t) = true ∧ spaced (s ++ '_' :: t) = true := by
  obtain ⟨c, u, rfl⟩ : ∃ c u, t = c :: u := by
    cases t with
    | nil => cases ht
    | cons c u => exact ⟨c, u, rfl⟩
  have hc : c ≠ '_' := by
    rintro rfl
    cases u <;> simp [spaced] at ht
  fun_induction spaced s with
  | case1 => cases hs
  | case2 a =>
    rw [bne_iff_ne] at hs
    simp [spaced, hs, hc, ht]
  | case3 a b s ih₂ ih₁ =>
    simp only [Bool.and_eq_true, bne_iff_ne] at hs
    obtain ⟨ha, hrest⟩ := hs
    split at hrest
    · rename_i hb
      simp [spaced, ha, hb, ih₂ hrest]
    · rename_i hb
      simpa [spaced, ha, hb] using ih₁ hrest

theorem magnitude_append_digit (s : List Char) (h : digitIn? base c = some d) :
    magnitude base (s ++ [c]) = base * magnitude base s + d := by
  simp only [magnitude, List.filterMap_append, List.filterMap_cons, h, List.filterMap_nil, List.foldl_append, List.foldl_cons,
    List.foldl_nil]

theorem magnitude_append_underscore (s t : List Char) : magnitude base (s ++ '_' :: t) = magnitude base (s ++ t) := by
  simp only [magnitude, List.filterMap_append, List.filterMap_cons, digitIn?_underscore]

theorem DigitRun.reads (h : DigitRun base s n) :
    (∀ c ∈ s, isDigitOr base c = true) ∧ spaced s = true ∧ magnitude base s = n := by
  have hlast {c : Char} {d : Nat} (h : digitIn? base c = some d) : (∀ c' ∈ [c], isDigitOr base c' = true) ∧ spaced [c] = true :=
    ⟨List.forall_mem_singleton.mpr (isDigitOr_of_digit h), bne_iff_ne.mpr (ne_underscore h)⟩
  induction h with
  | single h =>
    refine ⟨(hlast h).1, (hlast h).2, ?_⟩
    rw [← List.nil_append [_], magnitude_append_digit [] h]
    exact Nat.zero_add _
  | next hs h ih =>
    obtain ⟨hall, hspaced, rfl⟩ := ih
    exact ⟨List.forall_mem_append.mpr ⟨hall, (hlast h).1⟩, (spaced_append hspaced (hlast h).2).1, magnitude_append_digit _ h⟩
  | apart hs h ih =>
    obtain ⟨hall, hspaced, rfl⟩ := ih
    refine ⟨List.forall_mem_append.mpr ⟨hall, List.forall_mem_cons.mpr ⟨rfl, (hlast h).1⟩⟩,
      (spaced_append hspaced (hlast h).2).2, ?_⟩
    rw [magnitude_append_underscore, magnitude_append_digit _ h]

/-- A digit may follow, after the number `n`. -/
def Continues (base : Nat) (s : List Char) (n : Nat) : Prop :=
  ∀ c d, digitIn? base c = some d → DigitRun base (s ++ [c]) (base * n + d)

theorem continues_nil (base : Nat) : Continues base [] 0 := by
  intro c d h
  rw [Nat.mul_zero, Nat.zero_add]
  exact .single h

theorem DigitRun.continues (hs : DigitRun base s n) : Continues base s n := fun _ _ h => .next hs h

theorem DigitRun.continues_underscore (hs : DigitRun base s n) : Continues base (s ++ ['_']) n := by
  intro c d h
  rw [List.append_assoc]
  exact .apart hs h

/-- Wherever a digit may follow, a whole run may. -/
theorem Continues.digitRun (hs : Continues base s n) (ht : spaced t = true) (hdigits : ∀ c ∈ t, isDigitOr base c = true) :
    DigitRun base (s ++ t) ((t.filterMap (digitIn? base)).foldl (fun n d => base * n + d) n) := by
  fun_induction spaced t generalizing s n with
  | case1 => cases ht
  | case2 c =>
    obtain ⟨d, h⟩ := exists_digit (hdigits c (List.mem_singleton_self c)) (bne_iff_ne.mp ht)
    simpa [h] using hs c d h
  | case3 c e u ih₂ ih₁ =>
    rw [Bool.and_eq_true, bne_iff_ne] at ht
    obtain ⟨hc, hrest⟩ := ht
    obtain ⟨hfirst, htail⟩ := List.forall_mem_cons.mp hdigits
    obtain ⟨d, h⟩ := exists_digit hfirst hc
    have hrun := hs c d h
    split at hrest
    · rename_i he
      subst he
      have hu := ih₂ hrun.continues_underscore hrest (List.forall_mem_cons.mp htail).2
      simpa [h, digitIn?_underscore] using hu
    · have hu := ih₁ hrun.continues hrest htail
      simpa [h] using hu

theorem digitRun_iff : DigitRun base s n ↔
    (∀ c ∈ s, isDigitOr base c = true) ∧ spaced s = true ∧ magnitude base s = n := by
  refine ⟨DigitRun.reads, ?_⟩
  rintro ⟨hdigits, hspaced, rfl⟩
  exact (continues_nil base).digitRun hspaced hdigits

theorem unsigned_of_digits (h : ∀ c ∈ s, isDigitOr base c = true) : unsigned base s =
    if !spaced s then .error .malformed
    else if base = 10 ∧ maxDigits < s.countP (· != '_') then .error (.tooLong (s.countP (· != '_')))
    else .ok (magnitude base s) := by
  have hrun : s.takeWhile (isDigitOr base) = s := List.takeWhile_eq_self_iff.mpr h
  simp only [unsigned, hrun, Nat.lt_irrefl, ↓reduceIte]

theorem unsigned_ne_ok (h : ¬ ∀ c ∈ s, isDigitOr base c = true) : unsigned base s ≠ .ok n := by
  have hlt : (s.takeWhile (isDigitOr base)).length < s.length := by
    refine Nat.lt_of_not_le fun hle => h ?_
    exact List.takeWhile_eq_self_iff.mp ((List.takeWhile_prefix _).eq_of_length_le hle)
  intro hok
  simp only [unsigned, hlt, ↓reduceIte] at hok
  split at hok
  · cases hok
  · split at hok <;> cases hok

theorem unsigned_eq_ok : unsigned base s = .ok n ↔
    DigitRun base s n ∧ ¬ (base = 10 ∧ maxDigits < s.countP (· != '_')) := by
  rw [digitRun_iff]
  by_cases hdigits : ∀ c ∈ s, isDigitOr base c = true
  · rw [unsigned_of_digits hdigits, and_iff_right hdigits]
    split
    · rename_i hspaced
      exact iff_of_false nofun fun h => by simp [h.1.1] at hspaced
    · rename_i hspaced
      rw [Bool.not_eq_true, Bool.not_eq_false'] at hspaced
      split
      · rename_i hlen
        exact iff_of_false nofun fun h => h.2 hlen
      · rename_i hlen
        rw [Except.ok.injEq, and_iff_left hlen, and_iff_right hspaced]
  · exact iff_of_false (unsigned_ne_ok hdigits) fun h => hdigits h.1.1

theorem exists_eq_cons_of_digitRun (h : DigitRun base s n) : ∃ c t d, s = c :: t ∧ digitIn? base c = some d := by
  induction h with
  | @single c d h => exact ⟨c, [], d, rfl, h⟩
  | next hs h ih | apart hs h ih =>
    obtain ⟨c, t, d, rfl, hc⟩ := ih
    exact ⟨c, _, _, rfl, hc⟩

theorem exists_getLast?_of_digitRun (h : DigitRun base s n) : ∃ c d, s.getLast? = some c ∧ digitIn? base c = some d := by
  induction h with
  | single h => exact ⟨_, _, rfl, h⟩
  | next hs h => exact ⟨_, _, List.getLast?_concat, h⟩
  | apart hs h => exact ⟨_, _, by rw [List.getLast?_append]; rfl, h⟩

/-! ### Base marks -/

theorem plain_of_ok {m : Nat} (h : unsigned 10 (c :: s) = .ok m) :
    plain (c :: s) = if digit? c = some 0 ∧ m ≠ 0 then .error .malformed else .ok m := by
  simp only [plain, h, bind, Except.bind]
  split <;> rfl

theorem plain_of_error {e : IntegerError} (h : unsigned 10 (c :: s) = .error e) : plain (c :: s) = .error e := by
  simp only [plain, h, bind, Except.bind]

theorem plain_eq_ok : plain s = .ok n ↔
    DigitRun 10 s n ∧ s.countP (· != '_') ≤ maxDigits ∧ (n = 0 ∨ s.head?.bind digit? ≠ some 0) := by
  cases s with
  | nil =>
    refine iff_of_false nofun fun h => ?_
    obtain ⟨c, t, d, heq, -⟩ := exists_eq_cons_of_digitRun h.1
    cases heq
  | cons c s =>
    have hunsigned : unsigned 10 (c :: s) = .ok n ↔ DigitRun 10 (c :: s) n ∧ (c :: s).countP (· != '_') ≤ maxDigits := by
      rw [unsigned_eq_ok, not_and, Nat.not_lt, imp_iff_right rfl]
    rw [← and_assoc, ← hunsigned]
    cases hread : unsigned 10 (c :: s) with
    | error e =>
      rw [plain_of_error hread]
      exact iff_of_false nofun fun h => nomatch h.1
    | ok m =>
      rw [plain_of_ok hread]
      split
      · rename_i hzero
        refine iff_of_false nofun ?_
        rintro ⟨⟨⟩, hn | hfirst⟩
        · exact hzero.2 hn
        · exact hfirst hzero.1
      · rename_i hzero
        refine ⟨fun heq => ⟨heq, ?_⟩, And.left⟩
        cases heq
        by_cases hn : n = 0
        · exact .inl hn
        · exact .inr fun hfirst => hzero ⟨hfirst, hn⟩

/-- A mark names a base other than ten, and is no decimal digit. -/
theorem of_baseMark? (h : baseMark? c = some base) : base ≠ 10 ∧ isDigitOr 10 c = false := by
  unfold baseMark? at h
  split at h
  all_goals
    cases h
  all_goals
    exact ⟨by decide, by decide⟩

/-- What follows a base mark, without the underscore that may stand there. -/
def afterMark (s : List Char) : List Char := if s.head? = some '_' then s.tail else s

theorem marked_of_mark {z mark : Char} (hz : digit? z = some 0) (hmark : baseMark? mark = some base) :
    marked (z :: mark :: s) = unsigned base (afterMark s) := by
  simp only [marked, hz, hmark, ↓reduceIte, afterMark]

/-- The text begins with a base mark. -/
def HasMark (s : List Char) : Prop :=
  ∃ z mark t base, s = z :: mark :: t ∧ digit? z = some 0 ∧ baseMark? mark = some base

theorem marked_of_not_hasMark (h : ¬ HasMark s) : marked s = plain s := by
  match s with
  | [] | [_] => rfl
  | z :: mark :: t =>
    by_cases hz : digit? z = some 0
    · cases hmark : baseMark? mark with
      | none => simp only [marked, hz, hmark, ↓reduceIte]
      | some base => exact absurd ⟨z, mark, t, base, rfl, hz, hmark⟩ h
    · simp only [marked, hz, ↓reduceIte]

theorem afterMark_of_digitRun (h : DigitRun base s n) : afterMark s = s := by
  obtain ⟨c, t, d, rfl, hc⟩ := exists_eq_cons_of_digitRun h
  refine if_neg fun heq => ne_underscore hc ?_
  exact Option.some.inj heq

theorem literal_of_afterMark {z mark : Char} (hz : digit? z = some 0) (hmark : baseMark? mark = some base)
    (h : DigitRun base (afterMark s) n) : Literal (z :: mark :: s) n := by
  by_cases hs : s.head? = some '_'
  · rw [afterMark, if_pos hs] at h
    obtain ⟨t, rfl⟩ := List.head?_eq_some_iff.mp hs
    exact .markedSpaced hz hmark h
  · rw [afterMark, if_neg hs] at h
    exact .marked hz hmark h

/-- A mark is no digit of a decimal number. -/
theorem not_hasMark_of_digitRun (h : DigitRun 10 s n) : ¬ HasMark s := by
  rintro ⟨z, mark, t, base, rfl, -, hmark⟩
  have hdigit := h.reads.1 mark (by simp)
  rw [(of_baseMark? hmark).2] at hdigit
  cases hdigit

theorem marked_eq_ok : marked s = .ok n ↔ Literal s n := by
  constructor
  · intro h
    by_cases hs : HasMark s
    · obtain ⟨z, mark, t, base, rfl, hz, hmark⟩ := hs
      rw [marked_of_mark hz hmark, unsigned_eq_ok] at h
      exact literal_of_afterMark hz hmark h.1
    · rw [marked_of_not_hasMark hs, plain_eq_ok] at h
      obtain ⟨hrun, hlen, hzero⟩ := h
      exact .decimal hrun hlen hzero
  · intro h
    cases h with
    | decimal h hlen hzero =>
      rw [marked_of_not_hasMark (not_hasMark_of_digitRun h), plain_eq_ok]
      exact ⟨h, hlen, hzero⟩
    | marked hz hmark h =>
      rw [marked_of_mark hz hmark, afterMark_of_digitRun h, unsigned_eq_ok]
      exact ⟨h, fun hten => (of_baseMark? hmark).1 hten.1⟩
    | markedSpaced hz hmark h =>
      rw [marked_of_mark hz hmark]
      exact unsigned_eq_ok.mpr ⟨h, fun hten => (of_baseMark? hmark).1 hten.1⟩

/-! ### Signs and blanks -/

theorem exists_eq_cons_of_literal (h : Literal s n) : ∃ c t d, s = c :: t ∧ digitIn? 10 c = some d := by
  cases h with
  | decimal h hlen hzero => exact exists_eq_cons_of_digitRun h
  | marked hz hmark h => exact ⟨_, _, 0, rfl, by rw [digitIn?, hz]; rfl⟩
  | markedSpaced hz hmark h => exact ⟨_, _, 0, rfl, by rw [digitIn?, hz]; rfl⟩

theorem exists_getLast?_of_literal (h : Literal s n) :
    ∃ c base d, s.getLast? = some c ∧ digitIn? base c = some d := by
  cases h with
  | decimal h hlen hzero =>
    obtain ⟨c, d, hc, hd⟩ := exists_getLast?_of_digitRun h
    exact ⟨c, 10, d, hc, hd⟩
  | marked hz hmark h =>
    obtain ⟨c, d, hc, hd⟩ := exists_getLast?_of_digitRun h
    refine ⟨c, _, d, ?_, hd⟩
    rw [List.getLast?_cons, List.getLast?_cons, hc]
    rfl
  | markedSpaced hz hmark h =>
    obtain ⟨c, d, hc, hd⟩ := exists_getLast?_of_digitRun h
    refine ⟨c, _, d, ?_, hd⟩
    rw [List.getLast?_cons, List.getLast?_cons, List.getLast?_cons, hc]
    rfl

theorem map_eq_ok {ε α β : Type} {x : Except ε α} {f : α → β} {b : β} :
    x.map f = .ok b ↔ ∃ a, x = .ok a ∧ f a = b := by
  cases x with
  | error e => exact iff_of_false nofun nofun
  | ok a => simp [Except.map]

theorem signed_minus (s : List Char) : signed marked ('-' :: s) = (marked s).map fun n : Nat => -(n : Int) := by
  show (marked s >>= fun n => pure (n : Int)).map (fun n => -n) = _
  cases marked s <;> rfl

theorem signed_plus (s : List Char) : signed marked ('+' :: s) = (marked s).map Int.ofNat := rfl

theorem signed_bare (h : digitIn? base c = some d) (t : List Char) :
    signed marked (c :: t) = (marked (c :: t)).map Int.ofNat := by
  have hminus : c ≠ '-' := by
    rintro rfl
    rw [digitIn?_eq_none (by decide) (by decide)] at h
    cases h
  have hplus : c ≠ '+' := by
    rintro rfl
    rw [digitIn?_eq_none (by decide) (by decide)] at h
    cases h
  unfold signed
  split
  · rename_i heq
    exact absurd (List.cons.inj heq).1 hminus
  · rename_i heq
    exact absurd (List.cons.inj heq).1 hplus
  · rfl

theorem signed_eq_ok : signed marked s = .ok i ↔ SignedLiteral s i := by
  constructor
  · intro h
    by_cases hminus : ∃ t, s = '-' :: t
    · obtain ⟨t, rfl⟩ := hminus
      rw [signed_minus, map_eq_ok] at h
      obtain ⟨n, hn, rfl⟩ := h
      exact .minus (marked_eq_ok.mp hn)
    · unfold signed at h
      split at h
      · exact absurd ⟨_, rfl⟩ hminus
      · obtain ⟨n, hn, rfl⟩ := map_eq_ok.mp h
        exact .plus (marked_eq_ok.mp hn)
      · obtain ⟨n, hn, rfl⟩ := map_eq_ok.mp h
        exact .bare (marked_eq_ok.mp hn)
  · intro h
    cases h with
    | minus h =>
      rw [signed_minus]
      exact map_eq_ok.mpr ⟨_, marked_eq_ok.mpr h, rfl⟩
    | plus h =>
      rw [signed_plus]
      exact map_eq_ok.mpr ⟨_, marked_eq_ok.mpr h, rfl⟩
    | bare h =>
      obtain ⟨c, t, d, rfl, hc⟩ := exists_eq_cons_of_literal h
      rw [signed_bare hc]
      exact map_eq_ok.mpr ⟨_, marked_eq_ok.mpr h, rfl⟩

/-- A numeral neither begins nor ends with a blank. -/
theorem edges_of_signedLiteral (h : SignedLiteral s i) :
    s ≠ [] ∧ (∀ c, s.head? = some c → isBlank c = false) ∧ ∀ c, s.getLast? = some c → isBlank c = false := by
  have hlast {s : List Char} {n : Nat} (h : Literal s n) : ∃ c, s.getLast? = some c ∧ isBlank c = false := by
    obtain ⟨c, base, d, hc, hd⟩ := exists_getLast?_of_literal h
    exact ⟨c, hc, isBlank_of_digitIn? hd⟩
  cases h with
  | bare h =>
    obtain ⟨e, he, hblank⟩ := hlast h
    obtain ⟨c, t, d, rfl, hc⟩ := exists_eq_cons_of_literal h
    refine ⟨List.cons_ne_nil c t, ?_, ?_⟩
    · rintro _ ⟨⟩
      exact isBlank_of_digitIn? hc
    · rintro x hx
      cases he.symm.trans hx
      exact hblank
  | plus h | minus h =>
    obtain ⟨e, he, hblank⟩ := hlast h
    refine ⟨List.cons_ne_nil _ _, ?_, ?_⟩
    · rintro _ ⟨⟩
      decide
    · rintro x hx
      rw [List.getLast?_cons, he] at hx
      cases hx
      exact hblank

theorem anyBase_eq_ok : anyBase text = .ok i ↔ Spells text i := by
  constructor
  · intro h
    obtain ⟨before, after, htext, hblank⟩ := exists_eq_trim text.toList
    exact ⟨before, _, after, htext, hblank, signed_eq_ok.mp h⟩
  · rintro ⟨before, s, after, htext, hblank, h⟩
    obtain ⟨hne, hfirst, hlast⟩ := edges_of_signedLiteral h
    rw [anyBase, htext, trim_append hblank hne hfirst hlast, signed_eq_ok]
    exact h

example : Spells " +0X_f_F " 255 := anyBase_eq_ok.mp rfl

theorem isTooLongToShow_iff : isTooLongToShow i = true ↔ 10 ^ maxDigits ≤ i.natAbs := by
  rw [isTooLongToShow, Nat.pow_eq, decide_eq_true_iff]

end Numeral
end Chip8
