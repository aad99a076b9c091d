import Chip8.Operand.Arithmetic
import Chip8.Operand.Order
import Mathlib.Data.Int.ModEq

/-! # Addresses are residues

In a space that has cells an integer is an address by its remainder, so addresses of one space are built, added, subtracted and
compared as residues are (`ActAsResidues`). Two spaces have nothing in common: an address of one is refused wherever one of the
other is wanted, and differs from all of them (`StayApart`). Whatever the operands, an address that comes out of an operation
lies in the space of every address that went in (`liesIn_of_combine`). -/

namespace Chip8

/-! ### Order of integers -/

namespace Relation

/-- Whether the relation holds of two integers. -/
def ofInts : Relation → Int → Int → Bool
  | lt, x, y => x < y
  | le, x, y => x ≤ y
  | gt, x, y => x > y
  | ge, x, y => x ≥ y

theorem holds_compare (rel : Relation) (x y : Int) : rel.holds (compare x y) = rel.ofInts x y := by
  rcases Int.lt_trichotomy x y with h | rfl | h
  · rw [compare_lt_iff_lt.mpr h]
    cases rel <;> simp [ofInts, holds] <;> omega
  · rw [compare_eq_iff_eq.mpr rfl]
    cases rel <;> simp [ofInts, holds]
  · rw [compare_gt_iff_gt.mpr h]
    cases rel <;> simp [ofInts, holds] <;> omega

theorem holds_compare_natCast (rel : Relation) (m n : Nat) : rel.holds (compare m n) = rel.ofInts m n := by
  rw [← holds_compare]
  rcases Nat.lt_trichotomy m n with h | rfl | h
  · rw [compare_lt_iff_lt.mpr h, compare_lt_iff_lt.mpr (Int.ofNat_lt.mpr h)]
  · rw [compare_eq_iff_eq.mpr rfl, compare_eq_iff_eq.mpr rfl]
  · rw [compare_gt_iff_gt.mpr h, compare_gt_iff_gt.mpr (Int.ofNat_lt.mpr h)]

end Relation

namespace Numeral.Binary

theorem scaled_ofInt (n : Int) : scaled (n < 0) n.natAbs 0 0 = n := by
  have hone : Nat.pow 2 (0 - 0 : Int).toNat = 1 := rfl
  simp only [scaled, hone, decide_eq_true_eq]
  split <;> omega

theorem compare?_ofInt (m n : Int) : (ofInt m).compare? (ofInt n) = some (compare m n) := by
  show some (compare (scaled (m < 0) m.natAbs 0 0) (scaled (n < 0) n.natAbs 0 0)) = _
  rw [scaled_ofInt, scaled_ofInt]

end Numeral.Binary

namespace Space
variable {s : Space} {hs : 0 < s.capacity} {a b : Int}

theorem val_modEq (s : Space) (hs : 0 < s.capacity) (n : Int) : ((s.reduce n hs).val : Int) ≡ n [ZMOD s.capacity] := by
  rw [s.val_reduce n hs]
  exact Int.mod_modEq n s.capacity

theorem reduce_eq_iff : s.reduce a hs = s.reduce b hs ↔ a ≡ b [ZMOD s.capacity] := by
  rw [Fin.ext_iff, ← Int.natCast_inj, s.val_reduce, s.val_reduce]
  rfl

end Space

/-- The address of an integer. -/
def Address.ofInt (s : Space) (hs : 0 < s.capacity) (n : Int) : Address := ⟨s, s.reduce n hs⟩

namespace Operand
variable {s t : Space} {hs : 0 < s.capacity} {ht : 0 < t.capacity} {a b : Int} {v w : Operand} {c : Address}

def residue (s : Space) (hs : 0 < s.capacity) (n : Int) : Operand := address (.ofInt s hs n)

/-! ### One space -/

theorem residue_congr (h : a ≡ b [ZMOD s.capacity]) : residue s hs a = residue s hs b := by
  rw [residue, Address.ofInt, Space.reduce_eq_iff.mpr h, residue, Address.ofInt]

theorem reduceInto_of_pos (hs : 0 < s.capacity) (n : Int) : reduceInto s n = .ok (s.reduce n hs) := dif_pos hs

theorem toAddress_int (hs : 0 < s.capacity) (n : Int) : toAddress s (int n) = .ok (residue s hs n) := by
  have hwithin : (int n).within s = reduceInto s n := rfl
  rw [toAddress, hwithin, reduceInto_of_pos hs]
  rfl

theorem toAddress_residue (a : Int) : toAddress s (residue s hs a) = .ok (residue s hs a) := by
  have hwithin : (residue s hs a).within s = reduceInto s (s.reduce a hs).val := if_pos rfl
  rw [toAddress, hwithin, reduceInto_of_pos hs]
  exact congrArg Except.ok (residue_congr (s.val_modEq hs a))

theorem combineInto_of_pos (hs : 0 < s.capacity) (n : Int) : combineInto s n = .ok (residue s hs n) := by
  rw [combineInto, reduceInto_of_pos hs]
  rfl

theorem apply_modEq {a' b' : Int} (op : AddOp) (ha : a ≡ a' [ZMOD s.capacity]) (hb : b ≡ b' [ZMOD s.capacity]) :
    op.apply a b ≡ op.apply a' b' [ZMOD s.capacity] := by
  cases op with
  | add => exact ha.add hb
  | sub => exact ha.sub hb

theorem combine_residue_int (op : AddOp) (a b : Int) :
    combine op (residue s hs a) (int b) = .ok (residue s hs (op.apply a b)) := by
  have hcombine : combine op (residue s hs a) (int b) = combineInto s (op.apply (s.reduce a hs).val b) := rfl
  rw [hcombine, combineInto_of_pos hs, residue_congr (apply_modEq op (s.val_modEq hs a) rfl)]

theorem combine_residue_residue (op : AddOp) (a b : Int) :
    combine op (residue s hs a) (residue s hs b) = .ok (residue s hs (op.apply a b)) := by
  have hcombine : combine op (residue s hs a) (residue s hs b) =
      combineInto s (op.apply (s.reduce a hs).val (s.reduce b hs).val) := if_pos rfl
  rw [hcombine, combineInto_of_pos hs, residue_congr (apply_modEq op (s.val_modEq hs a) (s.val_modEq hs b))]

theorem add_int_residue (a b : Int) : add (int b) (residue s hs a) = .ok (residue s hs (a + b)) := by
  have hadd : add (int b) (residue s hs a) = combineInto s ((s.reduce a hs).val + b) := rfl
  rw [hadd, combineInto_of_pos hs, residue_congr ((s.val_modEq hs a).add_right b)]

theorem equal_address {p q : Address} : equal (address p) (address q) = true ↔ p = q := by
  obtain ⟨s, x⟩ := p
  obtain ⟨t, y⟩ := q
  have hequal : equal (address ⟨s, x⟩) (address ⟨t, y⟩) =
    ((if s = t then some (some (Ord.compare x.val y.val)) else none) == some (some .eq)) := rfl
  rw [hequal]
  by_cases hst : s = t
  · subst hst
    simp [Fin.ext_iff]
  · simp [hst]

theorem equal_residue : equal (residue s hs a) (residue s hs b) = true ↔ a ≡ b [ZMOD s.capacity] := by
  rw [← @Space.reduce_eq_iff s hs, residue, residue, equal_address]
  exact ⟨fun h => eq_of_heq (Address.mk.inj h).2, fun h => congrArg (Address.mk s) h⟩

theorem compare_residue (rel : Relation) (a b : Int) :
    compare rel (residue s hs a) (residue s hs b) = .ok (rel.ofInts (a % s.capacity) (b % s.capacity)) := by
  have horder : (residue s hs a).order? (residue s hs b) =
      some (some (Ord.compare (s.reduce a hs).val (s.reduce b hs).val)) := if_pos rfl
  rw [compare, horder, ← s.val_reduce a hs, ← s.val_reduce b hs, ← rel.holds_compare_natCast]

theorem compare_int (rel : Relation) (x y : Int) : compare rel (int x) (int y) = .ok (rel.ofInts x y) := by
  have horder : (int x).order? (int y) = some ((Numeral.Binary.ofInt x).compare? (Numeral.Binary.ofInt y)) := rfl
  rw [compare, horder, Numeral.Binary.compare?_ofInt]
  exact congrArg Except.ok (rel.holds_compare x y)

theorem emod_ne_self_iff (hs : 0 < s.capacity) (n : Int) : n % s.capacity ≠ n ↔ ¬ (0 ≤ n ∧ n < s.capacity) := by
  rw [ne_eq, not_congr]
  constructor
  · intro h
    rw [← h]
    exact ⟨Int.emod_nonneg n (by omega), Int.emod_lt_of_pos n (by omega)⟩
  · exact fun h => Int.emod_eq_of_lt h.1 h.2

theorem isOverflow_int (hs : 0 < s.capacity) (n : Int) : isOverflow s (int n) = .ok (decide (n % s.capacity ≠ n)) := by
  rw [isOverflow, compare_int, compare_int]
  simp only [emod_ne_self_iff hs n, Relation.ofInts, bind, Except.bind, decide_eq_true_eq]
  by_cases h : 0 ≤ n
  · simp only [h, ↓reduceIte, true_and, decide_not]
    rfl
  · simp only [h, ↓reduceIte, false_and, not_false_eq_true, decide_true]
    rfl

/-- What two integers do as addresses of a space. -/
structure ActAsResidues (s : Space) (hs : 0 < s.capacity) (a b : Int) : Prop where
  built : toAddress s (int a) = .ok (residue s hs a)
  rebuilt : toAddress s (residue s hs a) = .ok (residue s hs a)
  value : (residue s hs a).toInt = .ok (a % s.capacity) ∧ 0 ≤ a % s.capacity ∧ a % s.capacity < s.capacity
  add_int : add (residue s hs a) (int b) = .ok (residue s hs (a + b))
  int_add : add (int b) (residue s hs a) = .ok (residue s hs (a + b))
  add_address : add (residue s hs a) (residue s hs b) = .ok (residue s hs (a + b))
  sub_int : sub (residue s hs a) (int b) = .ok (residue s hs (a - b))
  sub_address : sub (residue s hs a) (residue s hs b) = .ok (residue s hs (a - b))
  add_sub : (add (residue s hs a) (int b) >>= fun v => sub v (int b)) = .ok (residue s hs a)
  /-- An integer is not taken on the left of a difference. -/
  int_sub : sub (int b) (residue s hs a) = .error (.unsupported "-" "int" s.name)
  equal_iff : equal (residue s hs a) (residue s hs b) = true ↔ a ≡ b [ZMOD s.capacity]
  hash_eq : equal (residue s hs a) (residue s hs b) = true →
    ∀ mix, (Address.ofInt s hs a).hash mix = (Address.ofInt s hs b).hash mix
  ordered : ∀ rel, compare rel (residue s hs a) (residue s hs b) = .ok (rel.ofInts (a % s.capacity) (b % s.capacity))
  overflow : isOverflow s (int a) = .ok (decide (a % s.capacity ≠ a))
  ne_int : equal (residue s hs a) (int b) = false ∧ equal (int b) (residue s hs a) = false

theorem actAsResidues (s : Space) (hs : 0 < s.capacity) (a b : Int) : ActAsResidues s hs a b where
  built := toAddress_int hs a
  rebuilt := toAddress_residue a
  value := ⟨congrArg Except.ok (s.val_reduce a hs), Int.emod_nonneg a (by omega), Int.emod_lt_of_pos a (by omega)⟩
  add_int := combine_residue_int .add a b
  int_add := add_int_residue a b
  add_address := combine_residue_residue .add a b
  sub_int := combine_residue_int .sub a b
  sub_address := combine_residue_residue .sub a b
  add_sub := by
    rw [show add (residue s hs a) (int b) = _ from combine_residue_int .add a b]
    show sub (residue s hs (a + b)) (int b) = _
    rw [show sub (residue s hs (a + b)) (int b) = _ from combine_residue_int .sub (a + b) b]
    exact congrArg (fun n => Except.ok (residue s hs n)) (Int.add_sub_cancel a b)
  int_sub := rfl
  equal_iff := equal_residue
  hash_eq := fun h mix => congrArg (Address.hash mix) (equal_address.mp h)
  ordered := fun rel => compare_residue rel a b
  overflow := isOverflow_int hs a
  ne_int := ⟨rfl, rfl⟩

/-! ### Two spaces -/

/-- What two integers do as addresses of two spaces. -/
structure StayApart (s : Space) (hs : 0 < s.capacity) (t : Space) (ht : 0 < t.capacity) (a b : Int) : Prop where
  not_built : toAddress s (residue t ht b) = .error (.cannotBuild s t)
  not_combined : ∀ op, combine op (residue s hs a) (residue t ht b) = .error (.cannotMix s t)
  not_ordered : ∀ rel, compare rel (residue s hs a) (residue t ht b) = .error (.unordered rel.symbol s.name t.name)
  ne : equal (residue s hs a) (residue t ht b) = false

theorem stayApart (h : s ≠ t) (a b : Int) : StayApart s hs t ht a b where
  not_built := by
    have hwithin : (residue t ht b).within s = .error (.cannotBuild s t) := if_neg h.symm
    rw [toAddress, hwithin]
    rfl
  not_combined := fun op => if_neg h
  not_ordered := fun rel => by
    have horder : (residue s hs a).order? (residue t ht b) = none := if_neg h
    rw [compare, horder]
    rfl
  ne := by
    rw [Bool.eq_false_iff]
    intro heq
    exact h (congrArg Address.space (equal_address.mp heq))

/-- The operand lies in the space if it is an address. -/
def LiesIn (s : Space) : Operand → Prop
  | address a => a.space = s
  | _ => True

theorem liesIn_of_ne_address (h : ∀ p, v = address p → False) : v.LiesIn s := by
  cases v with
  | address p => exact (h p rfl).elim
  | _ => trivial

theorem liesIn_of_toAddress (h : toAddress s v = .ok (address c)) : c.space = s ∧ v.LiesIn s := by
  rw [toAddress] at h
  cases hv : v.within s with
  | error e =>
    rw [hv] at h
    cases h
  | ok x =>
    rw [hv] at h
    cases h
    refine ⟨rfl, ?_⟩
    cases v with
    | address p =>
      by_contra hp
      rw [show (address p).within s = .error (.cannotBuild s p.space) from if_neg hp] at hv
      cases hv
    | _ => trivial

theorem space_of_combineInto {n : Int} (h : combineInto s n = .ok (address c)) : c.space = s := by
  rw [combineInto] at h
  cases hn : reduceInto s n with
  | error e =>
    rw [hn] at h
    cases h
  | ok x =>
    rw [hn] at h
    cases h
    rfl

theorem combinePlain_ne_address (op : AddOp) (v w : Operand) : combinePlain op v w ≠ .ok (address c) := by
  intro h
  unfold combinePlain at h
  split at h
  · cases h
  · split at h
    · cases h
    · split at h
      · rename_i x y hx hy
        cases x with
        | error e => cases h
        | ok x =>
          cases y with
          | error e => cases h
          | ok y => cases h
      · cases h

theorem liesIn_of_combine {op : AddOp} (h : combine op v w = .ok (address c)) : v.LiesIn c.space ∧ w.LiesIn c.space := by
  unfold combine at h
  split at h
  · rename_i p q
    split at h
    · rename_i hpq
      rw [space_of_combineInto h]
      exact ⟨rfl, hpq.symm⟩
    · cases h
  · rename_i p hw
    split at h
    · rw [space_of_combineInto h]
      exact ⟨rfl, liesIn_of_ne_address hw⟩
    · cases h
  · rename_i q hv
    split at h
    · rw [space_of_combineInto h]
      exact ⟨liesIn_of_ne_address hv, rfl⟩
    · cases h
  · exact (combinePlain_ne_address op v w h).elim

/-- In each space that has cells, integers of any size act as residues; addresses of two spaces stay apart; and no address is
built, added or subtracted from an address of another space. -/
theorem addresses_are_residues (s : Space) (hs : 0 < s.capacity) (a b : Int) :
    ActAsResidues s hs a b ∧ (∀ t (ht : 0 < t.capacity), s ≠ t → StayApart s hs t ht a b ∧ StayApart t ht s hs b a) ∧
    (∀ v c, toAddress s v = .ok (address c) → c.space = s ∧ v.LiesIn s) ∧
    ∀ op v w c, combine op v w = .ok (address c) → v.LiesIn c.space ∧ w.LiesIn c.space := by
  refine ⟨actAsResidues s hs a b, fun t ht hst => ?_, fun v c => liesIn_of_toAddress, fun op v w c => liesIn_of_combine⟩
  exact ⟨stayApart hst a b, stayApart hst.symm b a⟩

/-- Below the first cell and far beyond the last one of memory, and next to a register of the same number. -/
theorem addresses_are_residues_wrapping :
    let memory := residue .memory (by decide)
    let register := residue .register (by decide)
    add (memory (-1)) (int (10 ^ 20 + 2)) = .ok (memory (10 ^ 20 + 1)) ∧ (memory (-1)).toInt = .ok 4095 ∧
      isOverflow .memory (int (-1)) = .ok true ∧ (Space.memory ≠ .register) ∧
      add (memory 5) (register 5) = .error (.cannotMix .memory .register) ∧ equal (register 5) (memory 5) = false := by
  intro memory register
  obtain ⟨hacts, -⟩ := addresses_are_residues .memory (by decide) (-1) (10 ^ 20 + 2)
  obtain ⟨-, hapart, -⟩ := addresses_are_residues .memory (by decide) 5 5
  obtain ⟨hfrom, hto⟩ := hapart .register (by decide) (by decide)
  exact ⟨hacts.add_int, hacts.value.1, hacts.overflow, by decide, hfrom.not_combined .add, hto.ne⟩

end Operand
end Chip8
