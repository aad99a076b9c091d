import Chip8.Proofs.Spelling
import Chip8.Proofs.WellFormed
import Mathlib.Algebra.Group.Int.Defs

/-! # The call stack is a list

Sixteen slots and a depth, asked whatever a caller may ask, behave as a list of at most sixteen addresses: `onList` says what the
list answers and becomes, and `Holds s l` that the slots hold `l` and nothing else. One request keeps the two together
(`Holds.serve`), so any number of them does (`Holds.serveAll`), and what is shown of lists holds of the stack. -/

namespace Chip8

namespace Operand
variable {v : Operand} {a : MemoryAddress} {e : OperandError}

/-- The operand is an address of a space other than the memory. -/
def IsForeign (v : Operand) : Prop := ∃ b, v = .address b ∧ b.space ≠ .memory

theorem toMemoryAddress_of_foreign {b : Address} (h : b.space ≠ .memory) :
    (address b).toMemoryAddress = .error (.cannotBuild .memory b.space) := if_neg h

theorem toMemoryAddress_of_not_foreign (h : ¬ v.IsForeign) :
    v.toMemoryAddress = v.toInt.map MemoryAddress.ofInt := by
  cases v with
  | address b =>
    have hb : b.space = .memory := by
      by_contra hb
      exact h ⟨b, rfl, hb⟩
    exact if_pos hb
  | _ => rfl

/-- An operand is taken for the address of the integer that it denotes. -/
theorem toMemoryAddress_eq_ok :
    v.toMemoryAddress = .ok a ↔ ¬ v.IsForeign ∧ ∃ n, v.toInt = .ok n ∧ (a.val : Int) = n % 4096 := by
  by_cases h : v.IsForeign
  · obtain ⟨b, rfl, hb⟩ := h
    rw [toMemoryAddress_of_foreign hb]
    exact iff_of_false nofun fun hn => hn.1 ⟨b, rfl, hb⟩
  · rw [toMemoryAddress_of_not_foreign h, and_iff_right h]
    cases v.toInt with
    | error e => exact iff_of_false nofun nofun
    | ok n =>
      simp only [Except.map, Except.ok.injEq, exists_eq_left', ← MemoryAddress.val_ofInt, Int.natCast_inj, Fin.ext_iff]
      exact eq_comm

/-- An operand is refused if it is a foreign address, or if it denotes no integer. -/
theorem toMemoryAddress_eq_error : v.toMemoryAddress = .error e ↔
    (∃ b, v = .address b ∧ b.space ≠ .memory ∧ e = .cannotBuild .memory b.space) ∨ v.toInt = .error e := by
  by_cases h : v.IsForeign
  · obtain ⟨b, rfl, hb⟩ := h
    rw [toMemoryAddress_of_foreign hb]
    constructor
    · intro he
      exact .inl ⟨b, rfl, hb, (Except.error.inj he).symm⟩
    · rintro (⟨_, ⟨⟩, -, rfl⟩ | he)
      · rfl
      · cases he
  · rw [toMemoryAddress_of_not_foreign h]
    have hleft : ¬ ∃ b, v = .address b ∧ b.space ≠ .memory ∧ e = .cannotBuild .memory b.space :=
      fun ⟨b, hv, hb, _⟩ => h ⟨b, hv, hb⟩
    rw [or_iff_right hleft]
    cases v.toInt with
    | error e => simp only [Except.map, Except.error.injEq]
    | ok n => exact iff_of_false nofun nofun

theorem isTooLongToShow_iff :
    v.isTooLongToShow = true ↔ ∃ n, v = .int n ∧ 10 ^ Numeral.maxDigits ≤ n.natAbs := by
  cases v with
  | int n =>
    rw [show (int n).isTooLongToShow = Numeral.isTooLongToShow n from rfl, Numeral.isTooLongToShow_iff]
    simp only [int.injEq, exists_eq_left']
  | _ => exact iff_of_false nofun nofun

end Operand

/-- What may be asked of a call stack. -/
inductive StackRequest
  | push (v : Operand)
  | pop
  | peek
  | clear

/-- What a call stack answers. -/
inductive StackReply
  | done
  | address (a : MemoryAddress)
  | newest (a : Option MemoryAddress)
deriving DecidableEq

namespace StackRequest

def perform : StackRequest → EStateM Fault CallStack StackReply
  | push v => (fun _ => .done) <$> CallStack.push v
  | pop => .address <$> CallStack.pop
  | peek => fun s => .ok (.newest s.peek?) s
  | clear => fun _ => .ok .done .empty

/-- What a list of addresses answers, and the list after it. -/
def onList (l : List MemoryAddress) : StackRequest → Except Fault StackReply × List MemoryAddress
  | push v =>
    if l.length < CallStack.capacity then
      match v.toMemoryAddress with
      | .ok a => (.ok .done, l ++ [a])
      | .error e => (.error (.operand e), l)
    else if v.isTooLongToShow then (.error (.operand .tooLongToShow), l)
    else (.error (.stackFull v), l)
  | pop =>
    match l.getLast? with
    | some a => (.ok (.address a), l.dropLast)
    | none => (.error .stackEmpty, l)
  | peek => (.ok (.newest l.getLast?), l)
  | clear => (.ok .done, [])

/-- The answers to requests, each asked of what the one before has left, and what the last one leaves. -/
def serveAll {σ : Type} (serve : σ → StackRequest → Except Fault StackReply × σ) :
    σ → List StackRequest → List (Except Fault StackReply) × σ
  | s, [] => ([], s)
  | s, q :: qs =>
    let (r, s) := serve s q
    let (rs, s) := serveAll serve s qs
    (r :: rs, s)

theorem serveAll_append {σ : Type} (serve : σ → StackRequest → Except Fault StackReply × σ) (s : σ)
    (qs qs' : List StackRequest) : serveAll serve s (qs ++ qs') =
      ((serveAll serve s qs).1 ++ (serveAll serve (serveAll serve s qs).2 qs').1,
        (serveAll serve (serveAll serve s qs).2 qs').2) := by
  induction qs generalizing s with
  | nil => rfl
  | cons q qs ih => simp only [List.cons_append, serveAll, ih]

section Lists
variable {l : List MemoryAddress} {v : Operand} {a : MemoryAddress}

theorem onList_push (h : l.length < 16) (hv : v.toMemoryAddress = .ok a) : onList l (.push v) = (.ok .done, l ++ [a]) := by
  simp only [onList, CallStack.capacity, h, ↓reduceIte, hv]

/-- A full list refuses every operand, and says so unless it cannot show the operand. -/
theorem onList_push_of_full (h : l.length = 16) (v : Operand) : onList l (.push v) = (.error (.ofFullStack v), l) := by
  simp only [onList, CallStack.capacity, h, Nat.lt_irrefl, ↓reduceIte, Fault.ofFullStack]
  split <;> rfl

theorem onList_push_overflows (h : l.length = 16) (v : Operand) :
    (onList l (.push v)).1 = .error (.stackFull v) ↔ ¬ ∃ n, v = .int n ∧ 10 ^ Numeral.maxDigits ≤ n.natAbs := by
  rw [onList_push_of_full h, ← Operand.isTooLongToShow_iff, Fault.ofFullStack]
  split
  · rename_i hlong
    exact iff_of_false nofun fun hshort => hshort hlong
  · rename_i hshort
    exact iff_of_true rfl hshort

theorem onList_pop_concat (l : List MemoryAddress) (a : MemoryAddress) :
    onList (l ++ [a]) .pop = (.ok (.address a), l) := by
  simp only [onList, List.getLast?_concat, List.dropLast_concat]

/-- Pushes that fit append what they push. -/
theorem serveAll_push {vs : List Operand} {as : List MemoryAddress} (hvs : vs.map (·.toMemoryAddress) = as.map .ok)
    (h : l.length + vs.length ≤ 16) :
    serveAll onList l (vs.map .push) = (List.replicate vs.length (.ok .done), l ++ as) := by
  induction vs generalizing l as with
  | nil =>
    obtain rfl : as = [] := List.map_eq_nil_iff.mp hvs.symm
    rw [List.append_nil]
    rfl
  | cons v vs ih =>
    obtain ⟨a, as, rfl, hv, hrest⟩ := List.map_eq_cons_iff.mp hvs.symm
    rw [List.length_cons] at h
    have hfirst : onList l (.push v) = (.ok .done, l ++ [a]) := onList_push (by omega) hv.symm
    have hlen : (l ++ [a]).length + vs.length ≤ 16 := by
      rw [List.length_append, List.length_singleton]
      omega
    simp only [List.map_cons, serveAll, hfirst, ih hrest.symm hlen, List.append_assoc, List.singleton_append,
      List.length_cons, List.replicate_succ]

/-- Pops take the newest addresses, the newest first. -/
theorem serveAll_pop (l as : List MemoryAddress) : serveAll onList (l ++ as) (List.replicate as.length .pop) =
    (as.reverse.map fun a => .ok (.address a), l) := by
  induction as using List.reverseRecOn with
  | nil =>
    rw [List.append_nil]
    rfl
  | append_singleton as a ih =>
    rw [List.length_append, List.length_singleton, List.replicate_succ, ← List.append_assoc]
    simp only [serveAll, onList_pop_concat, ih, List.reverse_append, List.reverse_singleton, List.singleton_append,
      List.map_cons]

end Lists

end StackRequest

namespace CallStack
open StackRequest
variable {s s' : CallStack} {l : List MemoryAddress} {v : Operand} {a : MemoryAddress}

/-- The answer to a request, and the stack after it. -/
def serve (s : CallStack) (q : StackRequest) : Except Fault StackReply × CallStack :=
  match q.perform s with
  | .ok r s' => (.ok r, s')
  | .error f s' => (.error f, s')

theorem serve_push (h : s.depth < 16) (hv : v.toMemoryAddress = .ok a) :
    s.serve (.push v) = (.ok .done, s.pushed a h) := by
  simp only [serve, perform, Functor.map, EStateM.map, push_of_lt h hv, pushed]

theorem push_of_error {e : OperandError} (h : s.depth < 16) (hv : v.toMemoryAddress = .error e) :
    push v s = .error (.operand e) s := by
  simp only [push, h, hv, ↓reduceDIte]

theorem serve_push_of_error {e : OperandError} (h : s.depth < 16) (hv : v.toMemoryAddress = .error e) :
    s.serve (.push v) = (.error (.operand e), s) := by
  simp only [serve, perform, Functor.map, EStateM.map, push_of_error h hv]

theorem serve_push_of_full (v : Operand) (h : s.depth = 16) : s.serve (.push v) = (.error (.ofFullStack v), s) := by
  simp only [serve, perform, Functor.map, EStateM.map, push_of_full v h]

theorem serve_pop (h : 0 < s.depth) : s.serve .pop = (.ok (.address (s.top h)), s.popped h) := by
  simp only [serve, perform, Functor.map, EStateM.map, pop_of_pos h]

theorem serve_pop_of_empty (h : s.depth = 0) : s.serve .pop = (.error .stackEmpty, s) := by
  simp only [serve, perform, Functor.map, EStateM.map, pop_of_empty h]

/-- The occupied slots hold `l`, and the free ones are clear. -/
structure Holds (s : CallStack) (l : List MemoryAddress) : Prop where
  toList_eq : s.toList = l
  tidy : s.Tidy

namespace Holds

theorem empty : CallStack.empty.Holds [] := ⟨rfl, tidy_empty⟩

theorem depth_eq (h : s.Holds l) : s.depth = l.length := by rw [← h.toList_eq, length_toList]

theorem length_le (h : s.Holds l) : l.length ≤ 16 := h.depth_eq ▸ s.depth_le

/-- The list says what is in every slot. -/
theorem slots_eq (h : s.Holds l) : s.slots.toList = l ++ List.replicate (16 - l.length) 0 := by
  have hfree : s.slots.toList.drop s.depth = List.replicate (16 - l.length) 0 := by
    rw [List.eq_replicate_iff, List.length_drop, Vector.length_toList, h.depth_eq]
    refine ⟨rfl, fun a ha => ?_⟩
    obtain ⟨j, hj, rfl⟩ := List.mem_iff_getElem.mp ha
    rw [List.length_drop, Vector.length_toList] at hj
    rw [List.getElem_drop, Vector.getElem_toList]
    exact h.tidy _ (by omega) (by rw [h.depth_eq]; exact Nat.le_add_right _ _)
  rw [← List.take_append_drop s.depth s.slots.toList, hfree]
  exact congrArg (· ++ _) h.toList_eq

theorem eq_nil (h : s.Holds l) (hd : s.depth = 0) : l = [] := List.eq_nil_of_length_eq_zero (h.depth_eq ▸ hd)

/-- The newest address is the last one of the list. -/
theorem eq_concat (h : s.Holds l) (hd : 0 < s.depth) : ∃ rest, l = rest ++ [s.top hd] ∧ (s.popped hd).Holds rest :=
  ⟨_, h.toList_eq ▸ s.toList_popped hd, rfl, h.tidy.popped hd⟩

theorem peek?_eq (h : s.Holds l) : s.peek? = l.getLast? := by
  rcases Nat.eq_zero_or_pos s.depth with hd | hd
  · rw [h.eq_nil hd]
    simp only [peek?, hd, Nat.lt_irrefl, ↓reduceDIte, List.getLast?_nil]
  · obtain ⟨rest, rfl, -⟩ := h.eq_concat hd
    simp only [peek?, hd, ↓reduceDIte, List.getLast?_concat, top]

/-- A request is answered as by the list, and leaves what the list becomes. -/
theorem serve (h : s.Holds l) (q : StackRequest) : (s.serve q).1 = (onList l q).1 ∧ (s.serve q).2.Holds (onList l q).2 := by
  cases q with
  | push v =>
    rcases Nat.lt_or_eq_of_le s.depth_le with hd | hd
    · have hlen : l.length < 16 := h.depth_eq ▸ hd
      cases hv : v.toMemoryAddress with
      | ok a =>
        rw [serve_push hd hv, onList_push hlen hv]
        exact ⟨rfl, by rw [s.toList_pushed a hd, h.toList_eq], h.tidy.pushed a hd⟩
      | error e =>
        have hlist : onList l (.push v) = (.error (.operand e), l) := by
          simp only [onList, capacity, hlen, ↓reduceIte, hv]
        rw [serve_push_of_error hd hv, hlist]
        exact ⟨rfl, h⟩
    · rw [serve_push_of_full v hd, onList_push_of_full (h.depth_eq ▸ hd) v]
      exact ⟨rfl, h⟩
  | pop =>
    rcases Nat.eq_zero_or_pos s.depth with hd | hd
    · obtain rfl := h.eq_nil hd
      rw [serve_pop_of_empty hd]
      exact ⟨rfl, h⟩
    · obtain ⟨rest, rfl, hrest⟩ := h.eq_concat hd
      rw [serve_pop hd, onList_pop_concat]
      exact ⟨rfl, hrest⟩
  | peek =>
    have hreply : (s.serve .peek).1 = .ok (.newest s.peek?) := rfl
    rw [hreply, h.peek?_eq]
    exact ⟨rfl, h⟩
  | clear => exact ⟨rfl, .empty⟩

theorem serveAll (h : s.Holds l) (qs : List StackRequest) :
    (StackRequest.serveAll CallStack.serve s qs).1 = (StackRequest.serveAll onList l qs).1 ∧
      (StackRequest.serveAll CallStack.serve s qs).2.Holds (StackRequest.serveAll onList l qs).2 := by
  induction qs generalizing s l with
  | nil => exact ⟨rfl, h⟩
  | cons q qs ih =>
    obtain ⟨hreply, hleft⟩ := h.serve q
    obtain ⟨hreplies, hend⟩ := ih hleft
    refine ⟨?_, hend⟩
    simp only [StackRequest.serveAll, hreply, hreplies]

end Holds

/-- A request that is refused leaves the stack as it was. -/
theorem eq_of_refused {q : StackRequest} {f : Fault} (h : q.perform s = .error f s') : s' = s := by
  have hserve : s.serve q = (.error f, s') := by rw [serve, h]
  cases q with
  | push v =>
    rcases Nat.lt_or_eq_of_le s.depth_le with hd | hd
    · cases hv : v.toMemoryAddress with
      | ok a =>
        rw [serve_push hd hv] at hserve
        cases hserve
      | error e =>
        rw [serve_push_of_error hd hv] at hserve
        cases hserve
        rfl
    · rw [serve_push_of_full v hd] at hserve
      cases hserve
      rfl
  | pop =>
    rcases Nat.eq_zero_or_pos s.depth with hd | hd
    · rw [serve_pop_of_empty hd] at hserve
      cases hserve
      rfl
    · rw [serve_pop hd] at hserve
      cases hserve
  | peek => cases h
  | clear => cases h

/-- Whatever is asked of an empty stack, it answers as a list does, and its slots hold that list: never more than sixteen
addresses, and nothing behind them. A push takes its operand for an address of memory modulo 4096 and refuses addresses of other
spaces and what denotes no integer; a request that is refused changes no slot. So pushes that fit are popped in reverse order. A
push on a full stack is an overflow, unless its operand is an integer with too many digits for the message. -/
theorem requests_refine_list (qs : List StackRequest) :
    let real := serveAll serve empty qs
    let ideal := serveAll onList [] qs
    (real.1 = ideal.1 ∧ real.2.depth = ideal.2.length ∧ ideal.2.length ≤ 16 ∧
      real.2.slots.toList = ideal.2 ++ List.replicate (16 - ideal.2.length) 0) ∧
    (∀ (s s' : CallStack) (q : StackRequest) f, q.perform s = .error f s' → s' = s) ∧
    (∀ (v : Operand) a, v.toMemoryAddress = .ok a ↔
      ¬ v.IsForeign ∧ ∃ n, v.toInt = .ok n ∧ (a.val : Int) = n % 4096) ∧
    (∀ (v : Operand) e, v.toMemoryAddress = .error e ↔
      (∃ b, v = .address b ∧ b.space ≠ .memory ∧ e = .cannotBuild .memory b.space) ∨ v.toInt = .error e) ∧
    (∀ (l : List MemoryAddress) v, l.length = 16 → ((onList l (.push v)).1 = .error (.stackFull v) ↔
      ¬ ∃ n, v = .int n ∧ 10 ^ Numeral.maxDigits ≤ n.natAbs)) ∧
    ∀ (vs : List Operand) (as : List MemoryAddress), vs.map (·.toMemoryAddress) = as.map .ok → vs.length ≤ 16 →
      (serveAll serve empty (vs.map .push ++ List.replicate vs.length .pop)).1 =
        List.replicate vs.length (.ok .done) ++ as.reverse.map fun a => .ok (.address a) := by
  intro real ideal
  obtain ⟨hreplies, hholds⟩ := Holds.empty.serveAll qs
  refine ⟨⟨hreplies, hholds.depth_eq, hholds.length_le, hholds.slots_eq⟩, fun s s' q f => eq_of_refused,
    fun v a => Operand.toMemoryAddress_eq_ok, fun v e => Operand.toMemoryAddress_eq_error,
    fun l v hfull => onList_push_overflows hfull v, fun vs as hvs hlen => ?_⟩
  have hsize : vs.length = as.length := by simpa using congrArg List.length hvs
  have hpush : serveAll onList [] (vs.map .push) = _ := serveAll_push hvs (by simpa using hlen)
  rw [(Holds.empty.serveAll _).1, serveAll_append, hpush, hsize, serveAll_pop]

/-- Sixteen operands of several kinds that denote addresses. -/
def sixteenOperands : List Operand :=
  [.int (-1), .bool true, .address (MemoryAddress.address 0x200), .text " 0_7 "] ++ List.replicate 12 (.int 0x10005)

/-- They are pushed, a seventeenth operand is refused without being looked at, and they are popped in reverse order. -/
theorem requests_refine_list_sixteen :
    let vs := sixteenOperands
    let as : List MemoryAddress := [4095, 1, 0x200, 7] ++ List.replicate 12 5
    vs.map (·.toMemoryAddress) = as.map .ok ∧ vs.length ≤ 16 ∧
      (serveAll serve empty (vs.map .push ++ [.push .null])).1[16]? = some (.error (.stackFull .null)) ∧
      (serveAll serve empty (vs.map .push ++ [.push .null])).2.depth = 16 ∧
      (serveAll serve empty (vs.map .push ++ List.replicate 16 .pop)).1 =
        List.replicate 16 (.ok .done) ++ as.reverse.map fun a => .ok (.address a) := by
  intro vs as
  have hvs : vs.map (·.toMemoryAddress) = as.map .ok := rfl
  have hlen : vs.length ≤ 16 := by decide
  obtain ⟨⟨hreplies, hdepth, -⟩, -, -, -, -, hreverse⟩ := requests_refine_list (vs.map .push ++ [.push .null])
  refine ⟨hvs, hlen, ?_, ?_, hreverse vs as hvs hlen⟩
  · rw [hreplies]
    rfl
  · rw [hdepth]
    rfl

/-- The seventeenth operand has 4301 digits: what is wrong with it is not that the stack is full. -/
theorem push_long_integer :
    let long := Operand.int (10 ^ Numeral.maxDigits)
    let replies := (serveAll serve empty (List.replicate 16 (.push (.int 0)) ++ [.push long])).1
    replies.getLast? = some (.error (.operand .tooLongToShow)) := by
  intro long replies
  have hlong : long.isTooLongToShow = true := by
    refine Operand.isTooLongToShow_iff.mpr ⟨_, rfl, ?_⟩
    rw [Int.natAbs_pow, show (10 : Int).natAbs = 10 from rfl]
  have hpush : serveAll onList [] ((List.replicate 16 (Operand.int 0)).map .push) =
      (List.replicate 16 (.ok .done), List.replicate 16 0) := serveAll_push rfl (by decide)
  have hfull : onList (List.replicate 16 0) (.push long) = (.error (.operand .tooLongToShow), List.replicate 16 0) := by
    rw [onList_push_of_full (by decide), Fault.ofFullStack, if_pos hlong]
  rw [List.map_replicate] at hpush
  simp only [replies, (Holds.empty.serveAll _).1, serveAll_append, hpush, serveAll, hfull, List.getLast?_concat]

end CallStack
end Chip8
