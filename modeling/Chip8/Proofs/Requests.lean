import Chip8.Proofs.Runs
import Chip8.Operand

/-! # Requests

All that may be asked of a machine and of its parts, with arguments as a caller hands them over: operands where an address is
wanted, and integers of any size. A request that cannot be met is answered by a fault, and the next one finds the machine as it
was left. What each request keeps, all of them keep (`Keeps.served`). -/

namespace Chip8

/-- What a request is answered with. -/
inductive Reply
  | done
  | count (n : Nat)
  | flag (b : Bool)
  | executed (i : Option Instruction)
  | address (a : MemoryAddress)
deriving DecidableEq

inductive Request
  | load (rom : List UInt8)
  | step
  | tick
  | run (maxCycles cyclesPerTick : Int)
  | reset
  | press (key : Int)
  | release (key : Int)
  | releaseAll
  | execute (i : Instruction)
  | jump (a : Operand)
  | write (a : Operand) (n : Int)
  | writeBlock (a : Operand) (data : List UInt8)
  | writeDisplayBlock (data : List UInt8)
  | syncDisplay
  | clearMemory
  | setRegister (x : Operand) (n : Int)
  | setIndex (a : Operand)
  | clearRegisters
  | push (v : Operand)
  | pop
  | clearStack
  | setDelay (n : Int)
  | setSound (n : Int)
  | countDown
  | clearTimers
  | blit (rows : List Int) (x y : Int)
  | clearScreen
  | consumeDirty

namespace Machine
variable {α β : Type} {m : Machine}

/-- The machine that an action leaves, whether it completed or failed. -/
def leaves (act : Action α) (m : Machine) : Machine :=
  match act m with
  | .ok _ m' => m'
  | .error _ m' => m'

/-- The answer of an action. -/
def answer (act : Action α) (m : Machine) : Except Fault α :=
  match act m with
  | .ok a _ => .ok a
  | .error f _ => .error f

/-- Changes the machine and has nothing to tell. -/
def change (f : Machine → Machine) : Action Reply := fun m => .ok .done (f m)

/-- Goes on with what an operand denotes, if it denotes something. -/
def withOperand (v : Except OperandError α) (go : α → Action β) : Action β :=
  match v with
  | .ok a => go a
  | .error e => throw (.operand e)

end Machine

open Machine in
/-- What a request does. -/
def Request.perform : Request → Action Reply
  | load rom => fun m => .ok (.count (m.load rom).1) (m.load rom).2
  | step => .executed <$> Machine.step
  | tick => fun m => .ok (.flag m.tick.1) m.tick.2
  | run maxCycles cyclesPerTick => (fun _ => .done) <$> Machine.run maxCycles cyclesPerTick
  | reset => change Machine.reset
  | press key => change fun m => { m with keypad := m.keypad.press key }
  | release key => change fun m => { m with keypad := m.keypad.release key }
  | releaseAll => change fun m => { m with keypad := .released }
  | execute i => .address <$> Machine.execute i
  | jump a => withOperand a.toMemoryAddress fun a => change fun m => { m with pc := a }
  | write a n => withOperand a.toMemoryAddress fun a => change fun m => { m with memory := m.memory.write a n }
  | writeBlock a data => withOperand a.toMemoryAddress fun a m =>
    .ok (.count (Memory.room a data.length)) { m with memory := m.memory.writeBlock a data }
  | writeDisplayBlock data => change fun m => { m with memory := m.memory.writeDisplayBlock data }
  | syncDisplay => change Machine.syncDisplay
  | clearMemory => change fun m => { m with memory := .blank }
  | setRegister x n => withOperand x.toRegisterIndex fun x => change fun m => { m with registers := m.registers.write x n }
  | setIndex a => withOperand a.toMemoryAddress fun a => change (Machine.setIndex · a)
  | clearRegisters => change fun m => { m with registers := .blank }
  | push v => (fun _ => .done) <$> onStack (CallStack.push v)
  | pop => .address <$> onStack CallStack.pop
  | clearStack => change fun m => { m with stack := .empty }
  | setDelay n => change fun m => { m with timers := m.timers.setDelay n }
  | setSound n => change fun m => { m with timers := m.timers.setSound n }
  | countDown => change fun m => { m with timers := m.timers.tick }
  | clearTimers => change fun m => { m with timers := .blank }
  | blit rows x y => .flag <$> onScreen (Screen.blit rows x y)
  | clearScreen => change fun m => { m with screen := m.screen.clear }
  | consumeDirty => fun m => .ok (.flag m.screen.consumeDirty.1) { m with screen := m.screen.consumeDirty.2 }

namespace Machine
variable {α β : Type} {m m' : Machine} {P : Machine → Prop}

/-- The machine after requests, each asked of what the one before has left. -/
def served (m : Machine) (qs : List Request) : Machine := qs.foldl (fun m q => leaves q.perform m) m

/-- The answers to requests, each asked of what the one before has left. -/
def replies : Machine → List Request → List (Except Fault Reply)
  | _, [] => []
  | m, q :: qs => answer q.perform m :: replies (leaves q.perform m) qs

theorem leaves_of_ok {act : Action α} {a : α} (h : act m = .ok a m') : leaves act m = m' := by
  simp only [leaves, h]

theorem leaves_of_error {act : Action α} {f : Fault} (h : act m = .error f m') : leaves act m = m' := by
  simp only [leaves, h]

/-- What holds of a step and of a tick, and of actions one after the other, holds of a run. -/
theorem run_of_closed {C : {α : Type} → Action α → Prop} (hpure : ∀ {α : Type} (a : α), C (pure a))
    (hbind : ∀ {α β : Type} {x : Action α} {g : α → Action β}, C x → (∀ a, C (g a)) → C (x >>= g)) (hstep : C step)
    (htick : C (modify fun m => m.tick.2)) (maxCycles cyclesPerTick : Int) : C (run maxCycles cyclesPerTick) := by
  have hdue (made : Nat) : C (tickIfDue cyclesPerTick made) := by
    unfold tickIfDue
    split
    · exact htick
    · exact hpure _
  have hrun (made left : Nat) : C (runFrom cyclesPerTick made left) := by
    induction left generalizing made with
    | zero => exact hpure _
    | succ left ih =>
      rw [runFrom_succ]
      exact hbind hstep fun _ => hbind (hdue _) fun _ => ih _
  exact hrun 0 _

/-- The action keeps `P`, whether it completes or fails. -/
def Keeps (P : Machine → Prop) (act : Action α) : Prop := ∀ m, P m → P (leaves act m)

namespace Keeps

theorem pure (a : α) : Keeps P (pure a : Action α) := fun _ h => h

theorem throw (f : Fault) : Keeps P (throw f : Action α) := fun _ h => h

theorem bind {x : Action α} {g : α → Action β} (hx : Keeps P x) (hg : ∀ a, Keeps P (g a)) : Keeps P (x >>= g) := by
  intro m hm
  have hleft := hx m hm
  cases h : x m with
  | ok a m₁ =>
    rw [leaves_of_ok h] at hleft
    have heq : leaves (x >>= g) m = leaves (g a) m₁ := by rw [leaves, bind_of_ok h, leaves]
    rw [heq]
    exact hg a m₁ hleft
  | error f m₁ =>
    rw [leaves_of_error h] at hleft
    rw [leaves_of_error (bind_of_error h)]
    exact hleft

theorem map {x : Action α} (hx : Keeps P x) (g : α → β) : Keeps P (g <$> x) := by
  rw [← bind_pure_comp]
  exact hx.bind fun _ => .pure _

theorem withOperand {v : Except OperandError α} {go : α → Action β} (h : ∀ a, Keeps P (go a)) :
    Keeps P (withOperand v go) := by
  cases v with
  | ok a => exact h a
  | error e => exact .throw _

theorem run (hstep : Keeps P step) (htick : ∀ m, P m → P m.tick.2) (maxCycles cyclesPerTick : Int) :
    Keeps P (run maxCycles cyclesPerTick) :=
  run_of_closed pure bind hstep htick maxCycles cyclesPerTick

theorem served (h : ∀ q : Request, Keeps P q.perform) (hm : P m) (qs : List Request) : P (m.served qs) := by
  induction qs generalizing m with
  | nil => exact hm
  | cons q qs ih => exact ih (h q m hm)

end Keeps

end Machine
end Chip8
