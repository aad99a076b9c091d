import Chip8.Machine.Run
import Chip8.Rom
import Chip8.Session.Headless
import Chip8.TickClock
import Chip8.View.Console

/-! # Live sessions

A tick clock drives the machine: every tick that is due makes a batch of steps and shows the screen if it was
written; between ticks the session sleeps. It ends when a step fails or the user interrupts it. A console that is no
terminal cannot replace what it has drawn, so it draws the last frame only, when the session ends. -/

namespace Chip8.Session
open View

/-- A machine whose screens are shown under a title, with every frame shown so far. -/
structure Live where
  machine : Machine
  title : String
  frames : Array Frame

namespace Live

/-- Shows the present screen. -/
def present (l : Live) : Live := { l with frames := l.frames.push (.of l.machine l.title) }

/-- A session that shows the machine as it is. -/
def start (m : Machine) (title : String) : Live := present ⟨m, title, #[]⟩

/-- The work of one due tick: a batch of steps, the tick, and a new frame if the screen was written. -/
def onTick (cyclesPerTick : Option Int) (l : Live) : Except Failure Unit × Live :=
  match cyclesPerTick with
  | none => (.error (.missing .batch), l)
  | some k =>
    match l.machine.run k 0 with
    | .error f m => (.error (.fault f), { l with machine := m })
    | .ok _ m =>
      let (dirty, m) := m.tick
      let l := { l with machine := m }
      (.ok (), if dirty then l.present else l)

end Live

/-- Time as a session meets it: the present reading, what each reading costs, and after how many readings the user
interrupts. -/
structure Time where
  now : Float
  cost : Float
  polls : Nat

/-- How a loop ended: by a failure or by the user, after which sleeps, with how many readings left. -/
structure Ended where
  live : Live
  failure : Option Failure
  slept : Array Float
  pollsLeft : Nat

/-- Polls the clock until a step fails or the readings are used up. -/
def loop (cyclesPerTick : Option Int) (cost : Float) (clock : TickClock Float) (slept : Array Float) (live : Live) :
    (now : Float) → (polls : Nat) → Ended
  | _, 0 => ⟨live, none, slept, 0⟩
  | now, polls + 1 =>
    let (due, clock) := clock.check now
    let now := now + cost
    if due then
      match live.onTick cyclesPerTick with
      | (.ok _, live) => loop cyclesPerTick cost clock slept live now polls
      | (.error e, live) => ⟨live, some e, slept, polls⟩
    else
      match polls with
      | 0 => ⟨live, none, slept, 0⟩
      | polls + 1 =>
        let pause := clock.remaining now
        loop cyclesPerTick cost clock (slept.push pause) live (now + cost + pause) polls

/-- What a live session shows: the machine at its end or what ended it, all frames, the lines that the last one was
drawn as, all sleeps, the readings left and the log. -/
structure PlayReport where
  outcome : Except Failure Machine
  frames : List Frame
  screen : List String
  slept : List Float
  pollsLeft : Nat
  log : List LogLine

namespace PlayReport

/-- A session that never came to show a frame. -/
def refused (e : Failure) (polls : Nat) : PlayReport := ⟨.error e, [], [], [], polls, []⟩

/-- The report of a session that ended. If the console refuses the last frame, that comes before what ended the
session. -/
def ofEnded (console : Console) (e : Ended) : PlayReport :=
  let m := e.live.machine
  let drawn := e.live.frames.back?.elim (.ok []) console.draw
  let log := Report.logOf m
  let stopped : LogLine := ⟨.info, .display, "stopped after " ++ toString m.cycles ++ " cycles"⟩
  { outcome := match drawn, e.failure with
      | .error d, _ => .error (.screen d)
      | .ok _, some e => .error e
      | .ok _, none => .ok m
    frames := e.live.frames.toList
    screen := drawn.toOption.getD []
    slept := e.slept.toList
    pollsLeft := e.pollsLeft
    log := if e.failure.isSome then log else log ++ [stopped] }

/-- What stays on the console: the last screen, without a line end after it. -/
def output (r : PlayReport) : String := "\n".intercalate r.screen

end PlayReport

/-- The time between two ticks of the rate that was asked for. -/
def tickInterval : Option Rate → Except Failure Float
  | some r => r.interval
  | none => .error (.missing .rate)

/-- The clock of a session and the time after it was set. -/
def startClock (rate : Option Rate) (time : Time) : Except Failure (TickClock Float × Time) := do
  let interval ← tickInterval rate
  match time.polls with
  | 0 => throw .interrupted
  | polls + 1 => return (.start interval time.now, ⟨time.now + time.cost, time.cost, polls⟩)

/-- Plays what was read from `path`. The title of the screens is the name of the file. -/
def play (console : Console) (path : String) (rom : Except Failure (List UInt8)) (rate : Option Rate)
    (cyclesPerTick : Option Int) (keypad : Keypad) (random : RandomSource) (time : Time) : PlayReport :=
  match rom with
  | .error e => .refused e time.polls
  | .ok rom =>
    match startClock rate time with
    | .error e => .refused e time.polls
    | .ok (clock, time) =>
      let m := ((Machine.new keypad random).load rom).2
      .ofEnded console (loop cyclesPerTick time.cost clock #[] (.start m (Path.ofString path).name) time.now time.polls)

end Chip8.Session
