import Chip8.Proofs.Ledger

/-! # Bookkeeping

The counters of a machine all count the same steps, those of its ledger; so they agree with one another (`Books`), whatever
failed, ran, ticked or was loaded in between. -/

namespace Chip8

namespace Machine
variable {m base now : Machine} {begun : List Machine}

/-- What steps are counted under. -/
def kinds : List (Option Op) := none :: Op.all.map some

theorem kind_mem_kinds (m : Machine) : m.kind ∈ kinds := by
  cases h : m.fetched with
  | none =>
    rw [kind_of_none h]
    exact List.mem_cons_self
  | some i =>
    rw [kind_of_some h]
    exact List.mem_cons_of_mem _ (List.mem_map_of_mem (Instruction.op_mem_all_of_decode h))

theorem nodup_labels : (kinds.map Tally.label).Nodup := by decide +kernel

theorem length_skippedAt (begun : List Machine) : (skippedAt begun).length = (begun.map kind).count none := by
  induction begun with
  | nil => rfl
  | cons m begun ih =>
    rw [List.map_cons, List.count_cons, ← ih, skippedAt, skippedAt, List.filterMap_cons]
    cases h : m.fetched with
    | none =>
      simp only [unrecognizedHere_of_none h, kind_of_none h, List.length_cons, BEq.rfl, ↓reduceIte]
    | some i =>
      simp only [unrecognizedHere_of_some h, kind_of_some h]
      rfl

/-- The counters of `now`, which has completed the steps that began at the machines `begun` since `base`, agree. -/
structure Books (base : Machine) (begun : List Machine) (now : Machine) : Prop where
  /-- A step is counted once, by what it fetched. -/
  counts : ∀ k, now.stats.count k = (begun.map kind).count k
  cycles : now.cycles = begun.length
  positive : ∀ e ∈ now.stats.entries, 0 < e.2
  total : now.stats.total = now.cycles
  labels : ∀ e ∈ now.stats.entries, Tally.label e.1 ∈ kinds.map Tally.label
  distinct : (now.stats.entries.map fun e => Tally.label e.1).Nodup
  unrecognized : now.unrecognized = now.stats.count none
  warnings : ∃ told, now.notices.toList = base.notices.toList ++ told ∧
    (told.filterMap Notice.skipped?).length = now.unrecognized
  last : now.lastUnrecognized = none ↔ now.unrecognized = 0
  /-- The last word that was skipped is no instruction, and it was fetched by a step after which none skipped another. -/
  lastFetched : ∀ u, now.lastUnrecognized = some u → Instruction.decode u.word = none ∧
    ∃ earlier m later, begun = earlier ++ m :: later ∧ u.address = m.pc.val ∧ u.word = m.memory.readWord m.pc ∧
      ∀ m' ∈ later, m'.fetched ≠ none
  depth : now.stack.depth + now.stats.count (some .ret) = now.stats.count (some .call)
  draws : now.random.bounds.toList =
    base.random.bounds.toList ++ List.replicate (now.stats.count (some .rnd)) (0, 256)

theorem unrecognizedHere_eq_some {u : Unrecognized} : m.unrecognizedHere = some u ↔
    m.fetched = none ∧ u = ⟨m.pc.val, m.memory.readWord m.pc⟩ := by
  unfold unrecognizedHere
  split
  · rename_i h
    rw [Option.some_inj]
    exact ⟨fun heq => ⟨h, heq.symm⟩, fun heq => heq.2.symm⟩
  · rename_i h
    exact iff_of_false nofun fun heq => h heq.1

theorem Ledger.lastFetched (h : Ledger base begun now) {u : Unrecognized} (hu : now.lastUnrecognized = some u) :
    ∃ earlier m later, begun = earlier ++ m :: later ∧ m.unrecognizedHere = some u ∧
      ∀ m' ∈ later, m'.fetched ≠ none := by
  rw [h.last, skippedAt, List.getLast?_filterMap] at hu
  obtain ⟨later, m, earlier, hsplit, hm, hlater⟩ := List.findSome?_eq_some_iff.mp hu
  refine ⟨earlier.reverse, m, later.reverse, ?_, hm, fun m' hm' hnone => ?_⟩
  · rw [← List.reverse_reverse begun, hsplit]
    simp
  · have hhere := hlater m' (List.mem_reverse.mp hm')
    rw [unrecognizedHere_of_none hnone] at hhere
    cases hhere

theorem Ledger.books (h : Ledger base begun now) : Books base begun now := by
  have hcount (k : Option Op) : now.stats.count k = (begun.map kind).count k := by rw [h.stats, Tally.count_ofKeys]
  have hkey (k : Option Op) (hk : k ∈ now.stats.entries.map Prod.fst) : k ∈ kinds := by
    rw [h.stats] at hk
    obtain ⟨m, -, rfl⟩ := List.mem_map.mp (Tally.mem_of_mem_keys_ofKeys hk)
    exact m.kind_mem_kinds
  obtain ⟨told, htold, hskipped⟩ := h.notices
  refine ⟨hcount, h.cycles, ?_, ?_, fun e he => ?_, ?_, ?_, ⟨told, htold, ?_⟩, ?_, fun u hu => ?_, ?_, ?_⟩
  · rw [h.stats]
    exact Tally.pos_ofKeys _
  · rw [h.stats, Tally.total_ofKeys, List.length_map, h.cycles]
  · exact List.mem_map_of_mem (hkey e.1 (List.mem_map_of_mem he))
  · have hkeys : (now.stats.entries.map Prod.fst).Nodup := by
      rw [h.stats]
      exact Tally.nodup_keys_ofKeys _
    have hinj : ∀ k ∈ now.stats.entries.map Prod.fst, ∀ k' ∈ now.stats.entries.map Prod.fst,
        Tally.label k = Tally.label k' → k = k' :=
      fun k hk k' hk' => List.inj_on_of_nodup_map nodup_labels (hkey k hk) (hkey k' hk')
    have hlabels := hkeys.map_on hinj
    rwa [List.map_map] at hlabels
  · rw [h.unrecognized, hcount, length_skippedAt]
  · rw [hskipped, h.unrecognized]
  · rw [h.last, h.unrecognized, List.getLast?_eq_none_iff, List.length_eq_zero_iff]
  · obtain ⟨earlier, m, later, hsplit, hm, hlater⟩ := h.lastFetched hu
    obtain ⟨hfetched, rfl⟩ := unrecognizedHere_eq_some.mp hm
    exact ⟨hfetched, earlier, m, later, hsplit, rfl, rfl, hlater⟩
  · rw [hcount, hcount]
    exact h.depth
  · rw [hcount]
    exact h.draws

/-- Whatever a host does to a new machine, its events lead to the same machine one by one; the steps that these completed
since the last reset account for all counters, for the depth of the stack and for the numbers drawn, so these agree. -/
theorem books_agree (keypad : Keypad) (random : RandomSource) (past recent : List Command)
    (hpast : past = [] ∨ past.getLast? = some (.event .reset)) (hrecent : .event .reset ∉ recent) :
    let base := (new keypad random).obeyed past
    let es := base.history recent
    base.after es = base.obeyed recent ∧ Books base (base.beginnings es) (base.obeyed recent) := by
  intro base es
  have hbase : Ledger base [] base := by
    rcases List.eq_nil_or_concat past with rfl | ⟨past, c, rfl⟩
    · exact ledger_reset _
    · rw [List.concat_eq_append] at hpast
      obtain rfl : c = .event .reset := by simpa using hpast
      have hreset : base = ((new keypad random).obeyed past).reset := by
        simp only [base, List.concat_eq_append, obeyed, List.foldl_append]
        rfl
      rw [hreset]
      exact ledger_reset _
  have hnow : base.after es = base.obeyed recent := after_history base recent
  refine ⟨hnow, ?_⟩
  rw [← hnow]
  exact (ledger_after hbase (reset_not_mem_history hrecent base)).books

/-- A random number, a word that is no instruction, a call, and there a key that is awaited before the return; behind the
call stands a return without one. -/
def awaitKey : List UInt8 := [0xC0, 0xFF, 0x50, 0x01, 0x22, 0x08, 0x00, 0xEE, 0xF1, 0x0A, 0x00, 0xEE]

/-- Two of the five steps of the run await the key. Of the three steps after the key press the last one fails and is not
counted; what came before the reset is forgotten. -/
theorem books_agree_await_key :
    let past : List Command := [.event (.load awaitKey), .run 1 0, .event .reset]
    let recent : List Command :=
      [.event (.load awaitKey), .run 5 2, .event (.press 3), .event .step, .event .step, .event .step]
    let base := (new .released (.ofScript #[7])).obeyed past
    let now := base.obeyed recent
    past.getLast? = some (.event .reset) ∧ .event .reset ∉ recent ∧
      now.stats.entries = [(some .rnd, 1), (none, 1), (some .call, 1), (some .ldk, 3), (some .ret, 1)] ∧
      now.lastUnrecognized = some ⟨0x202, 0x5001⟩ ∧ base.random.bounds.size = 1 ∧ now.random.bounds.size = 2 ∧
      Books base (base.beginnings (base.history recent)) now := by
  intro past recent base now
  have hrecent : .event .reset ∉ recent := by decide
  have hcounted : now.stats.entries = [(some .rnd, 1), (none, 1), (some .call, 1), (some .ldk, 3), (some .ret, 1)] ∧
      now.lastUnrecognized = some ⟨0x202, 0x5001⟩ ∧ base.random.bounds.size = 1 ∧ now.random.bounds.size = 2 := by
    decide +kernel
  obtain ⟨hentries, hlast, hbefore, hdrawn⟩ := hcounted
  exact ⟨rfl, hrecent, hentries, hlast, hbefore, hdrawn,
    (books_agree .released (.ofScript #[7]) past recent (.inr rfl) hrecent).2⟩

end Machine
end Chip8
