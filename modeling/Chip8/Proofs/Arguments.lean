import Chip8.Cli.Settings

/-! # What a command line grants

A grammar changes settings by its flags and its positional argument only, so what these keep, parsing keeps
(`Grammar.parse_keeps`). The numbers that a command gets are therefore positive, and an option is without a value only if an
argument gives it the separator for one (`parse_valid`). -/

namespace Chip8.Cli

theorem exists_of_bind_eq_ok {ε α β : Type} {x : Except ε α} {f : α → Except ε β} {b : β} (h : x >>= f = .ok b) :
    ∃ a, x = .ok a ∧ f a = .ok b := by
  cases x with
  | ok a => exact ⟨a, rfl, h⟩
  | error e => cases h

theorem exists_of_map_eq_ok {ε α β : Type} {x : Except ε α} {f : α → β} {b : β} (h : x.map f = .ok b) :
    ∃ a, x = .ok a ∧ f a = b := by
  cases x with
  | ok a => exact ⟨a, rfl, Except.ok.inj h⟩
  | error e => cases h

/-- The argument gives the separator as the value of an option. -/
def GivesSeparator (a : String) : Prop := ['=', '-', '-'] <:+ a.toList

theorem toList_of_cutAtEquals {a name v : String} (h : cutAtEquals a = (name, some v)) :
    a.toList = name.toList ++ '=' :: v.toList := by
  have hcut := List.takeWhile_append_dropWhile (p := (· != '=')) (l := a.toList)
  cases hd : a.toList.dropWhile (· != '=') with
  | nil =>
    simp only [cutAtEquals, hd] at h
    cases h
  | cons c after =>
    have hc : c = '=' := by
      have hhead := List.head?_dropWhile_not (· != '=') a.toList
      rw [hd] at hhead
      simpa using hhead
    simp only [cutAtEquals, hd] at h
    cases h
    rw [hd, hc] at hcut
    rw [String.toList_ofList, String.toList_ofList, hcut]

theorem givesSeparator_of_cutAtEquals {a name : String} (h : cutAtEquals a = (name, some "--")) : GivesSeparator a :=
  ⟨name.toList, (toList_of_cutAtEquals h).symm⟩

namespace Grammar
variable {σ : Type} {g : Grammar σ} {P : σ → Prop} {given : Prop} {args : List String} {ts : List (Token σ)} {s s' : σ}

theorem store_eq_ok {f : Flag σ} {convert : String → σ → Except String σ} {clear : σ → σ} {v : String}
    (h : g.store f convert clear v s = .ok s') : v = "--" ∧ s' = clear s ∨ convert v s = .ok s' := by
  unfold store at h
  split at h
  · rename_i hv
    cases h
    exact .inl ⟨hv, rfl⟩
  · cases hc : convert v s with
    | ok s₁ =>
      rw [hc] at h
      cases h
      exact .inr rfl
    | error e =>
      rw [hc] at h
      cases h

/-- Storing a value keeps `P`; if values are given, the separator need not be stored. -/
def Keeps (g : Grammar σ) (given : Prop) (P : σ → Prop) (f : Flag σ) : Prop :=
  ∀ convert clear v s s', f.action = .store convert clear → (given → v ≠ "--") → P s →
    g.store f convert clear v s = .ok s' → P s'

theorem Keeps.stored {f : Flag σ} {convert : String → σ → Except String σ} {clear : σ → σ} {v : String}
    (hk : g.Keeps given P f) (hf : f.action = .store convert clear) (hv : f.action = .help ∨ (given → v ≠ "--")) (hs : P s)
    (h : g.store f convert clear v s = .ok s') : P s' := by
  rcases hv with hhelp | hgiven
  · rw [hf] at hhelp
    cases hhelp
  · exact hk convert clear v s s' hf hgiven hs h

/-- The options are flags of the grammar and, if values are given, have none that stands for the separator. -/
def Fed (g : Grammar σ) (given : Prop) : List (Token σ) → Prop
  | [] => True
  | .option _ m :: ts =>
    m.flag ∈ g.flags ∧
    (∀ v, m.explicit = some v ∨ ts.head? = some (.value v) → m.flag.action = .help ∨ (given → v ≠ "--")) ∧ g.Fed given ts
  | _ :: ts => g.Fed given ts

theorem mem_of_mem_named {name : String} {f : Flag σ} (h : (name, f) ∈ g.named) : f ∈ g.flags ∧ name ∈ f.names := by
  obtain ⟨f', hf, hmem⟩ := List.mem_flatMap.mp h
  obtain ⟨n, hn, heq⟩ := List.mem_map.mp hmem
  cases heq
  exact ⟨hf, hn⟩

theorem mem_named_of_lookup {name : String} {f : Flag σ} (h : g.named.lookup name = some f) : (name, f) ∈ g.named := by
  obtain ⟨before, after, heq, -⟩ := List.lookup_eq_some_iff.mp h
  rw [heq]
  exact List.mem_append_right before (List.mem_cons_self ..)

/-- Where a value comes from that an argument holds besides the name of a flag. -/
def HoldsValue (a : String) (m : Match σ) : Prop :=
  ∀ v, m.explicit = some v → (∃ name, cutAtEquals a = (name, some v)) ∨ m.name = String.ofList (a.toList.take 2)

theorem spelledOut?_eq_some {a : String} {m : Match σ} (h : g.spelledOut? a = some m) :
    (m.name, m.flag) ∈ g.named ∧ HoldsValue a m := by
  unfold spelledOut? at h
  split at h
  · rename_i f hf
    cases h
    exact ⟨mem_named_of_lookup hf, nofun⟩
  · split at h
    · rename_i name explicit hcut
      obtain ⟨f, hf, rfl⟩ := Option.map_eq_some_iff.mp h
      exact ⟨mem_named_of_lookup hf, fun v hv => .inl ⟨name, by cases hv; exact hcut⟩⟩
    · cases h

theorem mem_candidates {a : String} {m : Match σ} (h : m ∈ g.candidates a) :
    (m.name, m.flag) ∈ g.named ∧ HoldsValue a m := by
  unfold candidates at h
  split at h
  · obtain ⟨⟨name, f⟩, hmem, rfl⟩ := List.mem_map.mp h
    exact ⟨(List.mem_filter.mp hmem).1, fun v hv => .inl ⟨_, Prod.ext rfl hv⟩⟩
  · obtain ⟨⟨name, f⟩, hmem, hm⟩ := List.mem_filterMap.mp h
    split at hm
    · rename_i hshort
      cases hm
      exact ⟨hmem, fun _ _ => .inr hshort⟩
    · split at hm
      · cases hm
        exact ⟨hmem, nofun⟩
      · cases hm

theorem classify_cases {a : String} {t : Token σ} (h : g.classify a = .ok t) :
    t = .value a ∨ t = .unknown a ∨ ∃ m, t = .option a m ∧ (m.name, m.flag) ∈ g.named ∧ HoldsValue a m := by
  unfold classify at h
  split at h
  · cases h
    exact .inl rfl
  · split at h
    · rename_i m hm
      cases h
      exact .inr (.inr ⟨m, rfl, spelledOut?_eq_some hm⟩)
    · split at h
      · rename_i m hm
        cases h
        exact .inr (.inr ⟨m, rfl, mem_candidates (by rw [hm]; exact List.mem_singleton_self m)⟩)
      · cases h
        split
        · exact .inl rfl
        · exact .inr (.inl rfl)
      · cases h

theorem raw_of_classify {a : String} {t : Token σ} (h : g.classify a = .ok t) : t.raw = a := by
  rcases classify_cases h with rfl | rfl | ⟨m, rfl, -⟩ <;> rfl

theorem map_raw_tokens (h : g.tokens args = .ok ts) : ts.map (·.raw) = args := by
  induction args generalizing ts with
  | nil =>
    cases h
    rfl
  | cons a args ih =>
    rw [tokens] at h
    split at h
    · rename_i ha
      cases h
      simp only [List.map_cons, Token.raw, List.map_map, Function.comp_def, List.map_id', ha]
    · obtain ⟨t, ht, h⟩ := exists_of_bind_eq_ok h
      obtain ⟨ts', hts', h⟩ := exists_of_bind_eq_ok h
      cases h
      rw [List.map_cons, raw_of_classify ht, ih hts']

theorem fed_values (args : List String) : g.Fed given (args.map .value) := by
  induction args with
  | nil => trivial
  | cons a args ih => exact ih

/-- What stands after an option is its value only if it is not the separator. -/
theorem ne_separator_of_head?_tokens {v : String} (h : g.tokens args = .ok ts) (hv : ts.head? = some (.value v)) :
    v ≠ "--" := by
  cases args with
  | nil =>
    cases h
    cases hv
  | cons a args =>
    rw [tokens] at h
    split at h
    · cases h
      cases hv
    · rename_i ha
      obtain ⟨t, ht, h⟩ := exists_of_bind_eq_ok h
      obtain ⟨ts', -, h⟩ := exists_of_bind_eq_ok h
      cases h
      cases hv
      rw [← raw_of_classify ht] at ha
      exact ha

/-- Flags that store a value are named by more than a minus sign and a letter. -/
def NamesStores (g : Grammar σ) : Prop := ∀ f ∈ g.flags, f.action = .help ∨ ∀ n ∈ f.names, 2 < n.length

theorem fed_tokens (hnames : g.NamesStores) (hargs : ∀ a ∈ args, given → ¬ GivesSeparator a) (h : g.tokens args = .ok ts) :
    g.Fed given ts := by
  induction args generalizing ts with
  | nil =>
    cases h
    trivial
  | cons a args ih =>
    rw [tokens] at h
    split at h
    · cases h
      exact fed_values args
    · obtain ⟨t, ht, h⟩ := exists_of_bind_eq_ok h
      obtain ⟨ts', hts', h⟩ := exists_of_bind_eq_ok h
      cases h
      obtain ⟨ha, hargs⟩ := List.forall_mem_cons.mp hargs
      have hrest := ih hargs hts'
      rcases classify_cases ht with rfl | rfl | ⟨m, rfl, hm, hvalue⟩
      · exact hrest
      · exact hrest
      · obtain ⟨hf, hname⟩ := mem_of_mem_named hm
        refine ⟨hf, ?_, hrest⟩
        rintro v (hv | hv)
        · rcases hvalue v hv with ⟨name, hcut⟩ | hshort
          · refine .inr fun hgiven hsep => ?_
            rw [hsep] at hcut
            exact ha hgiven (givesSeparator_of_cutAtEquals hcut)
          · refine .inl ((hnames _ hf).resolve_right fun hlong => absurd (hlong _ hname) ?_)
            rw [hshort, String.length_ofList, List.length_take]
            exact Nat.not_lt.mpr (Nat.min_le_left ..)
        · exact .inr fun _ => ne_separator_of_head?_tokens hts' hv

theorem consume_keeps {phase phase' : Phase} {extras extras' : List String} (hflags : ∀ f ∈ g.flags, g.Keeps given P f)
    (hone : ∀ name store, g.positional = .one name store → ∀ v s, P s → P (store v s))
    (hrest : ∀ store, g.positional = .rest store → ∀ args s s', (∀ a ∈ args, given → ¬ GivesSeparator a) → P s →
      store args s = .ok s' → P s')
    (hfed : g.Fed given ts) (hraw : ∀ a ∈ ts.map (·.raw), given → ¬ GivesSeparator a) (hs : P s)
    (h : g.consume phase extras s ts = .ok (s', phase', extras')) : P s' := by
  fun_induction consume g phase extras s ts
  case case1 =>
    cases h
    exact hs
  -- An option without a value ends parsing, as the help does.
  case case3 | case4 | case7 => cases h
  case case5 hf v hv ih =>
    obtain ⟨s₁, hstore, h⟩ := exists_of_bind_eq_ok h
    obtain ⟨hmem, hvalue, hfed⟩ := hfed
    exact ih s₁ hfed (List.forall_mem_cons.mp hraw).2 ((hflags _ hmem).stored hf (hvalue v (.inl hv)) hs hstore) h
  case case6 hf hv v ts' ih =>
    obtain ⟨s₁, hstore, h⟩ := exists_of_bind_eq_ok h
    obtain ⟨hmem, hvalue, hfed⟩ := hfed
    have hraw := (List.forall_mem_cons.mp (List.forall_mem_cons.mp hraw).2).2
    exact ih s₁ hfed hraw ((hflags _ hmem).stored hf (hvalue v (.inr rfl)) hs hstore) h
  case case8 hp ih => exact ih hfed (List.forall_mem_cons.mp hraw).2 (hone _ _ hp _ _ hs) h
  case case9 hp =>
    obtain ⟨s₁, hstore, heq⟩ := exists_of_map_eq_ok h
    cases heq
    exact hrest _ hp _ _ _ hraw hs hstore
  case case12 hp =>
    obtain ⟨s₁, hstore, heq⟩ := exists_of_map_eq_ok h
    cases heq
    exact hrest _ hp _ _ _ hraw hs hstore
  case case2 ih | case10 ih | case11 ih | case13 ih | case14 ih => exact ih hfed (List.forall_mem_cons.mp hraw).2 hs h

theorem parse_keeps {extras : List String} (hnames : g.NamesStores) (hflags : ∀ f ∈ g.flags, g.Keeps given P f)
    (hone : ∀ name store, g.positional = .one name store → ∀ v s, P s → P (store v s))
    (hrest : ∀ store, g.positional = .rest store → ∀ args s s', (∀ a ∈ args, given → ¬ GivesSeparator a) → P s →
      store args s = .ok s' → P s')
    (hargs : ∀ a ∈ args, given → ¬ GivesSeparator a) (hs : P s) (h : g.parse args s = .ok (s', extras)) : P s' := by
  obtain ⟨ts, hts, h⟩ := exists_of_bind_eq_ok h
  obtain ⟨⟨s₁, phase, extras₁⟩, hconsume, h⟩ := exists_of_bind_eq_ok h
  rw [← map_raw_tokens hts] at hargs
  have hs₁ := consume_keeps hflags hone hrest (fed_tokens hnames (map_raw_tokens hts ▸ hargs) hts) hargs hs hconsume
  dsimp only at h
  split at h
  · cases h
  · cases h
    exact hs₁

end Grammar

/-! ### The commands -/

open Numeral

theorem pos_of_positiveInt {v : String} {n : Int} (h : positiveInt v = .ok n) : 0 < n := by
  unfold positiveInt at h
  split at h
  · cases h
  · split at h
    · cases h
      assumption
    · split at h <;> cases h

/-- The numbers are positive, and if values are given, no option is without one. -/
structure Options.Valid (given : Prop) (o : Options) : Prop where
  maxCycles : ∀ n, o.maxCycles = some n → 0 < n
  cyclesPerTick : ∀ k, o.cyclesPerTick = some k → 0 < k
  given : given → o.maxCycles ≠ none ∧ o.cyclesPerTick ≠ none ∧ o.rate ≠ none

/-- The log level is known if values are given, and the options of a command are valid. -/
structure Settings.Valid (given : Prop) (s : Settings) : Prop where
  threshold : given → s.threshold ≠ none
  options : ∀ c o, s.command = some (c, o) → o.Valid given

section
variable {given : Prop} {args : List String}

theorem keeps_helpFlag {σ : Type} {g : Grammar σ} {P : σ → Prop} : g.Keeps given P (helpFlag σ) := nofun

theorem keeps_positiveFlag {g : Grammar Options} {P : Options → Prop} (name : String) {put : Option Int → Options → Options}
    (hsome : ∀ n o, 0 < n → P o → P (put (some n) o)) (hnone : ¬ given → ∀ o, P o → P (put none o)) :
    g.Keeps given P (positiveFlag name put) := by
  rintro convert clear v s s' ⟨⟩ hgiven hs h
  rcases Grammar.store_eq_ok h with ⟨hv, rfl⟩ | h
  · exact hnone (fun hg => hgiven hg hv) s hs
  · split at h
    · rename_i n hn
      cases h
      exact hsome n s (pos_of_positiveInt hn) hs
    · cases h
    · cases h

theorem Options.valid_default : ({} : Options).Valid given where
  maxCycles := by rintro _ ⟨⟩; decide
  cyclesPerTick := by rintro _ ⟨⟩; decide
  given := fun _ => ⟨nofun, nofun, nofun⟩

theorem Settings.valid_default : ({} : Settings).Valid given := ⟨fun _ => nofun, nofun⟩

theorem namesStores_command (c : Command) : c.grammar.NamesStores := by
  intro f hf
  simp only [Command.grammar, List.mem_cons, List.not_mem_nil, or_false] at hf
  rcases hf with rfl | rfl | rfl | rfl
  · exact .inl rfl
  · exact .inr (by decide)
  · exact .inr (by decide)
  · cases c <;> exact .inr (by decide)

theorem keeps_command (c : Command) {f : Flag Options} (hf : f ∈ c.grammar.flags) :
    c.grammar.Keeps given (Options.Valid given) f := by
  have hmax : c.grammar.Keeps given (Options.Valid given) maxCyclesFlag := by
    refine keeps_positiveFlag _ (fun n o hn ho => ?_) fun hg o ho => ?_
    · exact ⟨by rintro _ ⟨⟩; exact hn, ho.cyclesPerTick, fun hg => ⟨nofun, (ho.given hg).2⟩⟩
    · exact ⟨nofun, ho.cyclesPerTick, fun hg' => absurd hg' hg⟩
  have hbatch : c.grammar.Keeps given (Options.Valid given) cyclesPerTickFlag := by
    refine keeps_positiveFlag _ (fun n o hn ho => ?_) fun hg o ho => ?_
    · exact ⟨ho.maxCycles, by rintro _ ⟨⟩; exact hn, fun hg => ⟨(ho.given hg).1, nofun, (ho.given hg).2.2⟩⟩
    · exact ⟨ho.maxCycles, nofun, fun hg' => absurd hg' hg⟩
  have hseed : c.grammar.Keeps given (Options.Valid given) seedFlag := by
    rintro convert clear v o o' ⟨⟩ hgiven ho h
    rcases Grammar.store_eq_ok h with ⟨hv, rfl⟩ | h
    · exact ⟨ho.maxCycles, ho.cyclesPerTick, ho.given⟩
    · split at h
      · cases h
        exact ⟨ho.maxCycles, ho.cyclesPerTick, ho.given⟩
      · cases h
  have hrate : c.grammar.Keeps given (Options.Valid given) rateFlag := by
    rintro convert clear v o o' ⟨⟩ hgiven ho h
    rcases Grammar.store_eq_ok h with ⟨hv, rfl⟩ | h
    · exact ⟨ho.maxCycles, ho.cyclesPerTick, fun hg => absurd hv (hgiven hg)⟩
    · split at h
      · cases h
        exact ⟨ho.maxCycles, ho.cyclesPerTick, fun hg => ⟨(ho.given hg).1, (ho.given hg).2.1, nofun⟩⟩
      · cases h
  simp only [Command.grammar, List.mem_cons, List.not_mem_nil, or_false] at hf
  rcases hf with rfl | rfl | rfl | rfl
  · exact keeps_helpFlag
  · exact hbatch
  · exact hseed
  · cases c
    · exact hmax
    · exact hrate

theorem valid_of_parseCommand {s s' : Settings} (hargs : ∀ a ∈ args, given → ¬ GivesSeparator a) (hs : s.Valid given)
    (h : parseCommand args s = .ok s') : s'.Valid given := by
  unfold parseCommand at h
  dsimp only at h
  split at h
  · cases h
  · rename_i c _
    obtain ⟨⟨o, unknown⟩, hparse, h⟩ := exists_of_bind_eq_ok h
    cases h
    have ho : o.Valid given := by
      refine Grammar.parse_keeps (namesStores_command c) (fun f => keeps_command c) ?_ nofun ?_ Options.valid_default hparse
      · rintro name store ⟨⟩ v o ho
        exact ⟨ho.maxCycles, ho.cyclesPerTick, ho.given⟩
      · exact fun a ha => hargs a (List.mem_of_mem_tail ha)
    refine ⟨hs.threshold, ?_⟩
    rintro _ _ ⟨⟩
    exact ho

theorem keeps_grammar {f : Flag Settings} (hf : f ∈ grammar.flags) : grammar.Keeps given (Settings.Valid given) f := by
  have hlevel : grammar.Keeps given (Settings.Valid given) logLevelFlag := by
    rintro convert clear v s s' ⟨⟩ hgiven hs h
    rcases Grammar.store_eq_ok h with ⟨hv, rfl⟩ | h
    · exact ⟨fun hg => absurd hv (hgiven hg), hs.options⟩
    · split at h
      · cases h
        exact ⟨fun _ => nofun, hs.options⟩
      · cases h
  simp only [grammar, List.mem_cons, List.not_mem_nil, or_false] at hf
  rcases hf with rfl | rfl
  · exact keeps_helpFlag
  · exact hlevel

theorem namesStores_grammar : grammar.NamesStores := by
  intro f hf
  simp only [grammar, List.mem_cons, List.not_mem_nil, or_false] at hf
  rcases hf with rfl | rfl
  · exact .inl rfl
  · exact .inr (by decide)

/-- What a command line is parsed to. -/
theorem parse_valid {s : Settings} (h : parse args = .ok s) : s.Valid (∀ a ∈ args, ¬ GivesSeparator a) := by
  obtain ⟨⟨s₁, extras⟩, hparse, h⟩ := exists_of_bind_eq_ok h
  have hs₁ : s₁.Valid (∀ a ∈ args, ¬ GivesSeparator a) := by
    refine Grammar.parse_keeps namesStores_grammar (fun f => keeps_grammar) nofun ?_ (fun a ha hg => hg a ha)
      Settings.valid_default hparse
    rintro store ⟨⟩ args s s' hargs hs h
    exact valid_of_parseCommand hargs hs h
  dsimp only at h
  split at h
  · cases h
    exact hs₁
  · cases h

end

end Chip8.Cli
