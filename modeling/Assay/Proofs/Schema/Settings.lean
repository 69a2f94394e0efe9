import Assay.Proofs.Outcome
import Assay.Proofs.Schema.Issues
import Assay.Schema.Settings

/-!
# Options with what the user says beside the configuration

The options of a language are put down under their names, some are replaced, and the whole is read again
(`LanguageOptions.revised`). Options that keep the rules (`LanguageOptions.Valid`), as all do that are read
(`LanguageOptions.valid_of_read`), come back as they were, so that only what the user says can be refused
(`AnalysisOptions.withOverrides_eq`). The main result is `AnalysisOptions.withOverrides_spec`.
-/

namespace Assay

open Schema

variable {parallelism : Nat}

/-! ## Rules, tools and numbers -/

theorem rulesComplaint_eq_none {rules : List String} :
    rulesComplaint rules = none ↔ ∀ rule ∈ rules, isRuleName rule = true := by
  simp [rulesComplaint]

theorem toolsComplaint_eq_none {tools : List String} :
    toolsComplaint tools = none ↔ ∀ tool ∈ tools, isToolName tool = true := by
  simp [toolsComplaint]

theorem readRules_eq_good {d : Datum} {rules : List String} (h : readRules d = .good rules) :
    ∀ rule ∈ rules, isRuleName rule = true :=
  rulesComplaint_eq_none.mp (obeying_eq_good.mp h).2

theorem readTools_eq_good {d : Datum} {tools : List String} (h : readTools d = .good tools) :
    ∀ tool ∈ tools, isToolName tool = true :=
  toolsComplaint_eq_none.mp (obeying_eq_good.mp h).2

theorem readRules_written {rules : List String} (h : ∀ rule ∈ rules, isRuleName rule = true) :
    readRules (writtenTexts rules) = .good rules := by
  rw [readRules, (conveys_writtenTexts (k := 0) rules).read, obeying_good (rulesComplaint_eq_none.mpr h)]

theorem readTools_written {selection : Option (List String)}
    (h : ∀ tools ∈ selection, ∀ tool ∈ tools, isToolName tool = true) :
    nullable readTools ((selection.map writtenTexts).getD .null) = .good selection := by
  have hconveys : ∀ tools ∈ selection, Conveys 1 readTools (writtenTexts tools) tools := by
    intro tools htools
    obtain ⟨hplain, hread⟩ := conveys_writtenTexts (k := 0) tools
    refine ⟨hplain, ?_⟩
    rw [readTools, hread, obeying_good (toolsComplaint_eq_none.mpr (h tools htools))]
  exact (conveys_getD (fun _ _ => by simp [writtenTexts]) hconveys).read

theorem wholeWithin_eq_good {least most n : Nat} {d : Datum} (h : wholeWithin least most d = .good n) :
    least ≤ n ∧ n ≤ most := by
  obtain ⟨m, hm, hn⟩ := Checked.andThen_eq_good.mp h
  split at hn
  · exact nomatch hn
  · next hmost =>
    obtain rfl := Checked.good.inj hn
    exact ⟨(wholeFrom_eq_good hm).1, Nat.not_lt.mp hmost⟩

/-! ## Options that keep the rules -/

namespace LanguageOptions

/-- The rules for the options of a language. -/
structure Valid (o : LanguageOptions) : Prop where
  includeRules : ∀ rule ∈ o.includeRules, isRuleName rule = true
  excludeRules : ∀ rule ∈ o.excludeRules, isRuleName rule = true
  batchSize : ∀ n ∈ o.batchSize, 1 ≤ n ∧ n ≤ maxBatchSize
  timeoutMs : 1 ≤ o.timeoutMs
  parallelism : 1 ≤ o.parallelism
  toolSelection : ∀ tools ∈ o.toolSelection, ∀ tool ∈ tools, isToolName tool = true

theorem valid_standard (h : 1 ≤ parallelism) : (standard parallelism).Valid where
  includeRules := nofun
  excludeRules := nofun
  batchSize := nofun
  timeoutMs := by simp [standard]
  parallelism := h
  toolSelection := nofun

theorem valid_of_read {d : Datum} {o : LanguageOptions} (hp : 1 ≤ parallelism)
    (h : read parallelism d = .good o) : o.Valid := by
  cases d with
  | table entries =>
      simp only [read, aliasedRecord, ofRecord, Checked.seq_eq_good, Checked.map_eq_good] at h
      obtain ⟨_, _, ⟨_, ⟨_, _, hbefore, -, rfl⟩, rfl⟩, -, rfl⟩ := h
      obtain ⟨_, _, ⟨_, tools, ⟨_, _, hbefore, hparallelism, rfl⟩, htools, rfl⟩, -, rfl⟩ := hbefore
      obtain ⟨_, _, ⟨_, _, ⟨_, _, ⟨_, _, ⟨_, -, rfl⟩, hinclude, rfl⟩, hexclude, rfl⟩, hbatch, rfl⟩, htimeout,
        rfl⟩ := hbefore
      refine ⟨?_, ?_, ?_, ?_, ?_, ?_⟩
      · exact Record.of_given nofun (fun _ _ => readRules_eq_good) hinclude
      · exact Record.of_given nofun (fun _ _ => readRules_eq_good) hexclude
      · exact Record.of_optional (fun _ _ => wholeWithin_eq_good) hbatch
      · exact Record.of_given (valid_standard hp).timeoutMs (fun _ _ hd => (wholeFrom_eq_good hd).1) htimeout
      · exact Record.of_given hp (fun _ _ hd => (wholeFrom_eq_good hd).1) hparallelism
      · exact Record.of_optional (fun _ _ => readTools_eq_good) htools
  | _ => exact nomatch h

/-! ## Options that are put down and read again -/

variable {changes : List (String × Datum)} {name : String}

theorem keys_entries (o : LanguageOptions) : Entries.keys o.entries = fields := rfl

theorem revised_eq_read (o : LanguageOptions) (changes : List (String × Datum)) :
    o.revised parallelism changes = read parallelism (.table (Entries.setAll o.entries changes)) := by
  unfold revised
  simp only [Datum.insert_eq_alter]
  rfl

theorem field?_setAll (o : LanguageOptions) (hchanges : ∀ key ∈ Entries.keys changes, key ∈ fields)
    (hname : name ∈ fields) : Record.field? ⟨Entries.setAll o.entries changes, true⟩ name =
      ((Datum.lookup name changes.reverse).or (Datum.lookup name o.entries)).map fun d => (name, d) := by
  have hspelling : ∀ name ∈ fields, camel name = name ∨ camel name ∉ fields := by decide +kernel
  have hkeys (key : String) (hkey : key ∈ Entries.keys (Entries.setAll o.entries changes)) : key ∈ fields :=
    (Entries.mem_keys_setAll.mp hkey).elim id (hchanges key)
  have hfree : camel name = name ∨ camel name ∉ Entries.keys (Entries.setAll o.entries changes) :=
    (hspelling name hname).imp_right fun hother hkey => hother (hkeys _ hkey)
  have hfield := Record.field?_of_name (r := ⟨Entries.setAll o.entries changes, true⟩) hfree
  exact hfield.trans (congrArg _ (Entries.get?_setAll name o.entries changes))

theorem closed_setAll (o : LanguageOptions) (hchanges : ∀ key ∈ Entries.keys changes, key ∈ fields) :
    Record.closed ⟨Entries.setAll o.entries changes, true⟩ fields = .good () := by
  apply Record.closed_eq_good
  intro key hkey
  have hname : key ∈ fields := (Entries.mem_keys_setAll.mp hkey).elim id (hchanges key)
  have hsome : (Datum.lookup key o.entries).isSome := Entries.get?_isSome.mpr hname
  refine List.mem_filterMap.mpr ⟨key, hname, ?_⟩
  obtain ⟨d, hd⟩ := Option.isSome_iff_exists.mp hsome
  rw [field?_setAll o hchanges hname, hd]
  cases Datum.lookup key changes.reverse <;> rfl

end LanguageOptions

namespace Overrides

variable {tools timeout : Datum}

/-- Null says nothing. -/
def heard? : Datum → Option Datum
  | .null => none
  | d => some d

theorem keys_changes_subset (tools timeout : Datum) :
    ∀ key ∈ Entries.keys (changes tools timeout), key ∈ LanguageOptions.fields := by
  have hchange {name : String} {d : Datum} (hname : name ∈ LanguageOptions.fields) :
      ∀ key ∈ Entries.keys (change name d), key ∈ LanguageOptions.fields := by
    intro key hkey
    cases d with
    | null => exact absurd hkey List.not_mem_nil
    | _ => rwa [List.mem_singleton.mp hkey]
  intro key hkey
  rw [Entries.keys, changes, List.map_append, List.mem_append] at hkey
  exact hkey.elim (hchange (by decide +kernel) key) (hchange (by decide +kernel) key)

theorem lookup_changes (key : String) (tools timeout : Datum) :
    Datum.lookup key (changes tools timeout).reverse =
      (if "timeout_ms" = key then heard? timeout else none).or
        (if "tool_selection" = key then heard? tools else none) := by
  have hchange (name : String) (d : Datum) :
      Datum.lookup key (change name d).reverse = if name = key then heard? d else none := by
    cases d with
    | null => exact (ite_self none).symm
    | _ => exact Datum.lookup_cons key _ []
  rw [changes, List.reverse_append, Datum.lookup_append, hchange, hchange]

end Overrides

section Changed

variable {α : Type} {r : Record} {name : String} {read : Datum → Checked α} {said kept : Datum}

/-- What is read of an option is what the user says, or what was there. -/
theorem Record.given_changed {a : α} (fallback : α)
    (hfield : r.field? name = ((Overrides.heard? said).or (some kept)).map fun d => (name, d))
    (hkept : read kept = .good a) :
    r.given name read fallback = ((nullable read said).under (.key name)).map fun b => b.getD a := by
  rw [Record.given, hfield]
  cases said with
  | null =>
      show (read kept).under _ = _
      rw [hkept]
      rfl
  | _ =>
      show (read _).under _ = (((read _).map some).under _).map _
      cases read _ <;> rfl

theorem Record.optional_changed {a : Option α}
    (hfield : r.field? name = ((Overrides.heard? said).or (some kept)).map fun d => (name, d))
    (hkept : nullable read kept = .good a) :
    r.optional name read = ((nullable read said).under (.key name)).map fun b => b.or a := by
  rw [Record.optional, Record.given_changed none hfield hkept]
  cases said with
  | null => rfl
  | _ =>
      show ((((read _).map some).map some).under _).map _ = (((read _).map some).under _).map _
      cases read _ <;> rfl

end Changed

namespace LanguageOptions

variable {o : LanguageOptions} {tools timeout : Datum}

/-- The options of a language are found in a record, some of them as the user says. -/
structure Holds (o : LanguageOptions) (tools timeout : Datum) (r : Record) : Prop where
  kept : ∀ e ∈ o.entries, "timeout_ms" ≠ e.1 → "tool_selection" ≠ e.1 → r.field? e.1 = some e
  timeoutMs : r.field? "timeout_ms" =
    ((Overrides.heard? timeout).or (some (writtenNat o.timeoutMs))).map fun d => ("timeout_ms", d)
  toolSelection : r.field? "tool_selection" =
    ((Overrides.heard? tools).or (some ((o.toolSelection.map writtenTexts).getD .null))).map
      fun d => ("tool_selection", d)

theorem holds_setAll (o : LanguageOptions) (tools timeout : Datum) :
    o.Holds tools timeout ⟨Entries.setAll o.entries (Overrides.changes tools timeout), true⟩ := by
  have hsub := Overrides.keys_changes_subset tools timeout
  refine ⟨fun e he htimeout htools => ?_, ?_, ?_⟩
  · have hnames : (Entries.keys o.entries).Nodup := by
      rw [keys_entries]
      decide +kernel
    have hlookup : Datum.lookup e.1 o.entries = some e.2 := Datum.lookup_of_mem hnames he
    rw [field?_setAll o hsub (Entries.mem_keys_of_mem he), Overrides.lookup_changes, if_neg htimeout,
      if_neg htools, hlookup]
    rfl
  · rw [field?_setAll o hsub (by decide +kernel), Overrides.lookup_changes, if_pos rfl,
      if_neg (by decide +kernel), Option.or_none]
    rfl
  · rw [field?_setAll o hsub (by decide +kernel), Overrides.lookup_changes, if_neg (by decide +kernel),
      if_pos rfl, Option.none_or]
    rfl

theorem Valid.read_batchSize (h : o.Valid) :
    nullable (wholeWithin 1 maxBatchSize) ((o.batchSize.map writtenNat).getD .null) = .good o.batchSize := by
  have hconveys : ∀ n ∈ o.batchSize, Conveys 0 (wholeWithin 1 maxBatchSize) (writtenNat n) n := by
    intro n hn
    obtain ⟨hleast, hmost⟩ := h.batchSize n hn
    exact conveys_wholeWithin hleast hmost
  exact (conveys_getD (fun _ _ => by simp [writtenNat]) hconveys).read

theorem read_toolOptions (o : LanguageOptions) :
    tableOf (tableOf anything) (.table (o.toolOptions.map fun (tool, settings) => (tool, .table settings))) =
      .good o.toolOptions := by
  refine tableOf_written fun e _ => ?_
  have hsettings : tableOf anything (.table (e.2.map fun entry => entry)) = .good e.2 :=
    @tableOf_written _ anything id e.2 fun _ _ => rfl
  rwa [List.map_id'] at hsettings

theorem Holds.ofRecord {r : Record} (hr : o.Holds tools timeout r) (h : o.Valid) (workers : Option Int) :
    ofRecord parallelism r = (Overrides.read tools timeout workers).map o.overriddenBy := by
  have htimeoutMs := Record.given_changed (standard parallelism).timeoutMs hr.timeoutMs
    (conveys_nat (k := 0) h.timeoutMs).read
  have htoolSelection := Record.optional_changed hr.toolSelection (readTools_written h.toolSelection)
  have hseverity := (conveys_writtenMember (k := 0) o.severityThreshold.ofName?_name).read
  have hparallelism := (conveys_nat (k := 0) h.parallelism).read
  have hkept := hr.kept
  simp only [entries, List.forall_mem_cons, ne_eq, String.reduceEq, not_false_eq_true, forall_const] at hkept
  rw [LanguageOptions.ofRecord, htimeoutMs, htoolSelection]
  -- every other option is found as it was, so that only the readings of the two changes are left
  simp only [Record.given, Record.optional, hkept, hseverity, readRules_written h.includeRules,
    readRules_written h.excludeRules, h.read_batchSize, hparallelism, read_toolOptions]
  unfold Overrides.read
  generalize (nullable (wholeFrom 1) timeout).under (.key "timeout_ms") = timeoutMs
  generalize (nullable readTools tools).under (.key "tool_selection") = toolSelection
  cases timeoutMs <;> cases toolSelection <;> rfl

/-- **Options that keep the rules are read as they were**, but for what the user says. -/
theorem revised_changes (h : o.Valid) (tools timeout : Datum) (workers : Option Int) :
    o.revised parallelism (Overrides.changes tools timeout) =
      (Overrides.read tools timeout workers).map o.overriddenBy := by
  rw [revised_eq_read, read, aliasedRecord, (holds_setAll o tools timeout).ofRecord h workers,
    closed_setAll o (Overrides.keys_changes_subset tools timeout)]
  cases Overrides.read tools timeout workers <;> rfl

end LanguageOptions

/-! ## What the user says -/

namespace Overrides

/-- The rules for what the user says. -/
structure Valid (u : Overrides) : Prop where
  toolSelection : ∀ tools ∈ u.toolSelection, ∀ tool ∈ tools, isToolName tool = true
  timeoutMs : ∀ n ∈ u.timeoutMs, 1 ≤ n

/-- The tools that the user names; null if there are no such. -/
def tools (u : Overrides) : Datum := (u.toolSelection.map writtenTexts).getD .null

/-- The time that the user allows; null if nothing is said of it. -/
def timeout (u : Overrides) : Datum := (u.timeoutMs.map writtenNat).getD .null

variable {u : Overrides}

theorem Valid.read_said (h : u.Valid) : Overrides.read u.tools u.timeout u.workers = .good u := by
  have htimeout : ∀ n ∈ u.timeoutMs, Conveys 0 (wholeFrom 1) (writtenNat n) n :=
    fun n hn => conveys_nat (h.timeoutMs n hn)
  have hreadTimeout := (conveys_getD (fun _ _ => by simp [writtenNat]) htimeout).read
  rw [Overrides.read, tools, timeout, readTools_written h.toolSelection, hreadTimeout]
  rfl

theorem workers_of_read {tools timeout : Datum} {workers : Option Int}
    (h : Overrides.read tools timeout workers = .good u) : u.workers = workers := by
  obtain ⟨_, _, hsaid, -, rfl⟩ := Checked.seq_eq_good.mp h
  obtain ⟨_, -, rfl⟩ := Checked.map_eq_good.mp hsaid
  rfl

theorem eq_null_of_changes_eq_nil {tools timeout : Datum} (h : changes tools timeout = []) :
    tools = .null ∧ timeout = .null := by
  have hnull {name : String} {d : Datum} (h : change name d = []) : d = .null := by
    cases d with
    | null => rfl
    | _ => exact nomatch h
  obtain ⟨htools, htimeout⟩ := List.append_eq_nil_iff.mp h
  exact ⟨hnull htools, hnull htimeout⟩

end Overrides

theorem LanguageOptions.Valid.overriddenBy {o : LanguageOptions} {u : Overrides} (h : o.Valid) (hu : u.Valid) :
    (o.overriddenBy u).Valid where
  includeRules := h.includeRules
  excludeRules := h.excludeRules
  batchSize := h.batchSize
  timeoutMs := by
    cases hn : u.timeoutMs with
    | none => simpa [LanguageOptions.overriddenBy, hn] using h.timeoutMs
    | some n => simpa [LanguageOptions.overriddenBy, hn] using hu.timeoutMs n hn
  parallelism := h.parallelism
  toolSelection := by
    intro tools htools
    cases hnames : u.toolSelection with
    | none => exact h.toolSelection tools (by simpa [LanguageOptions.overriddenBy, hnames] using htools)
    | some names => exact hu.toolSelection tools (by simpa [LanguageOptions.overriddenBy, hnames] using htools)

/-! ## The options of a run -/

namespace AnalysisOptions

variable {o : AnalysisOptions} {u : Overrides} {d : Datum}

theorem valid_of_ofRecord {r : Record} (hp : 1 ≤ parallelism) (h : ofRecord parallelism r = .good o)
    (language : Language) : (o.block language).Valid := by
  have hblock {name : String} {block : LanguageOptions}
      (h : r.given name (LanguageOptions.read parallelism) (.standard parallelism) = .good block) :
      block.Valid :=
    Record.of_given (LanguageOptions.valid_standard hp) (fun _ _ => LanguageOptions.valid_of_read hp) h
  simp only [ofRecord, Checked.seq_eq_good, Checked.map_eq_good] at h
  obtain ⟨_, _, ⟨_, _, ⟨_, _, hblocks, -, rfl⟩, -, rfl⟩, -, rfl⟩ := h
  obtain ⟨_, _, ⟨_, _, ⟨_, _, ⟨_, _, ⟨_, hrust, rfl⟩, hgo, rfl⟩, hc, rfl⟩, hcpp, rfl⟩, hpython, rfl⟩ := hblocks
  cases language with
  | rust => exact hblock hrust
  | go => exact hblock hgo
  | c => exact hblock hc
  | cpp => exact hblock hcpp
  | python => exact hblock hpython

/-- The blocks of options that come from a configuration keep the rules. -/
theorem valid_of_ofConfiguration (hp : 1 ≤ parallelism) (h : ofConfiguration parallelism d = .ok o)
    (language : Language) : (o.block language).Valid := by
  have hread {d : Datum} (h : read parallelism d = .good o) : (o.block language).Valid := by
    cases d with
    | table entries =>
        obtain ⟨_, _, hoptions, -, rfl⟩ := Checked.seq_eq_good.mp h
        obtain ⟨_, hrecord, rfl⟩ := Checked.map_eq_good.mp hoptions
        exact valid_of_ofRecord hp hrecord language
    | _ => exact nomatch h
  have hpairs {pairs : List Pair} (h : readPairs parallelism pairs = .good o) : (o.block language).Valid := by
    obtain ⟨_, _, hoptions, -, rfl⟩ := Checked.seq_eq_good.mp h
    obtain ⟨_, hrecord, rfl⟩ := Checked.map_eq_good.mp hoptions
    exact valid_of_ofRecord hp hrecord language
  have hgood : readConfiguration parallelism d = .ok (.good o) := by
    unfold ofConfiguration at h
    split at h
    · exact nomatch h
    · next heq => rw [heq, Except.ok.inj h]
    · exact nomatch h
  unfold readConfiguration at hgood
  split at hgood
  · exact hread (Except.ok.inj hgood)
  · split at hgood
    · exact hread (Except.ok.inj hgood)
    · obtain ⟨parts, -, hgood⟩ := bind_eq_ok.mp hgood
      obtain ⟨pairs, -, hgood⟩ := bind_eq_ok.mp hgood
      exact hpairs (Except.ok.inj hgood)

theorem block_overriddenBy (o : AnalysisOptions) (u : Overrides) (language : Language) :
    (o.overriddenBy u).block language = (o.block language).overriddenBy u := by
  cases language <;> rfl

theorem overriddenBy_overriddenBy (o : AnalysisOptions) (u : Overrides) :
    (o.overriddenBy u).overriddenBy u = o.overriddenBy u := by
  have hblock (b : LanguageOptions) : (b.overriddenBy u).overriddenBy u = b.overriddenBy u := by
    unfold LanguageOptions.overriddenBy
    cases u.toolSelection <;> cases u.timeoutMs <;> rfl
  have hworkers : u.workers.getD (u.workers.getD o.workers) = u.workers.getD o.workers := by
    cases u.workers <;> rfl
  simp only [overriddenBy, mapBlocks, hblock, hworkers]

theorem revised_changes (h : ∀ language, (o.block language).Valid) (tools timeout : Datum)
    (workers : Option Int) : o.revised parallelism (Overrides.changes tools timeout) =
      (Overrides.read tools timeout workers).map fun u => o.mapBlocks fun block => block.overriddenBy u := by
  unfold revised
  simp only [LanguageOptions.revised_changes (h _) tools timeout workers]
  cases Overrides.read tools timeout workers <;> rfl

/-- **Only what the user says can be refused.** -/
theorem withOverrides_eq (h : ∀ language, (o.block language).Valid) (tools timeout : Datum)
    (workers : Option Int) : o.withOverrides parallelism tools timeout workers =
      (Overrides.read tools timeout workers).map o.overriddenBy := by
  unfold withOverrides
  dsimp only
  split
  · next hnone =>
    obtain ⟨rfl, rfl⟩ := Overrides.eq_null_of_changes_eq_nil (List.isEmpty_iff.mp hnone)
    rfl
  · rw [revised_changes h tools timeout workers]
    cases hu : Overrides.read tools timeout workers with
    | bad faults => rfl
    | good u =>
        rw [← Overrides.workers_of_read hu]
        rfl

/-- **What the user says counts, and everything else stays.** In every block the tools and the time are what
the user says, the workers are too, and nothing else is changed; to say the same again, or to say nothing,
changes nothing. -/
theorem withOverrides_spec (parallelism : Nat) (ho : ∀ language, (o.block language).Valid) (hu : u.Valid) :
    (∃ o', o.withOverrides parallelism u.tools u.timeout u.workers = .good o' ∧
        (∀ language, o'.block language = { o.block language with
          toolSelection := u.toolSelection.or (o.block language).toolSelection
          timeoutMs := u.timeoutMs.getD (o.block language).timeoutMs }) ∧
        o'.workers = u.workers.getD o.workers ∧ o'.limits = o.limits ∧
        o'.availabilityTtlSeconds = o.availabilityTtlSeconds ∧
        o'.withOverrides parallelism u.tools u.timeout u.workers = .good o') ∧
      o.withOverrides parallelism .null .null none = .good o := by
  have hread := hu.read_said
  have hagain : ∀ language, ((o.overriddenBy u).block language).Valid := by
    intro language
    rw [block_overriddenBy]
    exact (ho language).overriddenBy hu
  refine ⟨⟨o.overriddenBy u, ?_, block_overriddenBy o u, rfl, rfl, rfl, ?_⟩, rfl⟩
  · rw [withOverrides_eq ho, hread]
    rfl
  · rw [withOverrides_eq hagain, hread]
    exact congrArg _ (overriddenBy_overriddenBy o u)

/-- Options in which the blocks differ. -/
def sample : AnalysisOptions :=
  { standard 4 with
    rust := { LanguageOptions.standard 4 with
      severityThreshold := .high
      includeRules := ["clippy::unwrap_used"]
      toolOptions := [("clippy", [("features", .list [.text "a", .int 1]), ("pedantic", .bool true)])] }
    cpp := { LanguageOptions.standard 2 with batchSize := some 20, toolSelection := some ["valgrind"] } }

/-- What is said beside them. -/
def sampleOverrides : Overrides := { toolSelection := some ["clippy", "gosec"], workers := some 2 }

theorem sample_valid (language : Language) : (sample.block language).Valid := by
  cases language with
  | rust => exact ⟨by decide +kernel, by decide +kernel, by decide, by decide, by decide, by decide⟩
  | cpp => exact ⟨by decide, by decide, by decide, by decide, by decide, by decide +kernel⟩
  | _ => exact LanguageOptions.valid_standard (by decide)

theorem sampleOverrides_valid : sampleOverrides.Valid where
  toolSelection := by decide +kernel
  timeoutMs := by decide

theorem withOverrides_sample : (∀ language, (sample.block language).Valid) ∧ sampleOverrides.Valid ∧
    ∃ o', sample.withOverrides 4 sampleOverrides.tools sampleOverrides.timeout sampleOverrides.workers =
        .good o' ∧
      o'.cpp = { sample.cpp with toolSelection := some ["clippy", "gosec"] } ∧
      o'.rust = { sample.rust with toolSelection := some ["clippy", "gosec"] } ∧ o'.workers = 2 := by
  obtain ⟨⟨o', hgood, hblock, hworkers, -⟩, -⟩ := withOverrides_spec 4 sample_valid sampleOverrides_valid
  exact ⟨sample_valid, sampleOverrides_valid, o', hgood, hblock .cpp, hblock .rust, hworkers⟩

end AnalysisOptions

end Assay
