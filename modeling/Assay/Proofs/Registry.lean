import Assay.Proofs.Entries
import Assay.Proofs.Outcome
import Assay.Registry.Tables

/-!
# Registries in two tables

The rows of the languages repeat what the table of names says, so the two can come apart. They do not, as long
as every analyzer names a language once: after any calls the tables hold a registry (`Holds`), a list of
analyzers under distinct names, and everything that is looked up in them is read off that list. A call keeps
this whether it is refused or not (`Holds.register`), so a run of calls does (`Holds.after`). The main result
is `registered_of_calls`.
-/

namespace Assay

namespace RegistryTables

variable {r : RegistryTables} {g : Registry} {a : Analyzer} {calls : List Analyzer}

/-! ## Rows -/

/-- The row of a language in a table of rows. -/
def rowIn (l : Language) (rows : List (Language × List String)) : List String :=
  ((rows.find? fun e => e.1 == l).map (·.2)).getD []

theorem rowIn_cons (l : Language) (e : Language × List String) (rows : List (Language × List String)) :
    rowIn l (e :: rows) = if e.1 = l then e.2 else rowIn l rows := by
  unfold rowIn
  rw [List.find?_cons]
  split
  · next h => rw [if_pos (eq_of_beq h)]; rfl
  · next h => rw [if_neg (beq_eq_false_iff_ne.mp h)]

theorem rowIn_addTo (l k : Language) (name : String) (rows : List (Language × List String)) :
    rowIn l (addTo k name rows) = if k = l then rowIn l rows ++ [name] else rowIn l rows := by
  induction rows with
  | nil => exact rowIn_cons l (k, [name]) []
  | cons e rows ih =>
      rw [addTo]
      split
      · next hk =>
        obtain rfl := eq_of_beq hk
        rw [rowIn_cons, rowIn_cons]
        split <;> rfl
      · next hk =>
        have hne : e.1 ≠ k := fun h => hk (beq_iff_eq.mpr h)
        rw [rowIn_cons, rowIn_cons, ih]
        split
        · next hl => rw [if_neg fun h => hne (hl.trans h.symm)]
        · rfl

/-- A name is added to the rows of the languages that are listed, once to each. -/
theorem rowIn_foldl_addTo {languages : List Language} (h : languages.Nodup) (l : Language) (name : String)
    (rows : List (Language × List String)) :
    rowIn l (languages.foldl (fun rows k => addTo k name rows) rows) =
      if l ∈ languages then rowIn l rows ++ [name] else rowIn l rows := by
  induction languages generalizing rows with
  | nil => rfl
  | cons k languages ih =>
      obtain ⟨hk, hrest⟩ := List.nodup_cons.mp h
      rw [List.foldl_cons, ih hrest, rowIn_addTo]
      by_cases hl : l = k
      · rw [hl, if_neg hk, if_pos rfl, if_pos List.mem_cons_self]
      · rw [if_neg (Ne.symm hl)]
        exact if_congr (List.mem_cons.trans (or_iff_right hl)).symm rfl rfl

/-! ## Tables that hold a registry -/

/-- The tables hold a registry: the names are those of its analyzers, in order, all different, and the row of
a language lists those that serve it. -/
structure Holds (r : RegistryTables) (g : Registry) : Prop where
  byName : r.byName = g.tools.map fun a => (a.name, a)
  row : ∀ l, r.row l = (g.serving l).map (·.name)
  nodup : g.names.Nodup

namespace Holds

theorem empty : Holds {} {} := ⟨rfl, fun _ => rfl, List.nodup_nil⟩

theorem names (h : Holds r g) : r.names = g.names := by
  rw [RegistryTables.names, h.byName, List.map_map]
  rfl

theorem find? (h : Holds r g) (name : String) : r.find? name = g.find? name := by
  rw [RegistryTables.find?, h.byName, List.find?_map, Option.map_map]
  exact congrFun Option.map_id _

theorem find?_name (h : Holds r g) (ha : a ∈ g.tools) : r.find? a.name = some a := by
  have hkeys : (Entries.keys r.byName).Nodup := by
    show r.names.Nodup
    rw [h.names]
    exact h.nodup
  refine (Entries.get?_eq_some hkeys).mpr ?_
  rw [h.byName]
  exact List.mem_map_of_mem ha

theorem get (h : Holds r g) (name : String) : r.get name = g.get name := by
  rw [RegistryTables.get, h.find?]
  rfl

/-- What serves a language is looked up without fail. -/
theorem serving (h : Holds r g) (l : Language) : r.serving l = .ok (g.serving l) := by
  have hlookup (tools : List Analyzer) (htools : ∀ a ∈ tools, a ∈ g.tools) :
      (tools.map (·.name)).mapM r.get = .ok tools := by
    induction tools with
    | nil => rfl
    | cons a tools ih =>
        obtain ⟨ha, hrest⟩ := List.forall_mem_cons.mp htools
        rw [List.map_cons, List.mapM_cons, RegistryTables.get, h.find?_name ha, ih hrest]
        rfl
  rw [RegistryTables.serving, h.row]
  exact hlookup _ fun a ha => List.mem_of_mem_filter ha

theorem contains (h : Holds r g) (name : String) : r.contains name = g.contains name := by
  rw [RegistryTables.contains, h.find?]
  rfl

end Holds

/-! ## One call -/

/-- A name that is taken is refused, and neither table is changed. -/
theorem register_of_mem (h : a.name ∈ r.names) :
    r.register a = (.error (.badValue ("Tool '" ++ a.name ++ "' already registered")), r) := by
  have hcontains : r.contains a.name = true := Entries.get?_isSome.mpr h
  rw [register, if_pos hcontains]

/-- The tables with one more analyzer. -/
def add (r : RegistryTables) (a : Analyzer) : RegistryTables where
  byName := r.byName ++ [(a.name, a)]
  byLanguage := a.languages.foldl (fun rows l => addTo l a.name rows) r.byLanguage

theorem register_of_not_mem (h : a.name ∉ r.names) : r.register a = (.ok (), r.add a) := by
  have hcontains : ¬ r.contains a.name = true := fun hc => h (Entries.get?_isSome.mp hc)
  rw [register, if_neg hcontains]
  rfl

theorem row_add (hlanguages : a.languages.Nodup) (l : Language) :
    (r.add a).row l = if l ∈ a.languages then r.row l ++ [a.name] else r.row l :=
  rowIn_foldl_addTo hlanguages l a.name r.byLanguage

theorem serving_append (g : Registry) (a : Analyzer) (l : Language) :
    (Registry.serving ⟨g.tools ++ [a]⟩ l) = if l ∈ a.languages then g.serving l ++ [a] else g.serving l := by
  unfold Registry.serving
  rw [List.filter_append, List.filter_singleton]
  split
  · next hl =>
    rw [List.contains_iff_mem.mpr hl]
    rfl
  · next hl =>
    rw [Bool.eq_false_iff.mpr fun hc => hl (List.contains_iff_mem.mp hc)]
    exact List.append_nil _

theorem Holds.add (h : Holds r g) (hname : a.name ∉ r.names) (hlanguages : a.languages.Nodup) :
    Holds (r.add a) ⟨g.tools ++ [a]⟩ where
  byName := by
    show r.byName ++ _ = _
    rw [h.byName, List.map_append]
    rfl
  row l := by
    rw [row_add hlanguages, serving_append, h.row]
    split
    · rw [List.map_append]
      rfl
    · rfl
  nodup := by
    show ((g.tools ++ [a]).map (·.name)).Nodup
    rw [List.map_append, List.nodup_append]
    refine ⟨h.nodup, List.nodup_singleton _, ?_⟩
    intro name hmem other hother heq
    rw [h.names] at hname
    rw [heq, List.mem_singleton.mp hother] at hmem
    exact hname hmem

/-- **A call keeps the tables together**: it does to them what it does to the registry that they hold, and is
refused for the same reason. -/
theorem Holds.register (h : Holds r g) (hlanguages : a.languages.Nodup) :
    (∃ b, g.register a = .error b ∧ r.register a = (.error b, r)) ∨
      (g.register a = .ok ⟨g.tools ++ [a]⟩ ∧ r.register a = (.ok (), r.add a) ∧
        Holds (r.add a) ⟨g.tools ++ [a]⟩) := by
  have hcontains : g.contains a.name = true ↔ a.name ∈ r.names := by
    rw [← h.contains]
    exact Entries.get?_isSome
  unfold Registry.register
  by_cases hname : a.name ∈ r.names
  · exact .inl ⟨_, if_pos (hcontains.mpr hname), register_of_mem hname⟩
  · exact .inr ⟨if_neg fun hc => hname (hcontains.mp hc), register_of_not_mem hname, h.add hname hlanguages⟩

/-! ## Runs of calls -/

/-- The tables after some calls, those that are refused ignored. -/
def after (r : RegistryTables) (calls : List Analyzer) : RegistryTables :=
  calls.foldl (fun r a => (r.register a).2) r

/-- The analyzers whose call is not refused, in order. -/
def accepted (r : RegistryTables) : List Analyzer → List Analyzer
  | [] => []
  | a :: calls =>
    match r.register a with
    | (.ok _, r') => a :: r'.accepted calls
    | (.error _, r') => r'.accepted calls

/-- **A run of calls keeps the tables together**: what they hold in the end is what they held before, and then
the analyzers whose calls were not refused. -/
theorem Holds.after (h : Holds r g) (hlanguages : ∀ a ∈ calls, a.languages.Nodup) :
    Holds (r.after calls) ⟨g.tools ++ r.accepted calls⟩ := by
  induction calls generalizing r g with
  | nil =>
      rw [accepted, List.append_nil]
      exact h
  | cons a calls ih =>
      obtain ⟨ha, hrest⟩ := List.forall_mem_cons.mp hlanguages
      show Holds ((r.register a).2.after calls) _
      rw [accepted]
      rcases h.register ha with ⟨b, -, hregister⟩ | ⟨-, hregister, h'⟩
      · rw [hregister]
        exact ih h hrest
      · rw [hregister]
        have hlater := ih h' hrest
        rwa [List.append_assoc] at hlater

/-- The names are those of the calls, each where it came first. -/
theorem names_after (r : RegistryTables) (calls : List Analyzer) :
    (r.after calls).names =
      r.names ++ ((calls.map (·.name)).filter fun name => !r.names.contains name).eraseDups := by
  induction calls generalizing r with
  | nil => exact (List.append_nil _).symm
  | cons a calls ih =>
      show ((r.register a).2.after calls).names = _
      rw [ih, List.map_cons]
      by_cases hname : a.name ∈ r.names
      · rw [register_of_mem hname, List.filter_cons_of_neg (by simpa using hname)]
      · have hnames : (r.add a).names = r.names ++ [a.name] := List.map_append
        rw [register_of_not_mem hname, List.filter_cons_of_pos (by simpa using hname), List.eraseDups_cons,
          List.filter_filter, hnames, List.append_assoc, List.singleton_append]
        congr 4
        funext name
        grind

/-- A name leads to the first analyzer of that name that was to be registered. -/
theorem find?_after (r : RegistryTables) (calls : List Analyzer) (name : String) :
    (r.after calls).find? name = (r.find? name).or (calls.find? fun a => a.name == name) := by
  induction calls generalizing r with
  | nil => exact (Option.or_none).symm
  | cons a calls ih =>
      show ((r.register a).2.after calls).find? name = _
      rw [ih, List.find?_cons]
      by_cases hname : a.name ∈ r.names
      · rw [register_of_mem hname]
        split
        · next h =>
          obtain rfl := eq_of_beq h
          obtain ⟨known, hknown⟩ := Option.isSome_iff_exists.mp (Entries.get?_isSome.mpr hname)
          have hfind : r.find? a.name = some known := hknown
          rw [hfind]
          rfl
        · rfl
      · rw [register_of_not_mem hname]
        -- an analyzer that is added comes after those that the table knows
        have hfind : (r.add a).find? name = (r.find? name).or (if a.name = name then some a else none) :=
          (Entries.get?_append name r.byName [(a.name, a)]).trans (by rw [Entries.get?_cons]; rfl)
        rw [hfind, Option.or_assoc]
        by_cases h : a.name = name
        · rw [if_pos h, beq_iff_eq.mpr h]
          rfl
        · rw [if_neg h, beq_eq_false_iff_ne.mpr h]
          rfl

/-! ## The registry of a run -/

/-- **Whatever calls are made**, refused ones ignored, as long as each analyzer names a language once. The names
stay distinct and come in the order of the first calls for them; the table of names lists the analyzers that
were registered, in order, and each language leads to those of them that serve it, in the same order. One more
call is refused exactly if its name is taken, and then changes neither table. -/
theorem registered_of_calls (calls : List Analyzer) (hlanguages : ∀ a ∈ calls, a.languages.Nodup) :
    let r := after {} calls
    let registered := accepted {} calls
    r.names.Nodup ∧
    r.names = (calls.map (·.name)).eraseDups ∧
    r.byName = registered.map (fun a => (a.name, a)) ∧
    (∀ name, r.find? name = calls.find? fun a => a.name == name) ∧
    (∀ l, r.serving l = .ok (registered.filter fun a => a.languages.contains l)) ∧
    (∀ a, a.name ∈ r.names → ∃ b, r.register a = (.error b, r)) ∧
    ∀ a, a.name ∉ r.names → (r.register a).1 = .ok () := by
  intro r registered
  have hholds : Holds r ⟨registered⟩ := Holds.empty.after hlanguages
  refine ⟨?_, ?_, hholds.byName, ?_, hholds.serving, ?_, ?_⟩
  · rw [hholds.names]
    exact hholds.nodup
  · exact (names_after {} calls).trans (by simp [names])
  · exact fun name => find?_after {} calls name
  · exact fun a hname => ⟨_, register_of_mem hname⟩
  · intro a hname
    rw [register_of_not_mem hname]

/-- The calls for three tools, one of them made twice. -/
theorem registered_of_calls_twice :
    let calls := [Analyzer.pylint, Analyzer.clang, Analyzer.pylint, Analyzer.valgrind]
    (∀ a ∈ calls, a.languages.Nodup) ∧
      (after {} calls).names = ["pylint", "clang-static-analyzer", "valgrind"] ∧
      (after {} calls).serving .cpp = .ok [Analyzer.clang, Analyzer.valgrind] := by
  intro calls
  have hlanguages : ∀ a ∈ calls, a.languages.Nodup := by decide
  obtain ⟨-, hnames, -, -, hserving, -⟩ := registered_of_calls calls hlanguages
  refine ⟨hlanguages, ?_, ?_⟩
  · rw [hnames]
    decide
  · rw [hserving]
    rfl

end RegistryTables

end Assay
