import Assay.Proofs.Entries
import Assay.Sandbox.Execution

/-!
# What a command sees of its parent

The value of a variable is the declared one if the policy overrides it, else the parent's if it is the search
path or taken over, else the default if it is the search path (`value?_environment`). So two parents that
agree on these variables are the same to a command, in what it sees and in what comes of it. The main result
is `Policy.environment_spec`.
-/

namespace Assay.Sandbox

open Files

namespace Environment

variable {e : Environment} {entries : List (String × String)}

/-- The names of the variables, in order. -/
def names (e : Environment) : List String := Entries.keys e

theorem set_eq_alter (name value : String) (e : Environment) :
    set name value e = Entries.alter name (fun _ => value) e := by
  induction e with
  | nil => rfl
  | cons entry e ih =>
      rw [set, Entries.alter, ih]

theorem setAll_eq (e : Environment) (entries : List (String × String)) :
    setAll e entries = Entries.setAll e entries := by
  simp only [setAll, Entries.setAll, set_eq_alter]

/-- Of several values that are set for a variable the last one counts. -/
theorem value?_setAll (name : String) :
    (setAll e entries).value? name = (value? name entries.reverse).or (e.value? name) := by
  rw [setAll_eq]
  exact Entries.get?_setAll name e entries

theorem mem_names_setAll {name : String} :
    name ∈ (setAll e entries).names ↔ name ∈ e.names ∨ name ∈ Entries.keys entries := by
  rw [setAll_eq]
  exact Entries.mem_keys_setAll

theorem nodup_names_setAll (h : e.names.Nodup) : (setAll e entries).names.Nodup := by
  rw [setAll_eq]
  exact Entries.nodup_keys_setAll h

end Environment

namespace Policy

open Environment

variable {p : Policy} {parent other : Environment} {name : String}

/-! ## What a policy takes over -/

theorem mem_taken {value : String} :
    (name, value) ∈ p.taken parent ↔ name ∈ p.inherited ∧ parent.value? name = some value := by
  simp only [taken, List.mem_filterMap, Option.map_eq_some_iff, Prod.mk.injEq]
  constructor
  · rintro ⟨_, hname, _, hvalue, rfl, rfl⟩
    exact ⟨hname, hvalue⟩
  · rintro ⟨hname, hvalue⟩
    exact ⟨name, hname, value, hvalue, rfl, rfl⟩

theorem mem_keys_taken :
    name ∈ Entries.keys (p.taken parent) ↔ name ∈ p.inherited ∧ parent.value? name ≠ none := by
  rw [Option.ne_none_iff_exists', ← exists_and_left, Entries.keys, List.mem_map]
  constructor
  · rintro ⟨⟨_, value⟩, hmem, rfl⟩
    exact ⟨value, mem_taken.mp hmem⟩
  · rintro ⟨value, hmem⟩
    exact ⟨(name, value), mem_taken.mpr hmem, rfl⟩

/-- A variable that is taken over has the parent's value, however often the policy names it. -/
theorem value?_taken : Environment.value? name (p.taken parent).reverse =
    if name ∈ p.inherited then parent.value? name else none := by
  cases hvalue : Environment.value? name (p.taken parent).reverse with
  | some value =>
      obtain ⟨hname, hparent⟩ := mem_taken.mp (List.mem_reverse.mp (Entries.mem_of_get? hvalue))
      rw [if_pos hname, hparent]
  | none =>
      have hnone := Entries.get?_eq_none.mp hvalue
      rw [Entries.keys_reverse, List.mem_reverse] at hnone
      split
      · next hname =>
        by_contra hparent
        exact hnone (mem_keys_taken.mpr ⟨hname, Ne.symm hparent⟩)
      · rfl

/-! ## What a command sees -/

/-- The value that a policy declares for a variable, the last one if it declares several. -/
def declared? (p : Policy) (name : String) : Option String := Environment.value? name p.overrides.reverse

/-- The environment says of a variable what the policy declares, else what the parent says of a variable that
is taken over, else what the search path is in any case. -/
theorem value?_environment : (p.environment parent).value? name =
    (p.declared? name).or ((if name ∈ p.inherited then parent.value? name else none).or
      (if name = searchPathName then some ((parent.value? searchPathName).getD defaultSearchPath)
        else none)) := by
  have hpath (value : String) : Environment.value? name [(searchPathName, value)] =
      if name = searchPathName then some value else none := by
    show Entries.get? name [(searchPathName, value)] = _
    rw [Entries.get?_cons]
    exact if_congr eq_comm rfl rfl
  rw [environment, value?_setAll, value?_setAll, value?_taken, hpath]
  rfl

theorem mem_names_environment : name ∈ (p.environment parent).names ↔
    name = searchPathName ∨ (name ∈ p.inherited ∧ parent.value? name ≠ none) ∨
      name ∈ Entries.keys p.overrides := by
  rw [environment, mem_names_setAll, mem_names_setAll, mem_keys_taken, or_assoc]
  simp [names, Entries.keys]

/-- A policy takes nothing else over from its parent. -/
theorem environment_congr
    (h : ∀ name ∈ searchPathName :: p.inherited, other.value? name = parent.value? name) :
    p.environment other = p.environment parent := by
  obtain ⟨hpath, hinherited⟩ := List.forall_mem_cons.mp h
  have htaken : p.taken other = p.taken parent :=
    List.filterMap_congr fun name hname => by rw [hinherited name hname]
  rw [environment, environment, hpath, htaken]

/-- Under distinct names each declaration counts. -/
theorem declared?_of_mem (hnames : (Entries.keys p.overrides).Nodup) {e : String × String}
    (he : e ∈ p.overrides) : p.declared? e.1 = some e.2 := by
  have hreverse : (Entries.keys p.overrides.reverse).Nodup := by
    rw [Entries.keys_reverse]
    exact List.nodup_reverse.mpr hnames
  exact (Entries.get?_eq_some hreverse).mpr (List.mem_reverse.mpr he)

theorem declared?_eq_none : p.declared? name = none ↔ name ∉ Entries.keys p.overrides := by
  rw [← List.mem_reverse, ← Entries.keys_reverse]
  exact Entries.get?_eq_none

theorem value?_overridden (h : name ∈ Entries.keys p.overrides) :
    (p.environment parent).value? name = p.declared? name := by
  obtain ⟨value, hvalue⟩ := Option.ne_none_iff_exists'.mp fun hnone => declared?_eq_none.mp hnone h
  rw [value?_environment, hvalue, Option.some_or]

theorem value?_taken_over (hname : name ∈ (p.environment parent).names) (h : name ∉ Entries.keys p.overrides)
    (hpath : name ≠ searchPathName) : (p.environment parent).value? name = parent.value? name := by
  rcases mem_names_environment.mp hname with heq | ⟨hinherited, hparent⟩ | hoverridden
  · exact absurd heq hpath
  · rw [value?_environment, declared?_eq_none.mpr h, if_pos hinherited, if_neg hpath, Option.none_or,
      Option.or_none]
  · exact absurd hoverridden h

theorem value?_searchPath (h : searchPathName ∉ Entries.keys p.overrides) :
    (p.environment parent).value? searchPathName =
      some ((parent.value? searchPathName).getD defaultSearchPath) := by
  rw [value?_environment, declared?_eq_none.mpr h, if_pos rfl, Option.none_or]
  cases parent.value? searchPathName with
  | none => simp
  | some value => split <;> rfl

/-- **What a command sees of its parent.** Parents that agree on the search path and on the variables that a
policy takes over are the same to its commands, however these are launched. The names of the environment are the search path, the
variables taken over that the parent has, and the overrides, each once; an override has the value that is
declared for it, any other variable the parent's, and the search path a default if the parent has none. -/
theorem environment_spec (p : Policy) (parent : Environment) :
    (∀ other : Environment,
      (∀ name ∈ searchPathName :: p.inherited, other.value? name = parent.value? name) →
        p.environment other = p.environment parent ∧
          ∀ t, p.isAvailable t other = p.isAvailable t parent ∧
            ∀ (launch : Launcher) (j : Job), j.policy = p →
              j.executeBy launch t other = j.executeBy launch t parent) ∧
      (p.environment parent).names.Nodup ∧
      (∀ name, name ∈ (p.environment parent).names ↔
        name = searchPathName ∨ (name ∈ p.inherited ∧ parent.value? name ≠ none) ∨
          name ∈ Entries.keys p.overrides) ∧
      (∀ name ∈ Entries.keys p.overrides, (p.environment parent).value? name = p.declared? name) ∧
      ((Entries.keys p.overrides).Nodup →
        ∀ e ∈ p.overrides, (p.environment parent).value? e.1 = some e.2) ∧
      ∀ name ∈ (p.environment parent).names, name ∉ Entries.keys p.overrides →
        (name ≠ searchPathName → (p.environment parent).value? name = parent.value? name) ∧
          (name = searchPathName → (p.environment parent).value? name =
            some ((parent.value? name).getD defaultSearchPath)) := by
  refine ⟨fun other hagree => ?_, ?_, fun _ => mem_names_environment, fun _ => value?_overridden,
    fun hnames e he => ?_, fun name hname hfree => ⟨value?_taken_over hname hfree, ?_⟩⟩
  · have henvironment := environment_congr hagree
    refine ⟨henvironment, fun t => ⟨?_, ?_⟩⟩
    · rw [isAvailable, isAvailable, henvironment]
    · rintro launch j rfl
      rw [Job.executeBy, Job.executeBy, henvironment]
  · exact nodup_names_setAll (nodup_names_setAll (List.nodup_singleton _))
  · rw [value?_overridden (Entries.mem_keys_of_mem he), declared?_of_mem hnames he]
  · rintro rfl
    exact value?_searchPath hfree

/-- Two parents that differ in nothing that the policy takes over, and a variable that the policy overrides. -/
theorem environment_spec_overridden :
    let p : Policy := { command := "tool", inherited := ["HOME", "LANG"], overrides := [("LANG", "C")] }
    let parent : Environment := [("PATH", "/bin"), ("HOME", "/root"), ("LANG", "de"), ("SECRET", "x")]
    let other : Environment := [("HOME", "/root"), ("SHELL", "sh"), ("LANG", "de"), ("PATH", "/bin")]
    p.environment other = p.environment parent ∧ (p.environment parent).value? "LANG" = some "C" ∧
      (p.environment parent).value? "HOME" = some "/root" ∧
      (p.environment parent).value? searchPathName = some "/bin" := by
  intro p parent other
  obtain ⟨hsame, -, hnames, -, hoverrides, hrest⟩ := environment_spec p parent
  have hhome : "HOME" ∈ (p.environment parent).names := (hnames _).mpr (.inr (.inl (by decide)))
  have hpath : searchPathName ∈ (p.environment parent).names := (hnames _).mpr (.inl rfl)
  refine ⟨(hsame other (by decide)).1, hoverrides (by decide) ("LANG", "C") (by decide), ?_, ?_⟩
  · rw [(hrest _ hhome (by decide)).1 (by decide)]
    decide
  · rw [(hrest _ hpath (by decide)).2 rfl]
    decide

end Policy

end Assay.Sandbox
