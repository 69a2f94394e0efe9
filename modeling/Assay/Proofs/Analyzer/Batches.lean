import Assay.Proofs.Analyzer.Arguments

/-!
# Sources in batches

A tool that takes sources is started once for every batch of them, and Clang once for every source. Batches
are windows of the list of sources, each starting where the one before it ends (`getElem?_batches`), so they
are a cut of the list into full pieces and a last one (`Task.isCut_batches`). The main result,
`sources_of_plan`, says that no source is lost, repeated or moved between what was discovered and the
arguments of the commands.
-/

namespace Assay

open Files Files.Tree

/-! ## Windows -/

section Windows

variable {α : Type} {size fuel : Nat} {items : List α}

theorem batches_of_ne_nil (h : items ≠ []) :
    batches size (fuel + 1) items = items.take size :: batches size fuel (items.drop size) := by
  rw [batches]
  exact h

/-- The batches follow one another without a gap. -/
theorem flatten_batches (hsize : 1 ≤ size) (hfuel : items.length ≤ fuel) :
    (batches size fuel items).flatten = items := by
  induction fuel generalizing items with
  | zero =>
      obtain rfl := List.eq_nil_of_length_eq_zero (Nat.le_zero.mp hfuel)
      rfl
  | succ fuel ih =>
      by_cases hitems : items = []
      · rw [hitems]
        rfl
      · have hrest : (items.drop size).length ≤ fuel := by
          rw [List.length_drop]
          omega
        rw [batches_of_ne_nil hitems, List.flatten_cons, ih hrest, List.take_append_drop]

/-- The batch with a number is the window that starts at that multiple of the size, as long as there are
items left for it. -/
theorem getElem?_batches (hsize : 1 ≤ size) (hfuel : items.length ≤ fuel) (k : Nat) :
    (batches size fuel items)[k]? =
      if k * size < items.length then some ((items.drop (k * size)).take size) else none := by
  induction fuel generalizing items k with
  | zero =>
      obtain rfl := List.eq_nil_of_length_eq_zero (Nat.le_zero.mp hfuel)
      rfl
  | succ fuel ih =>
      by_cases hitems : items = []
      · rw [hitems]
        rfl
      · have hlength := List.length_pos_iff.mpr hitems
        rw [batches_of_ne_nil hitems]
        cases k with
        | zero => rw [Nat.zero_mul, if_pos hlength, List.getElem?_cons_zero, List.drop_zero]
        | succ k =>
            have hrest : (items.drop size).length ≤ fuel := by
              rw [List.length_drop]
              omega
            rw [List.getElem?_cons_succ, ih hrest, List.length_drop, List.drop_drop, Nat.succ_mul,
              Nat.add_comm size]
            exact if_congr (by omega) rfl rfl

/-- Every batch is such a window, and starts before the end of the list. -/
theorem exists_window (hsize : 1 ≤ size) (hfuel : items.length ≤ fuel) {k : Nat} {batch : List α}
    (h : (batches size fuel items)[k]? = some batch) :
    k * size < items.length ∧ batch.length = min size (items.length - k * size) := by
  rw [getElem?_batches hsize hfuel] at h
  split at h
  · next hk =>
    obtain rfl := Option.some.inj h
    exact ⟨hk, by rw [List.length_take, List.length_drop]⟩
  · exact nomatch h

end Windows

/-! ## Cuts -/

/-- The pieces are a cut of a list: together they are the list, none is empty, and all but the last one have
the size asked for. Without a size there is one piece at most. -/
structure IsCut {α : Type} (size : Option Nat) (items : List α) (pieces : List (List α)) : Prop where
  joined : pieces.flatten = items
  nonempty : ∀ piece ∈ pieces, piece ≠ []
  full : ∀ n ∈ size, ∀ piece ∈ pieces.dropLast, piece.length = n
  bounded : ∀ n ∈ size, ∀ piece ∈ pieces, piece.length ≤ n
  whole : size = none → pieces.length ≤ 1

/-- Nothing is cut into no pieces, and only nothing is. -/
theorem IsCut.eq_nil_iff {α : Type} {size : Option Nat} {items : List α} {pieces : List (List α)}
    (h : IsCut size items pieces) : pieces = [] ↔ items = [] := by
  constructor
  · intro hpieces
    rw [← h.joined, hpieces]
    rfl
  · intro hitems
    rw [List.eq_nil_iff_forall_not_mem]
    intro piece hpiece
    have hjoined : pieces.flatten = [] := h.joined.trans hitems
    exact h.nonempty piece hpiece (List.flatten_eq_nil_iff.mp hjoined piece hpiece)

theorem isCut_batches {α : Type} {size fuel : Nat} {items : List α} (hsize : 1 ≤ size)
    (hfuel : items.length ≤ fuel) : IsCut (some size) items (batches size fuel items) where
  joined := flatten_batches hsize hfuel
  nonempty := by
    intro batch hbatch
    obtain ⟨k, hk⟩ := List.mem_iff_getElem?.mp hbatch
    obtain ⟨hstart, hlength⟩ := exists_window hsize hfuel hk
    apply List.ne_nil_of_length_pos
    omega
  full := by
    intro n hn batch hbatch
    obtain rfl := Option.some.inj hn
    obtain ⟨k, hk⟩ := List.mem_iff_getElem?.mp hbatch
    rw [List.getElem?_dropLast] at hk
    split at hk
    · next hlast =>
      obtain ⟨-, hlength⟩ := exists_window hsize hfuel hk
      -- a further batch starts where this one ends, so this one is full
      have hnext := List.getElem?_eq_getElem (show k + 1 < (batches size fuel items).length by omega)
      obtain ⟨hstart, -⟩ := exists_window hsize hfuel hnext
      rw [Nat.succ_mul] at hstart
      omega
    · exact nomatch hk
  bounded := by
    intro n hn batch hbatch
    obtain rfl := Option.some.inj hn
    obtain ⟨k, hk⟩ := List.mem_iff_getElem?.mp hbatch
    obtain ⟨-, hlength⟩ := exists_window hsize hfuel hk
    omega
  whole := nofun

/-- What is not cut is one piece, if there is anything. -/
theorem isCut_whole {α : Type} (items : List α) :
    IsCut none items (if items.isEmpty then [] else [items]) := by
  cases items with
  | nil => exact ⟨rfl, nofun, nofun, nofun, fun _ => Nat.zero_le 1⟩
  | cons item items =>
      refine ⟨List.flatten_singleton, ?_, nofun, nofun, fun _ => Nat.le_refl 1⟩
      intro piece hpiece
      rw [List.mem_singleton.mp hpiece]
      exact List.cons_ne_nil item items

/-- The batches of a task are a cut of its sources, by the size that is configured or else by the one of the
tool. -/
theorem Task.isCut_batches {task : Task} {standard : Option Nat}
    (hconfigured : ∀ n ∈ task.options.batchSize, 1 ≤ n) (hstandard : ∀ n ∈ standard, 1 ≤ n) :
    IsCut (task.options.batchSize.or standard) task.files (task.batches standard) := by
  unfold Task.batches
  cases hsize : task.options.batchSize.or standard with
  | none => exact isCut_whole task.files
  | some n =>
      have hn : 1 ≤ n := by
        rcases Option.or_eq_some_iff.mp hsize with h | ⟨-, h⟩
        · exact hconfigured n h
        · exact hstandard n h
      exact Assay.isCut_batches hn (Nat.le_refl _)

/-! ## Commands -/

namespace Analyzer

variable {t : Tree} {task : Task}

/-- The commands cover the sources: each source belongs to one command, in order, and every command gets the
paths of its own sources after what it starts with. -/
structure Covers (sources : List Path) (head : Invocation → List String) (invocations : List Invocation) :
    Prop where
  joined : (invocations.map (·.files)).flatten = sources
  nonempty : ∀ i ∈ invocations, i.files ≠ []
  ending : ∀ i ∈ invocations, i.arguments = head i ++ i.files.map Path.toString

theorem files_batchInvocations (task : Task) (standard : Option Nat) (shared : List String) :
    (batchInvocations task standard shared).map (·.files) = task.batches standard := by
  unfold batchInvocations
  rw [List.map_map]
  exact List.map_id _

theorem covers_batchInvocations {standard : Option Nat} (hconfigured : ∀ n ∈ task.options.batchSize, 1 ≤ n)
    (hstandard : ∀ n ∈ standard, 1 ≤ n) (shared : List String) :
    Covers task.files (fun _ => shared) (batchInvocations task standard shared) where
  joined := by
    rw [files_batchInvocations]
    exact (Task.isCut_batches hconfigured hstandard).joined
  nonempty := by
    intro i hi
    obtain ⟨batch, hbatch, rfl⟩ := List.mem_map.mp hi
    exact (Task.isCut_batches hconfigured hstandard).nonempty batch hbatch
  ending := by
    intro i hi
    obtain ⟨batch, -, rfl⟩ := List.mem_map.mp hi
    rfl

/-- What Clang is told about the source of a command: the standard it is written in, and where the report
goes. -/
def sourceArguments (task : Task) (i : Invocation) : List String :=
  i.files.map (fun source => "-std=" ++ standardFor task source) ++
    i.reportFile.toList.flatMap fun report => ["-o", report.toString]

theorem files_clangInvocations (task : Task) (shared : List String) (sources : List Path) :
    (sources.mapIdx (clangInvocation task shared)).map (·.files) = sources.map ([·]) := by
  apply List.ext_getElem?
  intro index
  rw [List.getElem?_map, List.getElem?_mapIdx, List.getElem?_map, Option.map_map]
  rfl

theorem covers_clangInvocations (task : Task) (shared : List String) (sources : List Path) :
    Covers sources (fun i => shared ++ sourceArguments task i)
      (sources.mapIdx (clangInvocation task shared)) where
  joined := by
    rw [files_clangInvocations]
    rw [← List.flatMap_def]
    exact List.flatMap_singleton' sources
  nonempty := by
    intro i hi
    obtain ⟨index, hindex, rfl⟩ := List.mem_mapIdx.mp hi
    exact List.cons_ne_nil _ _
  ending := by
    intro i hi
    obtain ⟨index, hindex, rfl⟩ := List.mem_mapIdx.mp hi
    show _ = shared ++ (_ ++ _) ++ _
    simp [clangInvocation]

/-- **Every discovered source reaches the tool once, in order.** The batches of a task are a cut of its
sources by the configured size, or by the one of the tool; there are none exactly if there are no sources.
Pylint and mypy are started once for every batch and Clang once for every source, whatever the size of a
batch is; each command ends in the paths of its own sources, after what does not depend on the others. -/
theorem sources_of_plan (t : Tree) {task : Task} {standard : Option Nat}
    (hconfigured : ∀ n ∈ task.options.batchSize, 1 ≤ n) (hstandard : ∀ n ∈ standard, 1 ≤ n) :
    IsCut (task.options.batchSize.or standard) task.files (task.batches standard) ∧
    (task.batches standard = [] ↔ task.files = []) ∧
    (∃ plan, pylint.plan t task = .ok plan ∧
      plan.invocations.map (·.files) = task.batches pylint.batchSize ∧
      Covers task.files (fun _ => pylintArguments task (task.scratch.child "pylintrc")) plan.invocations) ∧
    (∃ plan, mypy.plan t task = .ok plan ∧
      plan.invocations.map (·.files) = task.batches mypy.batchSize ∧
      Covers task.files (fun _ => mypyArguments task (task.scratch.child "mypy.ini")) plan.invocations) ∧
    ∀ plan, clang.plan t task = .ok plan → ∃ directories, includeDirectories t task = .ok directories ∧
      plan.invocations.map (·.files) = task.files.map ([·]) ∧
      Covers task.files (fun i => clangArguments task directories ++ sourceArguments task i)
        plan.invocations := by
  have hcut := Task.isCut_batches hconfigured hstandard
  refine ⟨hcut, hcut.eq_nil_iff, ?_, ?_, ?_⟩
  · refine ⟨pylintPlan task, rfl, files_batchInvocations task (some pylintBatch) _, ?_⟩
    apply covers_batchInvocations hconfigured
    decide
  · refine ⟨mypyPlan task, rfl, files_batchInvocations task (some mypyBatch) _, ?_⟩
    apply covers_batchInvocations hconfigured
    decide
  · intro plan hplan
    obtain ⟨directories, hdirectories, rfl⟩ := clang_plan_eq_ok.mp hplan
    exact ⟨directories, hdirectories, files_clangInvocations task _ task.files,
      covers_clangInvocations task _ task.files⟩

/-- Five modules in pairs: three batches, the last of one module. -/
def pairs : Task where
  projectRoot := DiscoverOptions.projectRoot
  toolRoot := DiscoverOptions.projectRoot
  language := .python
  options := { LanguageOptions.standard 1 with batchSize := some 2 }
  settings := []
  scratch := Path.rooted ["scratch"]
  files := ["a.py", "b.py", "c.py", "d.py", "e.py"].map DiscoverOptions.projectRoot.child

theorem sources_of_plan_pairs :
    IsCut (some 2) pairs.files (pairs.batches none) ∧ (pairs.batches none).map List.length = [2, 2, 1] ∧
      ∃ plan, pylint.plan (besideOutside []) pairs = .ok plan ∧
        (plan.invocations.map (·.files)).flatten = pairs.files := by
  have hconfigured : ∀ n ∈ pairs.options.batchSize, 1 ≤ n := by decide
  obtain ⟨hcut, -, ⟨plan, hplan, -, hcovers⟩, -⟩ :=
    @sources_of_plan (besideOutside []) pairs none hconfigured (by decide)
  exact ⟨hcut, by decide, plan, hplan, hcovers.joined⟩

end Analyzer

end Assay
