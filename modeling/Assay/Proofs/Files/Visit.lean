import Assay.Files.Listing
import Assay.Proofs.Files.Listing

/-!
# Visiting directories

A search that takes every directory as it lists its entries comes by the paths of a walk in order, and by
each of them as often (`perm_visitsBelow`). So it meets what a walk meets (`exists_mem_visits`).
-/

namespace Assay.Files

/-- The paths of the names that a visit shows. -/
def Visit.paths (v : Visit) : List Path := v.names.map v.directory.child

namespace Tree

variable (t : Tree) (rule : WalkRule)

mutual

/-- Below a node, a search comes by the paths of a walk. -/
theorem perm_visitsBelow (here : Path) (depth : Nat) : (n : Node) →
    ((t.visitsBelow rule here depth n).flatMap Visit.paths).Perm (t.filesBelow rule here depth n)
  | .file _ _ => .nil
  | .link _ => .nil
  | .directory entries => by
      rw [visitsBelow, filesBelow]
      split
      · exact .nil
      · dsimp only
        rw [List.flatMap_cons]
        have hown : (t.listedNames here entries).Perm (t.fileNames here entries) :=
          (List.mergeSort_perm _ _).symm
        refine (hown.map _).append ?_
        split
        · exact (perm_entryVisits here (depth + 1) entries).trans
            (List.Perm.flatMap_right _ (List.mergeSort_perm _ _).symm)
        · simp

/-- Below the entries of a directory, a search comes by the paths of a walk. -/
theorem perm_entryVisits (here : Path) (depth : Nat) : (entries : List (String × Node)) →
    ((t.entryVisits rule here depth entries).flatMap Visit.paths).Perm
      ((t.entriesBelow rule here depth entries).flatMap (·.2))
  | [] => .nil
  | (name, n) :: rest => by
      have hrest := perm_entryVisits here depth rest
      rw [entryVisits, entriesBelow]
      split
      · rw [List.flatMap_append, List.flatMap_cons]
        exact (perm_visitsBelow (here.child name) depth n).append hrest
      · exact hrest

end

variable {t : Tree} {rule : WalkRule}

/-- **What a search meets**: from where its path leads to, an entry that is no directory, below directories
that are entered. -/
theorem exists_mem_visits (hsound : t.IsSound) {start : Path} {P : String → Prop} :
    (∃ v ∈ t.visits rule start, ∃ name ∈ v.names, P name) ↔
      ∃ n dirs name m, t.stat start = .ok n ∧ dirs.length ≤ rule.maxDepth ∧
        (∀ d ∈ dirs, rule.enters d = true) ∧ (start.below dirs).Fits ∧ n.at? (dirs ++ [name]) = some m ∧
        t.countsAsDirectory (start.below (dirs ++ [name])) m = false ∧ P name := by
  unfold visits
  cases hn : t.stat start with
  | error fault => simp
  | ok n =>
      dsimp only
      have hpaths (p : Path) : (∃ v ∈ t.visitsBelow rule start 0 n, p ∈ v.paths) ↔
          t.Meets rule n start 0 p := by
        rw [← mem_filesBelow (isSound_of_stat hsound hn) (Nat.zero_le _), ← List.mem_flatMap]
        exact (t.perm_visitsBelow rule start 0 n).mem_iff
      constructor
      · rintro ⟨v, hv, name, hname, hP⟩
        obtain ⟨dirs, last, m, heq, hdepth, henters, hfits, hm, hfile⟩ :=
          (hpaths (v.directory.child name)).mp ⟨v, hv, List.mem_map.mpr ⟨name, hname, rfl⟩⟩
        -- the path ends in the name, so the two ways to split it are one
        have hparts : v.directory.parts ++ [name] = (start.parts ++ dirs) ++ [last] := by
          rw [List.append_assoc]
          exact congrArg Path.parts heq
        obtain rfl := List.singleton_inj.mp (List.append_inj' hparts rfl).2
        rw [heq] at hfile
        exact ⟨n, dirs, name, m, rfl, by omega, henters, hfits, hm, hfile, hP⟩
      · rintro ⟨n', dirs, name, m, hn', hdepth, henters, hfits, hm, hfile, hP⟩
        obtain rfl := Except.ok.inj hn'
        obtain ⟨v, hv, hmem⟩ := (hpaths _).mpr ⟨dirs, name, m, rfl, by omega, henters, hfits, hm, hfile⟩
        obtain ⟨last, hlast, heq⟩ := List.mem_map.mp hmem
        have hparts : v.directory.parts ++ [last] = (start.parts ++ dirs) ++ [name] := by
          rw [List.append_assoc]
          exact congrArg Path.parts heq
        obtain rfl := List.singleton_inj.mp (List.append_inj' hparts rfl).2
        exact ⟨v, hv, last, hlast, hP⟩

end Tree

end Assay.Files
