import Assay.Proofs.Files.Path
import Assay.Proofs.Outcome
import Assay.Proofs.Text.Lines
import Assay.Readers.Harvest

/-!
# Harvests of rows of records

Every record of a row is read on its own (`harvest_eq_ok`), so the harvest of two rows in a row is that of
the first and then that of the second (`harvest_append`). Only an infinite number spoils a row (`harvest_eq_error`);
any other faulty record only adds to what is left out (`harvest_insert`). The file of a finding is its path,
taken from the root (`fileAt_cases`).
-/

namespace Assay.Readers

variable {α : Type} {build : α → Field (List RawIssue)} {xs ys : List α} {r : α} {h : Harvest}

/-! ## Harvests in a row -/

namespace Harvest

@[simp] theorem append_issues (h k : Harvest) : (h ++ k).issues = h.issues ++ k.issues := rfl

@[simp] theorem append_drops (h k : Harvest) : (h ++ k).drops = h.drops ++ k.drops := rfl

@[simp] theorem append_dropped (h k : Harvest) : (h ++ k).dropped = h.dropped + k.dropped :=
  List.length_append

@[simp] theorem empty_append (h : Harvest) : ({} : Harvest) ++ h = h := rfl

theorem append_assoc (h k l : Harvest) : h ++ k ++ l = h ++ (k ++ l) := by
  show (⟨_, _⟩ : Harvest) = ⟨_, _⟩
  rw [append_issues, append_drops, List.append_assoc, List.append_assoc]
  rfl

end Harvest

/-! ## One record -/

theorem harvestOne_eq_error {built : Field (List RawIssue)} {b : Breach} :
    harvestOne built = .error b ↔ b = .infiniteNumber ∧ built = .error .infiniteNumber := by
  unfold harvestOne
  split
  · simp
  · simp [eq_comm]
  next fault hne => simpa using fun _ => hne

/-- The reason for leaving out a record is all that there is of it. -/
theorem harvestOne_of_fault {fault : RecordFault} (hne : fault ≠ .infiniteNumber) :
    harvestOne (.error fault) = .ok { drops := [fault.reason] } := by
  cases fault with
  | badValue text => rfl
  | wrongKind => rfl
  | infiniteNumber => exact absurd rfl hne

/-! ## Rows of records -/

/-- **The harvest of two rows**, one after the other, is that of the first and then that of the
second. -/
theorem harvest_append (xs ys : List α) :
    harvest build (xs ++ ys) = do
      let first ← harvest build xs
      let others ← harvest build ys
      return first ++ others := by
  induction xs with
  | nil => cases hys : harvest build ys <;> simp [harvest, hys, bind, Except.bind, pure, Except.pure]
  | cons x xs ih =>
      rw [List.cons_append, harvest, harvest, ih]
      -- both sides read the same three parts, and the first breach ends both
      cases harvestOne (build x) with
      | error b => rfl
      | ok hx =>
          cases harvest build xs with
          | error b => rfl
          | ok hxs =>
              cases harvest build ys with
              | error b => rfl
              | ok hys => exact congrArg Except.ok (Harvest.append_assoc hx hxs hys).symm

/-- The findings that one record yields. -/
def yielded (built : Field (List RawIssue)) : List RawIssue :=
  match built with
  | .ok issues => issues
  | .error _ => []

/-- The reason for leaving out one record, if it is left out. -/
def leftOut? (built : Field (List RawIssue)) : Option String :=
  match built with
  | .ok _ => none
  | .error fault => some fault.reason

/-- **Every record of a row is read on its own**: the findings are those that the records yield, and the
reasons are those for leaving out some of them, both in order. -/
theorem harvest_eq_ok (hok : harvest build xs = .ok h) :
    h.issues = xs.flatMap (fun x => yielded (build x)) ∧ h.drops = xs.filterMap fun x => leftOut? (build x) := by
  induction xs generalizing h with
  | nil =>
      obtain rfl := Except.ok.inj hok
      exact ⟨rfl, rfl⟩
  | cons x xs ih =>
      rw [harvest] at hok
      obtain ⟨first, hfirst, hok⟩ := bind_eq_ok.mp hok
      obtain ⟨others, hothers, hok⟩ := bind_eq_ok.mp hok
      obtain rfl := pure_eq_ok.mp hok
      obtain ⟨hissues, hdrops⟩ := ih hothers
      rw [Harvest.append_issues, Harvest.append_drops, hissues, hdrops, List.flatMap_cons]
      -- the record yields findings, ends the harvest, or leaves a reason behind
      unfold harvestOne at hfirst
      split at hfirst
      · next issues hbuilt =>
        obtain rfl := Except.ok.inj hfirst
        rw [List.filterMap_cons_none (by rw [hbuilt]; rfl), hbuilt]
        exact ⟨rfl, rfl⟩
      · exact nomatch hfirst
      · next fault _ hbuilt =>
        obtain rfl := Except.ok.inj hfirst
        rw [List.filterMap_cons_some (b := fault.reason) (by rw [hbuilt]; rfl), hbuilt]
        exact ⟨rfl, rfl⟩

/-- Every finding of a row is one of some record of it. -/
theorem exists_of_mem_harvest {i : RawIssue} (hok : harvest build xs = .ok h) (hi : i ∈ h.issues) :
    ∃ r ∈ xs, ∃ issues, build r = .ok issues ∧ i ∈ issues := by
  rw [(harvest_eq_ok hok).1] at hi
  obtain ⟨r, hr, hi⟩ := List.mem_flatMap.mp hi
  refine ⟨r, hr, ?_⟩
  unfold yielded at hi
  split at hi
  · next issues hbuilt => exact ⟨issues, hbuilt, hi⟩
  · simp at hi

/-- **Only an infinite number spoils a row of records**: no other fault keeps it from being read. -/
theorem harvest_eq_error {b : Breach} :
    harvest build xs = .error b ↔ b = .infiniteNumber ∧ ∃ r ∈ xs, build r = .error .infiniteNumber := by
  induction xs with
  | nil => simp [harvest]
  | cons x xs ih =>
      rw [harvest, bind_eq_error, harvestOne_eq_error]
      constructor
      · rintro (⟨hb, hx⟩ | ⟨first, -, hrest⟩)
        · exact ⟨hb, x, List.mem_cons_self, hx⟩
        · rcases bind_eq_error.mp hrest with hxs | ⟨others, -, hpure⟩
          · obtain ⟨hb, r, hr, hfault⟩ := ih.mp hxs
            exact ⟨hb, r, List.mem_cons_of_mem _ hr, hfault⟩
          · exact nomatch hpure
      · rintro ⟨hb, r, hr, hfault⟩
        by_cases hx : build x = .error .infiniteNumber
        · exact .inl ⟨hb, hx⟩
        · right
          -- the first record is read or left out, so the fault lies in a later one
          cases hone : harvestOne (build x) with
          | error b' => exact absurd (harvestOne_eq_error.mp hone).2 hx
          | ok first =>
              rcases List.mem_cons.mp hr with rfl | hr
              · exact absurd hfault hx
              · exact ⟨first, rfl, bind_eq_error.mpr (.inl (ih.mpr ⟨hb, r, hr, hfault⟩))⟩

/-- A row is read if no record has an infinite number where a whole one is read. -/
theorem harvest_isOk :
    (∃ h, harvest build xs = .ok h) ↔ ∀ r ∈ xs, build r ≠ .error .infiniteNumber := by
  cases hxs : harvest build xs with
  | ok h =>
      refine ⟨fun _ r hr hfault => ?_, fun _ => ⟨h, rfl⟩⟩
      have herror := harvest_eq_error.mpr ⟨rfl, r, hr, hfault⟩
      rw [hxs] at herror
      exact nomatch herror
  | error b =>
      obtain ⟨-, r, hr, hfault⟩ := harvest_eq_error.mp hxs
      refine ⟨fun ⟨h, hok⟩ => ?_, fun hall => absurd hfault (hall r hr)⟩
      exact nomatch hok

/-- **A record that cannot be read takes no other one with it**: put anywhere into a row, it is only
counted. -/
theorem harvest_insert {fault : RecordFault} (hfault : build r = .error fault)
    (hne : fault ≠ .infiniteNumber) (hok : harvest build (xs ++ ys) = .ok h) :
    ∃ h', harvest build (xs ++ r :: ys) = .ok h' ∧ h'.issues = h.issues ∧
      h'.dropped = h.dropped + 1 := by
  rw [harvest_append] at hok
  obtain ⟨first, hfirst, hok⟩ := bind_eq_ok.mp hok
  obtain ⟨others, hothers, hok⟩ := bind_eq_ok.mp hok
  obtain rfl := pure_eq_ok.mp hok
  refine ⟨first ++ ({ drops := [fault.reason] } ++ others), ?_, ?_, ?_⟩
  · rw [harvest_append, hfirst, harvest, hfault, harvestOne_of_fault hne, hothers]
    rfl
  · rw [Harvest.append_issues, Harvest.append_issues, Harvest.append_issues, List.nil_append]
  · rw [Harvest.append_dropped, Harvest.append_dropped, Harvest.append_dropped]
    show first.dropped + (1 + others.dropped) = _
    omega

/-! ## Files of findings -/

/-- The file of a finding is its path, taken from the root and without blanks around it. Only of a relative
path nothing may be left. -/
theorem fileAt_cases (root : Files.Path) (path : String) :
    fileAt root path = some (Text.strip (resolve root path)) ∨
      root.isAbsolute = false ∧ Text.strip (resolve root path) = "" ∧ fileAt root path = none := by
  unfold fileAt cleanFile
  by_cases hblank : Text.strip (resolve root path) = ""
  · right
    refine ⟨?_, hblank, by simp [hblank]⟩
    by_contra hroot
    have hslash : '/' ∈ (resolve root path).toList :=
      Files.Path.slash_mem_toString (Files.Path.isAbsolute_div (by simpa using hroot) _)
    have hshows : Text.shows (resolve root path).toList = true := List.any_eq_true.mpr ⟨'/', hslash, by decide⟩
    have hempty := Text.isEmpty_trim (resolve root path).toList
    rw [Text.strip, String.ofList_eq_empty_iff] at hblank
    simp [hblank, hshows] at hempty
  · left
    simp [hblank]

end Assay.Readers
