import Mathlib.Data.String.Basic
import Assay.Files.Listing
import Assay.Proofs.Files.Content

/-!
# Walking a tree

A walk meets exactly the entries that are no directories, below directories that it enters
(`mem_files`), in the order of their names with the files of a directory before its subdirectories
(`pairwise_files`). These two determine the walk, so it depends on what stands where and not on the order
in which a directory lists its entries (`SameContent.files_eq`).
-/

namespace Assay.Files

/-! ## The order of a walk -/

/-- The first place comes before the second one on a walk: where they part, a file comes before what
lies in a subdirectory, and otherwise the names decide. -/
def Precedes : Place → Place → Prop
  | [a], [b] => a < b
  | [_], _ :: _ :: _ => True
  | a :: c :: p, b :: d :: q => a < b ∨ (a = b ∧ Precedes (c :: p) (d :: q))
  | _, _ => False

theorem Precedes.asymm {p q : Place} (h : Precedes p q) : ¬ Precedes q p := by
  induction p generalizing q with
  | nil => simp [Precedes] at h
  | cons a p ih =>
      match p, q, h with
      | [], [b], h => exact lt_asymm h
      | [], b :: d :: q, h => simp [Precedes]
      | c :: p, b :: d :: q, h =>
          rintro (hback | ⟨rfl, hback⟩)
          · rcases h with h | ⟨rfl, -⟩
            · exact lt_asymm h hback
            · exact lt_irrefl _ hback
          · rcases h with h | ⟨-, h⟩
            · exact lt_irrefl _ h
            · exact ih h hback

/-- What two places begin with does not decide. -/
theorem precedes_append {here p q : Place} (hp : p ≠ []) (hq : q ≠ []) :
    Precedes (here ++ p) (here ++ q) ↔ Precedes p q := by
  induction here with
  | nil => rfl
  | cons a here ih =>
      obtain ⟨c, p', hp'⟩ := List.exists_cons_of_ne_nil (List.append_ne_nil_of_right_ne_nil here hp)
      obtain ⟨d, q', hq'⟩ := List.exists_cons_of_ne_nil (List.append_ne_nil_of_right_ne_nil here hq)
      rw [← ih, List.cons_append, List.cons_append, hp', hq', Precedes]
      simp

/-- Sorting by distinct names leaves them in strictly ascending order. -/
theorem pairwise_lt_mergeSort {α : Type} {key : α → String} {l : List α} (h : (l.map key).Nodup) :
    (l.mergeSort fun a b => decide (key a ≤ key b)).Pairwise fun a b => key a < key b := by
  have hperm := List.mergeSort_perm l fun a b => decide (key a ≤ key b)
  have hle : (l.mergeSort fun a b => decide (key a ≤ key b)).Pairwise
      fun a b => decide (key a ≤ key b) = true := by
    apply List.pairwise_mergeSort
    · intro a b c hab hbc
      exact decide_eq_true (le_trans (of_decide_eq_true hab) (of_decide_eq_true hbc))
    · intro a b
      simpa using le_total (key a) (key b)
  have hne : (l.mergeSort fun a b => decide (key a ≤ key b)).Pairwise fun a b => key a ≠ key b :=
    List.pairwise_map.mp ((hperm.map key).nodup_iff.mpr h)
  exact (hle.and hne).imp fun ⟨hab, hne⟩ => lt_of_le_of_ne (of_decide_eq_true hab) hne

/-! ## What a walk meets -/

theorem utf8ByteSize_join_le (sep : String) (p q : List String) :
    (Text.join sep p).utf8ByteSize ≤ (Text.join sep (p ++ q)).utf8ByteSize := by
  induction p with
  | nil => simp [Text.join]
  | cons a p ih =>
      cases p with
      | nil =>
          cases q with
          | nil => simp
          | cons b q =>
              rw [List.singleton_append, Text.join_cons_cons, String.utf8ByteSize_append,
                String.utf8ByteSize_append, show Text.join sep [a] = a from rfl]
              omega
      | cons b p =>
          rw [List.cons_append, List.cons_append, Text.join_cons_cons, Text.join_cons_cons,
            String.utf8ByteSize_append, String.utf8ByteSize_append, String.utf8ByteSize_append,
            String.utf8ByteSize_append]
          exact Nat.add_le_add_left ih _

/-- The way to a path that can be looked at can be looked at. -/
theorem Path.Fits.of_below {p : Path} {parts : List String} (h : (p.below parts).Fits) : p.Fits := by
  by_cases hdot : p = ⟨.here, []⟩
  · rw [hdot]
    decide
  · have htext (q : Path) (hq : q ≠ ⟨.here, []⟩) : q.toString = q.anchor.text ++ Text.join "/" q.parts := by
      obtain ⟨anchor, parts⟩ := q
      rw [Path.toString, if_neg]
      simpa using hq
    have hbelow : p.below parts ≠ ⟨.here, []⟩ := by
      obtain ⟨anchor, own⟩ := p
      simp_all [Path.below]
    unfold Path.Fits at h ⊢
    rw [htext _ hdot, String.utf8ByteSize_append]
    rw [htext _ hbelow, String.utf8ByteSize_append] at h
    have := utf8ByteSize_join_le "/" p.parts parts
    rw [Path.below_anchor, Path.below_parts] at h
    omega

namespace Tree

variable {t : Tree} {rule : WalkRule} {here start p : Path} {depth : Nat} {entries : List (String × Node)}

theorem Fits.of_append {place below : Place} (h : Fits (place ++ below)) : Fits place :=
  Path.Fits.of_below (show ((Path.rooted place).below below).Fits from h)

theorem mem_fileNames {name : String} : name ∈ t.fileNames here entries ↔
    ∃ n, (name, n) ∈ entries ∧ t.countsAsDirectory (here.child name) n = false := by
  simp [fileNames, sortNames, List.mem_mergeSort]

theorem entriesBelow_eq : t.entriesBelow rule here depth entries =
    (entries.filter fun e => e.2.isDirectory && rule.enters e.1).map
      fun e => (e.1, t.filesBelow rule (here.child e.1) depth e.2) := by
  induction entries with
  | nil => rfl
  | cons e entries ih =>
      obtain ⟨name, n⟩ := e
      rw [entriesBelow, ih, List.filter_cons]
      split <;> rfl

/-- The files below a directory that can be looked at: its own, and those of its subdirectories. -/
theorem mem_filesBelow_directory (hfits : here.Fits) :
    p ∈ t.filesBelow rule here depth (.directory entries) ↔
      (∃ name n, (name, n) ∈ entries ∧ t.countsAsDirectory (here.child name) n = false ∧
        p = here.child name) ∨
      (depth < rule.maxDepth ∧ ∃ name n, (name, n) ∈ entries ∧ n.isDirectory = true ∧
        rule.enters name = true ∧ p ∈ t.filesBelow rule (here.child name) (depth + 1) n) := by
  rw [filesBelow, if_neg (Nat.not_le.mpr hfits)]
  dsimp only
  rw [List.mem_append, List.mem_map, List.mem_flatMap]
  -- the files of the directory itself come first, those of its subdirectories after them
  refine or_congr ?_ ?_
  · constructor
    · rintro ⟨name, hname, rfl⟩
      obtain ⟨n, hmem, hfile⟩ := mem_fileNames.mp hname
      exact ⟨name, n, hmem, hfile, rfl⟩
    · rintro ⟨name, n, hmem, hfile, rfl⟩
      exact ⟨name, mem_fileNames.mpr ⟨n, hmem, hfile⟩, rfl⟩
  · split
    · next hdepth =>
      rw [entriesBelow_eq]
      simp only [List.mem_mergeSort, List.mem_map, List.mem_filter, Bool.and_eq_true, hdepth, true_and]
      constructor
      · rintro ⟨-, ⟨⟨name, n⟩, ⟨hmem, hdirectory, henters⟩, rfl⟩, hp⟩
        exact ⟨name, n, hmem, hdirectory, henters, hp⟩
      · rintro ⟨name, n, hmem, hdirectory, henters, hp⟩
        exact ⟨_, ⟨(name, n), ⟨hmem, hdirectory, henters⟩, rfl⟩, hp⟩
    · next hdepth => simp [hdepth]

/-- A walk from `here` meets the path: an entry that counts as no directory, below directories that are
entered, not too deep, and at a path that can be looked at. -/
def Meets (t : Tree) (rule : WalkRule) (n : Node) (here : Path) (depth : Nat) (p : Path) : Prop :=
  ∃ dirs name m, p = here.below (dirs ++ [name]) ∧ depth + dirs.length ≤ rule.maxDepth ∧
    (∀ d ∈ dirs, rule.enters d = true) ∧ (here.below dirs).Fits ∧ n.at? (dirs ++ [name]) = some m ∧
    t.countsAsDirectory p m = false

theorem filesBelow_of_not_fits (hfits : ¬ here.Fits) :
    t.filesBelow rule here depth (.directory entries) = [] := by
  rw [filesBelow, if_pos (Nat.le_of_not_lt hfits)]

theorem directory_of_at? {n m : Node} {dirs : List String} {name : String}
    (h : n.at? (dirs ++ [name]) = some m) : ∃ entries, n = .directory entries := by
  obtain ⟨first, rest, heq⟩ := List.exists_cons_of_ne_nil
    (List.append_ne_nil_of_right_ne_nil dirs (List.cons_ne_nil name []))
  rw [heq] at h
  have h : n.at? ([] ++ first :: rest) = some m := h
  obtain ⟨entries, hentries⟩ := Node.isDirectory_of_at? h
  exact ⟨entries, Option.some.inj hentries⟩

/-- Below what is no directory nothing is met. -/
theorem Meets.directory {n : Node} (h : t.Meets rule n here depth p) : ∃ entries, n = .directory entries := by
  obtain ⟨dirs, name, m, -, -, -, -, hm, -⟩ := h
  exact directory_of_at? hm

/-- In a directory its own files are met, and what is met in the subdirectories that are entered. -/
theorem meets_directory (hnodup : (entries.map (·.1)).Nodup) (hdepth : depth ≤ rule.maxDepth)
    (hfits : here.Fits) : t.Meets rule (.directory entries) here depth p ↔
      (∃ name n, (name, n) ∈ entries ∧ t.countsAsDirectory (here.child name) n = false ∧
        p = here.child name) ∨
      (depth < rule.maxDepth ∧ ∃ name n, (name, n) ∈ entries ∧ n.isDirectory = true ∧
        rule.enters name = true ∧ t.Meets rule n (here.child name) (depth + 1) p) := by
  constructor
  · rintro ⟨dirs, name, m, rfl, hdirs, hall, hfits, hm, hfile⟩
    -- the file stands in the directory itself, or the way to it begins with a subdirectory
    cases dirs with
    | nil =>
        rw [List.nil_append, Node.at?] at hm
        split at hm
        · next n hn =>
          obtain rfl : n = m := Option.some.inj hm
          exact .inl ⟨name, n, (Node.child?_eq_some hnodup).mp hn, hfile, rfl⟩
        · simp at hm
    | cons d dirs =>
        rw [List.length_cons] at hdirs
        rw [List.cons_append, Node.at?] at hm
        split at hm
        · next n hn =>
          obtain ⟨henters, hall⟩ := List.forall_mem_cons.mp hall
          obtain ⟨below, rfl⟩ := directory_of_at? hm
          refine .inr ⟨by omega, d, _, (Node.child?_eq_some hnodup).mp hn, rfl, henters, ?_⟩
          rw [← Path.child_below] at hfits
          exact ⟨dirs, name, m, (Path.child_below _ _ _).symm, by omega, hall, hfits, hm, hfile⟩
        · simp at hm
  · rintro (⟨name, n, hn, hfile, rfl⟩ | ⟨hlt, name, n, hn, -, henters, hmeets⟩)
    · refine ⟨[], name, n, rfl, by simpa using hdepth, by simp, by simpa using hfits, ?_, hfile⟩
      rw [List.nil_append, Node.at?, Node.child?_of_mem hnodup hn]
      rfl
    · obtain ⟨dirs, file, m, rfl, hdirs, hall, hfits, hm, hfile⟩ := hmeets
      rw [Path.child_below] at hfits
      refine ⟨name :: dirs, file, m, Path.child_below _ _ _, ?_, ?_, hfits, ?_, hfile⟩
      · rw [List.length_cons]
        omega
      · exact List.forall_mem_cons.mpr ⟨henters, hall⟩
      · rw [List.cons_append, Node.at?, Node.child?_of_mem hnodup hn]
        exact hm

/-- **A walk meets what it should**: the files below a node are those that are met there. The induction is
on how many levels may still be entered. -/
theorem mem_filesBelow {n : Node} (hsound : n.isSound = true) (hdepth : depth ≤ rule.maxDepth) :
    p ∈ t.filesBelow rule here depth n ↔ t.Meets rule n here depth p := by
  induction hleft : rule.maxDepth - depth using Nat.strongRecOn generalizing depth here n with
  | _ left ih =>
      -- only a directory has anything below it
      have hnone (h : ∀ entries, n ≠ .directory entries) : ¬ t.Meets rule n here depth p := by
        intro hmeets
        obtain ⟨entries, hentries⟩ := hmeets.directory
        exact h entries hentries
      cases n with
      | file content executable => simpa [filesBelow] using hnone (by simp)
      | link target => simpa [filesBelow] using hnone (by simp)
      | directory entries =>
          obtain ⟨hnodup, hall⟩ := Node.isSound_directory.mp hsound
          by_cases hfits : here.Fits
          · rw [mem_filesBelow_directory hfits, meets_directory hnodup hdepth hfits]
            refine or_congr_right (and_congr_right fun hlt => exists₂_congr fun name n => ?_)
            refine and_congr_right fun hn => ?_
            rw [ih (rule.maxDepth - (depth + 1)) (by omega) (hall _ hn).2 hlt rfl]
          · -- a directory that cannot be looked at is passed over
            rw [filesBelow_of_not_fits hfits]
            constructor
            · simp
            · rintro ⟨dirs, name, m, -, -, -, hfits', -, -⟩
              exact absurd hfits'.of_below hfits

/-- The subdirectories that a walk enters have distinct names. -/
theorem entriesBelow_sound (t : Tree) (rule : WalkRule) (here : Path) (depth : Nat)
    (hnodup : (entries.map (·.1)).Nodup) :
    ((t.entriesBelow rule here depth entries).map (·.1)).Nodup ∧
      ∀ e ∈ t.entriesBelow rule here depth entries, ∃ n, (e.1, n) ∈ entries ∧
        e.2 = t.filesBelow rule (here.child e.1) depth n := by
  rw [entriesBelow_eq]
  constructor
  · rw [List.map_map]
    exact hnodup.sublist (List.filter_sublist.map _)
  · intro e he
    obtain ⟨⟨name, n⟩, hmem, rfl⟩ := List.mem_map.mp he
    exact ⟨n, List.mem_of_mem_filter hmem, rfl⟩

/-- What lies below a subdirectory lies two levels further down at least. -/
theorem exists_of_mem_entriesBelow (hnodup : (entries.map (·.1)).Nodup)
    (hsound : ∀ e ∈ entries, isEntryName e.1 = true ∧ e.2.isSound = true) (hdepth : depth ≤ rule.maxDepth)
    {e : String × List Path} (he : e ∈ t.entriesBelow rule here depth entries) (hp : p ∈ e.2) :
    ∃ c rest, p = here.below (e.1 :: c :: rest) := by
  obtain ⟨n, hn, heq⟩ := (entriesBelow_sound t rule here depth hnodup).2 e he
  rw [heq] at hp
  obtain ⟨dirs, file, m, rfl, -⟩ := (mem_filesBelow (hsound _ hn).2 hdepth).mp hp
  obtain ⟨c, rest, hrest⟩ := List.exists_cons_of_ne_nil
    (List.append_ne_nil_of_right_ne_nil dirs (List.cons_ne_nil file []))
  exact ⟨c, rest, by rw [← hrest, Path.child_below]⟩

theorem pairwise_fileNames (hnodup : (entries.map (·.1)).Nodup) :
    (t.fileNames here entries).Pairwise (· < ·) := by
  have hnames : (((entries.filter fun e => !t.countsAsDirectory (here.child e.1) e.2).map (·.1)).map
      id).Nodup := by
    rw [List.map_id]
    exact hnodup.sublist (List.filter_sublist.map _)
  exact pairwise_lt_mergeSort hnames

/-- The first path comes before the second one on a walk. -/
def Before (p q : Path) : Prop := Precedes p.parts q.parts

theorem Before.asymm {p q : Path} (h : Before p q) : ¬ Before q p := Precedes.asymm h

/-- What two paths begin with does not decide. -/
theorem before_below {parts more : List String} (hparts : parts ≠ []) (hmore : more ≠ []) :
    Before (here.below parts) (here.below more) ↔ Precedes parts more := precedes_append hparts hmore

/-- **The paths of a walk stand in its order.** The induction is on how many levels may still be
entered. -/
theorem pairwise_filesBelow {n : Node} (hsound : n.isSound = true) (hdepth : depth ≤ rule.maxDepth) :
    (t.filesBelow rule here depth n).Pairwise Before := by
  induction hleft : rule.maxDepth - depth using Nat.strongRecOn generalizing depth here n with
  | _ left ih =>
      cases n with
      | file content executable => simp [filesBelow]
      | link target => simp [filesBelow]
      | directory entries =>
          by_cases hfits : here.Fits
          · obtain ⟨hnodup, hall⟩ := Node.isSound_directory.mp hsound
            obtain ⟨hnames, hbelow⟩ := entriesBelow_sound t rule here (depth + 1) hnodup
            rw [filesBelow, if_neg (Nat.not_le.mpr hfits)]
            dsimp only
            have hown : ((t.fileNames here entries).map here.child).Pairwise Before := by
              refine List.pairwise_map.mpr ((pairwise_fileNames hnodup).imp fun {a b} hab => ?_)
              exact (before_below (List.cons_ne_nil a []) (List.cons_ne_nil b [])).mpr hab
            by_cases hlt : depth < rule.maxDepth
            · rw [if_pos hlt]
              have hdeep {e : String × List Path} {p : Path}
                  (he : e ∈ (t.entriesBelow rule here (depth + 1) entries).mergeSort fun a b => a.1 ≤ b.1)
                  (hp : p ∈ e.2) : ∃ c rest, p = here.below (e.1 :: c :: rest) :=
                exists_of_mem_entriesBelow hnodup hall hlt (List.mem_mergeSort.mp he) hp
              -- paths of one subdirectory, of two of them, and a file beside what is in one of them
              refine List.pairwise_append.mpr ⟨hown, List.pairwise_flatMap.mpr ⟨?_, ?_⟩, ?_⟩
              · intro e he
                obtain ⟨n, hn, heq⟩ := hbelow e (List.mem_mergeSort.mp he)
                rw [heq]
                exact ih (rule.maxDepth - (depth + 1)) (by omega) (hall _ hn).2 hlt rfl
              · refine (pairwise_lt_mergeSort hnames).imp_of_mem fun {e d} he hd hlt' p hp q hq => ?_
                obtain ⟨c, p, rfl⟩ := hdeep he hp
                obtain ⟨c', q, rfl⟩ := hdeep hd hq
                exact (before_below (by simp) (by simp)).mpr (.inl hlt')
              · intro p hp q hq
                obtain ⟨name, -, rfl⟩ := List.mem_map.mp hp
                obtain ⟨e, he, hq⟩ := List.mem_flatMap.mp hq
                obtain ⟨c, q, rfl⟩ := hdeep he hq
                exact (before_below (List.cons_ne_nil name []) (by simp)).mpr trivial
            · rw [if_neg hlt]
              simpa using hown
          · rw [filesBelow_of_not_fits hfits]
            exact .nil

/-! ## Walks of a tree -/

/-- **What a walk meets**, from the place that its start leads to. -/
theorem mem_files (hsound : t.IsSound) : p ∈ t.files rule start ↔
    ∃ place dirs name m, t.find true start = .ok place ∧ p = start.below (dirs ++ [name]) ∧
      dirs.length ≤ rule.maxDepth ∧ (∀ d ∈ dirs, rule.enters d = true) ∧ (start.below dirs).Fits ∧
      t.top.at? (place ++ dirs ++ [name]) = some m ∧ t.countsAsDirectory p m = false := by
  unfold files
  cases hstat : t.stat start with
  | error fault =>
      constructor
      · simp
      · rintro ⟨place, dirs, name, m, hfind, -, -, -, -, hm, -⟩
        rw [List.append_assoc, Node.at?_append] at hm
        obtain ⟨n, hn, -⟩ := Option.bind_eq_some_iff.mp hm
        rw [stat_eq_ok.mpr ⟨place, hfind, hn⟩] at hstat
        exact nomatch hstat
  | ok n =>
      dsimp only
      rw [mem_filesBelow (isSound_of_stat hsound hstat) (Nat.zero_le _)]
      obtain ⟨place, hfind, hn⟩ := stat_eq_ok.mp hstat
      -- what stands below the start is looked up from there or from the top
      have hat (dirs : List String) (name : String) :
          t.top.at? (place ++ dirs ++ [name]) = n.at? (dirs ++ [name]) := by
        rw [List.append_assoc, Node.at?_append, hn]
        rfl
      constructor
      · rintro ⟨dirs, name, m, rfl, hdirs, henters, hfits, hm, hfile⟩
        exact ⟨place, dirs, name, m, hfind, rfl, by omega, henters, hfits, by rw [hat, hm], hfile⟩
      · rintro ⟨other, dirs, name, m, hother, rfl, hdirs, henters, hfits, hm, hfile⟩
        obtain rfl := Except.ok.inj (hfind.symm.trans hother)
        exact ⟨dirs, name, m, rfl, by omega, henters, hfits, by rw [← hat, hm], hfile⟩

/-- **The order of a walk.** -/
theorem pairwise_files (hsound : t.IsSound) : (t.files rule start).Pairwise Before := by
  unfold files
  cases hn : t.stat start with
  | error fault => exact .nil
  | ok n => exact pairwise_filesBelow (isSound_of_stat hsound hn) (Nat.zero_le _)

theorem nodup_files (hsound : t.IsSound) : (t.files rule start).Nodup := by
  refine (pairwise_files hsound).imp ?_
  rintro p _ hbefore rfl
  exact hbefore.asymm hbefore

/-- A walk of a directory meets its files and no others if the subdirectories that it enters are empty. -/
theorem files_of_shallow {entries : List (String × Node)} (hstart : t.stat start = .ok (.directory entries))
    (hempty : ∀ e ∈ entries, e.2.isDirectory = true → rule.enters e.1 = true → e.2 = .directory []) :
    t.files rule start = (t.fileNames start entries).map start.child := by
  -- every subdirectory that is entered adds nothing, in whatever order they are sorted
  have hbelow (depth : Nat) : ∀ e ∈ t.entriesBelow rule start depth entries, e.2 = [] := by
    intro e he
    rw [entriesBelow_eq] at he
    obtain ⟨entry, hentry, rfl⟩ := List.mem_map.mp he
    obtain ⟨hentry, hentered⟩ := List.mem_filter.mp hentry
    obtain ⟨hdirectory, henters⟩ := Bool.and_eq_true_iff.mp hentered
    have hnone := hempty entry hentry hdirectory henters
    simp [hnone, filesBelow, fileNames, sortNames, entriesBelow]
  rw [files, hstart]
  dsimp only
  rw [filesBelow, if_neg (Nat.not_le.mpr (fits_of_stat hstart))]
  have hrest : ∀ below : List (String × List Path), (∀ e ∈ below, e.2 = []) →
      (below.mergeSort fun a b => decide (a.1 ≤ b.1)).flatMap (·.2) = [] := by
    intro below hnone
    rw [List.flatMap_eq_nil_iff]
    exact fun e he => hnone e (List.mem_mergeSort.mp he)
  dsimp only
  rw [hrest, List.append_nil]
  split
  · exact hbelow _
  · exact nofun

/-- What is no directory in one tree is none in another one with the same content, by whatever way it is
seen. -/
theorem SameContent.exists_file {t' : Tree} (h : t.SameContent t') {place : Place} {seen : Path} {m : Node}
    (hm : t.top.at? place = some m) (hfile : t.countsAsDirectory seen m = false) :
    ∃ m', t'.top.at? place = some m' ∧ t'.countsAsDirectory seen m' = false := by
  rcases h.cases place with ⟨entries, entries', hn, -⟩ | ⟨heq, -⟩
  · rw [hn] at hm
    obtain rfl := Option.some.inj hm
    simp [countsAsDirectory] at hfile
  · refine ⟨m, by rw [← heq, hm], ?_⟩
    cases m with
    | file content executable => rfl
    | directory entries => simp [countsAsDirectory] at hfile
    | link target => simpa [countsAsDirectory, h.isDirectory_eq] using hfile

/-- **A walk does not depend on the order of any directory**: it is determined by what it meets and by
its own order. -/
theorem SameContent.files_eq {t' : Tree} (h : t.SameContent t') (rule : WalkRule) (start : Path) :
    t.files rule start = t'.files rule start := by
  have hsubset {t t' : Tree} (h : t.SameContent t') (p : Path) (hp : p ∈ t.files rule start) :
      p ∈ t'.files rule start := by
    obtain ⟨place, dirs, name, m, hfind, rfl, hdirs, henters, hfits, hm, hfile⟩ :=
      (mem_files h.soundLeft).mp hp
    obtain ⟨m', hm', hfile'⟩ := h.exists_file hm hfile
    rw [h.find_eq] at hfind
    exact (mem_files h.soundRight).mpr ⟨place, dirs, name, m', hfind, rfl, hdirs, henters, hfits, hm', hfile'⟩
  refine List.Perm.eq_of_pairwise (fun p q _ _ hpq hqp => absurd hqp hpq.asymm)
    (pairwise_files h.soundLeft) (pairwise_files h.soundRight) ?_
  refine (List.perm_ext_iff_of_nodup (nodup_files h.soundLeft) (nodup_files h.soundRight)).mpr fun p => ?_
  exact ⟨hsubset h p, hsubset h.symm p⟩

end Tree

end Assay.Files
