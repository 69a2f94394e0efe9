import Mathlib.Data.List.Nodup
import Assay.Files.Guard
import Assay.Proofs.Files.Walk

/-!
# Trees with the same content

Two sound trees have the same content if the same file, the same link or some directory stands at every
place of both; they differ at most in the order in which their directories list their entries. Everything
that is looked up, resolved or checked is the same in both (`SameContent.checkPath_eq`).
-/

namespace Assay.Files

/-- What stands at a place, without the entries if it is a directory. -/
def Node.outline : Node → Node
  | .directory _ => .directory []
  | n => n

/-- The same stands at every place of both trees, and their surroundings are the same. -/
structure Tree.SameContent (t t' : Tree) : Prop where
  soundLeft : t.IsSound
  soundRight : t'.IsSound
  outline : ∀ place, (t.top.at? place).map Node.outline = (t'.top.at? place).map Node.outline
  workingDirectory : t.workingDirectory = t'.workingDirectory
  home : t.home = t'.home
  homes : t.homes = t'.homes

namespace Node

/-! ## Distinct names -/

/-- With distinct names, an entry is what its name leads to. -/
theorem child?_of_mem {entries : List (String × Node)} (hnodup : (entries.map (·.1)).Nodup)
    {name : String} {n : Node} (hn : (name, n) ∈ entries) :
    (Node.directory entries).child? name = some n := by
  induction entries with
  | nil => simp at hn
  | cons e entries ih =>
      obtain ⟨key, value⟩ := e
      rw [List.map_cons, List.nodup_cons] at hnodup
      rcases List.mem_cons.mp hn with heq | hn
      · obtain ⟨rfl, rfl⟩ := Prod.mk.inj heq
        simp [child?]
      · have hne : key ≠ name := by
          rintro rfl
          exact hnodup.1 (List.mem_map.mpr ⟨(key, n), hn, rfl⟩)
        have hrest := ih hnodup.2 hn
        simpa [child?, List.find?_cons_of_neg, hne] using hrest

theorem nodup_of_isSound {entries : List (String × Node)} (h : (Node.directory entries).isSound = true) :
    (entries.map (·.1)).Nodup ∧ areSound entries = true := by
  rw [isSound, Bool.and_eq_true] at h
  exact ⟨of_decide_eq_true h.1, h.2⟩

mutual

/-- In a sound node, the places of links are where links stand. -/
theorem exists_of_mem_linkPlaces : (n : Node) → n.isSound = true → ∀ place ∈ n.linkPlaces,
    ∃ target, n.at? place = some (.link target)
  | .file _ _, _, place, hplace => by simp [linkPlaces] at hplace
  | .link target, _, place, hplace => by
      obtain rfl : place = [] := by simpa [linkPlaces] using hplace
      exact ⟨target, rfl⟩
  | .directory entries, hsound, place, hplace => by
      obtain ⟨hnodup, hentries⟩ := nodup_of_isSound hsound
      obtain ⟨name, n, rest, hmem, rfl, target, htarget⟩ :=
        exists_of_mem_entryLinkPlaces entries hentries place hplace
      exact ⟨target, by rw [at?, child?_of_mem hnodup hmem]; exact htarget⟩

theorem exists_of_mem_entryLinkPlaces : (entries : List (String × Node)) → areSound entries = true →
    ∀ place ∈ entryLinkPlaces entries, ∃ name n rest, (name, n) ∈ entries ∧ place = name :: rest ∧
      ∃ target, n.at? rest = some (.link target)
  | [], _, place, hplace => by simp [entryLinkPlaces] at hplace
  | (name, n) :: entries, hsound, place, hplace => by
      simp only [areSound, Bool.and_eq_true] at hsound
      rw [entryLinkPlaces, List.mem_append] at hplace
      rcases hplace with hplace | hplace
      · obtain ⟨rest, hrest, rfl⟩ := List.mem_map.mp hplace
        exact ⟨name, n, rest, List.mem_cons_self, rfl, exists_of_mem_linkPlaces n hsound.1.2 rest hrest⟩
      · obtain ⟨key, m, rest, hmem, hplace, htarget⟩ :=
          exists_of_mem_entryLinkPlaces entries hsound.2 place hplace
        exact ⟨key, m, rest, List.mem_cons_of_mem _ hmem, hplace, htarget⟩

end

mutual

/-- No link of a sound node is counted twice. -/
theorem nodup_linkPlaces : (n : Node) → n.isSound = true → n.linkPlaces.Nodup
  | .file _ _, _ => by simp [linkPlaces]
  | .link _, _ => by simp [linkPlaces]
  | .directory entries, hsound =>
      nodup_entryLinkPlaces entries (nodup_of_isSound hsound).2 (nodup_of_isSound hsound).1

theorem nodup_entryLinkPlaces : (entries : List (String × Node)) → areSound entries = true →
    (entries.map (·.1)).Nodup → (entryLinkPlaces entries).Nodup
  | [], _, _ => by simp [entryLinkPlaces]
  | (name, n) :: entries, hsound, hnodup => by
      simp only [areSound, Bool.and_eq_true] at hsound
      rw [List.map_cons, List.nodup_cons] at hnodup
      have hhere := nodup_linkPlaces n hsound.1.2
      have hrest := nodup_entryLinkPlaces entries hsound.2 hnodup.2
      rw [entryLinkPlaces]
      refine List.nodup_append.mpr ⟨?_, hrest, ?_⟩
      · exact List.Nodup.map (fun _ _ h => (List.cons.inj h).2) hhere
      · rintro p hp q hq rfl
        obtain ⟨rest, -, rfl⟩ := List.mem_map.mp hp
        obtain ⟨key, m, more, hmem, hplace, -⟩ :=
          exists_of_mem_entryLinkPlaces entries hsound.2 _ hq
        obtain ⟨rfl, -⟩ := List.cons.inj hplace
        exact hnodup.1 (List.mem_map.mpr ⟨(name, m), hmem, rfl⟩)

end

end Node

namespace Tree

variable {t t' : Tree} {p : Path}

/-! ## Lookups -/

theorem SameContent.symm (h : t.SameContent t') : t'.SameContent t where
  soundLeft := h.soundRight
  soundRight := h.soundLeft
  outline place := (h.outline place).symm
  workingDirectory := h.workingDirectory.symm
  home := h.home.symm
  homes := h.homes.symm

/-- At every place stands a directory in both trees, or the same. -/
theorem SameContent.cases (h : t.SameContent t') (place : Place) :
    (∃ entries entries', t.top.at? place = some (.directory entries) ∧
      t'.top.at? place = some (.directory entries')) ∨
    (t.top.at? place = t'.top.at? place ∧ ∀ entries, t'.top.at? place ≠ some (.directory entries)) := by
  have hplace := h.outline place
  cases hn : t.top.at? place with
  | none =>
      rw [hn] at hplace
      have hnone : t'.top.at? place = none := Option.map_eq_none_iff.mp hplace.symm
      exact .inr ⟨hnone.symm, by simp [hnone]⟩
  | some n =>
      rw [hn] at hplace
      obtain ⟨n', hn', houtline⟩ := Option.map_eq_some_iff.mp hplace.symm
      rw [hn']
      cases n <;> cases n' <;> simp_all [Node.outline]

theorem SameContent.target?_eq (h : t.SameContent t') (place : Place) :
    t.target? place = t'.target? place := by
  unfold target?
  rcases h.cases place with ⟨entries, entries', hn, hn'⟩ | ⟨heq, -⟩
  · rw [hn, hn']
    rfl
  · rw [heq]

theorem SameContent.countLinks_eq (h : t.SameContent t') : t.top.countLinks = t'.top.countLinks := by
  rw [← Node.length_linkPlaces, ← Node.length_linkPlaces]
  -- the links of both trees stand at the same places, and none is counted twice
  refine List.Perm.length_eq ((List.perm_ext_iff_of_nodup ?_ ?_).mpr fun place => ?_)
  · exact Node.nodup_linkPlaces _ h.soundLeft.top
  · exact Node.nodup_linkPlaces _ h.soundRight.top
  · constructor
    · intro hmem
      obtain ⟨target, htarget⟩ := Node.exists_of_mem_linkPlaces _ h.soundLeft.top place hmem
      rw [← target?_eq_some, h.target?_eq, target?_eq_some] at htarget
      exact Node.mem_linkPlaces htarget
    · intro hmem
      obtain ⟨target, htarget⟩ := Node.exists_of_mem_linkPlaces _ h.soundRight.top place hmem
      rw [← target?_eq_some, ← h.target?_eq, target?_eq_some] at htarget
      exact Node.mem_linkPlaces htarget

theorem SameContent.walkTo_eq (h : t.SameContent t') {last : Bool}
    {follow : Place → List String → Except StatFault Place} {here : Place} {todo : List String} :
    t.walkTo last follow here todo = t'.walkTo last follow here todo := by
  induction todo generalizing here with
  | nil => rfl
  | cons name rest ih =>
      rw [walkTo, walkTo]
      -- the entries of a directory are not compared: its name leads to what stands there in both trees
      rcases h.cases here with ⟨entries, entries', hn, hn'⟩ | ⟨heq, hother⟩
      · rw [hn, hn']
        dsimp only
        rw [ih, ih, ih]
        rcases h.cases (here ++ [name]) with ⟨below, below', hm, hm'⟩ | ⟨heq, -⟩
        · rw [hm, hm']
        · rw [heq]
      · rw [heq]
        cases hn : t'.top.at? here with
        | none => rfl
        | some n =>
            cases n with
            | file content executable => rfl
            | link target => rfl
            | directory entries => exact absurd hn (hother entries)

theorem SameContent.find_eq (h : t.SameContent t') (last : Bool) (p : Path) :
    t.find last p = t'.find last p := by
  have hlocate (links : Nat) : t.locate last links = t'.locate last links := by
    induction links with
    | zero => exact funext fun here => funext fun todo => h.walkTo_eq
    | succ links ih =>
        rw [locate, locate, ih]
        exact funext fun here => funext fun todo => h.walkTo_eq
  rw [find, find, startOf, startOf, h.workingDirectory, hlocate]

/-- Equal but for the entries of a directory. -/
theorem SameContent.stat_cases (h : t.SameContent t') (p : Path) :
    (∃ entries entries', t.stat p = .ok (.directory entries) ∧ t'.stat p = .ok (.directory entries')) ∨
      t.stat p = t'.stat p := by
  unfold stat
  rw [h.find_eq]
  cases t'.find true p with
  | error e => exact .inr rfl
  | ok place =>
      dsimp only
      rcases h.cases place with ⟨entries, entries', hn, hn'⟩ | ⟨heq, -⟩
      · exact .inl ⟨entries, entries', by rw [hn], by rw [hn']⟩
      · exact .inr (by rw [heq])

theorem SameContent.test_eq (h : t.SameContent t') (p : Path) {holds : Node → Bool}
    (hholds : ∀ entries entries', holds (.directory entries) = holds (.directory entries')) :
    t.test p holds = t'.test p holds := by
  unfold test
  rcases h.stat_cases p with ⟨entries, entries', hn, hn'⟩ | heq
  · rw [hn, hn']
    exact congrArg _ (hholds entries entries')
  · rw [heq]

theorem SameContent.exists?_eq (h : t.SameContent t') (p : Path) : t.exists? p = t'.exists? p :=
  h.test_eq p fun _ _ => rfl

theorem SameContent.isFile?_eq (h : t.SameContent t') (p : Path) : t.isFile? p = t'.isFile? p :=
  h.test_eq p fun _ _ => rfl

theorem SameContent.isFile_eq (h : t.SameContent t') (p : Path) : t.isFile p = t'.isFile p := by
  rw [Tree.isFile, Tree.isFile, h.isFile?_eq]

theorem SameContent.isDirectory_eq (h : t.SameContent t') (p : Path) :
    t.isDirectory p = t'.isDirectory p := by
  rw [Tree.isDirectory, Tree.isDirectory, isDirectory?, isDirectory?, h.test_eq p fun _ _ => rfl]

theorem SameContent.read?_eq (h : t.SameContent t') (p : Path) : t.read? p = t'.read? p := by
  unfold read?
  rcases h.stat_cases p with ⟨entries, entries', hn, hn'⟩ | heq
  · rw [hn, hn']
  · rw [heq]

/-! ## Resolutions -/

theorem SameContent.linkAt?_eq (h : t.SameContent t') (place : Place) :
    t.linkAt? place = t'.linkAt? place := by
  unfold linkAt?
  rw [h.find_eq]
  cases t'.find false (Path.rooted place) with
  | error e => rfl
  | ok found =>
      dsimp only
      rcases h.cases found with ⟨entries, entries', hn, hn'⟩ | ⟨heq, -⟩
      · rw [hn, hn']
      · rw [heq]

theorem SameContent.placeOf_eq (h : t.SameContent t') (p : Path) : t.placeOf p = t'.placeOf p := by
  rw [placeOf, placeOf, startOf, startOf, h.workingDirectory]

theorem SameContent.walkLinks_eq (h : t.SameContent t') {follow : Links → Path → List String → Walk}
    {links : Links} {here : Path} {rest : List String} :
    t.walkLinks follow links here rest = t'.walkLinks follow links here rest := by
  induction rest generalizing links here with
  | nil => rfl
  | cons name rest ih =>
      rw [walkLinks, walkLinks]
      simp only [h.linkAt?_eq, h.placeOf_eq, ih]

theorem SameContent.walkDeep_eq (h : t.SameContent t') (depth : Nat) :
    t.walkDeep depth = t'.walkDeep depth := by
  induction depth with
  | zero => exact funext fun links => funext fun here => funext fun rest => h.walkLinks_eq
  | succ depth ih =>
      rw [walkDeep, walkDeep, ih]
      exact funext fun links => funext fun here => funext fun rest => h.walkLinks_eq

theorem SameContent.realPath_eq (h : t.SameContent t') (p : Path) : t.realPath p = t'.realPath p := by
  rw [realPath, realPath, absolute, absolute, h.placeOf_eq, walkDepth, walkDepth, h.workingDirectory,
    h.countLinks_eq, h.walkDeep_eq]

theorem SameContent.resolve_eq (h : t.SameContent t') (p : Path) : t.resolve p = t'.resolve p := by
  unfold resolve
  rw [h.realPath_eq]
  dsimp only
  rcases h.stat_cases (t'.realPath p) with ⟨entries, entries', hn, hn'⟩ | heq
  · rw [hn, hn']
  · rw [heq]

/-! ## Checks -/

theorem SameContent.resolveOrFail_eq (h : t.SameContent t') (p : Path) :
    t.resolveOrFail p = t'.resolveOrFail p := by
  rw [resolveOrFail, resolveOrFail, h.resolve_eq]

theorem SameContent.resolveBase_eq (h : t.SameContent t') (p : Path) :
    t.resolveBase p = t'.resolveBase p := by
  rw [resolveBase, resolveBase, h.resolveOrFail_eq]

theorem SameContent.canonical_eq (h : t.SameContent t') (raw : String) :
    t.canonical raw = t'.canonical raw := by
  unfold canonical expandHome
  rw [h.home, h.homes]
  simp only [h.resolveOrFail_eq]

theorem SameContent.admittedBy_eq (h : t.SameContent t') (p : Path) (bases : List Path) :
    t.admittedBy p bases = t'.admittedBy p bases := by
  induction bases with
  | nil => rfl
  | cons base rest ih => rw [admittedBy, admittedBy, h.resolveBase_eq, ih]

/-- **A check depends only on what stands where**, not on the order of any directory. -/
theorem SameContent.checkPath_eq (h : t.SameContent t') (raw : String) (policy : PathPolicy) :
    t.checkPath raw policy = t'.checkPath raw policy := by
  have hblocked (p : Path) : t.checkBlocked p policy = t'.checkBlocked p policy := by
    rw [checkBlocked, checkBlocked, h.admittedBy_eq]
  have hroot (p : Path) : t.checkRoot p policy = t'.checkRoot p policy := by
    unfold checkRoot
    simp only [h.resolveBase_eq]
  have htarget (p : Path) : t.checkTarget p policy = t'.checkTarget p policy := by
    unfold checkTarget checkKind byteSize
    rw [h.exists?_eq, h.isFile_eq, h.isDirectory_eq, h.read?_eq]
  unfold checkPath
  rw [h.canonical_eq]
  simp only [hblocked, hroot, htarget]

end Tree

/-! ## Listing in another order -/

/-- One directory in the node lists its entries in another order. -/
inductive Node.Relists : Node → Node → Prop
  | here {entries entries' : List (String × Node)} (h : entries.Perm entries') :
      Relists (.directory entries) (.directory entries')
  | inside {before after : List (String × Node)} {name : String} {n n' : Node} (h : Relists n n') :
      Relists (.directory (before ++ (name, n) :: after)) (.directory (before ++ (name, n') :: after))

namespace Node

theorem areSound_iff {entries : List (String × Node)} :
    areSound entries = true ↔ ∀ e ∈ entries, isEntryName e.1 = true ∧ e.2.isSound = true := by
  induction entries with
  | nil => simp [areSound]
  | cons e entries ih =>
      obtain ⟨name, n⟩ := e
      simp [areSound, ih, and_assoc]

theorem isSound_directory {entries : List (String × Node)} :
    (Node.directory entries).isSound = true ↔ (entries.map (·.1)).Nodup ∧
      ∀ e ∈ entries, isEntryName e.1 = true ∧ e.2.isSound = true := by
  rw [isSound, Bool.and_eq_true, areSound_iff, decide_eq_true_iff]

theorem Relists.isSound {n n' : Node} (h : n.Relists n') (hsound : n.isSound = true) :
    n'.isSound = true := by
  induction h with
  | here hperm =>
      rw [isSound_directory] at hsound ⊢
      refine ⟨(hperm.map (·.1)).nodup_iff.mp hsound.1, fun e he => hsound.2 e (hperm.mem_iff.mpr he)⟩
  | inside _ ih =>
      rw [isSound_directory] at hsound ⊢
      obtain ⟨hnodup, hall⟩ := hsound
      refine ⟨by simpa using hnodup, ?_⟩
      intro e he
      rcases List.mem_append.mp he with he | he
      · exact hall e (List.mem_append_left _ he)
      rcases List.mem_cons.mp he with rfl | he
      · have hn := hall (_, _) (List.mem_append_right _ List.mem_cons_self)
        exact ⟨hn.1, ih hn.2⟩
      · exact hall e (List.mem_append_right _ (List.mem_cons_of_mem _ he))

theorem child?_eq_some {entries : List (String × Node)} (hnodup : (entries.map (·.1)).Nodup)
    {name : String} {n : Node} :
    (Node.directory entries).child? name = some n ↔ (name, n) ∈ entries := by
  constructor
  · intro h
    obtain ⟨entries', heq, hmem⟩ := mem_of_child? h
    rwa [Node.directory.inj heq]
  · exact child?_of_mem hnodup

/-- The order of a directory changes nothing about what stands where. -/
theorem Relists.outline_eq {n n' : Node} (h : n.Relists n') (hsound : n.isSound = true) (place : Place) :
    (n.at? place).map outline = (n'.at? place).map outline := by
  induction h generalizing place with
  | @here entries entries' hperm =>
      cases place with
      | nil => rfl
      | cons name rest =>
          have hnodup := (isSound_directory.mp hsound).1
          have hchild : (Node.directory entries).child? name = (Node.directory entries').child? name := by
            refine Option.ext fun m => ?_
            rw [child?_eq_some hnodup, child?_eq_some ((hperm.map (·.1)).nodup_iff.mp hnodup)]
            exact hperm.mem_iff
          rw [at?, at?, hchild]
  | @inside before after key n n' hn ih =>
      cases place with
      | nil => rfl
      | cons name rest =>
          obtain ⟨hnodup, hall⟩ := isSound_directory.mp hsound
          have hnodup' : ((before ++ (key, n') :: after).map (·.1)).Nodup := by simpa using hnodup
          rw [at?, at?]
          -- only what lies below the changed entry can differ
          by_cases hname : name = key
          · subst hname
            rw [child?_of_mem hnodup (List.mem_append_right _ List.mem_cons_self),
              child?_of_mem hnodup' (List.mem_append_right _ List.mem_cons_self)]
            exact ih (hall (_, _) (List.mem_append_right _ List.mem_cons_self)).2 rest
          · have hchild : (Node.directory (before ++ (key, n) :: after)).child? name =
                (Node.directory (before ++ (key, n') :: after)).child? name := by
              refine Option.ext fun m => ?_
              rw [child?_eq_some hnodup, child?_eq_some hnodup']
              simp [hname]
            rw [hchild]

end Node

/-- **A directory may list its entries in any order**: the tree has the same content. -/
theorem Tree.SameContent.of_relists {t : Tree} {top : Node} (hsound : t.IsSound)
    (h : t.top.Relists top) : t.SameContent { t with top := top } := by
  have houtline := h.outline_eq hsound.top
  have hdirectory : (top.at? t.workingDirectory).any Node.isDirectory = true := by
    have hplace := houtline t.workingDirectory
    obtain ⟨entries, hentries⟩ := hsound.workingDirectory_directory
    rw [hentries] at hplace
    obtain ⟨n, hn, hsame⟩ := Option.map_eq_some_iff.mp hplace.symm
    rw [hn]
    cases n with
    | directory below => rfl
    | file content executable => simp [Node.outline] at hsame
    | link target => simp [Node.outline] at hsame
  exact ⟨hsound, ⟨h.isSound hsound.top, hdirectory, hsound.home, hsound.homes⟩, houtline, rfl, rfl, rfl⟩

end Assay.Files
