import Assay.Proofs.Files.Acyclic
import Assay.Proofs.Files.Check
import Assay.Proofs.Files.Guard

/-!
# What a relative path stands for

In a tree without cycles of links, the relative path of a finding is settled by two places: the one that
the root leads to and the one that the path leads to, read from the root and with backslashes as slashes
(`relativeParts?_iff`). The relative path is what lies between them, there is none exactly if the second
place is not below the first or behind a denied name, and a relative path without backslashes stands for
itself (`relativePath?_of_reaches`).
-/

namespace Assay.Files

namespace Tree

variable {t : Tree} {root : Path} {base place : Place} {path : String} {denied parts : List String}

/-! ## Places of paths -/

/-- A relative path leads on from where its base leads. -/
theorem Reaches.join {q : Path} (h : t.Reaches root base) (hq : q.anchor = .here)
    (hsteps : Relation.ReflTransGen t.Step (base, q.parts) (place, [])) : t.Reaches (root / q) place := by
  have hjoin : root / q = ⟨root.anchor, root.parts ++ q.parts⟩ := by
    show Path.join root q = _
    simp [Path.join, Path.isAbsolute, hq]
  rw [hjoin]
  have hbase := steps_append h q.parts
  rw [List.nil_append] at hbase
  exact hbase.trans hsteps

/-- The components of the place that a path leads to can be written. -/
theorem Reaches.isComponent {p : Path} (h : t.Reaches p place) (hsound : t.IsSound)
    (hparts : ∀ c ∈ p.parts, IsComponent c) : ∀ c ∈ place, IsComponent c :=
  (forall_mem_of_steps h hsound.forallTargets (hsound.isComponent_startOf p) hparts).1

theorem isComponent_readFrom (hroot : ∀ c ∈ root.parts, IsComponent c) (hpath : '\x00' ∉ path.toList) :
    ∀ c ∈ (readFrom root path).parts, IsComponent c := by
  have hown : ∀ c ∈ (Path.ofString (Text.replaceChar '\\' "/" path)).parts, IsComponent c := by
    intro c hc
    exact isComponent_of_mem_ofString ((Text.mem_replaceChar (by decide) (by decide)).not.mpr hpath) hc
  rcases readFrom_cases root path with ⟨hread, -⟩ | hread
  · rwa [hread]
  · rw [hread]
    exact List.forall_mem_append.mpr ⟨hroot, hown⟩

/-! ## Between two places -/

/-- A text is no path with its backslashes replaced exactly if it is none as it stands. -/
theorem replaced_noPath : ((Text.replaceChar '\\' "/" path).isEmpty ||
    (Text.replaceChar '\\' "/" path).toList.contains '\x00') = true ↔ path = "" ∨ '\x00' ∈ path.toList := by
  rw [Bool.or_eq_true, String.isEmpty_iff, List.contains_iff_mem]
  exact or_congr (Text.replaceChar_eq_empty (by decide)) (Text.mem_replaceChar (by decide) (by decide))

/-- The components are those between the two places, where there are some and none of them is denied. -/
theorem relativeParts?_eq (hbase : t.resolve root = .ok (Path.rooted base))
    (hplace : t.resolve (readFrom root path) = .ok (Path.rooted place)) :
    t.relativeParts? path root denied = if path = "" ∨ '\x00' ∈ path.toList then none else
      ((Path.rooted place).relativeTo? (Path.rooted base)).filter
        fun parts => !parts.isEmpty && !parts.any denied.contains := by
  unfold readFrom at hplace
  unfold relativeParts?
  dsimp only
  rw [hplace, hbase]
  dsimp only
  refine ite_congr (propext replaced_noPath) (fun _ => rfl) fun _ => ?_
  cases (Path.rooted place).relativeTo? (Path.rooted base) with
  | none => rfl
  | some parts =>
      cases parts with
      | nil => rfl
      | cons c rest =>
          rw [Option.filter_some]
          show (if (c :: rest).any denied.contains = true then none else some (c :: rest)) = _
          cases (c :: rest).any denied.contains <;> rfl

/-- **The components of a relative path** are what leads from the place of the root to the place of the
path, provided that something does and that none of it is denied. -/
theorem relativeParts?_iff (hbase : t.resolve root = .ok (Path.rooted base))
    (hplace : t.resolve (readFrom root path) = .ok (Path.rooted place)) :
    t.relativeParts? path root denied = some parts ↔
      path ≠ "" ∧ '\x00' ∉ path.toList ∧ parts ≠ [] ∧ place = base ++ parts ∧ ∀ c ∈ parts, c ∉ denied := by
  have hbetween : (Path.rooted place).relativeTo? (Path.rooted base) = some parts ↔ place = base ++ parts := by
    rw [Path.relativeTo?_eq_some]
    simp
  have hkept : (!parts.isEmpty && !parts.any denied.contains) = true ↔ parts ≠ [] ∧ ∀ c ∈ parts, c ∉ denied := by
    simp
  rw [relativeParts?_eq hbase hplace, Option.ite_none_left_eq_some, Option.filter_eq_some_iff, hbetween, hkept,
    not_or]
  constructor
  · rintro ⟨⟨hne, hnul⟩, hparts, hsome, hfree⟩
    exact ⟨hne, hnul, hsome, hparts, hfree⟩
  · rintro ⟨hne, hnul, hsome, hparts, hfree⟩
    exact ⟨⟨hne, hnul⟩, hparts, hsome, hfree⟩

/-- There is no relative path exactly if the text is no path, or what it leads to is not below the root, or
behind a denied name. -/
theorem relativeParts?_eq_none (hbase : t.resolve root = .ok (Path.rooted base))
    (hplace : t.resolve (readFrom root path) = .ok (Path.rooted place)) :
    t.relativeParts? path root denied = none ↔
      path = "" ∨ '\x00' ∈ path.toList ∨ place = base ∨ ¬ base <+: place ∨
        ∃ above name below, place = base ++ above ++ name :: below ∧ name ∈ denied := by
  constructor
  · intro hnone
    by_contra hother
    simp only [not_or, not_not] at hother
    obtain ⟨hne, hnul, hbelow, ⟨parts, rfl⟩, hfree⟩ := hother
    have hparts : parts ≠ [] := fun h => hbelow (by rw [h, List.append_nil])
    have hdenied : ∀ c ∈ parts, c ∉ denied := by
      intro c hc hdenied
      obtain ⟨above, below, rfl⟩ := List.append_of_mem hc
      exact hfree ⟨above, c, below, by rw [List.append_assoc], hdenied⟩
    have hsome := (relativeParts?_iff hbase hplace).mpr ⟨hne, hnul, hparts, rfl, hdenied⟩
    rw [hnone] at hsome
    simp at hsome
  · intro h
    cases hfound : t.relativeParts? path root denied with
    | none => rfl
    | some parts =>
        obtain ⟨hne, hnul, hparts, rfl, hfree⟩ := (relativeParts?_iff hbase hplace).mp hfound
        rcases h with h | h | h | h | ⟨above, name, below, h, hdenied⟩
        · exact absurd h hne
        · exact absurd h hnul
        · exact absurd (List.append_right_eq_self.mp h) hparts
        · exact absurd (List.prefix_append base parts) h
        · rw [List.append_assoc] at h
          obtain rfl := List.append_cancel_left h
          exact absurd hdenied (hfree name (by simp))

/-! ## Relative paths -/

/-- What leads from one place that can be resolved to another is written with names. -/
theorem IsSettled.relativeText (h : t.IsSettled (base ++ parts)) (hwritable : Writable parts)
    (hne : parts ≠ []) :
    Path.relativeText parts ≠ "" ∧ Text.splitOn '/' (Path.relativeText parts) = parts ∧
      Path.ofString (Path.relativeText parts) = ⟨.here, parts⟩ := by
  have hnames : ∀ c ∈ parts, IsName c := fun c hc => h.names c (List.mem_append_right _ hc)
  refine ⟨?_, Path.splitOn_relativeText hwritable hne, ?_⟩
  · exact Path.relativeText_ne_empty hne fun c hc => (hnames c hc).1
  · exact Path.ofString_relativeText hwritable (fun c hc => ⟨(hnames c hc).1, (hnames c hc).2.1⟩) hne

/-- **What a relative path stands for.** The root and the path each lead to one place, which is their
resolution. A relative path is made of names, none of them denied, and leads from the place of the root to
that of the path; written without backslashes it is its own relative path. There is none exactly if the
text is no path, or leads to the root itself, out of it, or behind a denied name. -/
theorem relativePath?_of_reaches (hsound : t.IsSound) (hacyclic : t.Acyclic) (rootText : String)
    (hroot : '\x00' ∉ rootText.toList) (path : String) (denied : List String) :
    let root := Path.ofString rootText
    ∃ base place, t.Reaches root base ∧ t.Reaches (readFrom root path) place ∧
      t.resolve root = .ok (Path.rooted base) ∧
      t.resolve (readFrom root path) = .ok (Path.rooted place) ∧
      (∀ s, t.relativePath? path root denied = some s →
        s ≠ "" ∧ (Path.ofString s).isAbsolute = false ∧
          (∀ c ∈ Text.splitOn '/' s, IsName c ∧ c ∉ denied) ∧
          Path.rooted base / Path.ofString s = Path.rooted place ∧
          ('\\' ∉ s.toList → t.relativePath? s root denied = some s)) ∧
      (t.relativePath? path root denied = none ↔
        path = "" ∨ '\x00' ∈ path.toList ∨ place = base ∨ ¬ base <+: place ∨
          ∃ above name below, place = base ++ above ++ name :: below ∧ name ∈ denied) := by
  intro root
  obtain ⟨base, hbase, -⟩ := reaches_realPath hsound hacyclic root
  obtain ⟨place, hplace, -⟩ := reaches_realPath hsound hacyclic (readFrom root path)
  have hresolve := hbase.resolve hsound hacyclic
  have hresolved := hplace.resolve hsound hacyclic
  refine ⟨base, place, hbase, hplace, hresolve, hresolved, ?_, ?_⟩
  · intro s hs
    obtain ⟨parts, hparts, rfl⟩ := Option.map_eq_some_iff.mp hs
    obtain ⟨-, hnul, hne, rfl, hfree⟩ := (relativeParts?_iff hresolve hresolved).mp hparts
    have hsettled := hplace.isSettled hsound
    have hcomponents : ∀ c ∈ parts, IsComponent c := by
      intro c hc
      have hown : ∀ c ∈ root.parts, IsComponent c := fun c hc => isComponent_of_mem_ofString hroot hc
      exact hplace.isComponent hsound (isComponent_readFrom hown hnul) c (List.mem_append_right _ hc)
    obtain ⟨hempty, hsplit, hpath⟩ := hsettled.relativeText (fun c hc => (hcomponents c hc).1) hne
    refine ⟨hempty, by rw [hpath]; rfl, ?_, by rw [hpath]; rfl, ?_⟩
    · rw [hsplit]
      exact fun c hc => ⟨hsettled.names c (List.mem_append_right _ hc), hfree c hc⟩
    · -- read again from the root, the names lead down from its place, where no link stands
      intro hslash
      have hagain : t.Reaches (readFrom root (Path.relativeText parts)) (base ++ parts) := by
        rw [readFrom, Text.replaceChar_of_not_mem hslash, hpath]
        exact hbase.join rfl hsettled.steps_down
      have hclean : '\x00' ∉ (Path.relativeText parts).toList := by
        intro hmem
        rcases Path.mem_relativeText hne hmem with hmem | ⟨c, hc, hmem⟩
        · exact absurd hmem (by decide)
        · exact (hcomponents c hc).2 hmem
      have hfound := (relativeParts?_iff hresolve (hagain.resolve hsound hacyclic)).mpr
        ⟨hempty, hclean, hne, rfl, hfree⟩
      rw [relativePath?, hfound]
      rfl
  · rw [relativePath?, Option.map_eq_none_iff]
    exact relativeParts?_eq_none hresolve hresolved

/-- A root that is reached through a link, and a path to a file through another one: what lies between the
places that they lead to is its own relative path. -/
theorem relativePath?_of_reaches_linked :
    let t := besideOutside [("alias.c", .link "src/main.c"), ("here", .link "."),
      ("src", .directory [("main.c", .file (.text "x") false)])]
    let root := Path.ofString "/project/here"
    t.IsSound ∧ t.Acyclic ∧ t.relativePath? "src\\..\\alias.c" root = some "src/main.c" ∧
      t.Reaches root ["project"] ∧
      t.Reaches (readFrom root "src\\..\\alias.c") ["project", "src", "main.c"] ∧
      t.relativePath? "src/main.c" root = some "src/main.c" := by
  intro t root
  have hsound : t.IsSound := ⟨by decide, by decide, by decide, by decide⟩
  have hacyclic : t.Acyclic := by
    have hplaces : t.top.linkPlaces = [["project", "alias.c"], ["project", "here"]] := by decide +kernel
    apply acyclic_of_leads hsound
    rw [hplaces]
    refine List.forall_mem_cons.mpr ⟨?_, List.forall_mem_singleton.mpr ?_⟩
    · have hsplit : Text.splitOn '/' "src/main.c" = ["src", "main.c"] := by decide +kernel
      refine ⟨0, ["project", "src", "main.c"], "src/main.c", by decide +kernel, ?_⟩
      rw [hsplit]
      exact .down (by decide) (by decide +kernel) (.down (by decide) (by decide +kernel) .done)
    · have hsplit : Text.splitOn '/' "." = ["."] := by decide +kernel
      refine ⟨0, ["project"], ".", by decide +kernel, ?_⟩
      rw [hsplit]
      exact .skip (.inr rfl) .done
  have hrelative : t.relativePath? "src\\..\\alias.c" root = some "src/main.c" := by decide +kernel
  obtain ⟨base, place, hbase, hplace, hresolve, hresolved, hfound, -⟩ :=
    relativePath?_of_reaches hsound hacyclic "/project/here" (by decide) "src\\..\\alias.c" deniedNames
  have hroot : t.resolve root = .ok (Path.rooted ["project"]) := by decide +kernel
  have hfile : t.resolve (readFrom root "src\\..\\alias.c") =
      .ok (Path.rooted ["project", "src", "main.c"]) := by decide +kernel
  obtain rfl : ["project"] = base :=
    congrArg Path.parts (Except.ok.inj (hroot.symm.trans hresolve))
  obtain rfl : ["project", "src", "main.c"] = place :=
    congrArg Path.parts (Except.ok.inj (hfile.symm.trans hresolved))
  obtain ⟨-, -, -, -, hagain⟩ := hfound _ hrelative
  exact ⟨hsound, hacyclic, hrelative, hbase, hplace, hagain (by decide)⟩

end Tree

end Assay.Files
