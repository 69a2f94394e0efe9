import Mathlib.Data.List.Induction
import Assay.Files.Resolve
import Assay.Files.Sound
import Assay.Proofs.Files.Path

/-!
# What a resolution looks like

A resolved path is absolute and has no empty component and no dots (`isAbsolute_of_resolve`,
`isName_of_resolve`). Whatever holds of the components of the path and of those of the targets of all links
holds of the components of the resolution (`realPath_forall`), because a walk only ever adds components of
the path and of link targets.
-/

namespace Assay.Files

/-! ## Working out dots -/

/-- A component that names something: it is not empty and no dot or dots. -/
def IsName (p : String) : Prop := p ≠ "" ∧ p ≠ "." ∧ p ≠ ".."

theorem IsName.not_skip {name : String} (hname : IsName name) : ¬ (name.isEmpty || name == ".") = true := by
  simp [hname.1, hname.2.1]

theorem IsName.not_up {name : String} (hname : IsName name) : ¬ (name == "..") = true := by simp [hname.2.2]

theorem normalize_append_singleton (parts : List String) (p : String) :
    normalize (parts ++ [p]) =
      if p.isEmpty || p == "." then normalize parts
      else if p == ".." then (normalize parts).dropLast else normalize parts ++ [p] := by
  simp [normalize, List.foldl_append]

/-- What is left when dots are worked out are components that were there and name something. -/
theorem mem_normalize {parts : List String} {p : String} (hp : p ∈ normalize parts) :
    p ∈ parts ∧ IsName p := by
  induction parts using List.reverseRecOn with
  | nil => simp [normalize] at hp
  | append_singleton parts q ih =>
      rw [normalize_append_singleton] at hp
      -- the last component is dropped, takes back another one, or is kept since it is a name
      split at hp
      · obtain ⟨hmem, hname⟩ := ih hp
        exact ⟨List.mem_append_left _ hmem, hname⟩
      · next hq =>
        split at hp
        · obtain ⟨hmem, hname⟩ := ih (List.dropLast_subset _ hp)
          exact ⟨List.mem_append_left _ hmem, hname⟩
        · next hdots =>
          rcases List.mem_append.mp hp with h | h
          · obtain ⟨hmem, hname⟩ := ih h
            exact ⟨List.mem_append_left _ hmem, hname⟩
          · rw [List.mem_singleton] at h
            subst h
            refine ⟨by simp, ?_, ?_, ?_⟩ <;> simp_all

/-- Names are worked out already. -/
theorem normalize_of_isName {parts : List String} (h : ∀ c ∈ parts, IsName c) : normalize parts = parts := by
  induction parts using List.reverseRecOn with
  | nil => rfl
  | append_singleton parts p ih =>
      have hp : IsName p := h p (by simp)
      rw [normalize_append_singleton, if_neg hp.not_skip, if_neg hp.not_up,
        ih fun c hc => h c (List.mem_append_left _ hc)]

/-! ## What a path is made of -/

namespace Tree

/-- A property of the names that a path is made of, with those of the working directory for a relative
one. -/
def Holds (t : Tree) (P : String → Prop) (p : Path) : Prop := ∀ c ∈ t.startOf p ++ p.parts, IsName c → P c

/-- A property of all components of the targets of links. -/
def ForallTargets (t : Tree) (P : String → Prop) : Prop :=
  ∀ q target, t.target? q = some target → ∀ p ∈ Text.splitOn '/' target, P p

variable {P : String → Prop} {t : Tree} {p here : Path} {name target : String} {rest : List String}

theorem Holds.sublist {q : Path} (h : t.Holds P p) (hanchor : q.anchor = p.anchor)
    (hparts : ∀ c ∈ q.parts, IsName c → c ∈ p.parts ∨ P c) : t.Holds P q := by
  have hstart : t.startOf q = t.startOf p := by rw [startOf, startOf, Path.isAbsolute, Path.isAbsolute, hanchor]
  intro c hc hname
  rcases List.mem_append.mp hc with hc | hc
  · exact h c (List.mem_append_left _ (hstart ▸ hc)) hname
  · rcases hparts c hc hname with hown | hnew
    · exact h c (List.mem_append_right _ hown) hname
    · exact hnew

theorem holds_root : t.Holds P ⟨.root, []⟩ := by simp [Holds, startOf, Path.isAbsolute]

theorem Holds.child (h : t.Holds P here) (hname : P name) : t.Holds P (here.child name) := by
  refine h.sublist rfl fun c hc _ => ?_
  rcases List.mem_append.mp hc with hc | hc
  · exact .inl hc
  · exact .inr (List.mem_singleton.mp hc ▸ hname)

theorem Holds.up (h : t.Holds P here) : t.Holds P here.up := by
  unfold Path.up
  split
  · refine h.sublist rfl fun c hc hc' => ?_
    rcases List.mem_append.mp hc with hc | hc
    · exact .inl hc
    · exact absurd (List.mem_singleton.mp hc) hc'.2.2
  · exact h.sublist rfl fun c hc _ => .inl (List.dropLast_subset _ hc)

theorem Holds.targetStart (h : t.Holds P here) (target : String) : t.Holds P (here.targetStart target) := by
  unfold Path.targetStart
  split
  · exact holds_root
  · exact h

theorem Holds.thenRest (h : t.Holds P here) (hrest : ∀ c ∈ rest, P c) : t.Holds P (here.thenRest rest) := by
  have hpieces : ∀ c ∈ (Path.ofPieces rest).parts, P c := fun c hc => hrest c (Path.mem_of_mem_counted hc)
  show t.Holds P (here.join (Path.ofPieces rest))
  unfold Path.join
  split
  · next habs =>
    -- the rest starts anew from a root
    intro c hc _
    rw [startOf, if_pos habs, List.nil_append] at hc
    exact hpieces c hc
  · refine h.sublist rfl fun c hc _ => ?_
    rcases List.mem_append.mp hc with hc | hc
    · exact .inl hc
    · exact .inr (hpieces c hc)

/-! ## Walking -/

end Tree

/-- A property of names that holds along a walk: of the path so far and of every path that a link met on it
leads to. -/
def Links.Forall (t : Tree) (P : String → Prop) (links : Links) : Prop :=
  ∀ e ∈ links, ∀ reached, e.2 = .leadsTo reached → t.Holds P reached

@[inherit_doc Links.Forall]
structure Walk.Forall (t : Tree) (P : String → Prop) (w : Walk) : Prop where
  reached : t.Holds P w.reached
  links : w.links.Forall t P

theorem Links.Forall.lookup {t : Tree} {P : String → Prop} {links : Links} {q reached : Path}
    (h : links.Forall t P) (hl : links.lookup q = some (.leadsTo reached)) : t.Holds P reached := by
  obtain ⟨l₁, l₂, rfl, -⟩ := List.lookup_eq_some_iff.mp hl
  exact h (q, .leadsTo reached) (by simp) reached rfl

/-- A link that is put on record leads on with nothing new. -/
theorem Links.Forall.put {t : Tree} {P : String → Prop} {links : Links} {q : Path} {state : LinkState}
    (h : links.Forall t P) (hstate : ∀ reached, state = .leadsTo reached → t.Holds P reached) :
    Links.Forall t P ((q, state) :: links) :=
  List.forall_mem_cons.mpr ⟨hstate, h⟩

namespace Tree

variable {P : String → Prop} (t : Tree)

/-- A link that a walk comes to is a link of the tree. -/
theorem target?_of_linkAt? {place : Place} {target : String} (h : t.linkAt? place = some target) :
    ∃ q, t.target? q = some target := by
  unfold linkAt? at h
  split at h
  · next found _ =>
    split at h
    · next hfound =>
      obtain rfl := Option.some.inj h
      exact ⟨found, by rw [target?, hfound]; rfl⟩
    · simp at h
  · simp at h

/-- A step of a walk adds components of the path or of a link's target and nothing else. The induction
is on what is left of the path; the links so far and the path walked change along it. -/
theorem walkLinks_forall (hP : t.ForallTargets P) {follow : Links → Path → List String → Walk}
    (hfollow : ∀ links here rest, links.Forall t P → t.Holds P here → (∀ p ∈ rest, P p) →
      (follow links here rest).Forall t P)
    {links : Links} {here : Path} {rest : List String} (hl : links.Forall t P)
    (hh : t.Holds P here) (hr : ∀ p ∈ rest, P p) : (t.walkLinks follow links here rest).Forall t P := by
  induction rest generalizing links here with
  | nil => exact ⟨hh, hl⟩
  | cons name rest ih =>
      have hnext : t.Holds P (here.child name) := hh.child (hr name List.mem_cons_self)
      have hrest : ∀ p ∈ rest, P p := fun p hp => hr p (List.mem_cons_of_mem _ hp)
      rw [walkLinks]
      split
      · exact ih hl hh hrest
      split
      · exact ih hl hh.up hrest
      dsimp only
      split
      · exact ih hl hnext hrest
      · next target hlink =>
        obtain ⟨q, htarget⟩ := t.target?_of_linkAt? hlink
        split
        · next reached hreached => exact ih hl (hl.lookup hreached) hrest
        · exact ⟨hnext.thenRest hrest, hl⟩
        · -- a link not met before is followed, and remembered with the path it leads to
          have hpending : Links.Forall t P ((here.child name, .pending) :: links) := hl.put nofun
          have hwalk := hfollow _ _ _ hpending (hh.targetStart target) (hP q target htarget)
          split
          · refine ih (hwalk.links.put fun reached hreached => ?_) hwalk.reached hrest
            exact LinkState.leadsTo.inj hreached ▸ hwalk.reached
          · exact ⟨hwalk.reached.thenRest hrest, hwalk.links⟩

theorem walkDeep_forall (hP : t.ForallTargets P) {depth : Nat} {links : Links} {here : Path}
    {rest : List String} (hl : links.Forall t P) (hh : t.Holds P here) (hr : ∀ p ∈ rest, P p) :
    (t.walkDeep depth links here rest).Forall t P := by
  induction depth generalizing links here rest with
  | zero =>
      refine walkLinks_forall t hP (fun links here rest hl hh hr => ?_) hl hh hr
      exact Walk.Forall.mk (hh.thenRest hr) hl
  | succ depth ih =>
      rw [walkDeep]
      exact walkLinks_forall t hP (fun _ _ _ hl hh hr => ih hl hh hr) hl hh hr

/-! ## The resolution -/

/-- Every component of a resolved path names something. -/
theorem mem_realPath {p : Path} {c : String} (hc : c ∈ (t.realPath p).parts) : IsName c :=
  (mem_normalize hc).2

theorem isAbsolute_absolute (p : Path) : (t.absolute p).isAbsolute = true := by
  obtain ⟨anchor, parts⟩ := p
  cases anchor <;> rfl

/-- What holds of all components where the path starts, of all its own and of those of the targets of
all links holds of all components of its resolution. -/
theorem realPath_forall (hP : t.ForallTargets P) {p : Path} (hs : ∀ c ∈ t.startOf p, P c)
    (hp : ∀ c ∈ p.parts, P c) : ∀ c ∈ (t.realPath p).parts, P c := by
  have horigin : t.Holds P p.origin := by
    obtain ⟨anchor, parts⟩ := p
    cases anchor with
    | here => exact fun c hc _ => hs c (by simpa [Path.origin, startOf, Path.isAbsolute] using hc)
    | root | doubleRoot => exact holds_root
  have hwalk : (t.walkDeep t.walkDepth [] p.origin p.parts).Forall t P :=
    walkDeep_forall t hP (by simp [Links.Forall]) horigin hp
  intro c hc
  obtain ⟨hmem, hname⟩ := mem_normalize hc
  exact hwalk.reached c hmem hname

theorem resolve_eq_ok {p q : Path} (h : t.resolve p = .ok q) : q = t.realPath p := by
  unfold resolve at h
  dsimp only at h
  split at h
  · simp at h
  · simpa using h.symm

/-- A resolution starts at a root. -/
theorem isAbsolute_of_resolve {p q : Path} (h : t.resolve p = .ok q) : q.isAbsolute = true := by
  rw [t.resolve_eq_ok h]
  exact t.isAbsolute_absolute _

/-- The components of a resolution name something. -/
theorem isName_of_resolve {p q : Path} (h : t.resolve p = .ok q) : ∀ c ∈ q.parts, IsName c := by
  rw [t.resolve_eq_ok h]
  exact fun c hc => t.mem_realPath hc

end Tree

end Assay.Files
