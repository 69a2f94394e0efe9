import Mathlib.Data.List.Perm.Subperm
import Assay.Proofs.Files.Follow

/-!
# Walks reach the end of a path

The walk that resolves a path spells the places that following the path goes through (`placeOf_child`,
`placeOf_up`), and reaches the one where that ends, if it ends (`walkDeep_of_follows`), so the resolution of
the path is that place (`resolve_of_follows`). The walk gives up only at a link that is met again while its
target is being walked; such a link would have to be followed through fewer links than itself. Links nested in
each other are different ones, so the depth of the walk suffices.
-/

namespace Assay.Files

/-! ## Counting links -/

namespace Node

mutual

/-- The places of the links of a node. -/
def linkPlaces : Node → List Place
  | .file _ _ => []
  | .link _ => [[]]
  | .directory entries => entryLinkPlaces entries

/-- The places of the links of a row of entries. -/
def entryLinkPlaces : List (String × Node) → List Place
  | [] => []
  | (name, n) :: rest => n.linkPlaces.map (name :: ·) ++ entryLinkPlaces rest

end

mutual

theorem length_linkPlaces : (n : Node) → n.linkPlaces.length = n.countLinks
  | .file _ _ => rfl
  | .link _ => rfl
  | .directory entries => length_entryLinkPlaces entries

theorem length_entryLinkPlaces : (entries : List (String × Node)) →
    (entryLinkPlaces entries).length = countEntryLinks entries
  | [] => rfl
  | (name, n) :: rest => by
      rw [entryLinkPlaces, countEntryLinks, List.length_append, List.length_map, length_linkPlaces n,
        length_entryLinkPlaces rest]

end

theorem mem_entryLinkPlaces {entries : List (String × Node)} {name : String} {n : Node}
    (hn : (name, n) ∈ entries) {place : Place} (hplace : place ∈ n.linkPlaces) :
    name :: place ∈ entryLinkPlaces entries := by
  induction entries with
  | nil => simp at hn
  | cons e entries ih =>
      obtain ⟨key, value⟩ := e
      rw [entryLinkPlaces, List.mem_append]
      rcases List.mem_cons.mp hn with heq | hn
      · obtain ⟨rfl, rfl⟩ := Prod.mk.inj heq
        exact .inl (List.mem_map_of_mem hplace)
      · exact .inr (ih hn)

theorem mem_linkPlaces {n : Node} {place : Place} {target : String}
    (h : n.at? place = some (.link target)) : place ∈ n.linkPlaces := by
  induction place generalizing n with
  | nil =>
      obtain rfl : n = .link target := Option.some.inj h
      simp [linkPlaces]
  | cons name place ih =>
      rw [at?] at h
      split at h
      · next child hchild =>
        obtain ⟨entries, rfl, hmem⟩ := mem_of_child? hchild
        exact mem_entryLinkPlaces hmem (ih h)
      · simp at h

end Node

/-! ## Paths of a walk -/

/-- A path as a walk spells it: its components are names, except for dots that lead up from where a
relative path starts. -/
structure Path.IsSpelled (p : Path) : Prop where
  anchor : p.anchor ≠ .doubleRoot
  parts : ∀ c ∈ p.parts, IsName c ∨ p.anchor = .here ∧ c = ".."

namespace Path

variable {here : Path} {name : String}

theorem isSpelled_origin (p : Path) : p.origin.IsSpelled := by
  obtain ⟨anchor, parts⟩ := p
  cases anchor <;> exact ⟨nofun, nofun⟩

theorem IsSpelled.child (h : here.IsSpelled) (hname : IsName name) : (here.child name).IsSpelled :=
  ⟨h.anchor, List.forall_mem_append.mpr ⟨h.parts, List.forall_mem_singleton.mpr (.inl hname)⟩⟩

theorem IsSpelled.up (h : here.IsSpelled) : here.up.IsSpelled := by
  unfold Path.up
  split
  · next hdots =>
    have hanchor : here.anchor = .here := by
      simpa using (Bool.and_eq_true_iff.mp hdots).1
    exact ⟨h.anchor, List.forall_mem_append.mpr ⟨h.parts, List.forall_mem_singleton.mpr (.inr ⟨hanchor, rfl⟩)⟩⟩
  · exact ⟨h.anchor, fun c hc => h.parts c (List.dropLast_subset _ hc)⟩

theorem IsSpelled.targetStart (h : here.IsSpelled) (target : String) :
    (here.targetStart target).IsSpelled := by
  unfold Path.targetStart
  split
  · exact ⟨nofun, nofun⟩
  · exact h

end Path

namespace Tree

variable {t : Tree} {here : Path} {name : String}

theorem placeOf_child (hname : IsName name) : t.placeOf (here.child name) = t.placeOf here ++ [name] := by
  show normalize (t.startOf here ++ (here.parts ++ [name])) = _
  rw [← List.append_assoc, normalize_append_singleton, if_neg hname.not_skip, if_neg hname.not_up]
  rfl

/-- The path above leads to the place above: either its last component is taken back, or dots are added. -/
theorem placeOf_up (h : here.IsSpelled) : t.placeOf here.up = (t.placeOf here).dropLast := by
  unfold Path.up
  split
  · show normalize (t.startOf here ++ (here.parts ++ [".."])) = _
    rw [← List.append_assoc, normalize_append_singleton]
    rfl
  · next hplain =>
    obtain ⟨anchor, parts⟩ := here
    cases parts using List.reverseRecOn with
    | nil =>
        cases anchor with
        | here => simp at hplain
        | root | doubleRoot => rfl
    | append_singleton parts last =>
        have hname : IsName last := by
          rcases h.parts last (by simp) with hname | ⟨hanchor, rfl⟩
          · exact hname
          · simp [Path.name, show anchor = .here from hanchor] at hplain
        rw [show (⟨anchor, parts ++ [last]⟩ : Path) = Path.child ⟨anchor, parts⟩ last from rfl,
          placeOf_child hname, List.dropLast_concat, Path.child, List.dropLast_concat]

theorem placeOf_targetStart {target : String} :
    t.placeOf (here.targetStart target) = linkStart (t.placeOf here) target := by
  unfold Path.targetStart linkStart
  split <;> rfl

theorem IsSound.isReal_startOf (hsound : t.IsSound) (p : Path) : t.IsReal (t.startOf p) := by
  unfold startOf
  split
  · exact hsound.isReal_nil
  · obtain ⟨entries, h⟩ := hsound.workingDirectory_directory
    exact hsound.isReal_of_at? h

theorem IsSound.placeOf_origin (hsound : t.IsSound) (p : Path) : t.placeOf p.origin = t.startOf p := by
  have hstart : t.startOf p.origin = t.startOf p := by
    obtain ⟨anchor, parts⟩ := p
    cases anchor <;> rfl
  show normalize (t.startOf p.origin ++ []) = _
  rw [List.append_nil, hstart, normalize_of_isName (hsound.isReal_startOf p).names]

/-- A path that a walk has spelled starts at the plain root when it is made absolute. -/
theorem absolute_of_isSpelled (h : here.IsSpelled) : t.absolute here = Path.rooted (t.placeOf here) := by
  have hanchor : (if here.isAbsolute then here.anchor else .root) = .root := by
    have hplain := h.anchor
    cases hhere : here.anchor <;> simp_all [Path.isAbsolute]
  rw [absolute, hanchor]
  rfl

end Tree

namespace Tree

variable {t : Tree}

/-- There are no more links than are counted. -/
theorem length_le_countLinks {places : List Place} (hnodup : places.Nodup)
    (hlinks : ∀ q ∈ places, t.target? q ≠ none) : places.length ≤ t.top.countLinks := by
  rw [← Node.length_linkPlaces]
  refine (List.subperm_of_subset hnodup ?_).length_le
  intro q hq
  obtain ⟨target, htarget⟩ := Option.ne_none_iff_exists'.mp (hlinks q hq)
  exact Node.mem_linkPlaces (target?_eq_some.mp htarget)

/-! ## Steps of a walk -/

variable {depth : Nat} {links : Links} {here reached : Path} {name target : String} {rest : List String}

theorem walkDeep_nil : t.walkDeep depth links here [] = ⟨here, links, true⟩ := by
  cases depth <;> rfl

theorem walkDeep_skip (hname : name = "" ∨ name = ".") :
    t.walkDeep depth links here (name :: rest) = t.walkDeep depth links here rest := by
  have hskip : (name.isEmpty || name == ".") = true := by rcases hname with rfl | rfl <;> decide
  cases depth <;> rw [walkDeep, walkLinks, if_pos hskip]

theorem walkDeep_up :
    t.walkDeep depth links here (".." :: rest) = t.walkDeep depth links here.up rest := by
  cases depth <;> rw [walkDeep, walkLinks, if_neg (by decide), if_pos (by decide)]

theorem walkDeep_down (hname : IsName name) (hnone : t.linkAt? (t.placeOf (here.child name)) = none) :
    t.walkDeep depth links here (name :: rest) = t.walkDeep depth links (here.child name) rest := by
  cases depth <;> rw [walkDeep, walkLinks, if_neg hname.not_skip, if_neg hname.not_up] <;>
    dsimp only <;> rw [hnone]

/-- A link met before goes on from the path that it leads to. -/
theorem walkDeep_known (hname : IsName name)
    (htarget : t.linkAt? (t.placeOf (here.child name)) = some target)
    (hlinks : links.lookup (here.child name) = some (.leadsTo reached)) :
    t.walkDeep depth links here (name :: rest) = t.walkDeep depth links reached rest := by
  cases depth <;> rw [walkDeep, walkLinks, if_neg hname.not_skip, if_neg hname.not_up] <;>
    dsimp only <;> rw [htarget] <;> dsimp only <;> rw [hlinks]

/-- A link met for the first time goes on from where its target is walked to. -/
theorem walkDeep_new {after : Links} (hname : IsName name)
    (htarget : t.linkAt? (t.placeOf (here.child name)) = some target)
    (hlinks : links.lookup (here.child name) = none)
    (hwalk : t.walkDeep depth ((here.child name, .pending) :: links) (here.targetStart target)
      (Text.splitOn '/' target) = ⟨reached, after, true⟩) :
    t.walkDeep (depth + 1) links here (name :: rest) =
      t.walkDeep (depth + 1) ((here.child name, .leadsTo reached) :: after) reached rest := by
  rw [walkDeep, walkLinks, if_neg hname.not_skip, if_neg hname.not_up]
  dsimp only
  rw [htarget]
  dsimp only
  rw [hlinks]
  dsimp only
  rw [hwalk]
  rfl

/-! ## Looking a path up -/

section Lookup

variable {last : Bool} {follow : Place → List String → Except StatFault Place} {place : Place}
  {entries below : List (String × Node)}

/-- A lookup goes down into a directory. -/
theorem walkTo_down (htop : t.top.at? place = some (.directory entries)) (hname : IsName name)
    (hfits : name.utf8ByteSize ≤ maxNameBytes)
    (hbelow : t.top.at? (place ++ [name]) = some (.directory below)) :
    t.walkTo last follow place (name :: rest) = t.walkTo last follow (place ++ [name]) rest := by
  rw [walkTo, htop]
  dsimp only
  rw [if_neg hname.not_skip, if_neg hname.not_up, if_neg (Nat.not_lt.mpr hfits), hbelow]

/-- A lookup goes on with the pieces of a link's target. -/
theorem walkTo_link (htop : t.top.at? place = some (.directory entries)) (hname : IsName name)
    (hfits : name.utf8ByteSize ≤ maxNameBytes)
    (hlink : t.top.at? (place ++ [name]) = some (.link target)) (htarget : target ≠ "") :
    t.walkTo true follow place (name :: rest) =
      follow (linkStart place target) (Text.splitOn '/' target ++ rest) := by
  rw [walkTo, htop]
  dsimp only
  rw [if_neg hname.not_skip, if_neg hname.not_up, if_neg (Nat.not_lt.mpr hfits), hlink]
  dsimp only
  rw [if_neg (by simp), if_neg (by simpa using htarget), linkStart]

end Lookup

/-! ## The links met -/

/-- The target of the link at a place ends at another one, through so many links. -/
def Leads (t : Tree) (n : Nat) (q place : Place) : Prop :=
  ∃ target, t.target? q = some target ∧
    t.Follows n (linkStart q.dropLast target) (Text.splitOn '/' target) place

/-- A link leads to one place only. -/
theorem Leads.unique {m n : Nat} {q place other : Place} (h : t.Leads m q place) (h' : t.Leads n q other) :
    place = other := by
  obtain ⟨target, htarget, hfollows⟩ := h
  obtain ⟨target', htarget', hfollows'⟩ := h'
  obtain rfl := Option.some.inj (htarget.symm.trans htarget')
  exact (hfollows.unique hfollows').2

/-- What holds of the links met on a walk while those at the paths `pending` are being walked: they stand at
different places, and a link that has been walked is known to lead where `leads` allows. -/
structure Knows (t : Tree) (leads : Place → Place → Prop) (pending : List Path) (links : Links) : Prop where
  nodup : (pending.map t.placeOf).Nodup
  isLink : ∀ q ∈ pending, t.target? (t.placeOf q) ≠ none
  isPending : ∀ q, links.lookup q = some .pending ↔ q ∈ pending
  leadsTo : ∀ q reached, links.lookup q = some (.leadsTo reached) →
    reached.IsSpelled ∧ leads (t.placeOf q) (t.placeOf reached)

variable {m n : Nat} {leads : Place → Place → Prop} {pending : List Path}

theorem knows_nil (t : Tree) (leads : Place → Place → Prop) : t.Knows leads [] [] :=
  ⟨List.nodup_nil, by simp, by simp, by simp⟩

/-- A link whose target is about to be walked is pending. -/
theorem Knows.push {q : Path} (h : t.Knows leads pending links) (hlink : t.target? (t.placeOf q) ≠ none)
    (hnew : t.placeOf q ∉ pending.map t.placeOf) : t.Knows leads (q :: pending) ((q, .pending) :: links) where
  nodup := List.nodup_cons.mpr ⟨hnew, h.nodup⟩
  isLink := List.forall_mem_cons.mpr ⟨hlink, h.isLink⟩
  isPending := by
    intro p
    by_cases hp : p = q
    · simp [hp]
    · have hbeq : (p == q) = false := by simpa using hp
      rw [List.lookup_cons, hbeq, List.mem_cons, or_iff_right hp, ← h.isPending]
  leadsTo := by
    intro p reached hp
    rw [List.lookup_cons] at hp
    split at hp
    · simp at hp
    · exact h.leadsTo p reached hp

/-- A link whose target has been walked leads to where the walk has come to. -/
theorem Knows.pop {q : Path} (h : t.Knows leads (q :: pending) links) (hreached : reached.IsSpelled)
    (hq : leads (t.placeOf q) (t.placeOf reached)) :
    t.Knows leads pending ((q, .leadsTo reached) :: links) where
  nodup := (List.nodup_cons.mp h.nodup).2
  isLink := fun p hp => h.isLink p (List.mem_cons_of_mem _ hp)
  isPending := by
    intro p
    by_cases hp : p = q
    · have hout : q ∉ pending := fun hmem => (List.nodup_cons.mp h.nodup).1 (List.mem_map_of_mem hmem)
      simp [hp, hout]
    · have hother := h.isPending p
      rw [List.mem_cons, or_iff_right hp] at hother
      have hbeq : (p == q) = false := by simpa using hp
      rw [List.lookup_cons, hbeq, ← hother]
  leadsTo := by
    intro p other hp
    rw [List.lookup_cons] at hp
    split at hp
    · next heq =>
      obtain rfl : p = q := by simpa using heq
      obtain rfl : reached = other := by simpa using hp
      exact ⟨hreached, hq⟩
    · exact h.leadsTo p other hp

/-- The links being walked are distinct, so there is depth left for one more. -/
theorem Knows.depth_left {q : Path} (h : t.Knows leads (q :: pending) links)
    (hdepth : t.top.countLinks ≤ depth + pending.length) :
    ∃ d, depth = d + 1 ∧ t.top.countLinks ≤ d + (q :: pending).length := by
  have hcount := length_le_countLinks h.nodup (List.forall_mem_map.mpr h.isLink)
  rw [List.length_map, List.length_cons] at hcount
  rw [List.length_cons]
  exact ⟨depth - 1, by omega, by omega⟩

/-- The depth of a walk suffices for all links of the tree. -/
theorem countLinks_le_walkDepth (t : Tree) : t.top.countLinks ≤ t.walkDepth + ([] : List Path).length := by
  rw [walkDepth, Nat.mul_add]
  have := Nat.le_mul_of_pos_right t.top.countLinks Nat.two_pos
  omega

/-- Following the target of a link ends at the place. -/
def LeadsTo (t : Tree) (q place : Place) : Prop := ∃ m, t.Leads m q place

/-- Each of the links at these places needs at least so many others to be followed. -/
def Longer (t : Tree) (n : Nat) (places : List Place) : Prop :=
  ∀ q ∈ places, ∀ m place, t.Leads m q place → n ≤ m

section Longer

variable {places : List Place}

theorem Longer.mono (h : t.Longer n places) (hle : m ≤ n) : t.Longer m places :=
  fun q hq k place hk => Nat.le_trans hle (h q hq k place hk)

theorem Longer.push {q place : Place} (h : t.Longer m places) (hq : t.Leads m q place) :
    t.Longer m (q :: places) := by
  refine List.forall_mem_cons.mpr ⟨?_, h⟩
  rintro k other ⟨target, htarget, hk⟩
  obtain ⟨target', htarget', hm⟩ := hq
  obtain rfl := Option.some.inj (htarget.symm.trans htarget')
  exact Nat.le_of_eq (hm.unique hk).1

end Longer

/-- From a real place, the links that the walk sees are those that can be looked at. -/
theorem IsReal.linkAt?_eq {place : Place} (hsound : t.IsSound) (h : t.IsReal place) (hname : IsName name) :
    t.linkAt? (place ++ [name]) = if Fits (place ++ [name]) then t.target? (place ++ [name]) else none :=
  Tree.linkAt?_eq hsound (List.forall_mem_append.mpr ⟨h.names, List.forall_mem_singleton.mpr hname⟩) h.linkFree

/-- **A walk reaches the place where following ends.** The induction is on how the path is followed; the
depth, the path walked and the links met change along it. -/
theorem walkDeep_of_follows (hsound : t.IsSound) {start place : Place} (h : t.Follows n start rest place)
    (hstart : t.placeOf here = start) (hhere : t.IsReal start) (hspelled : here.IsSpelled)
    (hknows : t.Knows t.LeadsTo pending links) (hlonger : t.Longer n (pending.map t.placeOf))
    (hdepth : t.top.countLinks ≤ depth + pending.length) :
    ∃ reached after, t.walkDeep depth links here rest = ⟨reached, after, true⟩ ∧ reached.IsSpelled ∧
      t.placeOf reached = place ∧ t.Knows t.LeadsTo pending after := by
  induction h generalizing depth links pending here with
  | done => exact ⟨here, links, walkDeep_nil, hspelled, hstart, hknows⟩
  | skip hname _ ih =>
      rw [walkDeep_skip hname]
      exact ih hstart hhere hspelled hknows hlonger hdepth
  | up _ ih =>
      rw [walkDeep_up]
      exact ih (by rw [placeOf_up hspelled, hstart]) hhere.dropLast hspelled.up hknows hlonger hdepth
  | @down n start place name rest hname hnone _ ih =>
      have hnext : t.placeOf (here.child name) = start ++ [name] := by rw [placeOf_child hname, hstart]
      have hlink : t.linkAt? (t.placeOf (here.child name)) = none := by
        rw [hnext, hhere.linkAt?_eq hsound hname, hnone]
        split <;> rfl
      rw [walkDeep_down hname hlink]
      exact ih hnext (hhere.snoc hname hnone) (hspelled.child hname) hknows hlonger hdepth
  | @link m n start middle place name target rest hname hfits htarget hfollow hrest ihLink ih =>
      have hnext : t.placeOf (here.child name) = start ++ [name] := by rw [placeOf_child hname, hstart]
      have hlink : t.linkAt? (t.placeOf (here.child name)) = some target := by
        rw [hnext, hhere.linkAt?_eq hsound hname, if_pos hfits, htarget]
      have hleads : t.Leads m (t.placeOf (here.child name)) middle :=
        ⟨target, by rw [hnext, htarget], by rwa [hnext, List.dropLast_concat]⟩
      have hmiddle : t.IsReal middle := hfollow.isReal hsound (hhere.linkStart hsound target)
      -- a link that is being walked needs more links to be followed than are left
      have hnew : t.placeOf (here.child name) ∉ pending.map t.placeOf := by
        intro hmem
        have := hlonger _ hmem m middle hleads
        omega
      cases hlookup : links.lookup (here.child name) with
      | some state =>
          cases state with
          | pending => exact absurd (List.mem_map_of_mem ((hknows.isPending _).mp hlookup)) hnew
          | leadsTo known =>
              obtain ⟨hknown, k, hleads'⟩ := hknows.leadsTo _ _ hlookup
              obtain rfl : middle = t.placeOf known := hleads.unique hleads'
              rw [walkDeep_known hname hlink hlookup]
              exact ih rfl hmiddle hknown hknows (hlonger.mono (by omega)) hdepth
      | none =>
          have hpush := hknows.push (by rw [hnext, htarget]; simp) hnew
          obtain ⟨depth, rfl, hinner⟩ := hpush.depth_left hdepth
          obtain ⟨reached, after, hwalk, hreached, rfl, hafter⟩ := ihLink
            (by rw [placeOf_targetStart, hstart]) (hhere.linkStart hsound target) (hspelled.targetStart target)
            hpush ((hlonger.mono (by omega)).push hleads) hinner
          rw [walkDeep_new hname hlink hlookup hwalk]
          exact ih rfl hmiddle hreached (hafter.pop hreached ⟨m, hleads⟩) (hlonger.mono (by omega)) hdepth

/-! ## Resolutions -/

/-- **The resolution of a path** is the place where following it ends. -/
theorem realPath_of_follows (hsound : t.IsSound) {p : Path} {place : Place}
    (h : t.Follows n (t.startOf p) p.parts place) : t.realPath p = Path.rooted place := by
  have hlonger : t.Longer n (([] : List Path).map t.placeOf) := by simp [Longer]
  obtain ⟨reached, after, hwalk, hreached, rfl, -⟩ := walkDeep_of_follows hsound h (hsound.placeOf_origin p)
    (hsound.isReal_startOf p) (Path.isSpelled_origin p) (knows_nil t _) hlonger (countLinks_le_walkDepth t)
  rw [realPath, hwalk, absolute_of_isSpelled hreached]

/-- A path that can be followed to its end resolves to it. -/
theorem resolve_of_follows (hsound : t.IsSound) {p : Path} {place : Place}
    (h : t.Follows n (t.startOf p) p.parts place) : t.resolve p = .ok (Path.rooted place) := by
  have hreal := h.isReal hsound (hsound.isReal_startOf p)
  unfold resolve
  rw [realPath_of_follows hsound h]
  dsimp only
  split
  · next hloop => exact absurd hloop (stat_rooted_ne_loop hsound hreal.names hreal.linkFree)
  · rfl

/-- **A real place is its own resolution.** -/
theorem resolve_of_isReal (hsound : t.IsSound) {place : Place} (h : t.IsReal place) :
    t.resolve (Path.rooted place) = .ok (Path.rooted place) := by
  have hfollows : t.Follows 0 [] place ([] ++ place) := follows_of_isReal h
  exact resolve_of_follows hsound (p := Path.rooted place) hfollows

end Tree

end Assay.Files
