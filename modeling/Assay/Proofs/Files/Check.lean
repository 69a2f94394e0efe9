import Assay.Files.Guard
import Assay.Proofs.Files.Walk
import Assay.Proofs.Outcome

/-!
# Paths that pass the checks

What is known of a path that `checkPath` lets through, guard by guard: of its text, of the canonical path,
and of what that leads to (`checkPath_sound`). If the path can be followed to its end, the canonical path
is where it ends, so no arrangement of links leads out of the root, and the canonical path passes the same
checks again. A path that runs into a loop of links can pass without being resolved
(`checkPath_through_loop`), and at the double root, where no directory of the system is found
(`checkPath_at_double_root`).
-/

namespace Assay.Files

/-- Every refusal of a path is a problem of the input. -/
theorem PathFault.problem_isInput (fault : PathFault) : fault.problem.isInput = true := by
  cases fault <;> rfl

theorem checkRaw_eq_ok {raw : String} : checkRaw raw = .ok () ↔
    '\x00' ∉ raw.toList ∧ raw.length ≤ maxPathLength ∧ ".." ∉ (Path.ofString raw).parts := by
  unfold checkRaw
  by_cases hnul : '\x00' ∈ raw.toList
  · simp [hnul]
  by_cases hlength : maxPathLength < raw.length
  · simp [hnul, hlength, Nat.not_le.mpr hlength]
  by_cases hdots : ".." ∈ (Path.ofString raw).parts
  · simp [hnul, hlength, hdots]
  · simp [hnul, hlength, hdots, Nat.le_of_not_lt hlength]

namespace Tree

/-- What is known of the canonical path of a path that passed, and of what it leads to. -/
structure Passes (t : Tree) (policy : PathPolicy) (checked : CheckedPath) : Prop where
  system : ∀ d ∈ systemDirectories, checked.canonical.isWithin d = false
  temporary : ∀ d ∈ temporaryDirectories, checked.canonical.isWithin d = true →
    ∃ base ∈ policy.allowedRoots ++ policy.root.toList, ∃ admitted, t.resolve base = .ok admitted ∧
      checked.canonical.isWithin admitted = true
  root : ∀ base, policy.root = some base → ∃ root parts, t.resolve base = .ok root ∧
    checked.canonical.anchor = root.anchor ∧ checked.canonical.parts = root.parts ++ parts ∧
      ∀ name ∈ parts, name ∉ policy.denied
  present : policy.checkExists = true → ∃ n, t.stat checked.canonical = .ok n
  kind : ∀ n, t.stat checked.canonical = .ok n →
    (policy.kind = .file → n.isFile = true) ∧ (policy.kind = .directory → n.isDirectory = true)
  extension : policy.extensions ≠ [] → Text.lower checked.canonical.suffix ∈ policy.extensions
  size : checked.size = ((t.read? checked.canonical).map Content.size).getD 0
  limit : ∀ limit, policy.maxFileBytes = some limit → (checked.size : Int) ≤ limit

variable {t : Tree} {p : Path} {policy : PathPolicy} {raw : String} {checked : CheckedPath}

/-! ## The guards -/

theorem resolveOrFail_eq_ok {q : Path} : t.resolveOrFail p = .ok q ↔ t.resolve p = .ok q := by
  unfold resolveOrFail
  cases t.resolve p with
  | ok r => simp
  | error b => simp

/-- A base is resolved as any path is, unless there is a NUL in it. -/
theorem resolveBase_eq_ok {q : Path} :
    t.resolveBase p = .ok q ↔ (∀ c ∈ p.parts, '\x00' ∉ c.toList) ∧ t.resolve p = .ok q := by
  unfold resolveBase
  split
  · next hnul =>
    obtain ⟨c, hc, hmem⟩ := List.any_eq_true.mp hnul
    constructor
    · exact nofun
    · rintro ⟨hplain, -⟩
      exact absurd (List.contains_iff_mem.mp hmem) (hplain c hc)
  · next hplain =>
    rw [resolveOrFail_eq_ok, iff_and_self]
    exact fun _ c hc hmem => hplain (List.any_eq_true.mpr ⟨c, hc, List.contains_iff_mem.mpr hmem⟩)

theorem looked_eq_ok {α : Type} {x : Except StatFault α} {a : α} : looked x = .ok a ↔ x = .ok a := by
  cases x with
  | ok b => simp [looked]
  | error e => simp [looked]

theorem admittedBy_eq_true {bases : List Path} (h : t.admittedBy p bases = .ok true) :
    ∃ base ∈ bases, ∃ admitted, t.resolve base = .ok admitted ∧ p.isWithin admitted = true := by
  induction bases with
  | nil => simp [admittedBy] at h
  | cons base rest ih =>
      rw [admittedBy] at h
      obtain ⟨admitted, hadmitted, h⟩ := bind_eq_ok.mp h
      split at h
      · next hwithin =>
        exact ⟨base, List.mem_cons_self, admitted, (resolveBase_eq_ok.mp hadmitted).2, hwithin⟩
      · obtain ⟨other, hother, hrest⟩ := ih h
        exact ⟨other, List.mem_cons_of_mem _ hother, hrest⟩

theorem admittedBy_singleton {base root : Path} (hbase : t.resolveBase base = .ok root)
    (hwithin : p.isWithin root = true) : t.admittedBy p [base] = .ok true := by
  rw [admittedBy, hbase]
  show (if p.isWithin root = true then _ else _) = _
  rw [if_pos hwithin]
  rfl

theorem isUnderAny_eq_false {directories : List Path} :
    isUnderAny p directories = false ↔ ∀ d ∈ directories, p.isWithin d = false := by
  simp [isUnderAny]

/-- What a root admits is blocked in the directories of the system only. -/
theorem checkBlocked_of_admitted (hsystem : isUnderAny p systemDirectories = false)
    (hadmitted : t.admittedBy p (policy.allowedRoots ++ policy.root.toList) = .ok true) :
    t.checkBlocked p policy = .ok () := by
  unfold checkBlocked
  rw [hsystem, hadmitted, if_neg Bool.false_ne_true]
  show (if _ then _ else _) = _
  split <;> rfl

/-- A path that is not blocked lies in no system directory, and in a temporary one only if admitted. -/
theorem checkBlocked_sound (h : t.checkBlocked p policy = .ok ()) :
    (∀ d ∈ systemDirectories, p.isWithin d = false) ∧
      ∀ d ∈ temporaryDirectories, p.isWithin d = true →
        ∃ base ∈ policy.allowedRoots ++ policy.root.toList, ∃ admitted,
          t.resolve base = .ok admitted ∧ p.isWithin admitted = true := by
  unfold checkBlocked at h
  obtain ⟨hsystem, h⟩ := guard_eq_ok.mp h
  constructor
  · exact isUnderAny_eq_false.mp (Bool.eq_false_iff.mpr hsystem)
  · intro d hd hwithin
    have htemporary : isUnderAny p temporaryDirectories = true := List.any_eq_true.mpr ⟨d, hd, hwithin⟩
    rw [if_pos htemporary] at h
    obtain ⟨admitted, hadmitted, h⟩ := bind_eq_ok.mp h
    cases admitted with
    | true => exact admittedBy_eq_true hadmitted
    | false => simp [throw_eq_error] at h

/-- A path that passes the check of the root lies below its resolution, in no denied directory. -/
theorem checkRoot_sound {base : Path} (h : t.checkRoot p policy = .ok ()) (hbase : policy.root = some base) :
    ∃ root parts, t.resolveBase base = .ok root ∧ p.anchor = root.anchor ∧ p.parts = root.parts ++ parts ∧
      ∀ name ∈ parts, name ∉ policy.denied := by
  unfold checkRoot at h
  rw [hbase] at h
  obtain ⟨root, hroot, h⟩ := bind_eq_ok.mp h
  split at h
  · simp [throw_eq_error] at h
  · next parts hparts =>
    split at h
    · simp [throw_eq_error] at h
    · next hdenied =>
      obtain ⟨hanchor, hplace⟩ := Path.relativeTo?_eq_some.mp hparts
      refine ⟨root, parts, hroot, hanchor, hplace, ?_⟩
      intro name hname
      simpa using List.find?_eq_none.mp hdenied name hname

theorem exists?_eq_error {e : StatFault} :
    t.exists? p = .error e ↔ e = .nameTooLong ∧ t.stat p = .error .nameTooLong := by
  unfold exists? test
  cases t.stat p with
  | ok n => simp
  | error fault => cases fault <;> simp [eq_comm]

theorem exists?_of_stat {n : Node} (h : t.stat p = .ok n) : t.exists? p = .ok true := by
  rw [exists?, test, h]

theorem stat_of_exists? (h : t.exists? p = .ok true) : ∃ n, t.stat p = .ok n := by
  unfold exists? test at h
  cases hstat : t.stat p with
  | ok n => exact ⟨n, rfl⟩
  | error e =>
      rw [hstat] at h
      cases e <;> simp at h

/-- A test that a path passes, it passes for what it leads to. -/
theorem stat_of_test {holds : Node → Bool} (h : (t.test p holds).toOption.getD false = true) :
    ∃ n, t.stat p = .ok n := by
  unfold test at h
  cases hstat : t.stat p with
  | ok n => exact ⟨n, rfl⟩
  | error e =>
      rw [hstat] at h
      cases e <;> simp [Except.toOption] at h

theorem isFile_of_stat {n : Node} (h : t.stat p = .ok n) : t.isFile p = n.isFile := by
  rw [Tree.isFile, isFile?, test, h]
  rfl

theorem isDirectory_of_stat {n : Node} (h : t.stat p = .ok n) : t.isDirectory p = n.isDirectory := by
  rw [Tree.isDirectory, isDirectory?, test, h]
  rfl

theorem checkSize_eq_ok {name : String} {size : Nat} {most : Option Int} :
    checkSize name size most = .ok () ↔ ∀ limit, most = some limit → (size : Int) ≤ limit := by
  cases most with
  | none => simp [checkSize]
  | some limit =>
      by_cases hlimit : (size : Int) ≤ limit
      · simp [checkSize, hlimit]
      · by_cases htold : Decimal.isWritable limit = true
        · simp [checkSize, hlimit, htold]
        · simp [checkSize, hlimit, htold]

theorem checkKind_eq_ok : t.checkKind p policy = .ok () ↔
    ∃ present, t.exists? p = .ok present ∧ (policy.checkExists = true → present = true) ∧
      (present = true → policy.kind = .file → t.isFile p = true) ∧
      (present = true → policy.kind = .directory → t.isDirectory p = true) ∧
      (policy.extensions ≠ [] → Text.lower p.suffix ∈ policy.extensions) := by
  -- one guard after the other
  refine bind_eq_ok.trans (exists_congr fun present => and_congr looked_eq_ok ?_)
  refine guard_eq_ok.trans (and_congr (by simp) ?_)
  refine guard_eq_ok.trans (and_congr (by simp) ?_)
  refine guard_eq_ok.trans (and_congr (by simp) ?_)
  exact unless_eq_ok.trans (by simp)

/-- **What passes the last checks**: something is there if it has to be, it is of the kind if it is there, its
ending is one of those asked for, and its size keeps to the limit. -/
theorem checkTarget_eq_ok : t.checkTarget p policy = .ok checked ↔
    ∃ present, t.exists? p = .ok present ∧ (policy.checkExists = true → present = true) ∧
      (present = true → policy.kind = .file → t.isFile p = true) ∧
      (present = true → policy.kind = .directory → t.isDirectory p = true) ∧
      (policy.extensions ≠ [] → Text.lower p.suffix ∈ policy.extensions) ∧
      checked = ⟨p, t.byteSize p⟩ ∧ ∀ limit, policy.maxFileBytes = some limit → (t.byteSize p : Int) ≤ limit := by
  have hsteps : t.checkTarget p policy = .ok checked ↔ t.checkKind p policy = .ok () ∧
      checkSize p.name (t.byteSize p) policy.maxFileBytes = .ok () ∧ checked = ⟨p, t.byteSize p⟩ := by
    refine bind_eq_ok.trans ⟨?_, ?_⟩
    · rintro ⟨⟨⟩, hkind, h⟩
      obtain ⟨⟨⟩, hsize, h⟩ := bind_eq_ok.mp h
      exact ⟨hkind, hsize, (pure_eq_ok.mp h).symm⟩
    · rintro ⟨hkind, hsize, rfl⟩
      exact ⟨(), hkind, bind_eq_ok.mpr ⟨(), hsize, rfl⟩⟩
  rw [hsteps, checkKind_eq_ok, checkSize_eq_ok]
  constructor
  · rintro ⟨⟨present, hpresent, hsome, hfile, hdirectory, hextension⟩, hsize, rfl⟩
    exact ⟨present, hpresent, hsome, hfile, hdirectory, hextension, rfl, hsize⟩
  · rintro ⟨present, hpresent, hsome, hfile, hdirectory, hextension, rfl, hsize⟩
    exact ⟨⟨present, hpresent, hsome, hfile, hdirectory, hextension⟩, hsize, rfl⟩

/-- What a path that passes the last checks leads to, and its size. -/
theorem checkTarget_sound (h : t.checkTarget p policy = .ok checked) :
    checked.canonical = p ∧ (policy.checkExists = true → ∃ n, t.stat p = .ok n) ∧
      (∀ n, t.stat p = .ok n →
        (policy.kind = .file → n.isFile = true) ∧ (policy.kind = .directory → n.isDirectory = true)) ∧
      (policy.extensions ≠ [] → Text.lower p.suffix ∈ policy.extensions) ∧
      checked.size = ((t.read? p).map Content.size).getD 0 ∧
      ∀ limit, policy.maxFileBytes = some limit → (checked.size : Int) ≤ limit := by
  obtain ⟨present, hpresent, hsome, hfile, hdirectory, hextension, rfl, hlimit⟩ := checkTarget_eq_ok.mp h
  refine ⟨rfl, fun hexists => ?_, fun n hn => ?_, hextension, rfl, hlimit⟩
  · obtain rfl := hsome hexists
    exact stat_of_exists? hpresent
  · obtain rfl : true = present := Except.ok.inj ((exists?_of_stat hn).symm.trans hpresent)
    rw [← isFile_of_stat hn, ← isDirectory_of_stat hn]
    exact ⟨hfile rfl, hdirectory rfl⟩

/-! ## All guards -/

theorem canonical_ne_problem {problem : Problem} : t.canonical raw ≠ .error (.problem problem) := by
  unfold canonical resolveOrFail
  split
  · simp
  · split <;> simp

/-- A path that can be resolved is judged by its canonical path alone. -/
theorem checkPath_of_canonical (hraw : checkRaw raw = .ok ()) (h : t.canonical raw = .ok p) :
    t.checkPath raw policy =
      (do t.checkBlocked p policy; t.checkRoot p policy; t.checkTarget p policy) := by
  unfold checkPath
  rw [hraw, h]
  rfl

/-- **How a path is judged**: it is refused for its text, it is refused because it cannot be resolved, a loop of
links included, or its canonical path alone decides. -/
theorem checkPath_cases (t : Tree) (raw : String) (policy : PathPolicy) :
    (∃ fault, checkRaw raw = .error fault ∧ t.checkPath raw policy = .error fault.failure) ∨
    (∃ b, checkRaw raw = .ok () ∧ t.canonical raw = .error (.breach b) ∧
      t.checkPath raw policy = .error (PathFault.unresolvable raw b.message).failure) ∨
    ∃ p, checkRaw raw = .ok () ∧ t.canonical raw = .ok p ∧ t.checkPath raw policy =
      (do t.checkBlocked p policy; t.checkRoot p policy; t.checkTarget p policy) := by
  cases hraw : checkRaw raw with
  | error fault =>
      refine .inl ⟨fault, rfl, ?_⟩
      rw [checkPath, hraw]
      rfl
  | ok =>
      cases hcanonical : t.canonical raw with
      | ok p => exact .inr (.inr ⟨p, rfl, rfl, checkPath_of_canonical hraw hcanonical⟩)
      | error failure =>
          cases failure with
          | problem problem => exact absurd hcanonical canonical_ne_problem
          | breach b =>
              refine .inr (.inl ⟨b, rfl, rfl, ?_⟩)
              rw [checkPath, hraw, hcanonical]
              rfl

/-- A path passes if its text, its canonical path and what that leads to do. -/
theorem checkPath_eq_ok : t.checkPath raw policy = .ok checked ↔
    checkRaw raw = .ok () ∧ ∃ p, t.canonical raw = .ok p ∧ t.checkBlocked p policy = .ok () ∧
      t.checkRoot p policy = .ok () ∧ t.checkTarget p policy = .ok checked := by
  constructor
  · intro h
    rcases checkPath_cases t raw policy with ⟨_, -, hrefused⟩ | ⟨_, -, -, hrefused⟩ |
      ⟨p, hraw, hcanonical, hjudged⟩
    · exact absurd (h.symm.trans hrefused) nofun
    · exact absurd (h.symm.trans hrefused) nofun
    · rw [hjudged] at h
      obtain ⟨⟨⟩, hblocked, h⟩ := bind_eq_ok.mp h
      obtain ⟨⟨⟩, hroot, h⟩ := bind_eq_ok.mp h
      exact ⟨hraw, p, hcanonical, hblocked, hroot, h⟩
  · rintro ⟨hraw, p, hcanonical, hblocked, hroot, htarget⟩
    rw [checkPath_of_canonical hraw hcanonical, hblocked]
    show (do t.checkRoot p policy; t.checkTarget p policy) = _
    rw [hroot]
    exact htarget

theorem checkPath_passes (h : t.checkPath raw policy = .ok checked) : t.Passes policy checked := by
  obtain ⟨-, p, -, hblocked, hroot, htarget⟩ := checkPath_eq_ok.mp h
  obtain ⟨hsystem, htemporary⟩ := checkBlocked_sound hblocked
  obtain ⟨rfl, hpresent, hkind, hextension, hsize, hlimit⟩ := checkTarget_sound htarget
  refine ⟨hsystem, htemporary, fun base hbase => ?_, hpresent, hkind, hextension, hsize, hlimit⟩
  obtain ⟨root, parts, hresolved, hbelow⟩ := checkRoot_sound hroot hbase
  exact ⟨root, parts, (resolveBase_eq_ok.mp hresolved).2, hbelow⟩

/-! ## Checks that come to a decision -/

/-- The computation ends with a result or a refusal, not with a breach. -/
def Decides {α : Type} (x : Except Failure α) : Prop :=
  (∃ a, x = .ok a) ∨ ∃ fault : PathFault, x = .error fault.failure

theorem Decides.of_ok {α : Type} {a : α} : Decides (.ok a) := .inl ⟨a, rfl⟩

theorem Decides.refuse {α : Type} (fault : PathFault) : Decides (.error fault.failure : Except Failure α) :=
  .inr ⟨fault, rfl⟩

theorem Decides.bind {α β : Type} {x : Except Failure α} {f : α → Except Failure β} (hx : Decides x)
    (hf : ∀ a, x = .ok a → Decides (f a)) : Decides (x >>= f) := by
  rcases hx with ⟨a, rfl⟩ | ⟨fault, rfl⟩
  · exact hf a rfl
  · exact .refuse fault

theorem Decides.guard {α : Type} {c : Prop} [Decidable c] {fault : PathFault}
    {f : Unit → Except Failure α} (hf : ¬ c → Decides (f ())) :
    Decides (if c then (throw fault.failure : Except Failure Unit) >>= f else f ()) := by
  split
  · exact .refuse fault
  · next h => exact hf h

theorem Decides.unless {α : Type} {c : Prop} [Decidable c] {fault : PathFault} {a : α} :
    Decides (if c then throw fault.failure else pure a) := by
  split
  · exact .refuse fault
  · exact .of_ok

/-- The bases that the policy admits a temporary path by can be resolved. -/
def Resolvable (t : Tree) (policy : PathPolicy) : Prop :=
  ∀ base ∈ policy.allowedRoots ++ policy.root.toList, ∃ q, t.resolveBase base = .ok q

theorem admittedBy_eq_ok {bases : List Path} (h : ∀ base ∈ bases, ∃ q, t.resolveBase base = .ok q) :
    ∃ admitted, t.admittedBy p bases = .ok admitted := by
  induction bases with
  | nil => exact ⟨false, rfl⟩
  | cons base rest ih =>
      obtain ⟨⟨q, hq⟩, hrest⟩ := List.forall_mem_cons.mp h
      rw [admittedBy, hq]
      show ∃ admitted, (if p.isWithin q then pure true else t.admittedBy p rest) = .ok admitted
      split
      · exact ⟨true, rfl⟩
      · exact ih hrest

theorem checkBlocked_decides (h : t.Resolvable policy) : Decides (t.checkBlocked p policy) := by
  unfold checkBlocked
  refine .guard fun _ => ?_
  obtain ⟨admitted, hadmitted⟩ := admittedBy_eq_ok (p := p) h
  rw [hadmitted]
  split
  · cases admitted with
    | true => exact .of_ok
    | false => exact .refuse _
  · exact .of_ok

theorem checkRoot_decides (h : t.Resolvable policy) : Decides (t.checkRoot p policy) := by
  unfold checkRoot
  cases hroot : policy.root with
  | none => exact .of_ok
  | some base =>
      obtain ⟨q, hq⟩ := h base (by rw [hroot]; simp)
      dsimp only
      rw [hq]
      refine .bind .of_ok fun root _ => ?_
      split
      · exact .refuse _
      · split
        · exact .refuse _
        · exact .of_ok

theorem checkKind_decides (h : ∃ present, t.exists? p = .ok present) :
    Decides (t.checkKind p policy) := by
  obtain ⟨present, hpresent⟩ := h
  unfold checkKind
  rw [looked_eq_ok.mpr hpresent]
  exact .bind .of_ok fun present _ => .guard fun _ => .guard fun _ => .guard fun _ => .unless

/-- There is no limit, or one that can be written out. -/
def IsWritableLimit (most : Option Int) : Prop := ∀ limit, most = some limit → Decimal.isWritable limit = true

theorem checkSize_decides {name : String} {size : Nat} {most : Option Int} (h : IsWritableLimit most) :
    Decides (checkSize name size most) := by
  cases most with
  | none => exact .of_ok
  | some limit =>
      rw [checkSize, if_pos (h limit rfl)]
      split
      · exact .of_ok
      · exact .refuse _

theorem checkTarget_decides (hlimit : IsWritableLimit policy.maxFileBytes)
    (h : ∃ present, t.exists? p = .ok present) : Decides (t.checkTarget p policy) :=
  .bind (checkKind_decides h) fun _ _ => .bind (checkSize_decides hlimit) fun _ _ => .of_ok

/-- **A check comes to a decision** if the roots of the policy can be resolved, its limit can be written out, and
the canonical path can be looked at. -/
theorem checkPath_decides (hroots : t.Resolvable policy) (hlimit : IsWritableLimit policy.maxFileBytes)
    (hlook : ∀ p, t.canonical raw = .ok p → ∃ present, t.exists? p = .ok present) :
    Decides (t.checkPath raw policy) := by
  rcases checkPath_cases t raw policy with ⟨fault, -, hrefused⟩ | ⟨b, -, -, hrefused⟩ |
    ⟨p, -, hcanonical, hjudged⟩
  · rw [hrefused]
    exact .refuse fault
  · rw [hrefused]
    exact .refuse _
  · rw [hjudged]
    refine .bind (checkBlocked_decides hroots) fun _ _ => .bind (checkRoot_decides hroots) fun _ _ => ?_
    exact checkTarget_decides hlimit (hlook p hcanonical)

/-! ## The canonical path -/

theorem canonical_eq_ok {q : Path} (h : t.canonical raw = .ok q) :
    ∃ p, t.expandHome (Path.ofString raw) = some p ∧ t.resolve p = .ok q := by
  unfold canonical at h
  split at h
  · simp at h
  · next p hp => exact ⟨p, hp, resolveOrFail_eq_ok.mp h⟩

/-- A component that the text of a path can hold: there is neither a slash nor a NUL in it. -/
def IsComponent (c : String) : Prop := '/' ∉ c.toList ∧ '\x00' ∉ c.toList

theorem isComponent_of_mem_splitOn {s c : String} (h : '\x00' ∉ s.toList) (hc : c ∈ Text.splitOn '/' s) :
    IsComponent c :=
  ⟨Text.not_mem_of_mem_splitOn hc, fun hnul => h (Text.mem_of_mem_splitOn hc hnul)⟩

theorem isComponent_of_mem_ofString {s c : String} (h : '\x00' ∉ s.toList)
    (hc : c ∈ (Path.ofString s).parts) : IsComponent c :=
  isComponent_of_mem_splitOn h (Path.mem_splitOn_of_mem_ofString hc)

/-- A home directory brings in nothing that cannot be written. -/
theorem isComponent_of_expandHome (hsound : t.IsSound) (hraw : '\x00' ∉ raw.toList)
    (h : t.expandHome (Path.ofString raw) = some p) : ∀ c ∈ p.parts, IsComponent c := by
  have hown : ∀ c ∈ (Path.ofString raw).parts, IsComponent c :=
    fun c hc => isComponent_of_mem_ofString hraw hc
  have hhome {home : String} {rest : List String} (hhome : '\x00' ∉ home.toList)
      (hrest : ∀ c ∈ rest, IsComponent c) :
      ∀ c ∈ (Path.ofString home / ⟨.here, rest⟩).parts, IsComponent c := by
    intro c hc
    rcases List.mem_append.mp (show c ∈ (Path.ofString home).parts ++ rest from hc) with hc | hc
    · exact isComponent_of_mem_ofString hhome hc
    · exact hrest c hc
  unfold expandHome at h
  split at h
  · next first rest _ hparts =>
    rw [hparts] at hown
    have hrest := (List.forall_mem_cons.mp hown).2
    split at h
    · obtain rfl := Option.some.inj h
      exact hhome hsound.home hrest
    · next user _ _ =>
      split at h
      · next directory hlookup =>
        obtain rfl := Option.some.inj h
        obtain ⟨l₁, l₂, hhomes, -⟩ := List.lookup_eq_some_iff.mp hlookup
        exact hhome (hsound.homes (String.ofList user, directory) (by rw [hhomes]; simp)) hrest
      · simp at h
    · obtain rfl := Option.some.inj h
      rw [hparts]
      exact hown
  · obtain rfl := Option.some.inj h
    exact hown

theorem isComponent_of_isEntryName {c : String} (h : isEntryName c = true) : IsComponent c := by
  obtain ⟨-, -, -, hslash, hnul, -⟩ := isEntryName_iff.mp h
  exact ⟨hslash, hnul⟩

/-- The targets of links are made of components that can be written. -/
theorem IsSound.forallTargets (hsound : t.IsSound) : t.ForallTargets IsComponent := by
  intro q target htarget c hc
  have hlink := (Node.isSound_of_at? hsound.top (target?_eq_some.mp htarget)).1
  exact isComponent_of_mem_splitOn (by simpa [Node.isSound] using hlink) hc

theorem IsSound.isComponent_startOf (hsound : t.IsSound) (p : Path) :
    ∀ c ∈ t.startOf p, IsComponent c := by
  unfold startOf
  split
  · simp
  · obtain ⟨entries, hentries⟩ := hsound.workingDirectory_directory
    exact fun c hc => isComponent_of_isEntryName ((Node.isSound_of_at? hsound.top hentries).2 c hc)

/-- The components of the place where a path ends can be written. -/
theorem Follows.isComponent (hsound : t.IsSound) {n : Nat} {place : Place}
    (h : t.Follows n (t.startOf p) p.parts place) (hparts : ∀ c ∈ p.parts, IsComponent c) :
    ∀ c ∈ place, IsComponent c :=
  h.forall_mem (fun q target htarget c hc _ => hsound.forallTargets q target htarget c hc)
    (hsound.isComponent_startOf p) fun c hc _ => hparts c hc

theorem isComponent_of_stat (hsound : t.IsSound) {n : Node} (h : t.stat p = .ok n) :
    ∀ c ∈ p.parts, IsComponent c := by
  intro c hc
  rcases steps_of_stat hsound h c hc with hdots | hname
  · have hplain : ∀ c ∈ ["", ".", ".."], '/' ∉ c.toList ∧ '\x00' ∉ c.toList := by decide
    exact hplain c hdots
  · exact isComponent_of_isEntryName hname

theorem nul_not_mem_toString {p : Path} (habs : p.isAbsolute = true) (h : ∀ c ∈ p.parts, IsComponent c) :
    '\x00' ∉ p.toString.toList := by
  intro hnul
  rcases Path.mem_toString habs hnul with hslash | ⟨c, hc, hmem⟩
  · exact absurd hslash (by decide)
  · exact (h c hc).2 hmem

theorem IsReal.ofString_toString {place : Place} (h : t.IsReal place) (hplace : ∀ c ∈ place, IsComponent c) :
    Path.ofString (Path.rooted place).toString = Path.rooted place :=
  Path.ofString_toString rfl (fun c hc => (hplace c hc).1)
    fun c hc => ⟨(h.names c hc).1, (h.names c hc).2.1⟩

/-- A real place that can be written is its own resolution as a base, too. -/
theorem resolveBase_of_isReal (hsound : t.IsSound) {place : Place} (hreal : t.IsReal place)
    (hplace : ∀ c ∈ place, IsComponent c) :
    t.resolveBase (Path.rooted place) = .ok (Path.rooted place) :=
  resolveBase_eq_ok.mpr ⟨fun c hc => (hplace c hc).2, resolve_of_isReal hsound hreal⟩

/-- **A real place passes again.** The text of a canonical path that is real is checked as the path
itself. -/
theorem checkPath_rooted (hsound : t.IsSound) {place : Place} (hreal : t.IsReal place)
    (hplace : ∀ c ∈ place, IsComponent c)
    (hlength : (Path.rooted place).toString.length ≤ maxPathLength) :
    t.checkPath (Path.rooted place).toString policy =
      (do
        t.checkBlocked (Path.rooted place) policy
        t.checkRoot (Path.rooted place) policy
        t.checkTarget (Path.rooted place) policy) := by
  have hpath := hreal.ofString_toString hplace
  have hraw : checkRaw (Path.rooted place).toString = .ok () :=
    checkRaw_eq_ok.mpr ⟨nul_not_mem_toString rfl hplace, hlength, by rw [hpath]; exact hreal.dots⟩
  have hcanonical : t.canonical (Path.rooted place).toString = .ok (Path.rooted place) := by
    unfold canonical
    rw [hpath]
    exact resolveOrFail_eq_ok.mpr (resolve_of_isReal hsound hreal)
  exact checkPath_of_canonical hraw hcanonical

/-- A canonical path that passed starts at the plain root, and then its place lies in no directory of the system;
or it starts at the double root, which none of these directories has, and which the root of the policy has if
there is one. -/
theorem Passes.anchored (h : t.Passes policy checked) (habs : checked.canonical.isAbsolute = true) :
    checked.canonical.anchor = .root ∧ (∀ d ∈ systemDirectories, ¬ d.parts <+: checked.canonical.parts) ∨
      checked.canonical.anchor = .doubleRoot ∧ ∀ base root, policy.root = some base →
        t.resolve base = .ok root → root.anchor = .doubleRoot := by
  cases hanchor : checked.canonical.anchor with
  | here => simp [Path.isAbsolute, hanchor] at habs
  | root =>
      refine .inl ⟨rfl, fun d hd hbelow => ?_⟩
      have hplain : ∀ d ∈ systemDirectories, d.anchor = .root := by decide +kernel
      have hwithin := Path.isWithin_iff.mpr ⟨hanchor.trans (hplain d hd).symm, hbelow⟩
      rw [h.system d hd] at hwithin
      simp at hwithin
  | doubleRoot =>
      refine .inr ⟨rfl, fun base root hbase hroot => ?_⟩
      obtain ⟨own, parts, hown, hsame, -⟩ := h.root base hbase
      obtain rfl := Except.ok.inj (hroot.symm.trans hown)
      rw [← hsame, hanchor]

/-- A path that passed and can be followed to its end passed as the place where it ends. No link stands on the way
to that, what it leads to is what stands there, and it passes again by its own text. -/
theorem checkPath_of_follows (hsound : t.IsSound) (h : t.checkPath raw policy = .ok checked) {q : Path} {n : Nat}
    {place : Place} (hq : t.expandHome (Path.ofString raw) = some q)
    (hfollows : t.Follows n (t.startOf q) q.parts place) :
    checked.canonical = Path.rooted place ∧ t.LinkFree place ∧
      (∀ node, t.stat checked.canonical = .ok node → t.top.at? place = some node) ∧
      (checked.canonical.toString.length ≤ maxPathLength →
        t.checkPath checked.canonical.toString policy = .ok checked) := by
  obtain ⟨hraw, c, hcanonical, hblocked, hroot, htarget⟩ := checkPath_eq_ok.mp h
  obtain ⟨p, hp, hresolve⟩ := canonical_eq_ok hcanonical
  obtain rfl := Option.some.inj (hp.symm.trans hq)
  obtain rfl : Path.rooted place = c := by
    rw [resolve_of_follows hsound hfollows] at hresolve
    exact Except.ok.inj hresolve
  have hc : checked.canonical = Path.rooted place := (checkTarget_sound htarget).1
  have hreal := hfollows.isReal hsound (hsound.isReal_startOf p)
  have hplace := hfollows.isComponent hsound
    (isComponent_of_expandHome hsound (checkRaw_eq_ok.mp hraw).1 hp)
  refine ⟨hc, hreal.linkFree, ?_, ?_⟩
  · intro node hnode
    rw [hc] at hnode
    exact ((stat_rooted hsound hreal.names hreal.linkFree).mp hnode).2
  · intro hlength
    rw [hc] at hlength ⊢
    rw [checkPath_rooted hsound hreal hplace hlength, hblocked]
    show (do t.checkRoot (Path.rooted place) policy; t.checkTarget (Path.rooted place) policy) = _
    rw [hroot]
    exact htarget

/-- **What is known of a path that passed.** Its text and its canonical path obey every rule of the
policy, where a canonical path at the double root is in no directory of the system by its components, wherever
it leads. If the path can be followed to its end, that is the canonical path, it starts at the plain root, no
link stands on the way to it, what it leads to is what stands there, and it passes the same checks again. -/
theorem checkPath_sound (hsound : t.IsSound) (h : t.checkPath raw policy = .ok checked) :
    ('\x00' ∉ raw.toList ∧ raw.length ≤ maxPathLength ∧ ".." ∉ (Path.ofString raw).parts) ∧
      t.canonical raw = .ok checked.canonical ∧ checked.canonical.isAbsolute = true ∧
      t.Passes policy checked ∧
      (checked.canonical.anchor = .root ∧ (∀ d ∈ systemDirectories, ¬ d.parts <+: checked.canonical.parts) ∨
        checked.canonical.anchor = .doubleRoot ∧ ∀ base root, policy.root = some base →
          t.resolve base = .ok root → root.anchor = .doubleRoot) ∧
      ∀ p n place, t.expandHome (Path.ofString raw) = some p →
        t.Follows n (t.startOf p) p.parts place →
          checked.canonical = Path.rooted place ∧ t.LinkFree place ∧
          (∀ node, t.stat checked.canonical = .ok node → t.top.at? place = some node) ∧
          (checked.canonical.toString.length ≤ maxPathLength →
            t.checkPath checked.canonical.toString policy = .ok checked) := by
  obtain ⟨hraw, c, hcanonical, -, -, htarget⟩ := checkPath_eq_ok.mp h
  obtain ⟨q, -, hresolve⟩ := canonical_eq_ok hcanonical
  obtain rfl : checked.canonical = c := (checkTarget_sound htarget).1
  have habs : checked.canonical.isAbsolute = true := t.isAbsolute_of_resolve hresolve
  have hpasses := checkPath_passes h
  refine ⟨checkRaw_eq_ok.mp hraw, hcanonical, habs, hpasses, hpasses.anchored habs, ?_⟩
  intro p n place hp hfollows
  exact checkPath_of_follows hsound h hp hfollows

/-- A project with these entries, beside a directory that is not its own. -/
def besideOutside (entries : List (String × Node)) : Tree where
  top := .directory [("outside", .directory [("secret.c", .file (.text "x") false)]),
    ("project", .directory entries)]
  workingDirectory := ["project"]
  home := "/outside"
  homes := []
  temporary := "/tmp"

/-- The policy of a project that has only its root to keep to. -/
def projectPolicy : PathPolicy := { root := some (Path.ofString "/project") }

/-- A link to a file of the project passes as that file. -/
theorem checkPath_sound_alias :
    let t := besideOutside [("alias.c", .link "main.c"), ("main.c", .file (.text "x") false)]
    let main := Path.rooted ["project", "main.c"]
    t.checkPath "/project/alias.c" projectPolicy = .ok ⟨main, 1⟩ ∧ t.LinkFree ["project", "main.c"] ∧
      t.checkPath main.toString projectPolicy = .ok ⟨main, 1⟩ := by
  intro t main
  have hsound : t.IsSound := ⟨by decide, by decide, by decide, by decide⟩
  have hcheck : t.checkPath "/project/alias.c" projectPolicy = .ok ⟨main, 1⟩ := by decide +kernel
  have hparts : (Path.ofString "/project/alias.c").parts = ["project", "alias.c"] := by decide +kernel
  have htarget : Text.splitOn '/' "main.c" = ["main.c"] := by decide +kernel
  have halias : t.target? (["project"] ++ ["alias.c"]) = some "main.c" := by decide +kernel
  have hmain : t.Follows 0 ["project"] (Text.splitOn '/' "main.c") ["project", "main.c"] := by
    rw [htarget]
    exact .down (by decide) (by decide +kernel) .done
  have hfollows : t.Follows 1 [] (Path.ofString "/project/alias.c").parts ["project", "main.c"] := by
    rw [hparts]
    exact .down (by decide) (by decide +kernel)
      (.link (by decide) (by decide +kernel) halias hmain .done)
  obtain ⟨-, -, -, -, -, h⟩ := checkPath_sound hsound hcheck
  obtain ⟨-, hfree, -, hagain⟩ := h (Path.ofString "/project/alias.c") 1 _ (by decide +kernel) hfollows
  exact ⟨hcheck, hfree, hagain (by decide +kernel)⟩

/-- **A loop leads out of the root.** The walk gives up at a link that is met again and keeps the rest of
its target as written, so the path that passes leads through another link to a file outside the root. The
same path is refused when it is checked again. -/
theorem checkPath_through_loop :
    let t := besideOutside
      [("dir", .link "/outside"), ("loop.c", .link "loop.c//project/dir/secret.c")]
    let escaped := Path.rooted ["project", "dir", "secret.c"]
    t.IsSound ∧ t.checkPath "/project/loop.c" projectPolicy = .ok ⟨escaped, 1⟩ ∧
      t.target? ["project", "dir"] = some "/outside" ∧
      t.find true escaped = .ok ["outside", "secret.c"] ∧
      t.checkPath escaped.toString projectPolicy =
        .error (PathFault.outsideRoot (Path.rooted ["outside", "secret.c"])
          (Path.rooted ["project"])).failure := by
  intro t escaped
  exact ⟨⟨by decide, by decide, by decide, by decide⟩, by decide +kernel, by decide +kernel,
    by decide +kernel, by decide +kernel⟩

/-- **A loop leads past the directories of the system.** Where the rest of its target begins with two slashes, the
path that passes starts at the double root, which none of these directories starts at. It leads to the same
file as the path that is refused. -/
theorem checkPath_at_double_root :
    let t := { besideOutside [] with
      top := .directory [("etc", .directory [("passwd", .file (.text "x") false)]),
        ("loop.c", .link "loop.c///etc/passwd")] }
    let passwd := ["etc", "passwd"]
    t.checkPath "/loop.c" {} = .ok ⟨⟨.doubleRoot, passwd⟩, 1⟩ ∧
      t.find true ⟨.doubleRoot, passwd⟩ = .ok passwd ∧
      t.checkPath "/etc/passwd" {} = .error (PathFault.systemDirectory (Path.rooted passwd)).failure := by
  intro t passwd
  exact ⟨by decide +kernel, by decide +kernel, by decide +kernel⟩

end Tree

end Assay.Files
