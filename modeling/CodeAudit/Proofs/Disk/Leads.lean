import CodeAudit.Disk.Basic
import Mathlib.Data.List.Basic

/-!
# Where a path leads

Resolution counts the links it follows so that it ends.  What it computes is said here without that
count, as a relation (`Disk.Leads`): from a directory, steps lead through so many links to a row of
names.  The two agree (`followLinks_eq_ok_iff`, `resolve_eq_ok_iff`), and the relation has what a
search with a bound has not: **a way can be cut in two, and two ways can be joined**
(`Leads.split`, `Leads.append`), the links of the parts adding up.

Names through which no link leads, lead to themselves (`leads_names`), so what a path leads to is a path
that leads to itself (`resolve_ofNames`).
-/

namespace CodeAudit

/-! ## 1. Rows of names -/

namespace FileTree

theorem at?_append (t : FileTree) (xs ys : List String) :
    t.at? (xs ++ ys) = (t.at? xs).bind (·.at? ys) := by
  induction xs generalizing t with
  | nil => rfl
  | cons x xs ih =>
    simp only [List.cons_append, at?]
    cases t.lookup? x with
    | none => rfl
    | some child => exact ih child

theorem at?_concat (t : FileTree) (names : List String) (name : String) :
    t.at? (names ++ [name]) = (t.at? names).bind (·.lookup? name) := by
  rw [at?_append]
  cases t.at? names with
  | none => rfl
  | some u =>
    show (u.lookup? name).bind (fun child => some child) = u.lookup? name
    cases u.lookup? name <;> rfl

/-- What holds entries is a directory. -/
theorem exists_directory_of_at?_append {t u : FileTree} {names : List String} {name : String}
    {rest : List String} (h : t.at? (names ++ name :: rest) = some u) :
    ∃ entries, t.at? names = some (.directory entries) := by
  rw [at?_append] at h
  obtain ⟨v, hv, hrest⟩ := Option.bind_eq_some_iff.mp h
  cases v with
  | file bytes => cases hrest
  | link target => cases hrest
  | directory entries => exact ⟨entries, hv⟩

end FileTree

namespace Disk

variable {d : Disk}

/-- There is a directory at the end of a row of names. -/
def IsDirectory (d : Disk) (names : List String) : Prop :=
  ∃ entries, d.top.at? names = some (.directory entries)

/-- There is a file at the end of a row of names. -/
def HoldsFile (d : Disk) (names : List String) : Prop :=
  ∃ bytes, d.top.at? names = some (.file bytes)

theorem IsDirectory.not_holdsFile {names : List String} (h : d.IsDirectory names) :
    ¬ d.HoldsFile names := by
  rintro ⟨bytes, hfile⟩
  obtain ⟨entries, hdirectory⟩ := h
  rw [hfile] at hdirectory
  cases hdirectory

/-- A directory stands in directories. -/
theorem IsDirectory.dropLast {names : List String} (h : d.IsDirectory names) :
    d.IsDirectory names.dropLast := by
  rcases List.eq_nil_or_concat' names with rfl | ⟨init, last, rfl⟩
  · exact h
  · obtain ⟨entries, hat⟩ := h
    rw [List.dropLast_concat]
    exact FileTree.exists_directory_of_at?_append hat

/-- If there is any directory, the top is one. -/
theorem IsDirectory.top {names : List String} (h : d.IsDirectory names) : d.IsDirectory [] := by
  cases names with
  | nil => exact h
  | cons name names =>
    obtain ⟨entries, hat⟩ := h
    exact @FileTree.exists_directory_of_at?_append _ _ [] _ _ hat

/-! ## 2. The relation -/

/-- From a directory, steps lead through `n` links to a row of names. -/
inductive Leads (d : Disk) : Nat → List String → List Step → List String → Prop
  | arrived (here : List String) : d.Leads 0 here [] here
  | up {n : Nat} {here names : List String} {rest : List Step} :
    d.Leads n here.dropLast rest names → d.Leads n here (.up :: rest) names
  | directory {n : Nat} {here names : List String} {name : String} {rest : List Step} :
    d.IsDirectory (here ++ [name]) → d.Leads n (here ++ [name]) rest names →
    d.Leads n here (.into name :: rest) names
  | file {here : List String} {name : String} :
    d.HoldsFile (here ++ [name]) → d.Leads 0 here [.into name] (here ++ [name])
  | link {n : Nat} {here names : List String} {name : String} {rest : List Step} {target : Path} :
    d.top.at? (here ++ [name]) = some (.link target) →
    d.Leads n (if target.absolute then [] else here) (target.steps ++ rest) names →
    d.Leads (n + 1) here (.into name :: rest) names

/-- The directory that a path starts from. -/
def startOf (d : Disk) (p : Path) : List String := if p.absolute then [] else d.workingDirectory

section Equations

variable (n : Nat) (here : List String) (name : String) (rest : List Step)

theorem followLinks_nil : d.followLinks n here.reverse [] = .ok here := by
  cases n <;> simp [followLinks, follow]

theorem followLinks_up :
    d.followLinks n here.reverse (.up :: rest) = d.followLinks n here.dropLast.reverse rest := by
  rw [← List.tail_reverse]
  cases n <;> rfl

/-- One step into an entry, whatever links may still be followed. -/
theorem followLinks_into : d.followLinks n here.reverse (.into name :: rest) =
    match d.top.at? (here ++ [name]) with
    | none => .error .notFound
    | some (.link target) =>
      match n with
      | 0 => .error .tooManyLinks
      | n + 1 => d.followLinks n (if target.absolute then [] else here).reverse (target.steps ++ rest)
    | some (.directory _) => d.followLinks n (here ++ [name]).reverse rest
    | some (.file _) => if rest.isEmpty then .ok (here ++ [name]) else .error .notDirectory := by
  have hlookup : (d.top.at? here.reverse.reverse).bind (·.lookup? name) = d.top.at? (here ++ [name]) := by
    rw [List.reverse_reverse, FileTree.at?_concat]
  have hreverse : (here ++ [name]).reverse = name :: here.reverse := by simp
  have hback : (name :: here.reverse).reverse = here ++ [name] := by simp
  cases hat : d.top.at? (here ++ [name]) with
  | none => cases n <;> simp only [followLinks, follow, hlookup, hat]
  | some t =>
    rw [hat] at hlookup
    cases t with
    | link target => cases n <;> simp only [followLinks, follow, hlookup, apply_ite List.reverse, List.reverse_nil]
    | _ => cases n <;> simp only [followLinks, follow, hlookup, hreverse, hback]

end Equations

/-- The steps up to the first link; after it, fewer links are left. -/
theorem exists_leads_of_fewer {n : Nat}
    (hfewer : ∀ k, n = k + 1 → ∀ here names steps, d.followLinks k here.reverse steps = .ok names →
      ∃ m ≤ k, d.Leads m here steps names)
    {here names : List String} {steps : List Step}
    (h : d.followLinks n here.reverse steps = .ok names) : ∃ m ≤ n, d.Leads m here steps names := by
  induction steps generalizing here with
  | nil =>
    rw [followLinks_nil] at h
    obtain rfl := Except.ok.inj h
    exact ⟨0, Nat.zero_le n, .arrived here⟩
  | cons s rest ih =>
    cases s with
    | up =>
      rw [followLinks_up] at h
      obtain ⟨m, hm, hleads⟩ := ih h
      exact ⟨m, hm, .up hleads⟩
    | into name =>
      rw [followLinks_into] at h
      split at h
      · cases h
      · next target hat =>
        cases n with
        | zero => cases h
        | succ n =>
          obtain ⟨m, hm, hleads⟩ := hfewer n rfl _ _ _ h
          exact ⟨m + 1, Nat.succ_le_succ hm, .link hat hleads⟩
      · next entries hat =>
        obtain ⟨m, hm, hleads⟩ := ih h
        exact ⟨m, hm, .directory ⟨entries, hat⟩ hleads⟩
      · next bytes hat =>
        split at h
        · next hempty =>
          obtain rfl := Except.ok.inj h
          obtain rfl := List.isEmpty_iff.mp hempty
          exact ⟨0, Nat.zero_le n, .file ⟨bytes, hat⟩⟩
        · cases h

theorem exists_leads_of_followLinks {n : Nat} {here names : List String} {steps : List Step}
    (h : d.followLinks n here.reverse steps = .ok names) : ∃ m ≤ n, d.Leads m here steps names := by
  induction n generalizing here names steps with
  | zero => exact exists_leads_of_fewer (fun k hk => absurd hk (Nat.succ_ne_zero k).symm) h
  | succ n ih =>
    refine exists_leads_of_fewer ?_ h
    rintro k hk here names steps hfollow
    obtain rfl := Nat.succ.inj hk
    exact ih hfollow

theorem Leads.followLinks {m n : Nat} {here names : List String} {steps : List Step}
    (h : d.Leads m here steps names) (hmn : m ≤ n) :
    d.followLinks n here.reverse steps = .ok names := by
  induction h generalizing n with
  | arrived here => exact followLinks_nil n here
  | up _ ih =>
    rw [followLinks_up]
    exact ih hmn
  | directory hdirectory _ ih =>
    obtain ⟨entries, hat⟩ := hdirectory
    rw [followLinks_into, hat]
    exact ih hmn
  | file hfile =>
    obtain ⟨bytes, hat⟩ := hfile
    rw [followLinks_into, hat]
    rfl
  | link hat _ ih =>
    obtain ⟨k, rfl⟩ : ∃ k, n = k + 1 := ⟨n - 1, by omega⟩
    rw [followLinks_into, hat]
    exact ih (Nat.le_of_succ_le_succ hmn)

/-- **Following steps with a bound on the links finds the ways that keep to it.** -/
theorem followLinks_eq_ok_iff {n : Nat} {here names : List String} {steps : List Step} :
    d.followLinks n here.reverse steps = .ok names ↔ ∃ m ≤ n, d.Leads m here steps names :=
  ⟨exists_leads_of_followLinks, fun ⟨_, hm, h⟩ => h.followLinks hm⟩

/-- **A path leads where its steps lead**, except that one which ends like a directory does not
lead to a file. -/
theorem resolve_eq_ok_iff {p : Path} {names : List String} :
    d.resolve p = .ok names ↔
      (∃ m ≤ maxLinks, d.Leads m (d.startOf p) p.steps names) ∧
        (p.folder = true → ¬ d.HoldsFile names) := by
  have hstart : (if p.absolute then [] else d.workingDirectory.reverse) = (d.startOf p).reverse := by
    unfold startOf
    split <;> rfl
  rw [← followLinks_eq_ok_iff, resolve, hstart]
  cases d.followLinks maxLinks (d.startOf p).reverse p.steps with
  | error cause => simp [Except.bind]
  | ok found =>
    simp only [Except.bind]
    split
    · next bytes hat =>
      cases p.folder with
      | true =>
        simp only [if_true, reduceCtorEq, Except.ok.injEq, forall_const, false_iff, not_and, not_not]
        rintro rfl
        exact ⟨bytes, hat⟩
      | false => simp
    · next hno =>
      refine ⟨fun h => ⟨h, fun _ hfile => ?_⟩, fun h => h.1⟩
      obtain rfl := Except.ok.inj h
      obtain ⟨bytes, hat⟩ := hfile
      exact hno bytes hat

/-! ## 3. Cutting and joining ways -/

/-- **A way can be cut after any of its steps**; where it goes on, there is a directory. -/
theorem Leads.split {n : Nat} {here names : List String} {xs ys : List Step}
    (h : d.Leads n here (xs ++ ys) names) :
    ∃ i j mid, n = i + j ∧ d.Leads i here xs mid ∧ d.Leads j mid ys names ∧
      (ys ≠ [] → d.IsDirectory here → d.IsDirectory mid) := by
  generalize hsteps : xs ++ ys = steps at h
  induction h generalizing xs with
  | arrived here =>
    obtain ⟨rfl, rfl⟩ := List.append_eq_nil_iff.mp hsteps
    exact ⟨0, 0, here, rfl, .arrived here, .arrived here, fun _ hhere => hhere⟩
  | @up n here names rest hleads ih =>
    cases xs with
    | nil =>
      obtain rfl : ys = .up :: rest := hsteps
      exact ⟨0, n, here, (Nat.zero_add n).symm, .arrived here, .up hleads, fun _ hhere => hhere⟩
    | cons x xs =>
      obtain ⟨rfl, rfl⟩ := List.cons.inj hsteps
      obtain ⟨i, j, mid, hn, hxs, hys, hmid⟩ := ih rfl
      exact ⟨i, j, mid, hn, .up hxs, hys, fun hne hhere => hmid hne hhere.dropLast⟩
  | @directory n here names name rest hdirectory hleads ih =>
    cases xs with
    | nil =>
      obtain rfl : ys = .into name :: rest := hsteps
      exact ⟨0, n, here, (Nat.zero_add n).symm, .arrived here, .directory hdirectory hleads,
        fun _ hhere => hhere⟩
    | cons x xs =>
      obtain ⟨rfl, rfl⟩ := List.cons.inj hsteps
      obtain ⟨i, j, mid, hn, hxs, hys, hmid⟩ := ih rfl
      exact ⟨i, j, mid, hn, .directory hdirectory hxs, hys, fun hne _ => hmid hne hdirectory⟩
  | @file here name hfile =>
    cases xs with
    | nil =>
      obtain rfl : ys = [.into name] := hsteps
      exact ⟨0, 0, here, rfl, .arrived here, .file hfile, fun _ hhere => hhere⟩
    | cons x xs =>
      obtain ⟨rfl, hrest⟩ := List.cons.inj hsteps
      obtain ⟨rfl, rfl⟩ := List.append_eq_nil_iff.mp hrest
      exact ⟨0, 0, here ++ [name], rfl, .file hfile, .arrived _, fun hne => absurd rfl hne⟩
  | @link n here names name rest target hat hleads ih =>
    cases xs with
    | nil =>
      obtain rfl : ys = .into name :: rest := hsteps
      exact ⟨0, n + 1, here, (Nat.zero_add _).symm, .arrived here, .link hat hleads,
        fun _ hhere => hhere⟩
    | cons x xs =>
      obtain ⟨rfl, rfl⟩ := List.cons.inj hsteps
      obtain ⟨i, j, mid, hn, hxs, hys, hmid⟩ := ih (List.append_assoc ..)
      refine ⟨i + 1, j, mid, by omega, .link hat hxs, hys, fun hne hhere => hmid hne ?_⟩
      split
      · exact hhere.top
      · exact hhere

/-- **A way can be gone on with**, unless it has come to a file. -/
theorem Leads.append {i j : Nat} {here mid names : List String} {xs ys : List Step}
    (hxs : d.Leads i here xs mid) (hys : d.Leads j mid ys names)
    (hmid : ys = [] ∨ ¬ d.HoldsFile mid) : d.Leads (i + j) here (xs ++ ys) names := by
  induction hxs with
  | arrived here =>
    rw [Nat.zero_add]
    exact hys
  | up _ ih => exact .up (ih hys hmid)
  | directory hdirectory _ ih => exact .directory hdirectory (ih hys hmid)
  | file hfile =>
    rcases hmid with rfl | hmid
    · cases hys
      exact .file hfile
    · exact absurd hfile hmid
  | link hat _ ih =>
    have hrest := ih hys hmid
    rw [List.append_assoc] at hrest
    rw [Nat.add_right_comm]
    exact .link hat hrest

/-! ## 4. Ways by names -/

/-- A way goes on by a name only in a directory. -/
theorem Leads.isDirectory_of_into {n : Nat} {here names : List String} {name : String}
    {rest : List Step} (h : d.Leads n here (.into name :: rest) names) : d.IsDirectory here := by
  cases h with
  | directory hnext _ =>
    obtain ⟨entries, hat⟩ := hnext
    exact FileTree.exists_directory_of_at?_append hat
  | file hnext =>
    obtain ⟨bytes, hat⟩ := hnext
    exact FileTree.exists_directory_of_at?_append hat
  | link hnext _ => exact FileTree.exists_directory_of_at?_append hnext

/-- Names without a link on the way lead to themselves. -/
theorem leads_names {here names : List String}
    (h : d.IsDirectory (here ++ names) ∨ d.HoldsFile (here ++ names)) :
    d.Leads 0 here (names.map .into) (here ++ names) := by
  induction names generalizing here with
  | nil =>
    rw [List.append_nil]
    exact .arrived here
  | cons name names ih =>
    have hassoc : here ++ name :: names = (here ++ [name]) ++ names := by simp
    rw [hassoc] at h ⊢
    cases names with
    | nil =>
      rw [List.append_nil] at h ⊢
      rcases h with hdirectory | hfile
      · exact .directory hdirectory (.arrived _)
      · exact .file hfile
    | cons next names =>
      have hdirectory : d.IsDirectory (here ++ [name]) := by
        rcases h with ⟨entries, hat⟩ | ⟨bytes, hat⟩ <;>
          exact FileTree.exists_directory_of_at?_append hat
      exact .directory hdirectory (ih h)

/-- **A row of names that ends at a directory or a file is a path to it.** -/
theorem resolve_ofNames {names : List String} (h : d.IsDirectory names ∨ d.HoldsFile names) :
    d.resolve (.ofNames names) = .ok names := by
  have hleads : d.Leads 0 [] (names.map .into) names := leads_names h
  exact resolve_eq_ok_iff.mpr ⟨⟨0, Nat.zero_le _, hleads⟩, fun hfolder => nomatch hfolder⟩

end Disk

end CodeAudit
