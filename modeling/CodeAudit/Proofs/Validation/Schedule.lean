import CodeAudit.Validation.Batch
import Mathlib.Data.List.Forall2
import Mathlib.Logic.Relation

/-!
# How a batch of checks can go

Checks run side by side, at most so many at once, and the batch is cut off at its deadline.  A batch
under way is a state of three parts: the jobs that wait, the jobs at work, and the outcomes in the
order in which they came back.  Two things can happen to it (`Batch.Step`): a job is started where
there is room, or *any* job at work comes back.  It can be cut off after any number of steps, or not
be started at all (`Batch.Ends`).

* `Step.accounts` and `Ends.picked`: **no job is lost or doubled on the way**, so the outcomes of a
  batch are those of some of its jobs, each once, in some order.
* `ends_of_picked`: with room for all jobs, *every* choice and *every* order of them can happen.
* `ends_in_turn`: one job after the other is one way for a batch to go, whatever the room.

What a check may answer is left open (`Batch.Answers`), so nothing here depends on the project, on
what is cached, or on what other workers do in the meantime.
-/

namespace CodeAudit

/-- A batch under way. -/
structure Batch where
  waiting : List Job
  running : List Job
  done : List Outcome

/-- The outcomes that were in time. -/
def BatchResult.outcomes : BatchResult → List Outcome
  | .ran outcomes => outcomes
  | .notStarted => []

namespace Batch

/-- What the check of a job may come to. -/
abbrev Answers := Job → Except CheckError Evidence → Prop

/-- One step of a batch with room for `limit` jobs at a time. -/
inductive Step (limit : Nat) (answers : Answers) : Batch → Batch → Prop
  | start (job : Job) (waiting running : List Job) (done : List Outcome)
      (hroom : running.length < limit) :
      Step limit answers ⟨job :: waiting, running, done⟩ ⟨waiting, running ++ [job], done⟩
  | finish (waiting before after : List Job) (job : Job) (result : Except CheckError Evidence)
      (done : List Outcome) (hanswer : answers job result) :
      Step limit answers ⟨waiting, before ++ job :: after, done⟩
        ⟨waiting, before ++ after, done ++ [(job.index, result)]⟩

/-- A batch before its first step. -/
def ofJobs (jobs : List Job) : Batch := ⟨jobs, [], []⟩

/-- Any number of steps. -/
abbrev Run (limit : Nat) (answers : Answers) : Batch → Batch → Prop :=
  Relation.ReflTransGen (Step limit answers)

/-- What a batch can come to: it is not started, or cut off after some steps.  A deadline of zero
cuts it off before the first. -/
inductive Ends (limit : Nat) (answers : Answers) (jobs : List Job) : BatchResult → Prop
  | notStarted : Ends limit answers jobs .notStarted
  | cutOff (b : Batch) (hrun : Run limit answers (ofJobs jobs) b) :
      Ends limit answers jobs (.ran b.done)

/-- The outcome is one of the job. -/
def Reports (answers : Answers) (job : Job) (o : Outcome) : Prop :=
  o.1 = job.index ∧ answers job o.2

variable {limit : Nat} {answers : Answers} {jobs : List Job}

/-! ## 1. No job is lost or doubled -/

/-- The outcomes so far are those of some jobs, and these, the jobs at work and the jobs that wait
are all jobs. -/
def Accounts (answers : Answers) (jobs : List Job) (b : Batch) : Prop :=
  ∃ picked, List.Forall₂ (Reports answers) picked b.done ∧
    (picked ++ (b.running ++ b.waiting)).Perm jobs

theorem accounts_ofJobs : Accounts answers jobs (ofJobs jobs) :=
  ⟨[], .nil, .refl _⟩

/-- **A step moves one job on and touches no other.** -/
theorem Step.accounts {b b' : Batch} (hstep : Step limit answers b b')
    (h : Accounts answers jobs b) : Accounts answers jobs b' := by
  cases hstep with
  | start job waiting running done hroom =>
    obtain ⟨picked, hreports, hperm⟩ := h
    refine ⟨picked, hreports, ?_⟩
    simpa using hperm
  | finish waiting before after job result done hanswer =>
    obtain ⟨picked, hreports, hperm⟩ := h
    refine ⟨picked ++ [job], List.rel_append hreports (.cons ⟨rfl, hanswer⟩ .nil), ?_⟩
    refine List.Perm.trans ?_ hperm
    have hmove : (job :: (before ++ after) ++ waiting).Perm (before ++ job :: after ++ waiting) :=
      (List.perm_middle.symm).append_right waiting
    simpa using hmove.append_left picked

theorem accounts_of_run {b : Batch} (hrun : Run limit answers (ofJobs jobs) b) :
    Accounts answers jobs b := by
  induction hrun with
  | refl => exact accounts_ofJobs
  | tail _ hstep ih => exact hstep.accounts ih

/-- **The outcomes of a batch are those of some of its jobs, each once, in some order.** -/
theorem Ends.picked {r : BatchResult} (h : Ends limit answers jobs r) :
    ∃ picked rest, List.Forall₂ (Reports answers) picked r.outcomes ∧ (picked ++ rest).Perm jobs := by
  cases h with
  | notStarted => exact ⟨[], jobs, .nil, .refl _⟩
  | cutOff b hrun =>
    obtain ⟨picked, hreports, hperm⟩ := accounts_of_run hrun
    exact ⟨picked, _, hreports, hperm⟩

theorem Ends.length_le {r : BatchResult} (h : Ends limit answers jobs r) :
    r.outcomes.length ≤ jobs.length := by
  obtain ⟨picked, rest, hreports, hperm⟩ := h.picked
  rw [← hreports.length_eq, ← hperm.length_eq, List.length_append]
  exact Nat.le_add_right _ _

/-- Every outcome is one of a job of the batch. -/
theorem Ends.exists_job {r : BatchResult} (h : Ends limit answers jobs r) {o : Outcome}
    (ho : o ∈ r.outcomes) : ∃ job ∈ jobs, Reports answers job o := by
  obtain ⟨picked, rest, hreports, hperm⟩ := h.picked
  obtain ⟨i, hi, rfl⟩ := List.mem_iff_getElem.mp ho
  have hi' : i < picked.length := hreports.length_eq ▸ hi
  refine ⟨picked[i], ?_, hreports.get hi' hi⟩
  exact hperm.subset (List.mem_append_left rest (List.getElem_mem hi'))

theorem map_index_eq {picked : List Job} {outcomes : List Outcome}
    (h : List.Forall₂ (Reports answers) picked outcomes) :
    outcomes.map Prod.fst = picked.map Job.index := by
  induction h with
  | nil => rfl
  | cons hhead _ ih => rw [List.map_cons, List.map_cons, hhead.1, ih]

/-- If every place has one job, it has one outcome at most. -/
theorem Ends.nodup {r : BatchResult} (h : Ends limit answers jobs r)
    (hjobs : (jobs.map Job.index).Nodup) : (r.outcomes.map Prod.fst).Nodup := by
  obtain ⟨picked, rest, hreports, hperm⟩ := h.picked
  rw [map_index_eq hreports]
  have hall : ((picked ++ rest).map Job.index).Nodup := (hperm.map Job.index).nodup_iff.mpr hjobs
  rw [List.map_append] at hall
  exact (List.nodup_append.mp hall).1

/-! ## 2. Every choice and every order can happen -/

/-- With room for them, all jobs can be started before one comes back. -/
theorem run_start (waiting running : List Job) (done : List Outcome)
    (hroom : running.length + waiting.length ≤ limit) :
    Run limit answers ⟨waiting, running, done⟩ ⟨[], running ++ waiting, done⟩ := by
  induction waiting generalizing running with
  | nil => rw [List.append_nil]
  | cons job waiting ih =>
    rw [List.length_cons] at hroom
    have hrest := ih (running ++ [job]) (by rw [List.length_append, List.length_singleton]; omega)
    rw [List.append_assoc] at hrest
    exact .head (.start job waiting running done (by omega)) hrest

/-- Jobs at work can come back in any order. -/
theorem run_finish {picked rest running : List Job} {outcomes : List Outcome} (done : List Outcome)
    (hreports : List.Forall₂ (Reports answers) picked outcomes)
    (hperm : (picked ++ rest).Perm running) :
    ∃ left, Run limit answers ⟨[], running, done⟩ ⟨[], left, done ++ outcomes⟩ := by
  induction hreports generalizing running done with
  | nil =>
    rw [List.append_nil]
    exact ⟨running, .refl⟩
  | @cons job o picked outcomes hhead _ ih =>
    obtain ⟨before, after, rfl⟩ := List.append_of_mem (hperm.subset List.mem_cons_self)
    have hrest : (picked ++ rest).Perm (before ++ after) :=
      List.Perm.cons_inv (hperm.trans List.perm_middle)
    obtain ⟨left, hrun⟩ := ih (done ++ [(job.index, o.2)]) hrest
    refine ⟨left, .head (.finish [] before after job o.2 done hhead.2) ?_⟩
    have ho : (job.index, o.2) = o := by rw [← hhead.1]
    rw [List.append_assoc, List.singleton_append, ho] at hrun
    rw [ho]
    exact hrun

/-- **With room for all jobs, any of them can come back in any order before the deadline.** -/
theorem ends_of_picked {picked rest : List Job} {outcomes : List Outcome}
    (hroom : jobs.length ≤ limit) (hreports : List.Forall₂ (Reports answers) picked outcomes)
    (hperm : (picked ++ rest).Perm jobs) : Ends limit answers jobs (.ran outcomes) := by
  have hstart : Run limit answers (ofJobs jobs) ⟨[], jobs, []⟩ :=
    run_start jobs [] [] (by rw [List.length_nil, Nat.zero_add]; exact hroom)
  obtain ⟨left, hfinish⟩ : ∃ left, Run limit answers ⟨[], jobs, []⟩ ⟨[], left, outcomes⟩ :=
    run_finish [] hreports hperm
  exact .cutOff _ (hstart.trans hfinish)

/-! ## 3. One job after the other -/

theorem run_in_turn {outcomes : List Outcome} (hroom : 0 < limit) (done : List Outcome)
    (hreports : List.Forall₂ (Reports answers) jobs outcomes) :
    Run limit answers ⟨jobs, [], done⟩ ⟨[], [], done ++ outcomes⟩ := by
  induction hreports generalizing done with
  | nil => rw [List.append_nil]
  | @cons job o jobs outcomes hhead _ ih =>
    have ho : (job.index, o.2) = o := by rw [← hhead.1]
    have hrest := ih (done ++ [o])
    rw [List.append_assoc, List.singleton_append] at hrest
    refine .head (.start job jobs [] done hroom) (.head ?_ hrest)
    have hfinish : Step limit answers ⟨jobs, [job], done⟩ ⟨jobs, [], done ++ [(job.index, o.2)]⟩ :=
      .finish jobs [] [] job o.2 done hhead.2
    rw [ho] at hfinish
    exact hfinish

/-- One job after the other is one way for a batch to go. -/
theorem ends_in_turn {outcomes : List Outcome} (hroom : 0 < limit)
    (hreports : List.Forall₂ (Reports answers) jobs outcomes) :
    Ends limit answers jobs (.ran outcomes) :=
  .cutOff _ (run_in_turn hroom [] hreports)

end Batch

end CodeAudit
