import CodeAudit.Proofs.Validation.Schedule

/-!
# What a batch leaves behind

However a batch goes, each finding meets one of four fates (`Fate`): it is scored anew by what its
own check found, its check failed, its check was abandoned, or it had no check.  **The findings and
the counts after a batch are read off these fates**, so they do not depend on the order in which the
outcomes came back: an outcome changes the finding at its own place and no other
(`getElem?_foldl_of_mem`, `getElem?_foldl_of_not_mem`), and no place has two outcomes.
-/

namespace CodeAudit

/-- What becomes of a finding in a batch. -/
inductive Fate where
  | rescored (e : Evidence)
  | failed
  | abandoned
  | skipped
  deriving DecidableEq, Repr

namespace Fate

def isRescored : Fate → Bool
  | rescored _ => true
  | _ => false

theorem isRescored_iff {fate : Fate} : fate.isRescored = true ↔ ∃ e, fate = rescored e := by
  cases fate <;> simp [isRescored]

/-- The counts of some fates. -/
def tally (fates : List Fate) : ValidationSummary where
  validated := fates.countP isRescored
  failed := fates.countP (· == failed)
  timedOut := fates.countP (· == abandoned)
  skipped := fates.countP (· == skipped)

/-- Every fate is counted once. -/
theorem total_tally (fates : List Fate) :
    (tally fates).validated + (tally fates).failed + (tally fates).timedOut + (tally fates).skipped =
      fates.length := by
  induction fates with
  | nil => rfl
  | cons fate fates ih =>
    simp only [tally, List.countP_cons, List.length_cons] at ih ⊢
    cases fate <;> simp [isRescored] <;> omega

end Fate

/-- The fate of the finding at a place, given the jobs of the batch. -/
def BatchResult.fate (r : BatchResult) (jobs : List Job) (i : Nat) : Fate :=
  if i ∈ jobs.map Job.index then
    match r with
    | .notStarted => .failed
    | .ran outcomes =>
      match outcomes.lookup i with
      | some (.ok e) => .rescored e
      | some (.error _) => .failed
      | none => .abandoned
  else .skipped

/-! ## 1. The jobs of a list of findings -/

namespace Job

theorem index_of_ofFinding? {i : Nat} {f : Finding} {job : Job} (h : ofFinding? i f = some job) :
    job.index = i := by
  unfold ofFinding? at h
  split at h
  · obtain ⟨name, -, rfl⟩ := Option.map_eq_some_iff.mp h
    rfl
  · obtain rfl := Option.some.inj h
    rfl

/-- A job is the one made for the finding at its place. -/
theorem mem_ofFindings {fs : List Finding} {job : Job} :
    job ∈ ofFindings fs ↔ ∃ f, fs[job.index]? = some f ∧ ofFinding? job.index f = some job := by
  unfold ofFindings
  rw [List.mem_filterMap]
  constructor
  · rintro ⟨⟨f, i⟩, hmem, hjob⟩
    obtain rfl := index_of_ofFinding? hjob
    exact ⟨f, List.mk_mem_zipIdx_iff_getElem?.mp hmem, hjob⟩
  · rintro ⟨f, hf, hjob⟩
    exact ⟨(f, job.index), List.mk_mem_zipIdx_iff_getElem?.mpr hf, hjob⟩

theorem length_ofFindings_le (fs : List Finding) : (ofFindings fs).length ≤ fs.length := by
  have h := List.length_filterMap_le (fun p : Finding × Nat => ofFinding? p.2 p.1) fs.zipIdx
  rw [List.length_zipIdx] at h
  exact h

/-- Every place has one job at most. -/
theorem nodup_index_ofFindings (fs : List Finding) : ((ofFindings fs).map Job.index).Nodup := by
  have hplaces : fs.zipIdx.Pairwise fun a b => a.2 < b.2 := by
    rw [← List.pairwise_map, List.zipIdx_map_snd]
    exact List.pairwise_lt_range'
  unfold List.Nodup ofFindings
  rw [List.pairwise_map, List.pairwise_filterMap]
  refine hplaces.imp ?_
  intro a b hlt job hjob job' hjob'
  rw [index_of_ofFinding? hjob, index_of_ofFinding? hjob']
  exact Nat.ne_of_lt hlt

end Job

/-! ## 2. An outcome changes the finding at its own place -/

namespace Validation

variable {c : Confidences} {i : Nat} {e : Evidence}

theorem getElem?_apply_of_ne (fs : List Finding) {o : Outcome} (hne : o.1 ≠ i) :
    (apply c fs o)[i]? = fs[i]? := by
  unfold apply
  split
  · simp [hne]
  · rfl

theorem getElem?_apply_self (fs : List Finding) :
    (apply c fs (i, .ok e))[i]? = fs[i]?.map (Finding.rescore c e) := by
  simp only [apply, List.getElem?_modify, if_true]
  rfl

theorem length_foldl_apply (outcomes : List Outcome) (fs : List Finding) :
    (outcomes.foldl (apply c) fs).length = fs.length := by
  induction outcomes generalizing fs with
  | nil => rfl
  | cons o outcomes ih =>
    rw [List.foldl_cons, ih]
    unfold apply
    split
    · exact List.length_modify _ _ _
    · rfl

/-- **A finding without a result is left as it was.** -/
theorem getElem?_foldl_of_not_mem {outcomes : List Outcome} (fs : List Finding)
    (h : ∀ e, (i, .ok e) ∉ outcomes) : (outcomes.foldl (apply c) fs)[i]? = fs[i]? := by
  induction outcomes generalizing fs with
  | nil => rfl
  | cons o outcomes ih =>
    rw [List.foldl_cons, ih _ fun e hmem => h e (List.mem_cons_of_mem o hmem)]
    obtain ⟨j, result⟩ := o
    by_cases hj : j = i
    · subst hj
      cases result with
      | ok e => exact absurd List.mem_cons_self (h e)
      | error cause => rfl
    · exact getElem?_apply_of_ne fs hj

/-- **A finding with a result is scored by it, once**: later outcomes are of other places. -/
theorem getElem?_foldl_of_mem {outcomes : List Outcome} (fs : List Finding)
    (hnodup : (outcomes.map Prod.fst).Nodup) (h : (i, .ok e) ∈ outcomes) :
    (outcomes.foldl (apply c) fs)[i]? = fs[i]?.map (Finding.rescore c e) := by
  induction outcomes generalizing fs with
  | nil => exact absurd h List.not_mem_nil
  | cons o outcomes ih =>
    rw [List.map_cons, List.nodup_cons] at hnodup
    rw [List.foldl_cons]
    rcases List.mem_cons.mp h with rfl | hmem
    · have hlater : ∀ e', (i, Except.ok e') ∉ outcomes :=
        fun e' hmem => hnodup.1 (List.mem_map.mpr ⟨_, hmem, rfl⟩)
      rw [getElem?_foldl_of_not_mem _ hlater, getElem?_apply_self]
    · have hne : o.1 ≠ i := fun heq => hnodup.1 (heq ▸ List.mem_map_of_mem hmem)
      rw [ih _ hnodup.2 hmem, getElem?_apply_of_ne fs hne]

end Validation

/-! ## 3. The fates of a batch -/

/-- Where no place has two outcomes, the first one found is the only one. -/
theorem lookup_eq_some_iff {outcomes : List Outcome} (hnodup : (outcomes.map Prod.fst).Nodup) {i : Nat}
    {result : Except CheckError Evidence} :
    outcomes.lookup i = some result ↔ (i, result) ∈ outcomes := by
  induction outcomes with
  | nil => simp
  | cons o outcomes ih =>
    rw [List.map_cons, List.nodup_cons] at hnodup
    obtain ⟨j, found⟩ := o
    by_cases hj : i = j
    · subst hj
      have hlater : (i, result) ∉ outcomes := fun hmem => hnodup.1 (List.mem_map.mpr ⟨_, hmem, rfl⟩)
      simp [hlater, eq_comm]
    · have hne : (i == j) = false := by simpa using hj
      rw [List.lookup_cons, hne]
      simp [ih hnodup.2, hj]

namespace Batch.Ends

variable {limit : Nat} {answers : Batch.Answers} {jobs : List Job} {r : BatchResult}

theorem mem_index (h : Batch.Ends limit answers jobs r) {o : Outcome} (ho : o ∈ r.outcomes) :
    o.1 ∈ jobs.map Job.index := by
  obtain ⟨job, hjob, hindex, -⟩ := h.exists_job ho
  exact List.mem_map.mpr ⟨job, hjob, hindex.symm⟩

/-- A finding whose check came back has a fate that depends on the outcome alone. -/
theorem fate_ran {outcomes : List Outcome} (h : Batch.Ends limit answers jobs (.ran outcomes)) (i : Nat) :
    (BatchResult.ran outcomes).fate jobs i =
      match outcomes.lookup i with
      | some (.ok e) => .rescored e
      | some (.error _) => .failed
      | none => if i ∈ jobs.map Job.index then .abandoned else .skipped := by
  unfold BatchResult.fate
  by_cases hmem : i ∈ jobs.map Job.index
  · rw [if_pos hmem, if_pos hmem]
  · have hnone : outcomes.lookup i = none := by
      rw [List.lookup_eq_none_iff]
      intro o ho
      have hne : i ≠ o.1 := fun heq => hmem (heq ▸ h.mem_index ho)
      simpa using hne
    rw [if_neg hmem, if_neg hmem, hnone]

/-- A finding is scored anew exactly if its check came back with a result. -/
theorem fate_eq_rescored_iff (h : Batch.Ends limit answers jobs r)
    (hjobs : (jobs.map Job.index).Nodup) {i : Nat} {e : Evidence} :
    r.fate jobs i = .rescored e ↔ (i, .ok e) ∈ r.outcomes := by
  cases r with
  | notStarted =>
    unfold BatchResult.fate
    split <;> simp [BatchResult.outcomes]
  | ran outcomes =>
    have hnodup : (outcomes.map Prod.fst).Nodup := h.nodup hjobs
    rw [h.fate_ran, BatchResult.outcomes, ← lookup_eq_some_iff hnodup]
    split
    · next hlookup => simp [hlookup]
    · next hlookup => simp [hlookup]
    · next hlookup =>
      rw [hlookup]
      split <;> simp

/-- A check has failed exactly if it came back without a result. -/
theorem fate_eq_failed_iff {outcomes : List Outcome} (h : Batch.Ends limit answers jobs (.ran outcomes))
    (hjobs : (jobs.map Job.index).Nodup) {i : Nat} :
    (BatchResult.ran outcomes).fate jobs i = .failed ↔ ∃ cause, (i, .error cause) ∈ outcomes := by
  have hmem : ∀ cause, (i, Except.error cause) ∈ outcomes ↔ outcomes.lookup i = some (.error cause) :=
    fun cause => (lookup_eq_some_iff (h.nodup hjobs)).symm
  rw [h.fate_ran]
  simp only [hmem]
  split
  · next hlookup => simp [hlookup]
  · next hlookup => simp [hlookup]
  · next hlookup =>
    rw [hlookup]
    split <;> simp

end Batch.Ends

/-! ## 4. The counts -/

/-- Places below a bound are counted by a list of them without doubles. -/
theorem countP_range_eq {p : Nat → Bool} {places : List Nat} {n : Nat} (hnodup : places.Nodup)
    (hmem : ∀ i, i ∈ places ↔ i < n ∧ p i = true) : (List.range n).countP p = places.length := by
  have hperm : ((List.range n).filter p).Perm places := by
    rw [List.perm_ext_iff_of_nodup (List.nodup_range.filter p) hnodup]
    intro i
    rw [List.mem_filter, List.mem_range, hmem]
  rw [List.countP_eq_length_filter, hperm.length_eq]

theorem lt_of_mem_index {fs : List Finding} {i : Nat} (h : i ∈ (Job.ofFindings fs).map Job.index) :
    i < fs.length := by
  obtain ⟨job, hjob, rfl⟩ := List.mem_map.mp h
  obtain ⟨f, hf, -⟩ := Job.mem_ofFindings.mp hjob
  exact (List.getElem?_eq_some_iff.mp hf).1

/-- Places whose outcomes are of one sort, counted by the outcomes. -/
theorem countP_outcomes {outcomes : List Outcome} {n : Nat} {p : Nat → Bool} {q : Outcome → Bool}
    (hnodup : (outcomes.map Prod.fst).Nodup) (hlt : ∀ o ∈ outcomes, o.1 < n)
    (hp : ∀ i, p i = true ↔ ∃ result, (i, result) ∈ outcomes ∧ q (i, result) = true) :
    (List.range n).countP p = outcomes.countP q := by
  rw [List.countP_eq_length_filter (l := outcomes), ← List.length_map Prod.fst]
  refine countP_range_eq (hnodup.sublist (List.filter_sublist.map Prod.fst)) ?_
  intro i
  rw [hp, List.mem_map]
  constructor
  · rintro ⟨⟨j, result⟩, hmem, rfl⟩
    obtain ⟨hmem, hq⟩ := List.mem_filter.mp hmem
    exact ⟨hlt _ hmem, result, hmem, hq⟩
  · rintro ⟨-, result, hmem, hq⟩
    exact ⟨(i, result), List.mem_filter.mpr ⟨hmem, hq⟩, rfl⟩

theorem fate_eq_skipped_iff {r : BatchResult} {jobs : List Job} {i : Nat} :
    r.fate jobs i = .skipped ↔ i ∉ jobs.map Job.index := by
  unfold BatchResult.fate
  by_cases hmem : i ∈ jobs.map Job.index
  · rw [if_pos hmem]
    refine iff_of_false ?_ (not_not_intro hmem)
    split
    · simp
    · split <;> simp
  · rw [if_neg hmem]
    exact iff_of_true rfl hmem

/-- The findings without a job are those that the jobs leave over. -/
theorem countP_skipped (fs : List Finding) (r : BatchResult) :
    (List.range fs.length).countP (fun i => r.fate (Job.ofFindings fs) i == .skipped) =
      fs.length - (Job.ofFindings fs).length := by
  have hchecked : (List.range fs.length).countP
      (fun i => decide ¬ (r.fate (Job.ofFindings fs) i == .skipped) = true) =
        (Job.ofFindings fs).length := by
    rw [← List.length_map Job.index]
    refine countP_range_eq (Job.nodup_index_ofFindings fs) ?_
    intro i
    rw [decide_eq_true_eq, beq_iff_eq, fate_eq_skipped_iff, not_not]
    exact ⟨fun h => ⟨lt_of_mem_index h, h⟩, fun h => h.2⟩
  have hsplit := List.length_eq_countP_add_countP (l := List.range fs.length)
    fun i => r.fate (Job.ofFindings fs) i == .skipped
  rw [hchecked, List.length_range] at hsplit
  omega

/-- **The counts after a batch are those of the fates of its findings.** -/
theorem Batch.Ends.summary_eq_tally {limit : Nat} {answers : Batch.Answers} {fs : List Finding}
    {r : BatchResult} (h : Batch.Ends limit answers (Job.ofFindings fs) r) (c : Confidences) :
    (Validation.settle c fs (Job.ofFindings fs) r).2 =
      Fate.tally ((List.range fs.length).map (r.fate (Job.ofFindings fs))) := by
  have hjobs := Job.nodup_index_ofFindings fs
  have hskipped := countP_skipped fs r
  have hle := Job.length_ofFindings_le fs
  have htotal := Fate.total_tally ((List.range fs.length).map (r.fate (Job.ofFindings fs)))
  simp only [Fate.tally, List.countP_map, List.length_map, List.length_range] at htotal ⊢
  cases r with
  | notStarted =>
    have hfailed : (List.range fs.length).countP
        ((· == .failed) ∘ BatchResult.notStarted.fate (Job.ofFindings fs)) = (Job.ofFindings fs).length := by
      rw [← List.length_map Job.index]
      refine countP_range_eq hjobs ?_
      intro i
      by_cases hmem : i ∈ (Job.ofFindings fs).map Job.index
      · simpa [BatchResult.fate, hmem] using lt_of_mem_index hmem
      · simp [BatchResult.fate, hmem]
    simp only [Function.comp_def] at hfailed htotal ⊢
    rw [Validation.settle, ValidationSummary.mk.injEq]
    omega
  | ran outcomes =>
    have hnodup : (outcomes.map Prod.fst).Nodup := h.nodup hjobs
    have hlt : ∀ o ∈ outcomes, o.1 < fs.length := fun o ho => lt_of_mem_index (h.mem_index ho)
    have hvalidated : (List.range fs.length).countP
        (Fate.isRescored ∘ (BatchResult.ran outcomes).fate (Job.ofFindings fs)) =
          outcomes.countP fun o => o.2.toBool := by
      refine countP_outcomes hnodup hlt ?_
      intro i
      rw [Function.comp_apply, Fate.isRescored_iff]
      simp only [h.fate_eq_rescored_iff hjobs]
      constructor
      · rintro ⟨e, hmem⟩
        exact ⟨.ok e, hmem, rfl⟩
      · rintro ⟨result, hmem, hok⟩
        cases result with
        | ok e => exact ⟨e, hmem⟩
        | error cause => exact absurd hok Bool.false_ne_true
    have hfailed : (List.range fs.length).countP
        ((· == .failed) ∘ (BatchResult.ran outcomes).fate (Job.ofFindings fs)) =
          outcomes.countP fun o => !o.2.toBool := by
      refine countP_outcomes hnodup hlt ?_
      intro i
      rw [Function.comp_apply, beq_iff_eq, h.fate_eq_failed_iff hjobs]
      constructor
      · rintro ⟨cause, hmem⟩
        exact ⟨.error cause, hmem, rfl⟩
      · rintro ⟨result, hmem, hfail⟩
        cases result with
        | ok e => exact absurd hfail Bool.false_ne_true
        | error cause => exact ⟨cause, hmem⟩
    have hlength : outcomes.length ≤ (Job.ofFindings fs).length := h.length_le
    have hboth := List.length_eq_countP_add_countP (l := outcomes) fun o => o.2.toBool
    simp only [Bool.not_eq_true, Bool.decide_eq_false] at hboth
    simp only [Function.comp_def] at hvalidated hfailed htotal ⊢
    rw [Validation.settle, ValidationSummary.mk.injEq]
    omega

/-! ## 5. The order of the outcomes -/

/-- The same jobs came back, with the same results. -/
def BatchResult.Same : BatchResult → BatchResult → Prop
  | .ran outcomes, .ran outcomes' => ∀ o, o ∈ outcomes ↔ o ∈ outcomes'
  | .notStarted, .notStarted => True
  | _, _ => False

namespace BatchResult.Same

variable {r r' : BatchResult} {jobs : List Job}

theorem mem_iff (h : r.Same r') (o : Outcome) : o ∈ r.outcomes ↔ o ∈ r'.outcomes := by
  cases r <;> cases r'
  · exact h o
  · exact h.elim
  · exact h.elim
  · exact Iff.rfl

theorem fate_eq (h : r.Same r') (hnodup : (r.outcomes.map Prod.fst).Nodup)
    (hnodup' : (r'.outcomes.map Prod.fst).Nodup) (i : Nat) : r.fate jobs i = r'.fate jobs i := by
  cases r <;> cases r'
  · next outcomes outcomes' =>
    have hlookup : outcomes.lookup i = outcomes'.lookup i := by
      refine Option.ext fun result => ?_
      change (outcomes.map Prod.fst).Nodup at hnodup
      change (outcomes'.map Prod.fst).Nodup at hnodup'
      rw [lookup_eq_some_iff hnodup, lookup_eq_some_iff hnodup', h]
    unfold BatchResult.fate
    simp only [hlookup]
  · exact h.elim
  · exact h.elim
  · rfl

end BatchResult.Same

namespace Validation

variable {c : Confidences} {fs : List Finding} {r r' : BatchResult}

theorem settle_fst (jobs : List Job) :
    (settle c fs jobs r).1 = r.outcomes.foldl (apply c) fs := by
  cases r <;> rfl

/-- **The order of the outcomes does not matter**, nor how the batch went otherwise. -/
theorem settle_eq_of_same {limit limit' : Nat} {answers answers' : Batch.Answers}
    (h : Batch.Ends limit answers (Job.ofFindings fs) r)
    (h' : Batch.Ends limit' answers' (Job.ofFindings fs) r') (hsame : r.Same r') :
    settle c fs (Job.ofFindings fs) r = settle c fs (Job.ofFindings fs) r' := by
  have hnodup := h.nodup (Job.nodup_index_ofFindings fs)
  have hnodup' := h'.nodup (Job.nodup_index_ofFindings fs)
  refine Prod.ext ?_ ?_
  · rw [settle_fst, settle_fst]
    refine List.ext_getElem? fun i => ?_
    by_cases hok : ∃ e, (i, .ok e) ∈ r.outcomes
    · obtain ⟨e, he⟩ := hok
      rw [getElem?_foldl_of_mem fs hnodup he,
        getElem?_foldl_of_mem fs hnodup' ((hsame.mem_iff _).mp he)]
    · have hnone : ∀ e, (i, .ok e) ∉ r.outcomes := fun e he => hok ⟨e, he⟩
      rw [getElem?_foldl_of_not_mem fs hnone,
        getElem?_foldl_of_not_mem fs fun e he => hnone e ((hsame.mem_iff _).mpr he)]
  · rw [h.summary_eq_tally, h'.summary_eq_tally]
    exact congrArg Fate.tally (List.map_congr_left fun i _ => hsame.fate_eq hnodup hnodup' i)

/-! ## 6. Validation -/

/-- Jobs that are run one after another all come back. -/
theorem runJobs_reports {answers : Batch.Answers} (s : Scope) (moment : Nat → Nat → Instant)
    (hanswers : ∀ job times cache, answers job (Check.run s times job cache).1) (jobs : List Job)
    (cache : SearchCache) :
    List.Forall₂ (Batch.Reports answers) jobs (runJobs s moment jobs cache).1 := by
  induction jobs generalizing cache with
  | nil => exact .nil
  | cons job jobs ih => exact .cons ⟨rfl, hanswers job _ cache⟩ (ih _)

end Validation

/-- Validation is one way for a batch to go; a deadline of zero cuts it off at once. -/
theorem Validator.exists_ends_validate (v : Validator) (d : Disk) (fs : List Finding)
    (file root : Path) (language : String) {limit : Nat} {answers : Batch.Answers} (hroom : 0 < limit)
    (hanswers : ∀ job times cache,
      answers job (Check.run (v.scope d file root language) times job cache).1)
    (moment : Nat → Nat → Instant) :
    ∃ r, Batch.Ends limit answers (Job.ofFindings fs) r ∧
      (v.validate d fs file root language moment).1 =
        Validation.settle v.confidences fs (Job.ofFindings fs) r := by
  unfold Validator.validate
  split
  · exact ⟨.ran [], .cutOff (.ofJobs _) .refl, rfl⟩
  · exact ⟨_, Batch.ends_in_turn hroom (Validation.runJobs_reports _ moment hanswers _ v.searches), rfl⟩

/-- **Validation settles each finding on its own.**  It is one way for a batch of checks to go, and
with room for all of them every choice and order is another.  However the batch goes, every finding
is counted once, under its own fate; a finding whose own check came back with a result is scored by
that result and once; every other is as it was; and only the set of outcomes matters. -/
theorem validation_settles_each_finding (v : Validator) (d : Disk) (fs : List Finding)
    (file root : Path) (language : String) (concurrency : Nat) (answers : Batch.Answers) :
    ((∀ job times cache, answers job (Check.run (v.scope d file root language) times job cache).1) →
      ∀ moment, ∃ r, Batch.Ends (max concurrency 1) answers (Job.ofFindings fs) r ∧
        (v.validate d fs file root language moment).1 =
          Validation.settle v.confidences fs (Job.ofFindings fs) r) ∧
    (∀ picked rest outcomes, (Job.ofFindings fs).length ≤ concurrency →
      List.Forall₂ (Batch.Reports answers) picked outcomes →
      (picked ++ rest).Perm (Job.ofFindings fs) →
      Batch.Ends (max concurrency 1) answers (Job.ofFindings fs) (.ran outcomes)) ∧
    ∀ r, Batch.Ends (max concurrency 1) answers (Job.ofFindings fs) r →
      ∀ gs summary, Validation.settle v.confidences fs (Job.ofFindings fs) r = (gs, summary) →
        summary.validated + summary.failed + summary.timedOut + summary.skipped = fs.length ∧
        summary = Fate.tally ((List.range fs.length).map (r.fate (Job.ofFindings fs))) ∧
        gs.length = fs.length ∧
        (∀ i f e, fs[i]? = some f → (i, .ok e) ∈ r.outcomes →
          gs[i]? = some (f.rescore v.confidences e)) ∧
        (∀ i f, fs[i]? = some f → (∀ e, (i, .ok e) ∉ r.outcomes) → gs[i]? = some f) ∧
        (∀ o ∈ r.outcomes, ∃ f job, fs[o.1]? = some f ∧ Job.ofFinding? o.1 f = some job ∧
          answers job o.2) ∧
        ∀ limit' answers' r', Batch.Ends limit' answers' (Job.ofFindings fs) r' → r.Same r' →
          Validation.settle v.confidences fs (Job.ofFindings fs) r' = (gs, summary) := by
  have hroom : 0 < max concurrency 1 := by omega
  refine ⟨fun hanswers => v.exists_ends_validate d fs file root language hroom hanswers, ?_, ?_⟩
  · intro picked rest outcomes hlength hreports hperm
    exact Batch.ends_of_picked (by omega) hreports hperm
  · intro r h gs summary hsettle
    have hnodup := h.nodup (Job.nodup_index_ofFindings fs)
    have hgs : gs = r.outcomes.foldl (Validation.apply v.confidences) fs := by
      rw [← Validation.settle_fst, hsettle]
    have htally : summary = Fate.tally ((List.range fs.length).map (r.fate (Job.ofFindings fs))) := by
      rw [← h.summary_eq_tally v.confidences, hsettle]
    refine ⟨?_, htally, ?_, ?_, ?_, ?_, ?_⟩
    · rw [htally, Fate.total_tally, List.length_map, List.length_range]
    · rw [hgs, Validation.length_foldl_apply]
    · intro i f e hf he
      rw [hgs, Validation.getElem?_foldl_of_mem fs hnodup he, hf, Option.map_some]
    · intro i f hf hnone
      rw [hgs, Validation.getElem?_foldl_of_not_mem fs hnone, hf]
    · intro o ho
      obtain ⟨job, hjob, hindex, hanswer⟩ := h.exists_job ho
      obtain ⟨f, hf, hmade⟩ := Job.mem_ofFindings.mp hjob
      rw [hindex]
      exact ⟨f, job, hf, hmade, hanswer⟩
    · intro limit' answers' r' h' hsame
      rw [← Validation.settle_eq_of_same h h' hsame, hsettle]

/-- Four findings in one line: two about variables, a silent handler, and one about a variable that its
message does not name. -/
def mixedFindings : List Finding :=
  [.fresh .unusedVariable .warning ⟨1, 1, 1, 2⟩ "'a'" [],
    .fresh .unusedVariable .warning ⟨1, 3, 1, 4⟩ "'b'" [],
    .fresh .emptyCatch .warning ⟨1, 5, 1, 6⟩ "" [],
    .fresh .unusedVariable .warning ⟨1, 7, 1, 8⟩ "unnamed" []]

/-- The second check fails, then the first comes back; the third is at work at the deadline, and the
fourth finding has no check. -/
def mixedOutcomes : List Outcome := [(1, .error .aborted), (0, .ok { isExported := true })]

/-- Each of the four meets a fate of its own, and the other order of the outcomes comes to the same. -/
theorem mixed_batch_settled :
    Batch.Ends 3 (fun _ _ => True) (Job.ofFindings mixedFindings) (.ran mixedOutcomes) ∧
    (List.range 4).map ((BatchResult.ran mixedOutcomes).fate (Job.ofFindings mixedFindings)) =
      [.rescored { isExported := true }, .failed, .abandoned, .skipped] ∧
    ∃ gs, Validation.settle {} mixedFindings (Job.ofFindings mixedFindings) (.ran mixedOutcomes) =
        (gs, ⟨1, 1, 1, 1⟩) ∧
      gs[0]? = mixedFindings[0]?.map (Finding.rescore {} { isExported := true }) ∧
      gs[1]? = mixedFindings[1]? ∧ gs[2]? = mixedFindings[2]? ∧ gs[3]? = mixedFindings[3]? ∧
      Validation.settle {} mixedFindings (Job.ofFindings mixedFindings) (.ran mixedOutcomes.reverse) =
        (gs, ⟨1, 1, 1, 1⟩) := by
  obtain ⟨-, hany, hall⟩ := validation_settles_each_finding (.new {} {}) default mixedFindings
    (.ofString "f.go") (.ofString "/") "go" 3 fun _ _ => True
  have hjobs : Job.ofFindings mixedFindings =
      [⟨0, .unusedVariable, 1, "a"⟩, ⟨1, .unusedVariable, 1, "b"⟩, ⟨2, .emptyCatch, 1, ""⟩] := by rfl
  have hroom : (Job.ofFindings mixedFindings).length ≤ 3 := by rw [hjobs]; decide
  have hends : Batch.Ends 3 (fun _ _ => True) (Job.ofFindings mixedFindings) (.ran mixedOutcomes) := by
    refine hany [⟨1, .unusedVariable, 1, "b"⟩, ⟨0, .unusedVariable, 1, "a"⟩] [⟨2, .emptyCatch, 1, ""⟩] _
      hroom (.cons ⟨rfl, trivial⟩ (.cons ⟨rfl, trivial⟩ .nil)) ?_
    rw [hjobs]
    exact .swap _ _ _
  have hback : Batch.Ends 3 (fun _ _ => True) (Job.ofFindings mixedFindings)
      (.ran mixedOutcomes.reverse) := by
    refine hany [⟨0, .unusedVariable, 1, "a"⟩, ⟨1, .unusedVariable, 1, "b"⟩] [⟨2, .emptyCatch, 1, ""⟩] _
      hroom (.cons ⟨rfl, trivial⟩ (.cons ⟨rfl, trivial⟩ .nil)) ?_
    rw [hjobs]
    exact .refl _
  have hfates : (List.range 4).map ((BatchResult.ran mixedOutcomes).fate (Job.ofFindings mixedFindings)) =
      [.rescored { isExported := true }, .failed, .abandoned, .skipped] := by
    rw [hjobs]
    rfl
  have hsettle : Validation.settle {} mixedFindings (Job.ofFindings mixedFindings) (.ran mixedOutcomes) =
      (mixedOutcomes.foldl (Validation.apply {}) mixedFindings, ⟨1, 1, 1, 1⟩) := by
    rw [hjobs]
    rfl
  obtain ⟨-, -, -, hscored, hleft, -, horder⟩ := hall _ hends _ _ hsettle
  refine ⟨hends, hfates, _, hsettle, ?_, ?_, ?_, ?_, ?_⟩
  · exact hscored 0 _ _ rfl (by simp [BatchResult.outcomes, mixedOutcomes])
  · exact hleft 1 _ rfl (by simp [BatchResult.outcomes, mixedOutcomes])
  · exact hleft 2 _ rfl (by simp [BatchResult.outcomes, mixedOutcomes])
  · exact hleft 3 _ rfl (by simp [BatchResult.outcomes, mixedOutcomes])
  · exact horder _ _ _ hback fun o => List.mem_reverse.symm

end CodeAudit
