import CodeAudit.Proofs.Number.Finite
import CodeAudit.Proofs.Quality.Fresh
import CodeAudit.Proofs.Security.Merging

/-!
# How sure a scan is

Every detector of security has a kind of its own (`SecurityCheck.kind`), and reports at a
confidence that is one of the settings' or one of two fixed ones, brought between zero and one on
the way (`Vulnerability.IsReport`).  So it is enough that the settings hold numbers: **whatever is
found, it is found at a confidence between zero and one** (`Battery.inUnit_of_mem_vulnerabilities`),
and **what protects a program is never something to be fixed**
(`Battery.isAdvisory_of_mem_middleware`).  The detectors differ in how they come to their results,
and each is opened once here.
-/

namespace CodeAudit

open Number

/-! ## 1. Scores -/

/-- All confidences that detectors report at. -/
def DetectorScores.values (d : DetectorScores) : List Float :=
  [d.sqlConcat, d.sqlQueryVar, d.sqlAssignment, d.xssDom, d.xssTemplate, d.commandTree,
    d.commandText, d.secretAssignment, d.middleware, d.middlewareGeneric]

/-- All of them are numbers. -/
def DetectorScores.Numeric (d : DetectorScores) : Prop := ∀ x ∈ d.values, x ≤ x

/-- All confidences before they are brought between zero and one; two of them no setting changes. -/
def DetectorScores.reported (d : DetectorScores) : List Float :=
  Security.cryptoConfidence :: Security.secretConfidence :: d.values

theorem DetectorScores.Numeric.inUnit {d : DetectorScores} (h : d.Numeric) {x : Float}
    (hx : x ∈ d.reported) : InUnit (clampUnit x) := by
  apply inUnit_clampUnit
  rcases List.mem_cons.mp hx with rfl | hx
  · exact le_iff_parts.mpr rfl
  · rcases List.mem_cons.mp hx with rfl | hx
    · exact le_iff_parts.mpr rfl
    · exact h x hx

/-! ## 2. Detectors -/

/-- A vulnerability as a detector makes it: of the kind that the detector is for, at one of the
confidences to report at. -/
structure Vulnerability.IsReport (scores : DetectorScores) (kind : FindingKind)
    (v : Vulnerability) : Prop where
  kind_eq : v.kind = kind
  confidence : ∃ x ∈ scores.reported, v.confidence = clampUnit x

/-- The usual way to a report: one of the confidences of the settings. -/
theorem Vulnerability.isReport_of_mem {scores : DetectorScores} {kind : FindingKind}
    {v : Vulnerability} {x : Float} (hkind : v.kind = kind)
    (hconfidence : v.confidence = clampUnit x) (hx : x ∈ scores.values) : v.IsReport scores kind :=
  ⟨hkind, x, List.mem_cons_of_mem _ (List.mem_cons_of_mem _ hx), hconfidence⟩

namespace Security

open Vulnerability

variable {s : Snippet} {dialect : Dialect} {n : Site} {line : Nat} {text : List Char}
  {v : Vulnerability}

theorem isReport_of_sqlLine? (hv : sqlLine? s dialect line text = some v) :
    v.IsReport s.scores .sqlInjection := by
  unfold sqlLine? at hv
  split at hv
  · cases hv
  · split at hv
    · obtain rfl := Option.some.inj hv
      exact isReport_of_mem rfl rfl (by simp [DetectorScores.values])
    · split at hv
      · obtain rfl := Option.some.inj hv
        exact isReport_of_mem rfl rfl (by simp [DetectorScores.values])
      · cases hv

theorem isReport_of_sqlCall? (hv : sqlCall? s dialect n = some v) :
    v.IsReport s.scores .sqlInjection := by
  unfold sqlCall? at hv
  split at hv
  · cases hv
  · dsimp only at hv
    split at hv
    · cases hv
    · obtain ⟨splice, -, rfl⟩ := Option.map_eq_some_iff.mp hv
      exact isReport_of_mem rfl rfl (by simp [DetectorScores.values])

theorem isReport_of_sqlAssignment? (hv : sqlAssignment? s n = some v) :
    v.IsReport s.scores .sqlInjection := by
  unfold sqlAssignment? at hv
  split at hv
  · cases hv
  · obtain ⟨value, -, hv⟩ := Option.bind_eq_some_iff.mp hv
    obtain ⟨-, ⟨⟩⟩ := Option.ite_none_right_eq_some.mp hv
    exact isReport_of_mem rfl rfl (by simp [DetectorScores.values])

theorem isReport_of_mem_sqlInjections (hv : v ∈ sqlInjections dialect s) :
    v.IsReport s.scores .sqlInjection := by
  have hfound := mem_of_mem_mergeByLine hv
  simp only [List.mem_append] at hfound
  rcases hfound with (hline | hcall) | hassignment
  · obtain ⟨⟨line, text⟩, -, hv⟩ := List.mem_filterMap.mp hline
    exact isReport_of_sqlLine? hv
  · obtain ⟨n, -, hv⟩ := List.mem_filterMap.mp hcall
    exact isReport_of_sqlCall? hv
  · split at hassignment
    · obtain ⟨n, -, hv⟩ := List.mem_filterMap.mp hassignment
      exact isReport_of_sqlAssignment? hv
    · cases hassignment

theorem isReport_of_mem_scriptInjections (hv : v ∈ scriptInjections dialect s) :
    v.IsReport s.scores .xss := by
  have htemplate : ∀ dialect n, templateInjection? s dialect n = some v →
      v.IsReport s.scores .xss := by
    intro dialect n hv
    unfold templateInjection? at hv
    split at hv
    · cases hv
    · obtain ⟨-, ⟨⟩⟩ := Option.ite_none_right_eq_some.mp hv
      exact isReport_of_mem rfl rfl (by simp [DetectorScores.values])
  have hfound := mem_of_mem_mergeByLine hv
  cases dialect with
  | javascript =>
    obtain ⟨n, -, hv⟩ := List.mem_filterMap.mp hfound
    obtain ⟨value, -, hv⟩ := Option.bind_eq_some_iff.mp hv
    obtain ⟨-, ⟨⟩⟩ := Option.ite_none_right_eq_some.mp hv
    exact isReport_of_mem rfl rfl (by simp [DetectorScores.values])
  | go =>
    obtain ⟨n, -, hv⟩ := List.mem_filterMap.mp hfound
    exact htemplate _ n hv
  | python =>
    obtain ⟨n, -, hv⟩ := List.mem_filterMap.mp hfound
    exact htemplate _ n hv
  | generic => cases hfound

theorem isReport_of_commandCall? (hv : commandCall? s dialect n = some v) :
    v.IsReport s.scores .commandInjection := by
  unfold commandCall? at hv
  split at hv
  · cases hv
  · obtain ⟨-, ⟨⟩⟩ := Option.ite_none_right_eq_some.mp hv
    exact isReport_of_mem rfl rfl (by simp [DetectorScores.values])

theorem isReport_of_commandLine? (hv : commandLine? s line text = some v) :
    v.IsReport s.scores .commandInjection := by
  unfold commandLine? at hv
  split at hv
  · cases hv
  · obtain ⟨⟨message, description⟩, -, hv⟩ := Option.bind_eq_some_iff.mp hv
    obtain ⟨-, ⟨⟩⟩ := Option.ite_none_right_eq_some.mp hv
    exact isReport_of_mem rfl rfl (by simp [DetectorScores.values])

theorem isReport_of_mem_commandInjections (hv : v ∈ commandInjections dialect s) :
    v.IsReport s.scores .commandInjection := by
  rcases List.mem_append.mp (mem_of_mem_mergeByLine hv) with hcall | hline
  · obtain ⟨n, -, hv⟩ := List.mem_filterMap.mp hcall
    exact isReport_of_commandCall? hv
  · split at hline
    · obtain ⟨⟨line, text⟩, -, hv⟩ := List.mem_filterMap.mp hline
      exact isReport_of_commandLine? hv
    · cases hline

/-- The rules for ciphers have a confidence of their own. -/
theorem isReport_of_mem_weakCrypto (hv : v ∈ weakCrypto dialect s) :
    v.IsReport s.scores .insecureCrypto := by
  obtain ⟨⟨line, text⟩, -, hv⟩ := List.mem_filterMap.mp hv
  obtain ⟨-, ⟨⟩⟩ := Option.ite_none_right_eq_some.mp hv
  exact ⟨rfl, _, List.mem_cons_self, rfl⟩

theorem isReport_of_secretBinding? (hv : secretBinding? s n = some v) :
    v.IsReport s.scores .hardcodedSecret := by
  unfold secretBinding? at hv
  split at hv
  · cases hv
  · obtain ⟨⟨name, value⟩, -, hv⟩ := Option.bind_eq_some_iff.mp hv
    obtain ⟨-, ⟨⟩⟩ := Option.ite_none_left_eq_some.mp hv
    exact isReport_of_mem rfl rfl (by simp [DetectorScores.values])

theorem isReport_of_mem_secrets (hv : v ∈ secrets s) : v.IsReport s.scores .hardcodedSecret := by
  rcases List.mem_append.mp (mem_of_mem_mergeByLine hv) with htable | hbinding
  · obtain ⟨⟨line, text⟩, -, hv⟩ := List.mem_flatMap.mp htable
    obtain ⟨rule, -, hv⟩ := List.mem_filterMap.mp hv
    obtain ⟨m, -, rfl⟩ := Option.map_eq_some_iff.mp hv
    exact ⟨rfl, _, List.mem_cons_of_mem _ List.mem_cons_self, rfl⟩
  · obtain ⟨n, -, hv⟩ := List.mem_filterMap.mp hbinding
    exact isReport_of_secretBinding? hv

end Security

/-! ## 3. Middleware -/

/-- The finding tells something and asks for no fix. -/
structure Finding.IsAdvisory (f : Finding) : Prop where
  inUnit : InUnit f.confidence
  autoFixSafe : f.autoFixSafe = false

theorem Vulnerability.isAdvisory_toFinding {v : Vulnerability} (h : InUnit v.confidence) :
    v.toFinding.IsAdvisory := ⟨h, rfl⟩

namespace Security

variable {s : Snippet} {kinds : List String} {f : Finding}

theorem isAdvisory_of_mem_middlewareInText (h : s.scores.Numeric) (hf : f ∈ middlewareInText s) :
    f.IsAdvisory := by
  obtain ⟨scheme, -, rfl⟩ := List.mem_map.mp (List.mem_mergeSort.mp hf)
  have hunit := inUnit_clampUnit (h s.scores.middlewareGeneric (by simp [DetectorScores.values]))
  unfold textFinding
  dsimp only
  split <;> exact ⟨hunit, rfl⟩

theorem isAdvisory_of_mem_middleware (h : s.scores.Numeric) (hf : f ∈ middleware kinds s) :
    f.IsAdvisory := by
  unfold middleware at hf
  split at hf
  · exact isAdvisory_of_mem_middlewareInText h hf
  · obtain ⟨n, -, -, hf⟩ := Site.mem_gather.mp (List.mem_mergeSort.mp hf)
    unfold middlewareAt at hf
    split at hf
    · cases hf
    · split at hf
      · cases hf
      · obtain ⟨⟨kind, scheme⟩, -, rfl⟩ := List.mem_map.mp hf
        exact ⟨inUnit_clampUnit (h _ (by simp [DetectorScores.values])), rfl⟩

end Security

/-! ## 4. The battery -/

namespace SecurityCheck

/-- What a check reports. -/
def kind : SecurityCheck → FindingKind
  | .sqlInjection => .sqlInjection
  | .scriptInjection => .xss
  | .commandInjection => .commandInjection
  | .weakCrypto => .insecureCrypto
  | .secrets => .hardcodedSecret

theorem isReport_of_mem_run {check : SecurityCheck} {support : Support} {s : Snippet}
    {v : Vulnerability} (hv : v ∈ check.run support s) : v.IsReport s.scores check.kind := by
  cases check with
  | sqlInjection => exact Security.isReport_of_mem_sqlInjections hv
  | scriptInjection =>
    simp only [SecurityCheck.run] at hv
    split at hv
    · exact Security.isReport_of_mem_scriptInjections hv
    · cases hv
  | commandInjection => exact Security.isReport_of_mem_commandInjections hv
  | weakCrypto => exact Security.isReport_of_mem_weakCrypto hv
  | secrets => exact Security.isReport_of_mem_secrets hv

end SecurityCheck

namespace Battery

variable {support : Support} {s : Snippet}

/-- **Every vulnerability is reported at a confidence between zero and one.** -/
theorem inUnit_of_mem_vulnerabilities (h : s.scores.Numeric) {v : Vulnerability}
    (hv : v ∈ (Battery.security support s).vulnerabilities) : InUnit v.confidence := by
  obtain ⟨check, -, hv⟩ := List.mem_flatMap.mp (Vulnerability.mem_of_mem_mergeByLine hv)
  obtain ⟨x, hx, hconfidence⟩ := (SecurityCheck.isReport_of_mem_run hv).confidence
  rw [hconfidence]
  exact h.inUnit hx

/-- **What protects a program is not something to be fixed.** -/
theorem isAdvisory_of_mem_middleware (h : s.scores.Numeric) {f : Finding}
    (hf : f ∈ (Battery.security support s).middleware) : f.IsAdvisory := by
  cases support with
  | grammar l => exact Security.isAdvisory_of_mem_middleware h hf
  | plainText => exact Security.isAdvisory_of_mem_middlewareInText h hf

end Battery

end CodeAudit
