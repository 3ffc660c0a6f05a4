import CodeAudit.CommandLine.Run
import CodeAudit.Proofs.Search.Answers

/-!
# The file that is analysed

A command reads its source by the path it was given, from the working directory.  Validation is given
the same path and reads it **from the root of the project**: it leaves out the hits in that file, and
looks there for comments.  Unless the path is absolute the two need not be the same file.

Where a path leads from the directory of a root is `Disk.LeadsFrom`; it is what resolution makes of the
joined path (`Disk.resolve_within_iff`), with the links of both parts counted together.  So validation
has to do with the analysed file exactly if the path leads to it from the root as well, which is sure
for the root that is taken when none is given, the working directory itself.  Otherwise the analysed file
counts as another file of the project, and its own lines count as references
(`analysed_file_left_out_iff`).
-/

namespace CodeAudit

/-! ## 1. A path from another directory -/

namespace Disk

variable {d : Disk} {root p : Path} {names : List String}

/-- A path leads to a row of names if it is read from the directory that a root leads to. -/
def LeadsFrom (d : Disk) (root p : Path) (names : List String) : Prop :=
  ∃ i j here, i + j ≤ maxLinks ∧ d.Leads i (d.startOf root) root.steps here ∧ d.IsDirectory here ∧
    d.Leads j here p.steps names

theorem isDirectory_startOf (h : d.IsDirectory d.workingDirectory) (p : Path) :
    d.IsDirectory (d.startOf p) := by
  unfold startOf
  split
  · exact h.top
  · exact h

/-- **A relative path that is joined to a root is read from the directory of the root.** -/
theorem resolve_within_iff (hcwd : d.IsDirectory d.workingDirectory) (hrelative : p.absolute = false)
    (hsteps : p.steps ≠ []) (hfolder : p.folder = false) :
    d.resolve (root.within p) = .ok names ↔ d.LeadsFrom root p names := by
  have hwithin : root.within p = ⟨root.absolute, root.steps ++ p.steps, false⟩ := by
    simp [Path.within, hrelative, hsteps, hfolder]
  rw [hwithin, resolve_eq_ok_iff]
  constructor
  · rintro ⟨⟨m, hm, hleads⟩, -⟩
    obtain ⟨i, j, here, rfl, hfirst, hlast, hhere⟩ := hleads.split
    exact ⟨i, j, here, hm, hfirst, hhere hsteps (isDirectory_startOf hcwd root), hlast⟩
  · rintro ⟨i, j, here, hm, hfirst, hhere, hlast⟩
    exact ⟨⟨i + j, hm, hfirst.append hlast (.inr hhere.not_holdsFile)⟩, fun hfolder => nomatch hfolder⟩

theorem readText_eq_of_resolve {q : Path} (h : d.resolve p = d.resolve q) :
    d.readText p = d.readText q := by
  simp only [readText, readBytes, h]

/-- A path whose text was read leads to a file, by at least one step. -/
theorem exists_resolve_of_readText {text : String} (hcwd : d.IsDirectory d.workingDirectory)
    (h : d.readText p = .ok text) :
    ∃ names, d.resolve p = .ok names ∧ d.HoldsFile names ∧ p.folder = false ∧ p.steps ≠ [] := by
  have hfile : d.isFile p = true := by
    unfold readText at h
    unfold isFile
    cases hbytes : d.readBytes p with
    | ok bytes => rfl
    | error cause =>
      rw [hbytes] at h
      cases h
  obtain ⟨names, hnames, hholds⟩ := isFile_iff.mp hfile
  obtain ⟨⟨m, -, hleads⟩, hfolder⟩ := resolve_eq_ok_iff.mp hnames
  refine ⟨names, hnames, hholds, ?_, fun hsteps => ?_⟩
  · by_contra hfolder'
    exact hfolder (by simpa using hfolder') hholds
  · -- without a step the path leads to the directory it starts from
    rw [hsteps] at hleads
    cases hleads
    exact (isDirectory_startOf hcwd p).not_holdsFile hholds

end Disk

/-! ## 2. The file of a scope -/

/-- The file of a scope is the one at the end of a row of names. -/
def Scope.Denotes (s : Scope) (names : List String) : Prop := s.disk.resolve s.file = .ok names

/-- Checks leave out a file: none of its lines is ever counted, and comments that say what is meant are
looked for in its text. -/
structure Scope.LeavesOut (s : Scope) (names : List String) (text : String) : Prop where
  uncounted : ∀ moment i queries c hits, (Check.hitsOf s moment i queries c).1 = .ok hits →
    ∀ x ∈ hits, s.disk.resolve x.path ≠ .ok names
  consulted : ∀ line, ∃ e, Check.intent s line = .ok e ∧
    e.hasIntent = Check.hasIntentComment text.toList line

/-- Every line of a file that a search finds is counted. -/
def Scope.CountsLinesOf (s : Scope) (names : List String) : Prop :=
  ∀ (c : SearchCache) q now found, (c.scan s.disk s.filter s.root q now).1 = .ok found →
    ∃ counted, (c.search s.disk s.filter s.root q (some s.file) now).1 = .ok counted ∧
      ∀ x ∈ found, s.disk.resolve x.path = .ok names → x ∈ counted

/-- Whether a hit in a file counts is whether another file is left out. -/
theorem mem_without_iff_of_resolve {d : Disk} {file : Path} {names : List String} {hits : List Hit}
    {x : Hit} (hx : d.resolve x.path = .ok names) (hholds : d.HoldsFile names)
    (hfile : file.folder = false ∨ ∃ others, d.resolve file = .ok others) :
    x ∈ without d (some file) hits ↔ x ∈ hits ∧ d.resolve file ≠ .ok names := by
  simp [mem_without, ← Disk.meet_iff hx, ← Disk.same_canonical_iff hx (.inr hholds) hfile]

/-- What a check counts: of the first search what is not left out, and what the others count. -/
theorem Check.hitsOf_cons_eq_ok {s : Scope} {moment : Nat → Instant} {i : Nat} {q : Query}
    {queries : List Query} {c : SearchCache} {hits : List Hit}
    (h : (hitsOf s moment i (q :: queries) c).1 = .ok hits) :
    ∃ found more c', (hitsOf s moment (i + 1) queries c').1 = .ok more ∧
      hits = without s.disk (some s.file) found ++ more := by
  have hsearch := c.search_fst s.disk s.filter s.root q (some s.file) (moment i)
  simp only [hitsOf] at h
  rcases hc : c.search s.disk s.filter s.root q (some s.file) (moment i) with
    ⟨(cause | _) | kept, c'⟩ <;> simp only [hc] at h hsearch
  · cases h
  · cases h
  · cases hscan : (c.scan s.disk s.filter s.root q (moment i)).1 with
    | error cause =>
      rw [hscan] at hsearch
      cases hsearch
    | ok found =>
      rw [hscan] at hsearch
      obtain rfl := Except.ok.inj hsearch
      rcases hmore : hitsOf s moment (i + 1) queries c' with ⟨e | more, c''⟩ <;> simp only [hmore] at h
      · cases h
      · exact ⟨found, more, c', by rw [hmore], (Except.ok.inj h).symm⟩

/-- **No hit in the file of a scope is ever counted**, whatever a check searches for and whatever the
cache holds. -/
theorem Scope.Denotes.not_counted {s : Scope} {names : List String} (h : s.Denotes names)
    (hholds : s.disk.HoldsFile names) {moment : Nat → Instant} {i : Nat} {queries : List Query}
    {c : SearchCache} {hits : List Hit} (hhits : (Check.hitsOf s moment i queries c).1 = .ok hits)
    {x : Hit} (hx : x ∈ hits) : s.disk.resolve x.path ≠ .ok names := by
  intro hresolve
  induction queries generalizing i c hits with
  | nil =>
    obtain rfl := Except.ok.inj hhits
    cases hx
  | cons q queries ih =>
    obtain ⟨found, more, c', hmore, rfl⟩ := Check.hitsOf_cons_eq_ok hhits
    rcases List.mem_append.mp hx with hx | hx
    · exact ((mem_without_iff_of_resolve hresolve hholds (.inr ⟨names, h⟩)).mp hx).2 h
    · exact ih hmore hx

theorem Scope.Denotes.leavesOut {s : Scope} {names : List String} {text : String}
    (h : s.Denotes names) (hholds : s.disk.HoldsFile names) (hread : s.disk.readText s.file = .ok text) :
    s.LeavesOut names text := by
  refine ⟨fun moment i queries c hits hhits x hx => h.not_counted hholds hhits hx, fun line => ?_⟩
  rw [Check.intent, hread]
  exact ⟨_, rfl, rfl⟩

theorem Scope.countsLinesOf_of_not_denotes {s : Scope} {names : List String} (h : ¬ s.Denotes names)
    (hholds : s.disk.HoldsFile names)
    (hfile : s.file.folder = false ∨ ∃ others, s.disk.resolve s.file = .ok others) :
    s.CountsLinesOf names := by
  intro c q now found hfound
  refine ⟨without s.disk (some s.file) found, ?_, fun x hx hresolve => ?_⟩
  · rw [SearchCache.search_fst, hfound]
    rfl
  · exact (mem_without_iff_of_resolve hresolve hholds hfile).mpr ⟨hx, h⟩

/-! ## 3. Commands that validate -/

namespace CommandLine

/-- A command that reads its source and validates what it finds against a project. -/
structure ValidatedRun (w : World) where
  source : Source
  settings : Settings
  selectors : List String
  projectRoot : Option String
  text : String
  language : String
  sourceText_eq : sourceText w source = .ok (text, language)

namespace ValidatedRun

variable {w : World} (run : ValidatedRun w)

def path : Path := .ofString run.source.path

/-- The root of the project: as given, or the working directory. -/
def root : Path := (run.projectRoot.map Path.ofString).getD (Path.ofNames w.disk.workingDirectory)

def request : Engine.QualityRequest := ⟨run.text, run.language, run.selectors⟩

/-- What the command reports. -/
def report : Except Failure QualityReport :=
  qualityReport w run.settings run.request run.source.path (some run.root)

/-- What the checks of the command share. -/
def scope : Scope := (Engine.new run.settings).validator.scope w.disk run.path run.root run.language

/-- The report on findings after all of them were checked in a scope. -/
def checkedIn (scope : Scope) (found : QualityReport) : QualityReport :=
  let jobs := Job.ofFindings found.findings
  let outcomes := Validation.runJobs scope (fun _ _ => w.now) jobs
    (.new run.settings.validation.searchCacheTtlSecs)
  (Engine.new run.settings).complete found
    (Validation.settle run.settings.confidence found.findings jobs (.ran outcomes.1))
    (.ofSource run.settings.penalties run.text.toList run.language)

/-- The command checks its findings in its scope. -/
theorem report_eq (htime : run.settings.validation.timeoutMs ≠ 0) :
    run.report = (((Engine.new run.settings).analyze w.parser run.request w.now
      (.new run.settings.cache w.now)).1.map (run.checkedIn run.scope)).mapError faultOf := by
  unfold report qualityReport Engine.analyzeInProject
  rcases hanalyze : (Engine.new run.settings).analyze w.parser run.request w.now
      (.new run.settings.cache w.now) with ⟨fault | found, cache⟩
  · simp only [hanalyze]
    rfl
  · have htime' : (Engine.new run.settings).validator.settings.timeoutMs ≠ 0 := htime
    simp only [hanalyze, Validator.validate, if_neg htime']
    rfl

theorem readText_path : w.disk.readText run.path = .ok run.text := by
  have hread := run.sourceText_eq
  unfold sourceText at hread
  split at hread
  · cases hread
  · next text htext =>
    cases hlanguage : languageOf run.source text with
    | error cause =>
      rw [hlanguage] at hread
      cases hread
    | ok language =>
      rw [hlanguage] at hread
      obtain ⟨rfl, -⟩ := Prod.mk.inj (Except.ok.inj hread)
      exact htext

/-- Read from the working directory itself, the path leads where it leads. -/
theorem leadsFrom_of_no_root (hcwd : w.disk.IsDirectory w.disk.workingDirectory) {names : List String}
    (hnames : w.disk.resolve run.path = .ok names) (hrelative : run.path.absolute = false)
    (hroot : run.projectRoot = none) : w.disk.LeadsFrom run.root run.path names := by
  obtain ⟨⟨m, hm, hleads⟩, -⟩ := Disk.resolve_eq_ok_iff.mp hnames
  have hstart : w.disk.startOf run.path = w.disk.workingDirectory := by
    simp [Disk.startOf, hrelative]
  have hto : w.disk.Leads 0 [] (w.disk.workingDirectory.map .into) w.disk.workingDirectory :=
    Disk.leads_names (.inl hcwd)
  rw [hstart] at hleads
  rw [root, hroot]
  exact ⟨0, m, _, by omega, hto, hcwd, hleads⟩

theorem file_scope : run.scope.file = run.root.within run.path := rfl

/-- The file of the scope is the analysed one if its path is absolute or leads there from the root. -/
theorem denotes_iff (hcwd : w.disk.IsDirectory w.disk.workingDirectory) {names : List String}
    (hnames : w.disk.resolve run.path = .ok names) (hfolder : run.path.folder = false)
    (hsteps : run.path.steps ≠ []) : run.scope.Denotes names ↔
      run.path.absolute = true ∨ w.disk.LeadsFrom run.root run.path names := by
  have hresolve : run.scope.Denotes names ↔ w.disk.resolve (run.root.within run.path) = .ok names := Iff.rfl
  rw [hresolve]
  cases hrelative : run.path.absolute with
  | true =>
    rw [Path.within, if_pos hrelative]
    simp [hnames]
  | false =>
    rw [Disk.resolve_within_iff hcwd hrelative hsteps hfolder]
    simp

end ValidatedRun

/-- A step that is followed by another came to a result. -/
theorem exists_of_bind_eq_ok {ε α β : Type} {x : Except ε α} {f : α → Except ε β} {b : β}
    (h : x >>= f = .ok b) : ∃ a, x = .ok a ∧ f a = .ok b := by
  cases x with
  | error cause => cases h
  | ok a => exact ⟨a, rfl, h⟩

/-- **A command that validates and comes to an outcome is such a run**, and its exit code is that of the
findings it reports. -/
theorem exists_validatedRun {w : World} {config : Option String} {s : Source}
    {selectors : List String} {projectRoot : Option String} {failOn : String} {outcome : Outcome}
    (h : analyze w config s selectors true projectRoot failOn = .ok outcome) :
    ∃ (run : ValidatedRun w) (report : QualityReport) (severity : Severity),
      run.source = s ∧ run.selectors = selectors ∧ run.projectRoot = projectRoot ∧
        settingsOf w config = .ok run.settings ∧ severityOf failOn = .ok severity ∧
        run.report = .ok report ∧ outcome.exit = exitFor report.findings severity := by
  obtain ⟨format, -, h⟩ := exists_of_bind_eq_ok h
  obtain ⟨severity, hseverity, h⟩ := exists_of_bind_eq_ok h
  obtain ⟨settings, hsettings, h⟩ := exists_of_bind_eq_ok h
  obtain ⟨⟨text, language⟩, hsource, h⟩ := exists_of_bind_eq_ok h
  obtain ⟨report, hreport, h⟩ := exists_of_bind_eq_ok h
  obtain rfl := Except.ok.inj h
  exact ⟨⟨s, settings, selectors, projectRoot, text, language, hsource⟩, report, severity,
    rfl, rfl, rfl, hsettings, hseverity, hreport, rfl⟩

/-- **Validation leaves out the analysed file exactly if its path leads to it from the root of the
project as well**, or is absolute.  Then no line of it is ever counted, and comments are looked for in
the text that was analysed.  Otherwise each of its lines that is found counts as one of another file.
This is so for every command that validates. -/
theorem analysed_file_left_out_iff {w : World} (hcwd : w.disk.IsDirectory w.disk.workingDirectory) :
    (∀ config s selectors projectRoot failOn outcome,
      analyze w config s selectors true projectRoot failOn = .ok outcome →
        ∃ (run : ValidatedRun w) (report : QualityReport) (severity : Severity),
          run.source = s ∧ run.selectors = selectors ∧ run.projectRoot = projectRoot ∧
            settingsOf w config = .ok run.settings ∧ severityOf failOn = .ok severity ∧
            run.report = .ok report ∧ outcome.exit = exitFor report.findings severity) ∧
    ∀ run : ValidatedRun w,
      (run.settings.validation.timeoutMs ≠ 0 →
        run.report = (((Engine.new run.settings).analyze w.parser run.request w.now
          (.new run.settings.cache w.now)).1.map (run.checkedIn run.scope)).mapError faultOf) ∧
      ∃ names, w.disk.resolve run.path = .ok names ∧
        (run.scope.Denotes names ↔
          run.path.absolute = true ∨ w.disk.LeadsFrom run.root run.path names) ∧
        (run.projectRoot = none → run.scope.Denotes names) ∧
        (run.scope.Denotes names → run.scope.LeavesOut names run.text) ∧
        (¬ run.scope.Denotes names → run.scope.CountsLinesOf names) := by
  refine ⟨fun _ _ _ _ _ _ h => exists_validatedRun h, fun run => ⟨run.report_eq, ?_⟩⟩
  obtain ⟨names, hnames, hholds, hfolder, hsteps⟩ :=
    Disk.exists_resolve_of_readText hcwd run.readText_path
  have hdenotes := run.denotes_iff hcwd hnames hfolder hsteps
  refine ⟨names, hnames, hdenotes, ?_, ?_, ?_⟩
  · intro hroot
    rw [hdenotes]
    cases hrelative : run.path.absolute with
    | true => exact .inl rfl
    | false => exact .inr (run.leadsFrom_of_no_root hcwd hnames hrelative hroot)
  · intro h
    have hread : w.disk.readText run.scope.file = .ok run.text :=
      (Disk.readText_eq_of_resolve (h.trans hnames.symm)).trans run.readText_path
    exact h.leavesOut hholds hread
  · intro h
    have hrelative : run.path.absolute = false := by
      rw [hdenotes, not_or] at h
      simpa using h.1
    refine Scope.countsLinesOf_of_not_denotes h hholds (.inl ?_)
    rw [run.file_scope]
    simp [Path.within, hrelative, hfolder, hsteps]

/-- A disk with a script in a directory, which is not the working directory. -/
def scriptBelow : World where
  disk :=
    { top := .directory [("src", .directory [("a.js", .file "f()\n".toUTF8)])]
      workingDirectory := [] }
  parser := fun _ _ => default

theorem sourceText_scriptBelow : sourceText scriptBelow ⟨"src/a.js", none, "json"⟩ =
    .ok ("f()\n", "javascript") := by
  have hpath : Path.ofString "src/a.js" = ⟨false, [.into "src", .into "a.js"], false⟩ := by
    decide +kernel
  have hlanguage : Language.ofPath? (.ofString "src/a.js") = some .javascript := by
    decide +kernel
  have hread : scriptBelow.disk.readText (.ofString "src/a.js") = .ok "f()\n" := by
    rw [hpath]
    exact Disk.readText_of_readBytes rfl
  rw [sourceText, hread]
  simp only [languageOf, hlanguage]
  rfl

/-- The script is analysed by its path, with its directory as the root of the project. -/
def runBelow : ValidatedRun scriptBelow where
  source := ⟨"src/a.js", none, "json"⟩
  settings := {}
  selectors := ["orphaned"]
  projectRoot := some "src"
  text := "f()\n"
  language := "javascript"
  sourceText_eq := sourceText_scriptBelow

theorem scan_scriptBelow : scan scriptBelow.disk ({} : ValidationSettings).pathFilter (.ofNames ["src"])
    (.word "f") = .ok [⟨.ofNames ["src", "a.js"], 1, "f()"⟩] := by
  cbv

/-- Validation takes the script for another file, and counts its own line. -/
theorem own_line_counted :
    scriptBelow.disk.IsDirectory scriptBelow.disk.workingDirectory ∧
    ∃ counted, ((SearchCache.new 0).search scriptBelow.disk runBelow.scope.filter runBelow.scope.root
        (.word "f") (some runBelow.scope.file) 0).1 = .ok counted ∧
      ⟨.ofNames ["src", "a.js"], 1, "f()"⟩ ∈ counted := by
  have hcwd : scriptBelow.disk.IsDirectory scriptBelow.disk.workingDirectory := ⟨_, rfl⟩
  obtain ⟨-, names, hnames, -, -, -, hcounts⟩ := (analysed_file_left_out_iff hcwd).2 runBelow
  have hpath : runBelow.path = ⟨false, [.into "src", .into "a.js"], false⟩ := by
    decide +kernel
  have hscript : scriptBelow.disk.resolve runBelow.path = .ok ["src", "a.js"] := by
    rw [hpath]
    rfl
  obtain rfl := Except.ok.inj (hscript.symm.trans hnames)
  -- from its own directory the path leads nowhere
  have hfile : runBelow.scope.file = ⟨false, [.into "src", .into "src", .into "a.js"], false⟩ := by
    decide +kernel
  have hmissing : scriptBelow.disk.resolve runBelow.scope.file = .error .notFound := by
    rw [hfile]
    rfl
  have hnowhere : ¬ runBelow.scope.Denotes ["src", "a.js"] := by
    intro hdenotes
    cases hmissing.symm.trans hdenotes
  have hscan : ((SearchCache.new 0).scan scriptBelow.disk runBelow.scope.filter runBelow.scope.root
      (.word "f") 0).1 = .ok [⟨.ofNames ["src", "a.js"], 1, "f()"⟩] := by
    have hroot : scriptBelow.disk.canonical runBelow.scope.root = .ofNames ["src"] := by
      decide +kernel
    have hfilter : runBelow.scope.filter = ({} : ValidationSettings).pathFilter := rfl
    rw [SearchCache.scan_uncached, hroot, hfilter, scan_scriptBelow]
    rfl
  obtain ⟨counted, hcounted, hall⟩ := hcounts hnowhere _ _ _ _ hscan
  exact ⟨hcwd, counted, hcounted, hall _ List.mem_cons_self rfl⟩

end CommandLine

end CodeAudit
