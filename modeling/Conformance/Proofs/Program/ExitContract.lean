import Conformance.Proofs.Files
import Conformance.Proofs.Program.Account
import Conformance.Proofs.Snapshot.RoundTrip
/-!
# The exit contract of the program

A journal holds two things that count in the end: the programs that were started, and what was
written. `Leaves` says what a stage adds to each of them.

What a file holds after it was written is up to the platform, so what is said of the reports relies
on its `FileLaws`.
-/

namespace Conformance

namespace Program

open CommandLine (Arguments)

variable {σ : Type} {p : Platform σ} {surroundings : Surroundings} {args : Arguments}

/-! ## What the stages leave in a journal -/

/-- What a journal says was written, or could not be. -/
def writes (deeds : List Deed) : List (Path × String × Except IoError Unit) :=
  deeds.filterMap Deed.written?

/-- The writes and the stages of a journal. -/
structure Leaves (deeds : List Deed) (files : List (Path × String × Except IoError Unit))
    (stages : List Stage) : Prop where
  writes : writes deeds = files
  course : course deeds = stages

theorem Leaves.append {deeds deeds' : List Deed}
    {files files' : List (Path × String × Except IoError Unit)} {stages stages' : List Stage}
    (h : Leaves deeds files stages) (h' : Leaves deeds' files' stages') :
    Leaves (deeds ++ deeds') (files ++ files') (stages ++ stages') where
  writes := by
    rw [← h.writes, ← h'.writes]
    exact List.filterMap_append
  course := by rw [course_append, h.course, h'.course]

theorem leaves_of_written_eq {deeds : List Deed} (h : ∀ d ∈ deeds, d.written? = none) :
    Leaves deeds [] (course deeds) where
  writes := List.filterMap_eq_nil_iff.mpr h
  course := rfl

theorem leaves_of_quiet {deeds : List Deed} (h : ∀ d ∈ deeds, d.Quiet) : Leaves deeds [] [] := by
  have hleaves := leaves_of_written_eq fun d hd ↦ (h d hd).written
  rwa [course_eq_nil fun d hd ↦ (h d hd).stage] at hleaves

theorem Configured.leaves {s t : σ} {deeds : List Deed} {result : Except Fault Config}
    (h : Configured p args s deeds result t) : Leaves deeds [] [] := by
  cases h <;> exact ⟨rfl, rfl⟩

/-- The clone that the answer of the provider tells of. -/
def cloneStages (args : Arguments) (c : Config) : Except Fault CorpusStatus → List Stage
  | .ok .alreadyPresent | .ok .missing => []
  | .ok .fetched | .error _ =>
    [.started ⟨"git"⟩ (CorpusProvider.cloneArguments c.repository args.corpusDir)]

theorem provider_eq_git {c : Config} {repository : String} {program : Path}
    (h : (if args.noFetch then .local else .git c.repository ⟨"git"⟩) =
      CorpusProvider.git repository program) :
    repository = c.repository ∧ program = ⟨"git"⟩ := by
  split at h
  · cases h
  · cases h
    exact ⟨rfl, rfl⟩

theorem Ensured.leaves {c : Config} {s t : σ} {deeds : List Deed}
    {answer : Except Fault CorpusStatus}
    (h : Ensured p (if args.noFetch then .local else .git c.repository ⟨"git"⟩) args.corpusDir s
      deeds answer t) :
    Leaves deeds [] (cloneStages args c answer) := by
  cases h with
  | present hthere => exact ⟨rfl, rfl⟩
  | missing h hthere => exact ⟨rfl, rfl⟩
  | unstarted h hthere hclone =>
    obtain ⟨rfl, rfl⟩ := provider_eq_git h
    exact ⟨rfl, rfl⟩
  | cloned h hthere hclone hsuccess =>
    obtain ⟨rfl, rfl⟩ := provider_eq_git h
    exact ⟨rfl, rfl⟩
  | failed h hthere hclone hfailure =>
    obtain ⟨rfl, rfl⟩ := provider_eq_git h
    exact ⟨rfl, rfl⟩

/-- The clone that the setup of the program tells of. -/
def Setup.stages (args : Arguments) : Setup → List Stage
  | .noTarget | .noConfig _ => []
  | .asked c answer => cloneStages args c answer

theorem Prepared.leaves {s t : σ} {deeds : List Deed} {setup : Setup}
    (h : Prepared p args s deeds setup t) : Leaves deeds [] (setup.stages args) := by
  have hfile : Leaves [.isFile args.target true] [] [] := ⟨rfl, rfl⟩
  cases h with
  | noTarget htarget => exact ⟨rfl, rfl⟩
  | noConfig htarget hconfig => exact hfile.append hconfig.leaves
  | asked htarget hconfig hsaid hcorpus =>
    exact hfile.append
      (hconfig.leaves.append ((leaves_of_quiet hsaid.quiet).append hcorpus.leaves))

/-! ## The tests and the reports -/

/-- What the platform lists for the tests, with the corpus at hand in the state `s`. -/
abbrev listingFor (p : Platform σ) (surroundings : Surroundings) (args : Arguments) (c : Config)
    (status : CorpusStatus) (s : σ) : Option (List (String × Entry)) :=
  (p.listing (Discovery.searchRoot args.corpusDir c.discoveryRules)
    (showing p surroundings args (.corpusReady status) s).2).1

/-- The tests among what the platform lists. -/
abbrev foundFor (p : Platform σ) (surroundings : Surroundings) (args : Arguments) (c : Config)
    (status : CorpusStatus) (s : σ) : Discovery :=
  .find args.corpusDir c.discoveryRules args.maxTests
    (listingFor p surroundings args c status s)

/-- The state in which the first test starts, with the corpus at hand in the state `s`. -/
abbrev beforeTests (p : Platform σ) (surroundings : Surroundings) (args : Arguments) (c : Config)
    (status : CorpusStatus) (s : σ) : σ :=
  (harnessFor args c).beforeTests p (showing p surroundings args) args.corpusDir status s

/-- With the corpus at hand in the state `s`, every test that the platform lists was run, in order,
and the tally is that of the outcomes. -/
structure AllTested (p : Platform σ) (surroundings : Surroundings) (args : Arguments) (c : Config)
    (status : CorpusStatus) (s : σ) (tests : List (TestCase × Outcome)) (tally : Tally) : Prop where
  cases : tests.map (·.1) = (foundFor p surroundings args c status s).cases
  inTurn : ∃ t, (harnessFor args c).executor.InTurn p (showing p surroundings args) tests.length 1
    (beforeTests p surroundings args c status s) tests t
  named : ∀ test ∈ tests, test.2.test = test.1.id
  tally : Tally.ofOutcomes (tests.map (·.2)) c.maxFailureSamples = .ok tally

section Follows

variable {c : Config} {status : CorpusStatus} {deeds : List Deed} {s t : σ}

theorem allTested_of_follows {r : RunReport}
    (h : (harnessFor args c).Follows p (showing p surroundings args) (shownDeed surroundings args)
      args.corpusDir s (.ok status) deeds (.ok r) t) :
    ∃ tests, AllTested p surroundings args c status s tests r.tally ∧
      Leaves deeds [] (tests.map fun t ↦ .started args.target [t.1.path.text]) := by
  generalize hr : Except.ok r = result at h
  cases h with
  | @ready _ _ status listing hlisting found hfound tests deeds result htesting =>
    rcases result with e | tally
    · cases hr
    cases hr
    obtain ⟨hcases, hturn, hcourse, htally⟩ := htesting.complete
    refine ⟨tests, ?_, ?_⟩
    · refine ⟨by rw [hcases, hfound, ← hlisting]; rfl, ⟨t, ?_⟩, htesting.named, htally⟩
      rwa [← List.length_map (·.1), hcases]
    · have hquiet : ∀ e, (shownDeed surroundings args e).Quiet := quiet_shownDeed surroundings args
      have hdeeds := leaves_of_written_eq (htesting.written_eq fun e ↦ (hquiet e).written)
      have hsilent : (fun e ↦ course [shownDeed surroundings args e]) = fun _ ↦ [] := rfl
      rw [hcourse, hsilent, Executor.testStages_nil] at hdeeds
      have hfirst : ∀ d ∈ [shownDeed surroundings args (.corpusReady status),
          .listing (Discovery.searchRoot args.corpusDir (harnessFor args c).rules) listing,
          shownDeed surroundings args (.discovered found.cases.length found.notice)],
          d.Quiet := by
        simp only [List.forall_mem_cons]
        exact ⟨hquiet _, ⟨rfl, rfl⟩, hquiet _, List.forall_mem_nil _⟩
      exact (leaves_of_quiet hfirst).append hdeeds

theorem listing_mem_of_follows {result : Except RunError RunReport}
    (h : (harnessFor args c).Follows p (showing p surroundings args) (shownDeed surroundings args)
      args.corpusDir s (.ok status) deeds result t) :
    .listing (Discovery.searchRoot args.corpusDir c.discoveryRules)
      (listingFor p surroundings args c status s) ∈ deeds := by
  cases h with
  | @ready _ _ status listing hlisting found hfound tests deeds result htesting =>
    rw [listingFor, ← hlisting]
    exact List.mem_cons_of_mem _ List.mem_cons_self

/-- On a clock that goes on, the run gives its report exactly if nothing cuts its tests short. -/
theorem exists_report_iff_unhindered {time : σ → Nat} (laws : p.ClockLaws time)
    {result : Except RunError RunReport}
    (h : (harnessFor args c).Follows p (showing p surroundings args) (shownDeed surroundings args)
      args.corpusDir s (.ok status) deeds result t) :
    (∃ r, result = .ok r) ↔ (harnessFor args c).Unhindered p (showing p surroundings args)
      (foundFor p surroundings args c status s) (beforeTests p surroundings args c status s) := by
  cases h with
  | @ready _ _ status listing hlisting found hfound tests deeds result htesting =>
    have hfound' : found = foundFor p surroundings args c status s := by
      rw [hfound, ← hlisting]
      rfl
    rw [← hfound', ← Harness.exists_tally_iff_unhindered laws htesting]
    cases result with
    | error e => exact iff_of_false nofun nofun
    | ok tally => exact iff_of_true ⟨_, rfl⟩ ⟨tally, rfl⟩

end Follows

/-- The file at a path is a snapshot that reads back as a tally, with its counts and samples. -/
def HoldsSnapshot (p : Platform σ) (path : Path) (tally : Tally) (s : σ) : Prop :=
  ∃ text, (p.readText path s).1 = .ok text ∧ Snapshot.read text = .ok (Snapshot.stored tally)

section Files

variable {ι : Type} {fileAt : σ → Path → Option ι} {tally : Tally} {s t : σ} {i : ι}

theorem holds_of_written (laws : p.FileLaws fileAt) {path : Path}
    (h : p.writeText path (Snapshot.render tally) s = (.ok (), t)) (hi : fileAt t path = some i) :
    HoldsSnapshot p path tally t :=
  ⟨Snapshot.render tally, laws.reads_written h hi, Snapshot.read_render tally⟩

theorem holds_of_printed (laws : p.FileLaws fileAt) {path : Path} {said : String}
    (h : fileAt s path = some i → HoldsSnapshot p path tally s)
    (hi : fileAt (p.print said s).2 path = some i) :
    HoldsSnapshot p path tally (p.print said s).2 := by
  obtain ⟨hfile, hread⟩ := laws.keeps_printing s said path
  obtain ⟨text, htext, hsnapshot⟩ := h (hfile ▸ hi)
  exact ⟨text, hread.trans htext, hsnapshot⟩

theorem holds_of_other_written (laws : p.FileLaws fileAt) {path other : Path}
    {text : String} {answer : Except IoError Unit}
    (hwrite : p.writeText other text s = (answer, t))
    (h : fileAt s path = some i → HoldsSnapshot p path tally s) (hi : fileAt t path = some i)
    (hother : fileAt t other ≠ some i) : HoldsSnapshot p path tally t := by
  obtain ⟨hfile, hread⟩ := laws.keeps_others hwrite hi hother
  obtain ⟨text, htext, hsnapshot⟩ := h hfile
  exact ⟨text, hread.trans htext, hsnapshot⟩

/-- What the reports of a tally leave behind: the files that were written, the exit code, and the
state in the end. The snapshot is written first, and it is still in place in the end unless the
summary went to the same file. -/
inductive ReportsLeft (p : Platform σ) (fileAt : σ → Path → Option ι) (args : Arguments)
    (tally : Tally) : List (Path × String × Except IoError Unit) → Int → σ → Prop
  /-- The snapshot could not be written. -/
  | nothing (e : IoError) (t : σ) :
    ReportsLeft p fileAt args tally [(args.output, Snapshot.render tally, .error e)] 1 t
  /-- No summary was asked for. -/
  | snapshot {t : σ} (h : args.prComment = none)
    (hholds : ∀ i, fileAt t args.output = some i → HoldsSnapshot p args.output tally t) :
    ReportsLeft p fileAt args tally [(args.output, Snapshot.render tally, .ok ())] 0 t
  /-- Only the summary could not be written. The snapshot was in place before. -/
  | noSummary {path : Path} {summary : String} {e : IoError} {s t : σ}
    (h : args.prComment = some path) (hfail : p.writeText path summary s = (.error e, t))
    (hbefore : ∀ i, fileAt s args.output = some i → HoldsSnapshot p args.output tally s)
    (hholds : ∀ i, fileAt t args.output = some i → fileAt t path ≠ some i →
      HoldsSnapshot p args.output tally t) :
    ReportsLeft p fileAt args tally
      [(args.output, Snapshot.render tally, .ok ()), (path, summary, .error e)] 1 t
  /-- Both reports were written. -/
  | both {path : Path} {summary : String} {t : σ} (h : args.prComment = some path)
    (hholds : ∀ i, fileAt t args.output = some i → fileAt t path ≠ some i →
      HoldsSnapshot p args.output tally t) :
    ReportsLeft p fileAt args tally
      [(args.output, Snapshot.render tally, .ok ()), (path, summary, .ok ())] 0 t

theorem Reported.left (laws : p.FileLaws fileAt) {deeds : List Deed} {result : Except Fault Unit}
    (h : Reported p args tally deeds result t) :
    ∃ files, Leaves deeds files [] ∧
      ReportsLeft p fileAt args tally files (exitCodeFor (result.mapError .fault)) t := by
  -- Once the snapshot is written, saying so leaves it in place.
  have hsaved : ∀ {s u : σ}, p.writeText args.output (Snapshot.render tally) s = (.ok (), u) →
      ∀ said i, fileAt (p.print said u).2 args.output = some i →
        HoldsSnapshot p args.output tally (p.print said u).2 := by
    intro s u hwrite said i hi
    exact holds_of_printed laws (fun hi ↦ holds_of_written laws hwrite hi) hi
  cases h with
  | unsaved shown e t => exact ⟨_, ⟨rfl, rfl⟩, .nothing e t⟩
  | saved shown said h hwrite => exact ⟨_, ⟨rfl, rfl⟩, .snapshot h (hsaved hwrite said)⟩
  | uncommented shown said summary h hwrite hfail =>
    refine ⟨_, ⟨rfl, rfl⟩, .noSummary h hfail (hsaved hwrite said) ?_⟩
    intro i hi hother
    exact holds_of_other_written laws hfail (hsaved hwrite said i) hi hother
  | @commented shown said summary added path h s t u hwrite hcomment =>
    refine ⟨_, ⟨rfl, rfl⟩, .both h ?_⟩
    intro i hi hother
    rw [(laws.keeps_printing u added path).1] at hother
    refine holds_of_printed laws ?_ hi
    intro hi
    exact holds_of_other_written laws hcomment (hsaved hwrite said i) hi hother

end Files

/-! ## The exit contract -/

/-- The journal of the program. -/
def journal (p : Platform σ) (surroundings : Surroundings) (args : Arguments) (s : σ) :
    List Deed :=
  (perform p.recorded surroundings args (s, [])).2.2

/-- The exit code of the program. -/
def exitCode (p : Platform σ) (surroundings : Surroundings) (args : Arguments) (s : σ) : Int :=
  (perform p surroundings args s).1.exitCode

/-- The program stops with a crash. -/
def Crashes (p : Platform σ) (surroundings : Surroundings) (args : Arguments) (s : σ) : Prop :=
  ∃ e, (execute p surroundings args s).1 = .error (.crash e)

theorem perform_recorded (s : σ) :
    perform p.recorded surroundings args (s, [])
      = ((perform p surroundings args s).1, (perform p surroundings args s).2,
        journal p surroundings args s) := by
  obtain ⟨deeds, e, -⟩ := journals_perform p surroundings args s []
  rw [journal, e]

/-- The account of the program, for its journal and its exit code. -/
theorem executed (p : Platform σ) (surroundings : Surroundings) (args : Arguments) (s : σ) :
    ∃ result, (execute p surroundings args s).1 = result ∧
      Executed p surroundings args s (journal p surroundings args s) result
        (perform p surroundings args s).2 ∧
      exitCode p surroundings args s = exitCodeFor result := by
  obtain ⟨deeds, e, h⟩ := journals_perform p surroundings args s []
  rw [journal, e]
  exact h

/-- The exit code, from what the setup comes to and how each attempt to write a report was
answered. -/
def Setup.exitCode : Setup → List (Except IoError Unit) → Int
  | .noTarget, _ => 2
  | .noConfig _, _ | .asked _ (.error _), _ => 1
  | .asked _ (.ok _), answers => if answers.all Except.toBool then 0 else 1

/-- A setup that fails ends the program with the exit code of its fault. -/
theorem Prepared.exitCode_eq {s t : σ} {deeds : List Deed} {setup : Setup} {f : Fault}
    (h : Prepared p args s deeds setup t) (hfault : setup.fault? args.target = some f) :
    f.exitCode = setup.exitCode [] := by
  cases h with
  | noTarget htarget =>
    cases hfault
    rfl
  | noConfig htarget hconfig =>
    cases hfault
    cases hconfig <;> rfl
  | @asked s₁ s₂ s₃ t read said asked c answer htarget hconfig hsaid hcorpus =>
    cases hcorpus with
    | present hthere => cases hfault
    | missing h hthere => cases hfault
    | cloned h hthere hclone hsuccess => cases hfault
    | unstarted h hthere hclone =>
      cases hfault
      rfl
    | failed h hthere hclone hfailure =>
      cases hfault
      rfl

/-- Where the setup fails, how reports are answered does not matter. -/
theorem Setup.exitCode_of_fault {setup : Setup} {target : Path} {f : Fault}
    (h : setup.fault? target = some f) (answers : List (Except IoError Unit)) :
    setup.exitCode answers = setup.exitCode [] := by
  rcases setup with _ | g | ⟨c, g | status⟩
  · rfl
  · rfl
  · rfl
  · cases h

theorem Reported.exitCodeFor_eq {tally : Tally} {deeds : List Deed} {result : Except Fault Unit}
    {t : σ} (h : Reported p args tally deeds result t) :
    exitCodeFor (result.mapError .fault)
      = if ((writes deeds).map (·.2.2)).all Except.toBool then 0 else 1 := by
  cases h <;> rfl

/-- Unless the program crashes, its exit code depends on its setup and its reports only. -/
theorem exitCode_eq {s t : σ} {deeds : List Deed} {setup : Setup}
    (h : Prepared p args s deeds setup t) (hcrash : ¬ Crashes p surroundings args s) :
    exitCode p surroundings args s
      = setup.exitCode ((writes (journal p surroundings args s)).map (·.2.2)) := by
  obtain ⟨result, hresult, hexecuted, hcode⟩ := executed p surroundings args s
  rw [hcode]
  generalize journal p surroundings args s = deeds' at hexecuted ⊢
  cases hexecuted with
  | stopped h' hfault =>
    obtain ⟨rfl, -⟩ := h.unique h'
    rw [Setup.exitCode_of_fault hfault]
    exact h'.exitCode_eq hfault
  | @crashed u v c before tested status e h' htested => exact absurd ⟨e, hresult⟩ hcrash
  | @reported u v w c before tested written status r result h' htested hwritten =>
    obtain ⟨rfl, -⟩ := h.unique h'
    obtain ⟨tests, -, hleaves⟩ := allTested_of_follows htested
    have hwrote : Leaves written (writes written) (course written) := ⟨rfl, rfl⟩
    rw [hwritten.exitCodeFor_eq, (h'.leaves.append (hleaves.append hwrote)).writes]
    rfl

theorem exists_prepared (p : Platform σ) (surroundings : Surroundings) (args : Arguments) (s : σ) :
    ∃ deeds setup t, Prepared p args s deeds setup t := by
  obtain ⟨result, -, hexecuted, -⟩ := executed p surroundings args s
  generalize journal p surroundings args s = deeds at hexecuted
  cases hexecuted with
  | stopped h hfault => exact ⟨_, _, _, h⟩
  | crashed h htested => exact ⟨_, _, _, h⟩
  | reported h htested hwritten => exact ⟨_, _, _, h⟩

/-- On a clock that goes on, a program with its corpus at hand crashes exactly if something cuts its
tests short. -/
theorem crashes_iff {time : σ → Nat} (laws : p.ClockLaws time) {s t : σ} {deeds : List Deed}
    {c : Config} {status : CorpusStatus} (h : Prepared p args s deeds (.asked c (.ok status)) t) :
    Crashes p surroundings args s ↔
      ¬ (harnessFor args c).Unhindered p (showing p surroundings args)
        (foundFor p surroundings args c status t) (beforeTests p surroundings args c status t) := by
  obtain ⟨result, hresult, hexecuted, -⟩ := executed p surroundings args s
  generalize journal p surroundings args s = deeds' at hexecuted
  cases hexecuted with
  | stopped h' hfault =>
    obtain ⟨rfl, -⟩ := h.unique h'
    cases hfault
  | @crashed u v c before tested status e h' htested =>
    obtain ⟨heq, rfl⟩ := h.unique h'
    cases heq
    refine iff_of_true ⟨e, hresult⟩ ?_
    rw [← exists_report_iff_unhindered laws htested]
    nofun
  | @reported u v w c before tested written status r result h' htested hwritten =>
    obtain ⟨heq, rfl⟩ := h.unique h'
    cases heq
    refine iff_of_false ?_ (not_not_intro ?_)
    · rintro ⟨e, he⟩
      rcases result with f | _ <;> cases he.symm.trans hresult
    · exact (exists_report_iff_unhindered laws htested).mp ⟨r, rfl⟩

/-- **The exit contract of the program.** The answers of the platform decide what the setup comes to,
and the first stage that fails decides the exit code. Nothing of the later ones has happened then:
without a target that is a regular file nothing is read, started or written; without a configuration
that is readable and valid nothing is started or written; without a corpus no test is started and no
report written. Otherwise every test found is run in order, and the reports are left as `ReportsLeft`
says, unless the program crashes; on a clock that goes on it does so only if a test is not over before
the clock ends or a counter cannot count them. Two runs that do not crash have the same exit code if
their setups come to the same and their reports are answered alike, whatever becomes of their
tests. -/
theorem exit_contract {ι : Type} {fileAt : σ → Path → Option ι} (laws : p.FileLaws fileAt)
    (surroundings : Surroundings) (args : Arguments) (s : σ) :
    perform p.recorded surroundings args (s, [])
      = ((perform p surroundings args s).1, (perform p surroundings args s).2,
        journal p surroundings args s) ∧
    (∃ deeds setup t, Prepared p args s deeds setup t) ∧
    (∀ deeds setup t, Prepared p args s deeds setup t →
      match setup with
      | .noTarget =>
        (execute p surroundings args s).1 = .error (.fault (.targetNotFound args.target)) ∧
          exitCode p surroundings args s = 2 ∧
          journal p surroundings args s = [.isFile args.target false]
      | .noConfig f =>
        (execute p surroundings args s).1 = .error (.fault f) ∧
          exitCode p surroundings args s = 1 ∧ ∃ path answer, args.config = some path ∧
          journal p surroundings args s = [.isFile args.target true, .readText path answer]
      | .asked c (.error f) =>
        (execute p surroundings args s).1 = .error (.fault f) ∧
          exitCode p surroundings args s = 1 ∧
          course (journal p surroundings args s) = cloneStages args c (.error f) ∧
          writes (journal p surroundings args s) = []
      | .asked c (.ok status) =>
        .listing (Discovery.searchRoot args.corpusDir c.discoveryRules)
          (listingFor p surroundings args c status t) ∈ journal p surroundings args s ∧
        (Crashes p surroundings args s ∨ ∃ tests tally,
          AllTested p surroundings args c status t tests tally ∧
          course (journal p surroundings args s) = cloneStages args c (.ok status) ++
            tests.map (fun t ↦ .started args.target [t.1.path.text]) ∧
          ReportsLeft p fileAt args tally (writes (journal p surroundings args s))
            (exitCode p surroundings args s) (perform p surroundings args s).2) ∧
        ∀ time : σ → Nat, p.ClockLaws time →
          (Crashes p surroundings args s ↔
            ¬ (harnessFor args c).Unhindered p (showing p surroundings args)
              (foundFor p surroundings args c status t)
              (beforeTests p surroundings args c status t))) ∧
    ∀ {σ' : Type} (p' : Platform σ') (surroundings' : Surroundings) (args' : Arguments) (s' : σ')
      (setup : Setup) (deeds deeds' : List Deed) (t : σ) (t' : σ'),
      ¬ Crashes p surroundings args s → ¬ Crashes p' surroundings' args' s' →
      Prepared p args s deeds setup t → Prepared p' args' s' deeds' setup t' →
      (writes (journal p surroundings args s)).map (·.2.2)
        = (writes (journal p' surroundings' args' s')).map (·.2.2) →
      exitCode p surroundings args s = exitCode p' surroundings' args' s' := by
  refine ⟨perform_recorded s, exists_prepared p surroundings args s, ?_, ?_⟩
  · intro deeds setup t hprepared
    obtain ⟨result, hresult, hexecuted, hcode⟩ := executed p surroundings args s
    rw [hcode]
    generalize journal p surroundings args s = deeds' at hexecuted ⊢
    generalize (perform p surroundings args s).2 = ending at hexecuted ⊢
    cases hexecuted with
    | stopped h hfault =>
      obtain ⟨rfl, rfl⟩ := hprepared.unique h
      have hexit := h.exitCode_eq hfault
      rcases setup with _ | f | ⟨c, f | status⟩
      · cases hfault
        cases h
        exact ⟨hresult, hexit, rfl⟩
      · cases hfault
        refine ⟨hresult, hexit, ?_⟩
        cases h with
        | noConfig htarget hconfig =>
          cases hconfig with
          | unreadable h hread => exact ⟨_, _, h, rfl⟩
          | invalid h hread hinvalid => exact ⟨_, _, h, rfl⟩
      · cases hfault
        exact ⟨hresult, hexit, h.leaves.course, h.leaves.writes⟩
      · cases hfault
    | @crashed u v c before tested status e h htested =>
      obtain ⟨rfl, rfl⟩ := hprepared.unique h
      exact ⟨List.mem_append_right _ (listing_mem_of_follows htested), .inl ⟨e, hresult⟩,
        fun time laws ↦ crashes_iff laws hprepared⟩
    | @reported u v w c before tested written status r result h htested hwritten =>
      obtain ⟨rfl, rfl⟩ := hprepared.unique h
      obtain ⟨tests, htests, htestleaves⟩ := allTested_of_follows htested
      obtain ⟨files, hwrittenleaves, hleft⟩ := hwritten.left laws
      have hleaves := h.leaves.append (htestleaves.append hwrittenleaves)
      rw [hleaves.course, hleaves.writes, List.append_nil]
      refine ⟨?_, .inr ⟨tests, r.tally, htests, rfl, hleft⟩,
        fun time laws ↦ crashes_iff laws hprepared⟩
      exact List.mem_append_right _ (List.mem_append_left _ (listing_mem_of_follows htested))
  · intro σ' p' surroundings' args' s' setup deeds deeds' t t' hcrash hcrash' h h' hanswers
    rw [exitCode_eq h hcrash, exitCode_eq h' hcrash', hanswers]

/-! ## A shelf of files -/

/-- A platform with a table of files, on which every directory lists one test, and every program that
is started exits with code one at once. -/
def shelf : Platform (Path → Option String) where
  now := pure ⟨0⟩
  pause _ := pure ()
  spawn _ _ := pure (.ok ⟨1⟩)
  startReader _ _ := pure true
  poll _ := pure (.ok (some (ExitState.rawOfCode 1)))
  receive _ _ _ := pure (.text "")
  isDrained _ _ := pure true
  killGroup _ := pure ()
  killChild _ := pure ()
  reap _ := pure ()
  runToEnd _ _ := pure (.error .noEntry)
  isFile path := fun files ↦ ((files path).isSome, files)
  isPresent path := fun files ↦ ((files path).isSome, files)
  listing _ := pure (some [("a.js", .file)])
  readText path := fun files ↦
    (match files path with | some text => .ok text | none => .error .noEntry, files)
  writeText path text := fun files ↦ (.ok (), fun q ↦ if q = path then some text else files q)
  print _ := pure ()

/-- A file of the shelf, which is known by its path. -/
def shelfFile (files : Path → Option String) (path : Path) : Option Path :=
  (files path).map fun _ ↦ path

theorem shelf_fileLaws : shelf.FileLaws shelfFile where
  reads_written := by
    rintro s _ path text i ⟨⟩ -
    simp [shelf]
  keeps_others := by
    rintro s _ path other text answer i ⟨⟩ hi hother
    have hne : other ≠ path := by
      rintro rfl
      exact hother hi
    simp only [shelfFile, shelf, if_neg hne] at hi ⊢
    exact ⟨hi, trivial⟩
  keeps_printing := by
    intro s said path
    exact ⟨rfl, rfl⟩

/-- A command line that asks for both reports, with every path an empty file. The one test fails, and
the exit code is zero all the same. -/
theorem exit_contract_both_reports :
    ∃ args files, shelf.FileLaws shelfFile ∧ args.prComment = some ⟨"p"⟩ ∧
      exitCode shelf ⟨false, ⟨none, false⟩⟩ args files = 0 ∧
      ∃ (tests : List (TestCase × Outcome)) (tally : Tally),
        tests.map (·.1) = [⟨"test/a.js", ⟨"c/test/a.js"⟩⟩] ∧
        tests.map (·.2.verdict) = [.fail] ∧
        Tally.ofOutcomes (tests.map (·.2)) 50 = .ok tally ∧
        HoldsSnapshot shelf args.output tally
          (perform shelf ⟨false, ⟨none, false⟩⟩ args files).2 := by
  let args : Arguments := ⟨⟨"t"⟩, ⟨"c"⟩, none, ⟨"o"⟩, some ⟨"p"⟩, none, none, true, true⟩
  let files : Path → Option String := fun _ ↦ some ""
  have hcode : exitCode shelf ⟨false, ⟨none, false⟩⟩ args files = 0 := by decide +kernel
  have hok : (execute shelf ⟨false, ⟨none, false⟩⟩ args files).1 = .ok () :=
    eq_ok_of_toOption (by decide +kernel)
  have hprepared : Prepared shelf args files _ (.asked .standard (.ok .alreadyPresent)) files :=
    .asked rfl (.standard rfl) (.offline rfl) (.present rfl)
  obtain ⟨-, -, hcontract, -⟩ := exit_contract shelf_fileLaws ⟨false, ⟨none, false⟩⟩ args files
  obtain ⟨-, ⟨e, he⟩ | ⟨tests, tally, htests, -, hleft⟩, -⟩ := hcontract _ _ _ hprepared
  · cases he.symm.trans hok
  have hfound : (foundFor shelf ⟨false, ⟨none, false⟩⟩ args .standard .alreadyPresent files).cases
      = [⟨"test/a.js", ⟨"c/test/a.js"⟩⟩] := by decide +kernel
  refine ⟨args, files, shelf_fileLaws, rfl, hcode, tests, tally, htests.cases.trans hfound, ?_,
    htests.tally, ?_⟩
  · obtain ⟨⟨case, o⟩, rfl, rfl⟩ := List.map_eq_singleton_iff.mp (htests.cases.trans hfound)
    obtain ⟨t, hturn⟩ := htests.inTurn
    obtain ⟨u, hrun⟩ := hturn.head
    have hverdict : ((harnessFor args .standard).executor.run shelf
        ⟨"test/a.js", ⟨"c/test/a.js"⟩⟩ (beforeTests shelf ⟨false, ⟨none, false⟩⟩ args .standard
          .alreadyPresent files)).1.toOption.map (·.verdict) = some .fail := by
      decide +kernel
    rw [congrArg Prod.fst hrun] at hverdict
    exact congrArg (fun verdict ↦ [verdict]) (Option.some.inj hverdict)
  · have houtput : shelfFile (perform shelf ⟨false, ⟨none, false⟩⟩ args files).2 ⟨"o"⟩
        = some ⟨"o"⟩ := by decide +kernel
    have hcomment : shelfFile (perform shelf ⟨false, ⟨none, false⟩⟩ args files).2 ⟨"p"⟩
        = some ⟨"p"⟩ := by decide +kernel
    rw [hcode] at hleft
    generalize writes (journal shelf ⟨false, ⟨none, false⟩⟩ args files) = wrote at hleft
    generalize (perform shelf ⟨false, ⟨none, false⟩⟩ args files).2 = t
      at hleft houtput hcomment ⊢
    generalize hzero : (0 : Int) = code at hleft
    cases hleft with
    | nothing e t => cases hzero
    | snapshot h hholds => cases h
    | noSummary h hfail hbefore hholds => cases hzero
    | both h hholds =>
      cases h
      refine hholds ⟨"o"⟩ houtput ?_
      rw [hcomment]
      decide

end Program

end Conformance
