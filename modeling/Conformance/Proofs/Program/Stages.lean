import Conformance.Proofs.Harness.Pipeline
import Conformance.Program
/-!
# The stages of the program

The program goes through the target, the configuration, the corpus, the tests and the reports. Each
stage has its account here: the journals that it can have, each with what the platform answered, what
the stage comes to, and the state behind it. Put one behind the other they are an account of the whole
program, in which the first stage that fails is the last one that leaves a trace.

The accounts of the configuration and of the corpus speak of the platform and not of the functions of
the program. `Configured.configFor_eq` and `Ensured.ensure_eq` say that they are those of the program
all the same.
-/

namespace Conformance

namespace Deed

/-- What a deed tried to write, and how that went. -/
def written? : Deed → Option (Path × String × Except IoError Unit)
  | .writeText path text answer => some (path, text, answer)
  | _ => none

/-- A deed that writes nothing and starts nothing. -/
structure Quiet (d : Deed) : Prop where
  written : d.written? = none
  stage : d.stage? = none

end Deed

/-! ## The tests -/

namespace Executor

variable {σ : Type} {x : Executor} {p : Platform σ}

theorem Attempt.written_eq {case : TestCase} {deeds : List Deed} {result : Except Crash Outcome}
    (h : Attempt x case deeds result) : ∀ d ∈ deeds, d.written? = none := by
  cases h with
  | refused e => exact List.forall_mem_singleton.mpr rfl
  | endless child start h =>
    exact List.forall_mem_cons.mpr ⟨rfl, List.forall_mem_singleton.mpr rfl⟩
  | unread child start deadline h hstarts =>
    refine List.forall_mem_cons.mpr ⟨rfl, List.forall_mem_cons.mpr ⟨rfl, ?_⟩⟩
    cases hstarts <;> simp [Deed.written?]
  | cleaned child start deadline h waits joins hwaits completion joined hjoins =>
    have hw : ∀ d ∈ waits, d.written? = none := by
      intro d hd
      cases hwaits d hd <;> rfl
    have hj : ∀ d ∈ joins, d.written? = none := by
      intro d hd
      cases hjoins.joins d hd <;> rfl
    simp only [List.forall_mem_cons, List.forall_mem_append]
    exact ⟨rfl, rfl, rfl, rfl, hw, rfl, rfl, rfl, hj⟩

/-- No test writes a report, and nothing is written between the tests. -/
theorem Testing.written_eq {observe : RunEvent → StateM σ Unit} {told : RunEvent → Deed}
    (htold : ∀ e, (told e).written? = none) {total index : Nat} {s t : σ} {tally : Tally}
    {cases : List TestCase} {tests : List (TestCase × Outcome)} {deeds : List Deed}
    {result : Except Crash Tally}
    (h : Testing x p observe told total index s tally cases tests deeds result t) :
    ∀ d ∈ deeds, d.written? = none := by
  induction h with
  | done index s tally => exact List.forall_mem_nil _
  | crashed index tally cases h hrun => exact h.written_eq
  | overflowed cases h hrun hobserve hrecord =>
    exact List.forall_mem_append.mpr ⟨h.written_eq, List.forall_mem_singleton.mpr (htold _)⟩
  | tested h hrun hobserve hrecord hrest ih =>
    exact List.forall_mem_append.mpr ⟨h.written_eq, List.forall_mem_cons.mpr ⟨htold _, ih⟩⟩

/-- Where events leave no stage, the stages of tests are their starts. -/
theorem testStages_nil (target : Path) (total index : Nat) (tests : List (TestCase × Outcome)) :
    testStages target (fun _ ↦ []) total index tests
      = tests.map fun t ↦ .started target [t.1.path.text] := by
  induction tests generalizing index with
  | nil => rfl
  | cons t tests ih => exact congrArg (_ :: ·) (ih (index + 1))

end Executor

namespace Program

open CommandLine (Arguments)

variable {σ : Type} {p : Platform σ} {args : Arguments}

-- As before, the rules for journals look for `noting`.
attribute [local irreducible] noting

/-! ## The target and the configuration -/

theorem journals_ensureTarget (target : Path) (s : σ) :
    Journals s (Harness.ensureTarget p target) (Harness.ensureTarget p.recorded target)
      fun deeds result t ↦ ∃ answer, p.isFile target s = (answer, t) ∧
        deeds = [.isFile target answer] ∧
        result = if answer then .ok () else .error (.targetNotFound target) := by
  refine .note_bind ?_
  rintro (_ | _) t h
  · exact .pure ⟨false, h, rfl, rfl⟩
  · exact .pure ⟨true, h, rfl, rfl⟩

/-- A configuration with the limit of the command line, if that names one. -/
def limited (args : Arguments) (c : Config) : Config :=
  match args.timeout with
  | some secs => { c with timeoutSecs := secs }
  | none => c

/-- How a configuration is come by from the state `s` on: it is the standard one, or that of a file,
which must be readable and valid. -/
inductive Configured (p : Platform σ) (args : Arguments) (s : σ) :
    List Deed → Except Fault Config → σ → Prop
  | standard (h : args.config = none) : Configured p args s [] (.ok (limited args .standard)) s
  | loaded {t : σ} {path : Path} {text : String} {c : Config} (h : args.config = some path)
    (hread : p.readText path s = (.ok text, t)) (hvalid : Config.ofText text = .ok c) :
    Configured p args s [.readText path (.ok text)] (.ok (limited args c)) t
  | unreadable {t : σ} {path : Path} {e : IoError} (h : args.config = some path)
    (hread : p.readText path s = (.error e, t)) :
    Configured p args s [.readText path (.error e)] (.error (.configUnreadable path e)) t
  | invalid {t : σ} {path : Path} {text : String} {f : Config.Failure}
    (h : args.config = some path) (hread : p.readText path s = (.ok text, t))
    (hinvalid : Config.ofText text = .error f) :
    Configured p args s [.readText path (.ok text)] (.error (.configInvalid path f)) t

theorem limited_eq (args : Arguments) :
    (fun c ↦ (args.timeout.map fun secs ↦ { c with timeoutSecs := secs }).getD c)
      = limited args := by
  funext c
  rw [limited]
  cases args.timeout <;> rfl

theorem configFor_of_none (h : args.config = none) (s : σ) :
    configFor p args s = (.ok (limited args .standard), s) := by
  rw [configFor, limited_eq, h]
  rfl

theorem configFor_of_some {path : Path} (h : args.config = some path) (s : σ) :
    configFor p args s
      = ((loadConfig p path s).1.map (limited args), (loadConfig p path s).2) := by
  rw [configFor, limited_eq, h]
  rfl

theorem Configured.configFor_eq {s t : σ} {deeds : List Deed} {result : Except Fault Config}
    (h : Configured p args s deeds result t) : configFor p args s = (result, t) := by
  cases h with
  | standard h => exact configFor_of_none h s
  | loaded h hread hvalid =>
    rw [configFor_of_some h, loadConfig, Executor.bind_apply, hread]
    dsimp only
    rw [hvalid]
    rfl
  | unreadable h hread =>
    rw [configFor_of_some h, loadConfig, Executor.bind_apply, hread]
    rfl
  | invalid h hread hinvalid =>
    rw [configFor_of_some h, loadConfig, Executor.bind_apply, hread]
    dsimp only
    rw [hinvalid]
    rfl

theorem journals_loadConfig {path : Path} (h : args.config = some path) (s : σ) :
    Journals s (loadConfig p path) (loadConfig p.recorded path) fun deeds result t ↦
      Configured p args s deeds (result.map (limited args)) t := by
  refine .note_bind ?_
  rintro (e | text) t hread
  · exact .pure (.unreadable h hread)
  · dsimp only
    split
    · rename_i f hinvalid
      exact .pure (.invalid h hread hinvalid)
    · rename_i c hvalid
      exact .pure (.loaded h hread hvalid)

theorem journals_configFor (s : σ) :
    Journals s (configFor p args) (configFor p.recorded args) (Configured p args s) := by
  rw [configFor, configFor, limited_eq]
  split
  · rename_i path h
    refine (journals_loadConfig h s).bind ?_
    intro deeds result t hconfigured
    refine .pure ?_
    rw [List.append_nil]
    exact hconfigured
  · rename_i h
    exact .pure (.standard h)

/-! ## The corpus -/

/-- What precedes the question for the corpus, from the state `s` on: a clone is announced. -/
inductive Announced (p : Platform σ) (args : Arguments) (c : Config) (s : σ) :
    List Deed → σ → Prop
  | offline (h : args.noFetch = true) : Announced p args c s [] s
  | present {t : σ} (h : args.noFetch = false) (hthere : p.isPresent args.corpusDir s = (true, t)) :
    Announced p args c s [.isPresent args.corpusDir true] t
  | cloning {t : σ} (h : args.noFetch = false)
    (hthere : p.isPresent args.corpusDir s = (false, t)) (said : String)
    (hsaid : said = Piece.render false (Console.cloning c.repository args.corpusDir.text)) :
    Announced p args c s [.isPresent args.corpusDir false, .print said] (p.print said t).2

theorem Announced.announceClone_eq {c : Config} {s t : σ} {deeds : List Deed}
    (h : Announced p args c s deeds t) : (announceClone p args c s).2 = t := by
  cases h with
  | offline h =>
    rw [announceClone, h]
    rfl
  | present h hthere =>
    rw [announceClone, if_pos (by rw [h]; rfl), Executor.bind_apply, hthere]
    rfl
  | cloning h hthere said hsaid =>
    rw [announceClone, if_pos (by rw [h]; rfl), Executor.bind_apply, hthere, hsaid]
    rfl

theorem Announced.quiet {c : Config} {s t : σ} {deeds : List Deed}
    (h : Announced p args c s deeds t) : ∀ d ∈ deeds, d.Quiet := by
  cases h with
  | offline h => exact List.forall_mem_nil _
  | present h hthere => exact List.forall_mem_singleton.mpr ⟨rfl, rfl⟩
  | cloning h hthere said hsaid =>
    exact List.forall_mem_cons.mpr ⟨⟨rfl, rfl⟩, List.forall_mem_singleton.mpr ⟨rfl, rfl⟩⟩

theorem journals_announceClone (c : Config) (s : σ) :
    Journals s (announceClone p args c) (announceClone p.recorded args c) fun deeds _ t ↦
      Announced p args c s deeds t := by
  rw [announceClone, announceClone]
  split
  · rename_i h
    have hfetch : args.noFetch = false := by simpa using h
    refine .note_bind ?_
    rintro (_ | _) t hthere
    · exact .note (.cloning hfetch hthere _ rfl)
    · exact .pure (.present hfetch hthere)
  · rename_i h
    have hoffline : args.noFetch = true := by simpa using h
    exact .pure (.offline hoffline)

/-- How a corpus is come by from the state `s` on: it is there, or it is cloned, if the provider
clones. -/
inductive Ensured (p : Platform σ) (provider : CorpusProvider) (root : Path) (s : σ) :
    List Deed → Except Fault CorpusStatus → σ → Prop
  | present {t : σ} (hthere : p.isPresent root s = (true, t)) :
    Ensured p provider root s [.isPresent root true] (.ok .alreadyPresent) t
  | missing {t : σ} (h : provider = .local) (hthere : p.isPresent root s = (false, t)) :
    Ensured p provider root s [.isPresent root false] (.ok .missing) t
  | unstarted {t u : σ} {repository : String} {program : Path}
    (h : provider = .git repository program) (hthere : p.isPresent root s = (false, t))
    {e : IoError}
    (hclone : p.runToEnd program (CorpusProvider.cloneArguments repository root) t
      = (.error e, u)) :
    Ensured p provider root s
      [.isPresent root false,
        .runToEnd program (CorpusProvider.cloneArguments repository root) (.error e)]
      (.error (.corpusUnavailable root ("could not run " ++ program.text ++ ": " ++ e.message))) u
  | cloned {t u : σ} {repository : String} {program : Path}
    (h : provider = .git repository program) (hthere : p.isPresent root s = (false, t))
    {run : Completed}
    (hclone : p.runToEnd program (CorpusProvider.cloneArguments repository root) t = (.ok run, u))
    (hsuccess : ExitState.ofRaw run.status = .code 0) :
    Ensured p provider root s
      [.isPresent root false,
        .runToEnd program (CorpusProvider.cloneArguments repository root) (.ok run)]
      (.ok .fetched) u
  | failed {t u : σ} {repository : String} {program : Path}
    (h : provider = .git repository program) (hthere : p.isPresent root s = (false, t))
    {run : Completed}
    (hclone : p.runToEnd program (CorpusProvider.cloneArguments repository root) t = (.ok run, u))
    (hfailure : ExitState.ofRaw run.status ≠ .code 0) :
    Ensured p provider root s
      [.isPresent root false,
        .runToEnd program (CorpusProvider.cloneArguments repository root) (.ok run)]
      (.error (.corpusUnavailable root (CorpusProvider.failureReason run))) u

/-- A provider that clones does so where the corpus is absent. -/
theorem ensure_of_absent {repository : String} {program root : Path} {s t : σ}
    (hthere : p.isPresent root s = (false, t)) :
    CorpusProvider.ensure (.git repository program) p root s
      = CorpusProvider.clone p repository program root t := by
  rw [CorpusProvider.ensure.eq_def, Executor.bind_apply, hthere]
  rfl

theorem Ensured.ensure_eq {provider : CorpusProvider} {root : Path} {s t : σ} {deeds : List Deed}
    {answer : Except Fault CorpusStatus} (h : Ensured p provider root s deeds answer t) :
    provider.ensure p root s = (answer, t) := by
  cases h with
  | present hthere =>
    rw [CorpusProvider.ensure.eq_def, Executor.bind_apply, hthere]
    rfl
  | missing h hthere =>
    rw [h, CorpusProvider.ensure.eq_def, Executor.bind_apply, hthere]
    rfl
  | unstarted h hthere hclone =>
    rw [h, ensure_of_absent hthere, CorpusProvider.clone, Executor.bind_apply, hclone]
    rfl
  | cloned h hthere hclone hsuccess =>
    rw [h, ensure_of_absent hthere, CorpusProvider.clone, Executor.bind_apply, hclone]
    dsimp only
    rw [if_pos ((ExitState.success_iff _).mpr hsuccess)]
    rfl
  | failed h hthere hclone hfailure =>
    rw [h, ensure_of_absent hthere, CorpusProvider.clone, Executor.bind_apply, hclone]
    dsimp only
    rw [if_neg fun hsuccess ↦ hfailure ((ExitState.success_iff _).mp hsuccess)]
    rfl

theorem journals_ensure (provider : CorpusProvider) (root : Path) (s : σ) :
    Journals s (provider.ensure p root) (provider.ensure p.recorded root)
      (Ensured p provider root s) := by
  refine .note_bind ?_
  rintro (_ | _) t hthere
  · cases provider with
    | «local» => exact .pure (.missing rfl hthere)
    | git repository program =>
      refine .note_bind ?_
      rintro (e | run) u hclone
      · exact .pure (.unstarted rfl hthere hclone)
      · dsimp only
        split
        · rename_i hsuccess
          exact .pure (.cloned rfl hthere hclone ((ExitState.success_iff _).mp hsuccess))
        · rename_i hfailure
          refine .pure (.failed rfl hthere hclone ?_)
          exact fun hcode ↦ hfailure ((ExitState.success_iff _).mpr hcode)
  · exact .pure (.present hthere)

/-! ## The reports -/

/-- How the reports of a tally are written: the snapshot first, and the summary if it is wanted.
Each state is told by what happened last. -/
inductive Reported (p : Platform σ) (args : Arguments) (tally : Tally) :
    List Deed → Except Fault Unit → σ → Prop
  | unsaved (shown : String) (e : IoError) (t : σ) :
    Reported p args tally
      [.print shown, .writeText args.output (Snapshot.render tally) (.error e)]
      (.error (.reportUnwritable args.output e)) t
  | saved (shown said : String) (h : args.prComment = none) {s t : σ}
    (hwrite : p.writeText args.output (Snapshot.render tally) s = (.ok (), t)) :
    Reported p args tally
      [.print shown, .writeText args.output (Snapshot.render tally) (.ok ()), .print said]
      (.ok ()) (p.print said t).2
  | uncommented (shown said summary : String) {path : Path} (h : args.prComment = some path)
    {s t u : σ} (hwrite : p.writeText args.output (Snapshot.render tally) s = (.ok (), t))
    {e : IoError} (hfail : p.writeText path summary (p.print said t).2 = (.error e, u)) :
    Reported p args tally
      [.print shown, .writeText args.output (Snapshot.render tally) (.ok ()), .print said,
        .writeText path summary (.error e)]
      (.error (.reportUnwritable path e)) u
  | commented (shown said summary added : String) {path : Path} (h : args.prComment = some path)
    {s t u : σ} (hwrite : p.writeText args.output (Snapshot.render tally) s = (.ok (), t))
    (hcomment : p.writeText path summary (p.print said t).2 = (.ok (), u)) :
    Reported p args tally
      [.print shown, .writeText args.output (Snapshot.render tally) (.ok ()), .print said,
        .writeText path summary (.ok ()), .print added]
      (.ok ()) (p.print added u).2

theorem journals_writeReport (path : Path) (text : String) (s : σ) :
    Journals s (writeReport p path text) (writeReport p.recorded path text)
      fun deeds result t ↦ ∃ answer, p.writeText path text s = (answer, t) ∧
        deeds = [.writeText path text answer] ∧
        result = answer.mapError (.reportUnwritable path) := by
  refine .note_bind ?_
  rintro (e | _) t h
  · exact .pure ⟨.error e, h, rfl, rfl⟩
  · exact .pure ⟨.ok (), h, rfl, rfl⟩

theorem journals_report (colours : Bool) (c : Config) (tally : Tally) (s : σ) :
    Journals s (report p colours args c tally) (report p.recorded colours args c tally)
      (Reported p args tally) := by
  refine .note_bind ?_
  intro _ t _
  refine (journals_writeReport _ _ t).bind ?_
  rintro _ _ u ⟨e | _, hwrite, rfl, rfl⟩
  · exact .pure (.unsaved _ e u)
  refine .note_bind ?_
  intro _ v hprint
  have hv : v = (p.print _ u).2 := (congrArg Prod.snd hprint).symm
  split
  · rename_i h
    refine .pure ?_
    rw [hv]
    exact .saved _ _ h hwrite
  · rename_i path h
    refine (journals_writeReport _ _ v).bind ?_
    rintro _ _ w ⟨e | _, hcomment, rfl, rfl⟩
    · rw [hv] at hcomment
      exact .pure (.uncommented _ _ _ h hwrite hcomment)
    · refine .note_bind ?_
      intro _ z hprint'
      have hz : z = (p.print _ w).2 := (congrArg Prod.snd hprint').symm
      refine .pure ?_
      rw [hz]
      rw [hv] at hcomment
      exact .commented _ _ _ _ h hwrite hcomment

end Program

end Conformance
