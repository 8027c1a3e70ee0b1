import Conformance.Proofs.Program.Stages
/-!
# The account of the program

`Prepared` puts the accounts of the first three stages one behind the other, and `Executed` those of
all: it has one case for a setup that fails, one for a crash, and one for a program that comes to its
reports. Whatever the program has done when it ends, and the exit code that it ends with, can be read
off its cases.
-/

namespace Conformance

namespace Program

open CommandLine (Arguments)

variable {σ : Type} {p : Platform σ} {surroundings : Surroundings} {args : Arguments}

attribute [local irreducible] noting

/-! ## The setup -/

/-- The harness that the command line asks for. -/
abbrev harnessFor (args : Arguments) (c : Config) : Harness :=
  .ofConfig args.target c args.maxTests

/-- What the setup of the program comes to. -/
inductive Setup where
  | noTarget
  | noConfig (fault : Fault)
  | asked (config : Config) (answer : Except Fault CorpusStatus)

/-- The fault that a setup ends the program with, if it does. -/
def Setup.fault? (target : Path) : Setup → Option Fault
  | .noTarget => some (.targetNotFound target)
  | .noConfig f | .asked _ (.error f) => some f
  | .asked _ (.ok _) => none

/-- How the program is set up from the state `s` on: the target, then the configuration, then the
corpus, each only if what comes before it is as it should be. -/
inductive Prepared (p : Platform σ) (args : Arguments) (s : σ) : List Deed → Setup → σ → Prop
  | noTarget {t : σ} (htarget : p.isFile args.target s = (false, t)) :
    Prepared p args s [.isFile args.target false] .noTarget t
  | noConfig {s₁ t : σ} {read : List Deed} {f : Fault}
    (htarget : p.isFile args.target s = (true, s₁))
    (hconfig : Configured p args s₁ read (.error f) t) :
    Prepared p args s (.isFile args.target true :: read) (.noConfig f) t
  | asked {s₁ s₂ s₃ t : σ} {read said asked : List Deed} {c : Config}
    {answer : Except Fault CorpusStatus} (htarget : p.isFile args.target s = (true, s₁))
    (hconfig : Configured p args s₁ read (.ok c) s₂) (hsaid : Announced p args c s₂ said s₃)
    (hcorpus : Ensured p (if args.noFetch then .local else .git c.repository ⟨"git"⟩)
      args.corpusDir s₃ asked answer t) :
    Prepared p args s (.isFile args.target true :: (read ++ (said ++ asked))) (.asked c answer) t

/-- The answers of the platform decide what the setup comes to. -/
theorem Prepared.unique {s t t' : σ} {deeds deeds' : List Deed} {setup setup' : Setup}
    (h : Prepared p args s deeds setup t) (h' : Prepared p args s deeds' setup' t') :
    setup = setup' ∧ t = t' := by
  cases h with
  | noTarget htarget =>
    cases h' with
    | noTarget htarget' =>
      cases htarget.symm.trans htarget'
      exact ⟨rfl, rfl⟩
    | noConfig htarget' hconfig' => cases htarget.symm.trans htarget'
    | asked htarget' hconfig' hsaid' hcorpus' => cases htarget.symm.trans htarget'
  | noConfig htarget hconfig =>
    cases h' with
    | noTarget htarget' => cases htarget.symm.trans htarget'
    | noConfig htarget' hconfig' =>
      cases htarget.symm.trans htarget'
      cases hconfig.configFor_eq.symm.trans hconfig'.configFor_eq
      exact ⟨rfl, rfl⟩
    | asked htarget' hconfig' hsaid' hcorpus' =>
      cases htarget.symm.trans htarget'
      cases hconfig.configFor_eq.symm.trans hconfig'.configFor_eq
  | asked htarget hconfig hsaid hcorpus =>
    cases h' with
    | noTarget htarget' => cases htarget.symm.trans htarget'
    | noConfig htarget' hconfig' =>
      cases htarget.symm.trans htarget'
      cases hconfig.configFor_eq.symm.trans hconfig'.configFor_eq
    | asked htarget' hconfig' hsaid' hcorpus' =>
      cases htarget.symm.trans htarget'
      cases hconfig.configFor_eq.symm.trans hconfig'.configFor_eq
      cases hsaid.announceClone_eq.symm.trans hsaid'.announceClone_eq
      cases hcorpus.ensure_eq.symm.trans hcorpus'.ensure_eq
      exact ⟨rfl, rfl⟩

/-! ## The whole program -/

/-- What the console shows of an event of the run. -/
def shown (surroundings : Surroundings) (args : Arguments) (e : RunEvent) : String :=
  Piece.render (surroundings.usesColours args.noColour) (eventPieces e)

/-- The observer of the run, which shows its events. -/
abbrev showing (p : Platform σ) (surroundings : Surroundings) (args : Arguments) (e : RunEvent) :
    StateM σ Unit :=
  p.print (shown surroundings args e)

/-- The deed of showing an event. -/
abbrev shownDeed (surroundings : Surroundings) (args : Arguments) (e : RunEvent) : Deed :=
  .print (shown surroundings args e)

theorem quiet_shownDeed (surroundings : Surroundings) (args : Arguments) (e : RunEvent) :
    (shownDeed surroundings args e).Quiet :=
  ⟨rfl, rfl⟩

/-- What the program does from the state `s` on, and what it comes to. -/
inductive Executed (p : Platform σ) (surroundings : Surroundings) (args : Arguments) (s : σ) :
    List Deed → Except RunError Unit → σ → Prop
  | stopped {t : σ} {deeds : List Deed} {setup : Setup} {f : Fault}
    (h : Prepared p args s deeds setup t) (hfault : setup.fault? args.target = some f) :
    Executed p surroundings args s deeds (.error (.fault f)) t
  | crashed {t u : σ} {c : Config} {deeds tested : List Deed} {status : CorpusStatus} {e : Crash}
    (h : Prepared p args s deeds (.asked c (.ok status)) t)
    (htested : (harnessFor args c).Follows p (showing p surroundings args)
      (shownDeed surroundings args) args.corpusDir t (.ok status) tested (.error (.crash e)) u) :
    Executed p surroundings args s (deeds ++ tested) (.error (.crash e)) u
  | reported {t u v : σ} {c : Config} {deeds tested written : List Deed} {status : CorpusStatus}
    {r : RunReport} {result : Except Fault Unit} (h : Prepared p args s deeds (.asked c (.ok status)) t)
    (htested : (harnessFor args c).Follows p (showing p surroundings args)
      (shownDeed surroundings args) args.corpusDir t (.ok status) tested (.ok r) u)
    (hwritten : Reported p args r.tally written result v) :
    Executed p surroundings args s (deeds ++ (tested ++ written)) (result.mapError .fault) v

theorem journals_execute (s : σ) :
    Journals s (execute p surroundings args) (execute p.recorded surroundings args)
      (Executed p surroundings args s) := by
  refine (journals_ensureTarget args.target s).bind ?_
  rintro _ _ s₁ ⟨_ | _, htarget, rfl, rfl⟩
  · exact .pure (.stopped (.noTarget htarget) rfl)
  refine (journals_configFor s₁).bind ?_
  rintro read (f | c) s₂ hconfig
  · refine .pure ?_
    rw [List.append_nil]
    exact .stopped (.noConfig htarget hconfig) rfl
  refine (journals_announceClone c s₂).bind ?_
  rintro said _ u hsaid
  have hrun : Journals u
      ((harnessFor args c).runWith p (showing p surroundings args)
        ((providerFor args c).ensure p) args.corpusDir)
      ((harnessFor args c).runWith p.recorded
        (observed (shownDeed surroundings args) (showing p surroundings args))
        ((providerFor args c).ensure p.recorded) args.corpusDir) _ :=
    Harness.journals_runWith (journals_ensure (providerFor args c) args.corpusDir u)
  refine hrun.bind ?_
  rintro _ result v ⟨asked, answer, s₃, tested, rfl, hcorpus, hfollows⟩
  have hbefore := Prepared.asked htarget hconfig hsaid hcorpus
  cases hfollows with
  | fault f s₃ =>
    refine .pure ?_
    rw [List.append_nil, List.append_nil]
    exact .stopped hbefore rfl
  | @ready _ _ status listing hlisting found hfound tests deeds result htesting =>
    have hfollows := Harness.Follows.ready status listing hlisting hfound htesting
    rcases result with e | tally
    · have h := Executed.crashed hbefore hfollows
      refine .pure ?_
      simpa only [List.cons_append, List.append_assoc, List.nil_append, List.append_nil] using h
    · refine (journals_report _ c tally v).bind ?_
      intro written result t hwritten
      have h := Executed.reported hbefore hfollows hwritten
      refine .pure ?_
      simpa only [List.cons_append, List.append_assoc, List.nil_append, List.append_nil] using h

/-- The exit code of a result. -/
def exitCodeFor : Except RunError Unit → Int
  | .ok () => 0
  | .error e => exitCodeOf e

theorem journals_perform (p : Platform σ) (surroundings : Surroundings) (args : Arguments) (s : σ) :
    Journals s (perform p surroundings args) (perform p.recorded surroundings args)
      fun deeds ending t ↦ ∃ result, (execute p surroundings args s).1 = result ∧
        Executed p surroundings args s deeds result t ∧ ending.exitCode = exitCodeFor result := by
  refine (journals_execute s).and_eq.bind ?_
  rintro deeds (e | _) t ⟨hexecuted, hresult⟩
  · refine .pure ⟨.error e, congrArg Prod.fst hresult, ?_, rfl⟩
    rwa [List.append_nil]
  · refine .pure ⟨.ok (), congrArg Prod.fst hresult, ?_, rfl⟩
    rwa [List.append_nil]

end Program

end Conformance
