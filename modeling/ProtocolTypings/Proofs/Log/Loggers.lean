import Mathlib.Data.List.Induction
import Mathlib.Data.List.TakeWhile
import ProtocolTypings.Log.Loggers

/-!
# What runs of the loggers show

However the steps alternate, the loggers show what the latest configuration says, and each message once: the package has
one handler that shows messages, and a message comes to it from any logger that a name stands for. The journal shows the
same.
-/

namespace ProtocolTypings.Log

namespace Loggers

/-! ## Names -/

theorem cuts_append {cs : List Char} (h : '.' ∉ cs) (rest : List Char) :
    cuts (cs ++ '.' :: rest) = String.ofList rest.reverse :: cuts rest := by
  induction cs with
  | nil => rfl
  | cons c cs ih =>
      rw [List.mem_cons, not_or] at h
      rw [List.cons_append, cuts, if_neg (Ne.symm h.1), ih h.2]

/-- A name with one more part is right below. -/
theorem namesAbove_append {part : String} (h : '.' ∉ part.toList) (name : String) :
    namesAbove (name ++ "." ++ part) = name :: namesAbove name := by
  have hchars : (name ++ "." ++ part).toList.reverse = part.toList.reverse ++ '.' :: name.toList.reverse := by
    simp
  rw [namesAbove, hchars, cuts_append (by rwa [List.mem_reverse]), List.reverse_reverse, String.ofList_toList,
    namesAbove]

theorem namesAbove_rootName : namesAbove rootName = [] := by
  decide +kernel

theorem notMem_lastPart (name : String) : '.' ∉ (lastPart name).toList := by
  intro h
  rw [lastPart, String.toList_ofList, List.mem_reverse] at h
  exact absurd (List.mem_takeWhile_imp h) (by decide)

/-- A name stands for the logger of the package or for one right below it. -/
theorem loggerName_cases (name : Option String) :
    loggerName name = rootName ∨ ∃ part, '.' ∉ part.toList ∧ loggerName name = rootName ++ "." ++ part := by
  cases name with
  | none => exact .inl rfl
  | some name =>
      rw [loggerName]
      split
      · exact .inl rfl
      · exact .inr ⟨lastPart name, notMem_lastPart name, rfl⟩

/-! ## Runs -/

/-- The loggers after the steps. -/
def run (memory : Nat) (ls : Loggers) (steps : List Step) : Loggers :=
  steps.foldl (fun ls step => (ls.perform memory step).1) ls

/-- The level that a step chooses for the package. -/
def Step.chosen : Step → Option Level
  | .configure true _ => some .debug
  | .configure false true => some .warning
  | .configure false false => some .info
  | .log _ _ _ _ => none

/-- The level that the latest configuration chose, if there was one. -/
def latest (steps : List Step) : Option Level :=
  (steps.filterMap Step.chosen).getLast?

theorem run_concat (memory : Nat) (ls : Loggers) (steps : List Step) (step : Step) :
    ls.run memory (steps ++ [step]) = ((ls.run memory steps).perform memory step).1 :=
  List.foldl_append

theorem latest_concat (steps : List Step) (step : Step) :
    latest (steps ++ [step]) = step.chosen.or (latest steps) := by
  rw [latest, List.filterMap_append, List.getLast?_append, latest]
  cases hchosen : step.chosen <;> simp [hchosen]

/-- The package has no handlers, and the loggers right below it are as they come. Nothing above it shows messages. -/
structure Fresh (ls : Loggers) : Prop where
  package : (ls.find rootName).handlers = []
  below : ∀ part, '.' ∉ part.toList →
    (ls.find (rootName ++ "." ++ part)).level = none ∧ .echo ∉ (ls.find (rootName ++ "." ++ part)).handlers
  top : .echo ∉ ls.top.handlers

/-- The package shows messages from a level on, or none at all, and no other logger on their way shows them too. -/
structure ShowsFrom (ls : Loggers) (least : Option Level) : Prop where
  handlers : (ls.find rootName).handlers = if least.isSome then [.echo] else []
  level : ∀ l ∈ least, (ls.find rootName).level = some l
  below : ∀ part, '.' ∉ part.toList →
    (ls.find (rootName ++ "." ++ part)).level = none ∧ .echo ∉ (ls.find (rootName ++ "." ++ part)).handlers
  top : .echo ∉ ls.top.handlers

section

variable {memory : Nat} {ls : Loggers} {least : Option Level}

theorem Fresh.showsFrom (h : ls.Fresh) : ls.ShowsFrom none where
  handlers := h.package
  level := nofun
  below := h.below
  top := h.top

theorem below_ne_rootName (part : String) : rootName ++ "." ++ part ≠ rootName := by
  intro h
  have hlength := congrArg String.length h
  simp only [String.length_append] at hlength
  have hpoint : ".".length = 1 := rfl
  omega

theorem find_configure_self (verbose quiet : Bool) :
    (ls.configure verbose quiet).find rootName =
      ⟨some (Journal.levelFor verbose quiet),
        if .echo ∈ (ls.find rootName).handlers then (ls.find rootName).handlers
        else (ls.find rootName).handlers ++ [.echo]⟩ := by
  rw [configure, find, Entries.lookup_put_self, Option.getD_some]

theorem find_configure_of_ne {name : String} (h : name ≠ rootName) (verbose quiet : Bool) :
    (ls.configure verbose quiet).find name = ls.find name := by
  rw [configure, find, Entries.lookup_put_of_ne h, find]

theorem chosen_configure (verbose quiet : Bool) :
    (Step.configure verbose quiet).chosen = some (Journal.levelFor verbose quiet) := by
  cases verbose <;> cases quiet <;> rfl

/-- A configuration sets the level and leaves one handler, whether there was one or none. A message changes nothing. -/
theorem ShowsFrom.perform (h : ls.ShowsFrom least) (step : Step) :
    (ls.perform memory step).1.ShowsFrom (step.chosen.or least) := by
  cases step with
  | configure verbose quiet =>
      rw [chosen_configure, Option.some_or]
      refine ⟨?_, ?_, ?_, h.top⟩
      · have hhandlers := h.handlers
        rw [Loggers.perform, find_configure_self]
        cases least <;> simp_all
      · intro l hl
        rw [Loggers.perform, find_configure_self, ← Option.mem_def.1 hl]
      · intro part hpart
        rw [Loggers.perform, find_configure_of_ne (below_ne_rootName part)]
        exact h.below part hpart
  | log name rank template args => exact h

theorem Fresh.showsFrom_run (h : ls.Fresh) (steps : List Step) : (ls.run memory steps).ShowsFrom (latest steps) := by
  -- From the end: the latest configuration decides.
  induction steps using List.reverseRecOn with
  | nil => exact h.showsFrom
  | append_singleton steps step ih =>
      rw [run_concat, latest_concat]
      exact ih.perform step

/-! ## Messages -/

theorem flatMap_shown_of_notMem {handlers : List Handler} (h : .echo ∉ handlers) (template : String)
    (args : List Json) : handlers.flatMap (·.shown memory template args) = [] := by
  rw [List.flatMap_eq_nil_iff]
  intro handler hhandler
  cases handler with
  | echo => exact absurd hhandler h
  | other => rfl

/-- Any logger that a name stands for passes its messages on to the package. -/
theorem ShowsFrom.wayUp_eq (h : ls.ShowsFrom least) (name : Option String) :
    ∃ below, ls.wayUp (loggerName name) = below ++ [ls.find rootName, ls.top] ∧
      ∀ logger ∈ below, logger.level = none ∧ .echo ∉ logger.handlers := by
  rcases loggerName_cases name with hroot | ⟨part, hpart, hbelow⟩
  · refine ⟨[], ?_, by simp⟩
    rw [wayUp, hroot, namesAbove_rootName]
    rfl
  · refine ⟨[ls.find (rootName ++ "." ++ part)], ?_, List.forall_mem_singleton.2 (h.below part hpart)⟩
    rw [wayUp, hbelow, namesAbove_append hpart, namesAbove_rootName]
    rfl

theorem rank_pos (level : Level) : 0 < level.rank := by
  cases level <;> decide

/-- A message to any of the loggers is shown once, if it is at least of the level. -/
theorem ShowsFrom.shown_eq (h : ls.ShowsFrom least) (name : Option String) (rank : Int) (template : String)
    (args : List Json) :
    ls.shown memory (loggerName name) rank template args =
      least.elim [] fun least => if least.rank ≤ rank then (fill memory template args).toList else [] := by
  obtain ⟨below, hway, hbelow⟩ := h.wayUp_eq name
  have hsilent : (below.flatMap fun logger => logger.handlers.flatMap (·.shown memory template args)) = [] :=
    List.flatMap_eq_nil_iff.2 fun logger hlogger => flatMap_shown_of_notMem (hbelow logger hlogger).2 template args
  have hlines : ((ls.wayUp (loggerName name)).flatMap fun logger =>
        logger.handlers.flatMap (·.shown memory template args)) =
      if least.isSome then (fill memory template args).toList else [] := by
    rw [hway, List.flatMap_append, hsilent, List.flatMap_cons, List.flatMap_singleton, h.handlers,
      flatMap_shown_of_notMem h.top]
    cases least <;> simp [Handler.shown]
  rw [shown, hlines]
  cases least with
  | none => exact ite_self _
  | some least =>
      have hlevel : ls.levelAt (loggerName name) = some least := by
        have hnone : below.findSome? (·.level) = none :=
          List.findSome?_eq_none_iff.2 fun logger hlogger => (hbelow logger hlogger).1
        rw [levelAt, hway, List.findSome?_append, hnone, Option.none_or, List.findSome?_cons, h.level least rfl]
      have hadmits : ls.admits (loggerName name) rank = decide ((least.rank : Int) ≤ rank) := by
        have hpos := rank_pos least
        rw [admits, hlevel, Option.elim_some, Bool.and_eq_right_iff_imp]
        simp only [decide_eq_true_eq]
        omega
      simp only [hadmits, decide_eq_true_eq, Option.isSome_some, if_true, Option.elim_some]

/-! ## The journal -/

/-- The journal that is configured whenever the loggers are. -/
def journalAfter (steps : List Step) : Journal :=
  steps.foldl (fun j step => match step with
    | .configure verbose quiet => j.configure verbose quiet
    | .log _ _ _ _ => j) {}

theorem journalAfter_eq (steps : List Step) :
    journalAfter steps = { level := latest steps, handlers := if (latest steps).isSome then 1 else 0 } := by
  induction steps using List.reverseRecOn with
  | nil => rfl
  | append_singleton steps step ih =>
      rw [journalAfter, List.foldl_append, ← journalAfter, ih, latest_concat]
      cases step with
      | configure verbose quiet =>
          rw [chosen_configure, Option.some_or]
          cases latest steps <;> rfl
      | log name rank template args => rfl

/-- The journal shows what the loggers show, whichever of them a message is given to. -/
theorem Fresh.shown_run (h : ls.Fresh) (steps : List Step) (name : Option String) (level : Level) (template : String)
    (args : List Json) :
    (ls.run memory steps).shown memory (loggerName name) level.rank template args =
      (journalAfter steps).shownFilled memory level template args := by
  rw [(h.showsFrom_run steps).shown_eq, journalAfter_eq, Journal.shownFilled]
  cases hlatest : latest steps with
  | none => rfl
  | some least =>
      have hadmits : Journal.admits ⟨some least, 1⟩ level = decide ((least.rank : Int) ≤ level.rank) := by
        rw [Journal.admits, Option.elim_some, decide_eq_decide]
        omega
      simp only [Option.isSome_some, if_true, Option.elim_some, hadmits, decide_eq_true_eq]
      split
      · rename_i hle
        cases fill memory template args with
        | none => rfl
        | some message =>
            rw [Option.elim_some, Journal.shown, hadmits, if_pos (decide_eq_true hle)]
            rfl
      · rfl

/-! ## All runs -/

/-- The package has no handler that shows messages before the first configuration and exactly one from then on, and the
level that the latest configuration chose. A message to the logger that any name stands for is shown once if there was
a configuration, the message is at least of that level and its template can be filled in, and never otherwise. Every
such logger is that of the package or right below it. -/
theorem run_shows_latest (memory : Nat) (hfresh : ls.Fresh) (steps : List Step) :
    ((ls.run memory steps).find rootName).handlers = (if (latest steps).isSome then [.echo] else []) ∧
    (∀ least ∈ latest steps, ((ls.run memory steps).find rootName).level = some least) ∧
    (∀ name rank template args, ((ls.run memory steps).perform memory (.log name rank template args)).2 =
      (latest steps).elim [] fun least => if least.rank ≤ rank then (fill memory template args).toList else []) ∧
    ∀ name, loggerName name = rootName ∨ namesAbove (loggerName name) = [rootName] := by
  have hshows : (ls.run memory steps).ShowsFrom (latest steps) := hfresh.showsFrom_run steps
  refine ⟨hshows.handlers, hshows.level, hshows.shown_eq, fun name => ?_⟩
  rcases loggerName_cases name with hroot | ⟨part, hpart, hbelow⟩
  · exact .inl hroot
  · rw [hbelow, namesAbove_append hpart, namesAbove_rootName]
    exact .inr rfl

end

/-- Something else listens at the top. -/
def watchedLoggers : Loggers where
  top := { level := some .critical, handlers := [.other] }

/-- A message before the first of three configurations, and one between them. -/
def noisySteps : List Step :=
  [.log (some "early") 50 "lost" [], .configure false true, .log none 20 "too low" [], .configure true true,
    .configure false false]

theorem run_shows_latest_noisy :
    watchedLoggers.Fresh ∧ latest noisySteps = some .info ∧
      ((watchedLoggers.run 4096 noisySteps).find rootName).handlers = [.echo] ∧
      ((watchedLoggers.run 4096 noisySteps).find rootName).level = some .info ∧
      ((watchedLoggers.run 4096 noisySteps).perform 4096 (.log (some "a..b") 20 "%d of %s" [.int 3, .str "x"])).2 =
        ["3 of x"] ∧
      ((watchedLoggers.run 4096 noisySteps).perform 4096 (.log (some "") 20 "%d" [.str "x"])).2 = [] ∧
      ((watchedLoggers.run 4096 noisySteps).perform 4096 (.log none 19 "too low" [])).2 = [] := by
  have hfresh : watchedLoggers.Fresh := ⟨rfl, fun _ _ => ⟨rfl, by simp [find, watchedLoggers]⟩, by decide⟩
  have hlatest : latest noisySteps = some .info := by decide
  obtain ⟨hhandlers, hlevel, hshown, -⟩ := run_shows_latest 4096 hfresh noisySteps
  rw [hlatest] at hhandlers hshown
  refine ⟨hfresh, hlatest, hhandlers, hlevel _ hlatest, ?_, ?_, ?_⟩
  · rw [hshown]
    decide +kernel
  · rw [hshown]
    decide +kernel
  · rw [hshown]
    decide

end Loggers

end ProtocolTypings.Log
