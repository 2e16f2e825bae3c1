/-
# Deferral.Proofs.CommandLine.Tasks -- parts of commands

The parts of a command are actions on what it has done so far. Most of them only look: they read
files or settings and change nothing. Opening a folder may make it. What is printed and what is
requested is left to the parts that say so.
-/

import Deferral.CommandLine
import Deferral.Proofs.Store.Calls

namespace Deferral

/-- What a command has done when it begins. -/
def Surroundings.start (around : Surroundings) : Progress where
  files := around.files
  lines := []
  requests := []
  log := []

namespace Command

/-! ## Items that are missing -/

section

variable {task : Task Unit} {progress after : Progress}

/-- The line on an item that is not stored. -/
def missingLine (id : Int) : String := s!"❌ {Failure.notFoundMessage (toString id)}"

theorem orMissing_ok (h : task progress = (.ok (), after)) :
    orMissing task progress = (.ok 0, after) :=
  Action.try_ok h (c := Except.error 0) rfl

theorem orMissing_missing {id : Int} (h : task progress = (.error (.itemNotFound id), after)) :
    orMissing task progress =
      (.ok 1, { after with lines := after.lines ++ [missingLine id] }) :=
  Action.try_handled h (c := Except.error 1) rfl

theorem orMissing_error {failure : Failure} (h : task progress = (.error failure, after))
    (hfailure : ∀ id, failure ≠ .itemNotFound id) :
    orMissing task progress = (.error failure, after) := by
  refine Action.try_error h ?_
  cases failure <;> first | rfl | exact absurd rfl (hfailure _)

end

/-! ## Printing -/

/-- Lines are printed one after the other. -/
theorem forIn_say (lines : List String) (progress : Progress) :
    (forIn lines PUnit.unit fun line _ => do
      say line
      pure (.yield PUnit.unit) : Task PUnit) progress =
      (.ok PUnit.unit, { progress with lines := progress.lines ++ lines }) := by
  induction lines generalizing progress with
  | nil =>
      rw [List.append_nil]
      rfl
  | cons line lines ih =>
      have hsay : (do say line; pure (.yield PUnit.unit) : Task (ForInStep PUnit)) progress =
          (.ok (.yield PUnit.unit), { progress with lines := progress.lines ++ [line] }) := rfl
      rw [List.forIn_cons, Action.bind_ok hsay]
      refine (ih _).trans ?_
      rw [List.append_assoc]
      rfl

/-! ## Looking, and opening a folder -/

/-- A part of a command that changes nothing but files. -/
def ChangesFiles {α : Type} (task : Task α) : Prop :=
  ∀ progress, ∃ files, (task progress).2 = { progress with files }

/-- A part of a command that changes nothing. -/
def Looks {α : Type} (task : Task α) : Prop := ∀ progress, (task progress).2 = progress

section

variable {α β : Type} {first : Task α} {next : α → Task β}

theorem Looks.bind (h : Looks first) (hnext : ∀ a, Looks (next a)) : Looks (first >>= next) :=
  Action.bind_rel (r := fun before after => after = before) (fun hfirst hsecond =>
    hsecond.trans hfirst) h hnext

theorem looks_ofExcept (x : Except Failure α) : Looks (ofExcept x : Task α) := fun progress => by
  rw [Action.ofExcept_run]

theorem Looks.changesFiles (h : Looks first) : ChangesFiles first := fun progress =>
  ⟨progress.files, h progress⟩

theorem ChangesFiles.bind (h : ChangesFiles first) (hnext : ∀ a, ChangesFiles (next a)) :
    ChangesFiles (first >>= next) := by
  refine Action.bind_rel (r := fun (before after : Progress) =>
    ∃ files, after = { before with files }) ?_ h hnext
  rintro before middle after ⟨files, rfl⟩ ⟨files', rfl⟩
  exact ⟨files', rfl⟩

end

theorem looks_loadSettings (load : Loader) (around : Surroundings) (config : Pathname) :
    Looks (loadSettings load around config) := by
  refine Looks.bind (Looks.bind (fun _ => rfl) fun start => ?_) fun document => looks_ofExcept _
  refine Looks.bind (looks_ofExcept _) fun present => ?_
  cases present with
  | false => exact fun _ => rfl
  | true => exact Looks.bind (looks_ofExcept _) fun text => looks_ofExcept _

theorem changesFiles_openFolder (path : Pathname) : ChangesFiles (openFolder path) := by
  refine ChangesFiles.bind (Looks.changesFiles fun _ => rfl) fun start => ?_
  refine ChangesFiles.bind (looks_ofExcept _).changesFiles fun present => ?_
  cases present with
  | true =>
      refine ChangesFiles.bind (looks_ofExcept _).changesFiles fun place => ?_
      cases place.entry <;> exact Looks.changesFiles fun _ => rfl
  | false =>
      refine ChangesFiles.bind (looks_ofExcept _).changesFiles fun made => ?_
      exact ChangesFiles.bind (fun _ => ⟨made.1, rfl⟩) fun _ => Looks.changesFiles fun _ => rfl

/-- An operation of the service runs on the store in a folder. -/
theorem performOn_run {α : Type} {around : Surroundings} {settings : Settings} {queue : Queue}
    {act : Action α} {progress opened : Progress} {location : Location} {result : Except Failure α}
    {service : Service} (verbose : Bool) (id : Int)
    (hopen : openFolder settings.contentFolder progress = (.ok (some location), opened))
    (hact : act ⟨⟨settings.contentFolder, opened.files.folderAt location⟩, queue, none,
      around.clock, []⟩ = (result, service)) :
    ∃ after, performOn around verbose settings queue id act progress = (result, after) ∧
      after.lines = progress.lines ∧ after.requests = progress.requests ++ service.queue.sent := by
  obtain ⟨files, hfiles⟩ := changesFiles_openFolder settings.contentFolder progress
  rw [hopen] at hfiles
  dsimp only at hfiles
  subst hfiles
  rw [performOn, Action.bind_ok hopen]
  simp only [perform, hact]
  exact ⟨_, rfl, rfl, rfl⟩

end Command

end Deferral
