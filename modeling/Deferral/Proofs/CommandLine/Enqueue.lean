/-
# Deferral.Proofs.CommandLine.Enqueue -- the command that enqueues the jobs of an item

The command reads the settings, opens the folder of the items, and enqueues the jobs that the item
asks for, the deletion before the publication. An endpoint is sent them in this order, and nothing
after the first one that it refuses. A dry run sends nothing and prints the jobs.
-/

import Deferral.Proofs.CommandLine.Tasks
import Deferral.Proofs.Job.Sequence
import Deferral.Proofs.Store.Durability

namespace Deferral

/-- The answer to a request of a command. One that nothing is known of accepts the job. -/
def Surroundings.answer (around : Surroundings) (k : Nat) : Answer :=
  around.answers.getD k .accepted

/-- The endpoint that jobs are submitted to. -/
def Settings.endpoint (settings : Settings) : Endpoint where
  url := settings.jobQueueUrl
  token := (settings.jobQueueToken.map Value.text).getD .null
  timeout := settings.jobQueueTimeout

namespace Command

/-! ## Enqueuing the jobs of an item -/

/-- The line on an item that asks for no job. -/
def nothingLine (id : Int) : String := s!"• Item {id} has nothing to schedule"

section

variable {settings : Settings} {service : Service} {id : Int} {item : Item}

theorem find_run (id : Value) (service : Service) :
    Service.find id service = (service.store.find id, service) := by
  have hget : (get : Action Service) service = (.ok service, service) := rfl
  rw [Service.find, Action.bind_ok hget, Action.ofExcept_run]

theorem enqueueJobs_missing (hfind : service.store.find (.int id) = .ok none) :
    enqueueJobs settings id service = (.error (.itemNotFound id), service) := by
  rw [enqueueJobs, Action.bind_ok ((find_run ..).trans (by rw [hfind]))]
  rfl

/-- The jobs of an item that is found are enqueued one after the other. -/
theorem enqueueJobs_found {jobs : List JobRequest}
    (hfind : service.store.find (.int id) = .ok (some item))
    (hjobs : item.jobsAt service.clock = .ok jobs) :
    enqueueJobs settings id service = (Service.enqueueEach jobs >>= fun _ =>
      if !jobs.isEmpty then do ofExcept (enqueuedLines settings (← get).queue)
      else return [nothingLine id]) service := by
  rw [enqueueJobs, Action.bind_ok ((find_run ..).trans (by rw [hfind]))]
  exact act_eq_enqueueEach (k := fun enqueued =>
    if enqueued then do ofExcept (enqueuedLines settings (← get).queue)
    else return [nothingLine id]) hjobs

theorem keepsMemory_enqueueJobs (settings : Settings) (id : Int) :
    Action.KeepsMemory (enqueueJobs settings id) := by
  refine .bind (Action.keepsMemory_of_eq fun service => by rw [find_run]) fun found => ?_
  cases found with
  | none => exact Action.keepsMemory_of_eq fun _ => rfl
  | some item =>
      refine .bind (Action.keepsMemory_act (.deletion item none)) fun deleting => ?_
      refine .bind (Action.keepsMemory_act (.publication item)) fun publishing => ?_
      cases deleting || publishing with
      | false => exact Action.keepsMemory_of_eq fun _ => rfl
      | true =>
          exact .bind (Action.keepsMemory_of_eq fun _ => rfl) fun service =>
            Action.keepsMemory_ofExcept _

end

/-! ## What the command leaves -/

/-- How a command ends, what it has printed, and the jobs that it has sent requests for. -/
structure Leaves (outcome : Except Failure Nat × Progress) (result : Except Failure Nat)
    (lines : List String) (jobs : List JobRequest) : Prop where
  result : outcome.1 = result
  lines : outcome.2.lines = lines
  requests : List.Forall₂ Request.IsFor outcome.2.requests jobs

/-- The words are a command that enqueues the jobs of an item, and what it finds are these settings
and, in their folder, this store. -/
structure Enqueues (around : Surroundings) (words : List String) (id : Int) (dryRun : Bool)
    (settings : Settings) (store : Store) : Prop where
  command : ∃ config verbose, ofWords? words = some (.enqueue id config dryRun verbose) ∧
    (readSettings around config around.start).1 = .ok settings
  store : ∃ location opened,
    openFolder settings.contentFolder around.start = (.ok (some location), opened) ∧
      store = ⟨settings.contentFolder, opened.files.folderAt location⟩

/-- The service that enqueues the jobs. -/
def serviceOf (around : Surroundings) (settings : Settings) (dryRun : Bool) (store : Store) :
    Service where
  store
  queue := queueOf around settings dryRun
  published := none
  clock := around.clock
  log := []

namespace Enqueues

variable {around : Surroundings} {words : List String} {id : Int} {dryRun : Bool}
  {settings : Settings} {store : Store} {after : Service} {jobs : List JobRequest}

/-- The command does what the service does, and prints the lines that it gives. -/
theorem exists_task (h : Enqueues around words id dryRun settings store)
    {result : Except Failure (List String)}
    (hdone : enqueueJobs settings id (serviceOf around settings dryRun store) = (result, after)) :
    ∃ task : Task Unit, run around words = orMissing task around.start ∧ ∃ progress : Progress,
      task around.start = (result.map fun _ => (), progress) ∧
      progress.lines = result.toOption.getD [] ∧ progress.requests = after.queue.sent := by
  obtain ⟨config, verbose, hwords, hsettings⟩ := h.command
  obtain ⟨location, opened, hopen, rfl⟩ := h.store
  have hread : readSettings around config around.start = (.ok settings, around.start) :=
    Prod.ext hsettings (looks_loadSettings Yaml.read around config around.start)
  obtain ⟨middle, hperform, hlines, hrequests⟩ := performOn_run verbose id hopen hdone
  refine ⟨runEnqueue around id config dryRun verbose, ?_, ?_⟩
  · rw [run, hwords]
    rfl
  · rw [runEnqueue, Action.bind_ok hread]
    cases result with
    | error failure => exact ⟨middle, Action.bind_error hperform, hlines, hrequests⟩
    | ok lines =>
        rw [Action.bind_ok hperform]
        refine ⟨_, Action.bind_ok (forIn_say lines middle), ?_, hrequests⟩
        show middle.lines ++ lines = lines
        rw [hlines]
        rfl

theorem leaves_of_ok (h : Enqueues around words id dryRun settings store) {lines : List String}
    (hdone : enqueueJobs settings id (serviceOf around settings dryRun store) = (.ok lines, after))
    (hsent : List.Forall₂ Request.IsFor after.queue.sent jobs) :
    Leaves (run around words) (.ok 0) lines jobs := by
  obtain ⟨task, hrun, progress, htask, hlines, hrequests⟩ := h.exists_task hdone
  rw [hrun, orMissing_ok htask]
  exact ⟨rfl, hlines, hrequests ▸ hsent⟩

theorem leaves_of_missing (h : Enqueues around words id dryRun settings store) {n : Int}
    (hdone : enqueueJobs settings id (serviceOf around settings dryRun store) =
      (.error (.itemNotFound n), after))
    (hsent : List.Forall₂ Request.IsFor after.queue.sent jobs) :
    Leaves (run around words) (.ok 1) [missingLine n] jobs := by
  obtain ⟨task, hrun, progress, htask, hlines, hrequests⟩ := h.exists_task hdone
  rw [hrun, orMissing_missing htask]
  refine ⟨rfl, ?_, hrequests ▸ hsent⟩
  show progress.lines ++ [missingLine n] = [missingLine n]
  rw [hlines]
  rfl

theorem leaves_of_error (h : Enqueues around words id dryRun settings store) {failure : Failure}
    (hfailure : ∀ n, failure ≠ .itemNotFound n)
    (hdone : enqueueJobs settings id (serviceOf around settings dryRun store) =
      (.error failure, after))
    (hsent : List.Forall₂ Request.IsFor after.queue.sent jobs) :
    Leaves (run around words) (.error failure) [] jobs := by
  obtain ⟨task, hrun, progress, htask, hlines, hrequests⟩ := h.exists_task hdone
  rw [hrun, orMissing_error htask hfailure]
  exact ⟨rfl, hlines, hrequests ▸ hsent⟩

end Enqueues

/-! ## Real runs and dry runs -/

/-- The line on jobs that an endpoint has accepted. -/
def submittedLine (url : String) : String := s!"✓ Submitted jobs to {url}"

/-- The line before the jobs of a dry run. -/
def dryRunLine : String := "⚠️  Dry run, nothing was sent to the job queue:"

/-- The line of a dry run on a job for an instant: a queue in memory may keep another one, less than
16 microseconds away. -/
def ShowsJob (id : Int) (job : JobRequest) (line : String) : Prop :=
  ∃ kept : Instant, jobLine ⟨job.kind, .int id, .utc kept⟩ = .ok line ∧
    |(kept.micros : Int) - job.fireAt.utcMicros| ≤ 15

/-- How a command that submits jobs to an endpoint ends. If it accepts all of them, then they have
all been sent. If it refuses one, then this is the last one that was sent, and the failure names
it. -/
structure Submits (around : Surroundings) (outcome : Except Failure Nat × Progress)
    (jobs : List JobRequest) (url : String) (address : Address) : Prop where
  accepted : (∀ k < jobs.length, (around.answer k).accepts = true) →
    Leaves outcome (.ok 0) [submittedLine url] jobs
  refused : ∀ k (hk : k < jobs.length), (∀ i < k, (around.answer i).accepts = true) →
    (around.answer k).accepts = false →
      ∃ report, (around.answer k).report? address = .ok (some report) ∧
        Leaves outcome (.error (.jobNotSubmitted jobs[k].kind.name report)) [] (jobs.take (k + 1))

/-- A job for an instant that is not among the last of the calendar is kept in memory, and shown. -/
theorem exists_keptLine (kind : JobKind) {itemId : Value} {id : Int} {due : Instant} {text : String}
    (hid : itemId.toInteger = .ok id) (htext : Value.plainString (.int id) = .ok text)
    (hdue : (DateTime.utc due).utcMicros + 15 < (Date.dayCount * microsPerDay : Nat)) :
    ∃ kept line, (⟨kind, itemId, .utc due⟩ : JobRequest).IsKeptAs kept ∧
      jobLine kept = .ok line ∧ ShowsJob id ⟨kind, itemId, .utc due⟩ line := by
  have hutc : (DateTime.utc due).utcMicros = due.micros := sub_zero _
  rw [hutc, ← Nat.cast_ofNat, ← Nat.cast_add, Nat.cast_lt] at hdue
  obtain ⟨kept, hkept, hnear⟩ := JobRequest.exists_isKeptAs kind hid hdue
  have hline : ∃ line, jobLine ⟨kind, .int id, .utc kept⟩ = .ok line := by
    rw [jobLine, htext, ok_bind, DateTime.toInstant_utc]
    exact ⟨_, rfl⟩
  obtain ⟨line, hline⟩ := hline
  refine ⟨_, line, hkept, hline, kept, hline, ?_⟩
  rw [hutc]
  rwa [Instant.sinceEpoch, Instant.sinceEpoch, sub_sub_sub_cancel_right] at hnear

theorem exists_keptLines {id : Int} {jobs : List JobRequest}
    (h : ∀ job ∈ jobs, ∃ kept line, job.IsKeptAs kept ∧ jobLine kept = .ok line ∧
      ShowsJob id job line) :
    ∃ kept lines, List.Forall₂ JobRequest.IsKeptAs jobs kept ∧ kept.mapM jobLine = .ok lines ∧
      List.Forall₂ (ShowsJob id) jobs lines := by
  induction jobs with
  | nil => exact ⟨[], [], .nil, rfl, .nil⟩
  | cons job jobs ih =>
      obtain ⟨first, line, hfirst, hline, hshows⟩ := h job List.mem_cons_self
      obtain ⟨kept, lines, hkept, hlines, hrest⟩ := ih fun other hother =>
        h other (List.mem_cons_of_mem _ hother)
      refine ⟨first :: kept, line :: lines, .cons hfirst hkept, ?_, .cons hshows hrest⟩
      rw [List.mapM_cons, hline, ok_bind, hlines]
      rfl

theorem queueOf_real {around : Surroundings} {settings : Settings} {dryRun : Bool} {url : String}
    (hdryRun : dryRun = false) (hurl : settings.jobQueueUrl = .text url) (hempty : url ≠ "") :
    queueOf around settings dryRun = .http ⟨settings.endpoint, around.answers, []⟩ := by
  have hpresent : settings.jobQueueUrl.isPresent = true := by
    rw [hurl]
    exact bne_iff_ne.mpr hempty
  rw [queueOf, hdryRun, hpresent]
  rfl

theorem queueOf_dry {around : Surroundings} {settings : Settings} {dryRun : Bool}
    (h : dryRun = true ∨ settings.jobQueueUrl.isPresent = false) :
    queueOf around settings dryRun = .memory [] := by
  rw [queueOf]
  rcases h with rfl | habsent
  · rfl
  · rw [habsent, Bool.not_false, Bool.or_true]
    rfl

/-- A queue has sent nothing at first. -/
theorem forall₂_sent_queueOf (around : Surroundings) (settings : Settings) (dryRun : Bool) :
    List.Forall₂ Request.IsFor (queueOf around settings dryRun).sent [] := by
  rw [queueOf]
  split <;> exact .nil

namespace Enqueues

variable {around : Surroundings} {words : List String} {id : Int} {dryRun : Bool}
  {settings : Settings} {store : Store} {item : Item} {jobs : List JobRequest}

theorem leaves_missing (h : Enqueues around words id dryRun settings store)
    (hfind : store.find (.int id) = .ok none) :
    Leaves (run around words) (.ok 1) [missingLine id] [] := by
  have hfound : (serviceOf around settings dryRun store).store.find (.int id) = .ok none := hfind
  exact h.leaves_of_missing (enqueueJobs_missing hfound) (forall₂_sent_queueOf ..)

theorem leaves_nothing (h : Enqueues around words id dryRun settings store)
    (hfind : store.find (.int id) = .ok (some item)) (hjobs : item.jobsAt around.clock = .ok []) :
    Leaves (run around words) (.ok 0) [nothingLine id] [] := by
  have hfound : (serviceOf around settings dryRun store).store.find (.int id) = .ok (some item) :=
    hfind
  have hlist : item.jobsAt (serviceOf around settings dryRun store).clock = .ok [] := hjobs
  exact h.leaves_of_ok (enqueueJobs_found hfound hlist) (forall₂_sent_queueOf ..)

/-- The command enqueues the jobs of an item that is found, and then prints what there is to say. -/
theorem enqueueJobs_eq (hfind : store.find (.int id) = .ok (some item))
    (hjobs : item.jobsAt around.clock = .ok jobs) (hnonempty : jobs ≠ []) :
    enqueueJobs settings id (serviceOf around settings dryRun store) =
      (Service.enqueueEach jobs >>= fun _ => do
        ofExcept (enqueuedLines settings (← get).queue))
        (serviceOf around settings dryRun store) := by
  have hfound : (serviceOf around settings dryRun store).store.find (.int id) = .ok (some item) :=
    hfind
  have hlist : item.jobsAt (serviceOf around settings dryRun store).clock = .ok jobs := hjobs
  have hjob : (!jobs.isEmpty) = true := by
    rw [Bool.not_eq_true', List.isEmpty_eq_false_iff]
    exact hnonempty
  rw [enqueueJobs_found hfound hlist, hjob]
  rfl

theorem submits (h : Enqueues around words id dryRun settings store)
    (hfind : store.find (.int id) = .ok (some item)) (hjobs : item.jobsAt around.clock = .ok jobs)
    (hsendable : ∀ job ∈ jobs, job.Sendable) (hnonempty : jobs ≠ []) {url : String}
    {address : Address} (hqueue : (serviceOf around settings dryRun store).queue =
      .http ⟨settings.endpoint, around.answers, []⟩)
    (hurl : settings.jobQueueUrl = .text url) (hready : settings.endpoint.Ready address)
    (hreadable : ∀ k < jobs.length, (∀ i < k, (around.answer i).accepts = true) →
      (around.answer k).Readable address) :
    Submits around (run around words) jobs url address where
  accepted := by
    intro haccepts
    obtain ⟨after, queue', hrun, hafter, hsends⟩ := enqueueEach_accepted hqueue hready hsendable
      fun k hk => ⟨hreadable k hk fun i hi => haccepts i (hi.trans hk), haccepts k hk⟩
    obtain ⟨requests, hsent, hrequests⟩ := hsends.sent
    have hdone : enqueueJobs settings id (serviceOf around settings dryRun store) =
        (.ok [submittedLine url], after) := by
      have hget : (get : Action Service) after = (.ok after, after) := rfl
      have hlines : enqueuedLines settings after.queue = .ok [submittedLine url] := by
        have htext : Value.plainString (.text url) = .ok url := by
          rw [Value.plainString, Value.plain]
          exact congrArg Except.ok url.ofList_toList
        rw [hafter, enqueuedLines, hurl, htext]
        rfl
      rw [enqueueJobs_eq hfind hjobs hnonempty, Action.bind_ok hrun, Action.bind_ok hget, hlines]
      rfl
    refine h.leaves_of_ok hdone ?_
    rw [hafter, Queue.sent, hsent]
    exact hrequests
  refused := by
    intro k hk haccepts hrefuses
    have hearlier : ∀ i < k, (around.answer i).Readable address := fun i hi =>
      hreadable i (hi.trans hk) fun j hj => haccepts j (hj.trans hi)
    obtain ⟨report, after, queue', hreport, hrun, hafter, hsends⟩ :=
      enqueueEach_refused hqueue hready hsendable hk (fun i hi => ⟨hearlier i hi, haccepts i hi⟩)
        (hreadable k hk haccepts) hrefuses
    obtain ⟨requests, hsent, hrequests⟩ := hsends.sent
    have hdone : enqueueJobs settings id (serviceOf around settings dryRun store) =
        (.error (.jobNotSubmitted jobs[k].kind.name report), after) := by
      rw [enqueueJobs_eq hfind hjobs hnonempty, Action.bind_error hrun]
    have hfailure : ∀ n, Failure.jobNotSubmitted jobs[k].kind.name report ≠ .itemNotFound n := by
      intro n hsame
      cases hsame
    refine ⟨report, hreport, h.leaves_of_error hfailure hdone ?_⟩
    rw [hafter, Queue.sent, hsent]
    exact hrequests

/-- A dry run prints the jobs, one after the other. -/
theorem leaves_dry (h : Enqueues around words id dryRun settings store)
    (hfind : store.find (.int id) = .ok (some item)) (hjobs : item.jobsAt around.clock = .ok jobs)
    (hid : item.id.toInteger = .ok id) {text : String}
    (htext : Value.plainString (.int id) = .ok text) (hnonempty : jobs ≠ [])
    (hqueue : (serviceOf around settings dryRun store).queue = .memory [])
    (hcalendar : ∀ job ∈ jobs, job.fireAt.utcMicros + 15 < (Date.dayCount * microsPerDay : Nat)) :
    ∃ lines, List.Forall₂ (ShowsJob id) jobs lines ∧
      Leaves (run around words) (.ok 0) (dryRunLine :: lines) [] := by
  have hkeeps : ∀ job ∈ jobs, ∃ kept line, job.IsKeptAs kept ∧ jobLine kept = .ok line ∧
      ShowsJob id job line := by
    intro job hjob
    obtain ⟨kind, due, rfl⟩ := Item.eq_of_mem_jobsAt hjobs hjob
    have hdue := hcalendar _ hjob
    dsimp only at hdue
    exact exists_keptLine kind hid htext hdue
  obtain ⟨kept, lines, hkept, hlines, hshows⟩ := exists_keptLines hkeeps
  obtain ⟨after, hrun, hafter⟩ := enqueueEach_memory hqueue hkept
  have hdone : enqueueJobs settings id (serviceOf around settings dryRun store) =
      (.ok (dryRunLine :: lines), after) := by
    have hget : (get : Action Service) after = (.ok after, after) := rfl
    have hprinted : enqueuedLines settings after.queue = .ok (dryRunLine :: lines) := by
      rw [hafter, List.nil_append, enqueuedLines, hlines]
      rfl
    rw [enqueueJobs_eq hfind hjobs hnonempty, Action.bind_ok hrun, Action.bind_ok hget, hprinted]
    rfl
  refine ⟨lines, hshows, h.leaves_of_ok hdone ?_⟩
  rw [hafter]
  exact .nil

/-- With a queue in memory no request is sent, however the command ends. -/
theorem requests_eq_nil (h : Enqueues around words id dryRun settings store)
    (hqueue : (serviceOf around settings dryRun store).queue = .memory []) :
    (run around words).2.requests = [] := by
  rcases hdone : enqueueJobs settings id (serviceOf around settings dryRun store) with
    ⟨result, after⟩
  obtain ⟨kept, hkept⟩ := keepsMemory_enqueueJobs settings id _ [] hqueue
  rw [hdone] at hkept
  have hsent : List.Forall₂ Request.IsFor after.queue.sent [] := by
    rw [hkept]
    exact .nil
  have hnone : ∀ {result lines}, Leaves (run around words) result lines [] →
      (run around words).2.requests = [] := fun hleaves =>
    List.forall₂_nil_right_iff.mp hleaves.requests
  cases result with
  | ok lines => exact hnone (h.leaves_of_ok hdone hsent)
  | error failure =>
      by_cases hmissing : ∃ n, failure = .itemNotFound n
      · obtain ⟨n, rfl⟩ := hmissing
        exact hnone (h.leaves_of_missing hdone hsent)
      · exact hnone (h.leaves_of_error (fun n hn => hmissing ⟨n, hn⟩) hdone hsent)

end Enqueues

/-- **Jobs are submitted in order, up to the first one that is refused.** The command finds a store
that was filled by saving well-typed items, and reads an instant from the clock. If no item has the
id, then it says so, and its exit code is 1. An item that is found, whose publication is not off the
calendar, asks for a list of jobs: its deletion if its text commands one, and then its publication
if it has an instant for it. If the list is empty, the command says so. If there is a configured
endpoint that can be sent requests, with answers that the client can make out, then it is sent a
request for each of the jobs in their order, and no other one, up to the first one that it refuses.
If it refuses none, one line says that the jobs were submitted; if it refuses one, nothing is
printed, and the failure names the kind of this job. A dry run, and a run without a configured
endpoint, sends no request in any case, and prints one line for each job, unless a job is for one of
the last 15 microseconds of the calendar. -/
theorem enqueue_in_order {around : Surroundings} {words : List String} {id : Int} {dryRun : Bool}
    {settings : Settings} {items : List Item}
    (h : Enqueues around words id dryRun settings
      (Store.saveAll ⟨settings.contentFolder, .empty⟩ items))
    (htyped : ∀ item ∈ items, item.WellTyped) (hclock : around.clock.OnCalendar) :
    let store := Store.saveAll ⟨settings.contentFolder, .empty⟩ items
    let dry := dryRun = true ∨ settings.jobQueueUrl.isPresent = false
    (store.find (.int id) = .ok none → Leaves (run around words) (.ok 1) [missingLine id] []) ∧
    (dry → (run around words).2.requests = []) ∧
    ∀ item, store.find (.int id) = .ok (some item) →
      (∀ t, item.scheduledAt = .dateTime t → t.OnCalendar) →
      ∃ jobs, item.jobsAt around.clock = .ok jobs ∧
        (jobs = [] → Leaves (run around words) (.ok 0) [nothingLine id] []) ∧
        (jobs ≠ [] → dryRun = false → ∀ url address, settings.jobQueueUrl = .text url → url ≠ "" →
          settings.endpoint.Ready address →
          (∀ k < jobs.length, (∀ i < k, (around.answer i).accepts = true) →
            (around.answer k).Readable address) →
          Submits around (run around words) jobs url address) ∧
        (jobs ≠ [] → dry →
          (∀ job ∈ jobs, job.fireAt.utcMicros + 15 < (Date.dayCount * microsPerDay : Nat)) →
          ∃ lines, List.Forall₂ (ShowsJob id) jobs lines ∧
            Leaves (run around words) (.ok 0) (dryRunLine :: lines) []) := by
  intro store dry
  have hholds : store.HoldsTyped := (Store.holdsTyped_of_empty rfl).saveAll htyped
  refine ⟨h.leaves_missing, fun hdry => h.requests_eq_nil (queueOf_dry hdry), ?_⟩
  · intro item hfind hscheduled
    -- The id of the item may be a truth value, and stands for the one that was looked for.
    obtain ⟨name, -, -, hname, -⟩ := Store.find_eq_ok_some hfind
    obtain ⟨hitem, hfile⟩ := hholds.find hfind
    rw [hname] at hfile
    obtain ⟨text, htext⟩ := plainString_of_fileName hfile
    obtain ⟨text', htext'⟩ := plainString_of_fileName hname
    have hid : item.id.toInteger = .ok id := Store.toInteger_eq_of_fileName hfile hname
    obtain ⟨jobs, hjobs⟩ := hitem.exists_jobsAt hclock hscheduled
    have hsendable : ∀ job ∈ jobs, job.Sendable := fun job hjob =>
      Item.sendable_of_mem_jobsAt hjobs (hitem .id) htext hjob
    refine ⟨jobs, hjobs, ?_, ?_, ?_⟩
    · rintro rfl
      exact h.leaves_nothing hfind hjobs
    · intro hnonempty hreal url address hurl hempty hready hreadable
      exact h.submits hfind hjobs hsendable hnonempty (queueOf_real hreal hurl hempty) hurl hready
        hreadable
    · intro hnonempty hdry hcalendar
      exact h.leaves_dry hfind hjobs hid htext' hnonempty (queueOf_dry hdry) hcalendar

/-! ## Runs on one item -/

/-- An item whose text commands its deletion. -/
def deletingItem : Item := { helloItem with text := .text "@delete in 3 days" }

/-- The same item, to be published at an instant before the first one of the calendar. -/
def earlyItem : Item := { deletingItem with scheduledAt := .dateTime firstHour }

/-- A store with one item in the folder that the settings name if nothing is said. -/
def storeOf (item : Item) : Store := Store.saveAll ⟨Settings.defaultFolder, .empty⟩ [item]

/-- A working folder with a folder of items. -/
def treeOf (folder : Folder) : Tree := ⟨[([], ⟨[("content", .folder)]⟩), (["content"], folder)]⟩

/-- What a command finds where the environment has an address and maybe a token for the jobs. -/
def aroundItem (item : Item) (url : String) (token : Option String) (answers : List Answer) :
    Surroundings where
  files := treeOf (storeOf item).folder
  environment := ⟨some url, token⟩
  clock := noon
  answers

theorem wellTyped_deletingItem : deletingItem.WellTyped := by
  intro field
  cases field <;> rfl

theorem find_deletingItem : (storeOf deletingItem).find (.int 1) = .ok (some deletingItem) := by
  have hcheck : deletingItem.readsBackCheck = true := by decide +kernel
  have hname : Store.writableName ⟨Settings.defaultFolder, .empty⟩ deletingItem = .ok "1.yaml" := by
    decide +kernel
  have hreload : deletingItem.reload = .ok deletingItem := by
    refine Item.reload_of_fields (by decide) fun field => ?_
    cases field <;> first | exact Field.reload_dateTime _ noon_portable | rfl
  have hfind := Store.find_save (Store.save_eq_ok hname hcheck) (Item.readsBack_of_check hcheck)
  rw [hreload] at hfind
  exact hfind

/-- The settings of the command, where the settings file is missing. -/
def settingsOf (url : String) (token : Option String) : Settings :=
  { Settings.default with
    jobQueueToken := token
    jobQueue := Settings.default.jobQueue.set "url" (.text url) }

theorem enqueues_deletingItem (answers : List Answer) :
    Enqueues (aroundItem deletingItem "http://jobs/" none answers) ["enqueue", "1"] 1 false
      (settingsOf "http://jobs/" none) (storeOf deletingItem) where
  command := ⟨⟨.here, ["config.yaml"]⟩, false, rfl, rfl⟩
  store := by
    have hpath : (storeOf deletingItem).path = Settings.defaultFolder := Store.path_saveAll ..
    refine ⟨["content"], (aroundItem deletingItem "http://jobs/" none answers).start, rfl, ?_⟩
    have hstore : ∀ store : Store,
        store = ⟨store.path, (treeOf store.folder).folderAt ["content"]⟩ := fun _ => rfl
    refine (hstore _).trans ?_
    rw [hpath]
    rfl

theorem kinds_deletingItem :
    (deletingItem.jobsAt noon).map (·.map JobRequest.kind) = .ok [.delete] := by decide +kernel

/-- A queue that refuses the deletion of an item is sent one request. -/
theorem enqueue_in_order_refused :
    let around := aroundItem deletingItem "http://jobs/" none [.status 500 none]
    Enqueues around ["enqueue", "1"] 1 false (settingsOf "http://jobs/" none)
        (Store.saveAll ⟨(settingsOf "http://jobs/" none).contentFolder, .empty⟩ [deletingItem]) ∧
      (∀ item ∈ [deletingItem], item.WellTyped) ∧ around.clock.OnCalendar ∧
      ∃ job report, job.kind = .delete ∧
        Leaves (run around ["enqueue", "1"]) (.error (.jobNotSubmitted "deleteItem" report)) []
          [job] := by
  intro around
  have henqueues := enqueues_deletingItem [.status 500 none]
  have htyped : ∀ item ∈ [deletingItem], item.WellTyped := by
    intro item hitem
    rw [List.mem_singleton.mp hitem]
    exact wellTyped_deletingItem
  have hclock : around.clock.OnCalendar :=
    DateTime.exists_toInstant_iff.mp ⟨_, DateTime.toInstant_utc _⟩
  obtain ⟨-, -, hfound⟩ := enqueue_in_order henqueues htyped hclock
  have hscheduled : ∀ t, deletingItem.scheduledAt = .dateTime t → t.OnCalendar := by
    intro t ht
    cases ht
  obtain ⟨jobs, hjobs, -, hreal, -⟩ := hfound deletingItem find_deletingItem hscheduled
  obtain ⟨job, rfl, hkind⟩ : ∃ job, jobs = [job] ∧ job.kind = .delete := by
    have hkinds := kinds_deletingItem
    have hnoon : deletingItem.jobsAt noon = .ok jobs := hjobs
    rw [hnoon] at hkinds
    exact List.map_eq_singleton_iff.mp (Except.ok.inj hkinds)
  have hready : (settingsOf "http://jobs/" none).endpoint.Ready
      ⟨"http".toList, [], "jobs".toList, none, "/".toList, none, none⟩ :=
    ⟨rfl, none, rfl, nofun⟩
  have hreadable : ∀ k < [job].length, (∀ i < k, (around.answer i).accepts = true) →
      (around.answer k).Readable
        ⟨"http".toList, [], "jobs".toList, none, "/".toList, none, none⟩ := by
    intro k hk _
    obtain rfl : k = 0 := Nat.lt_one_iff.mp hk
    exact ⟨rfl, nofun⟩
  have hsubmits :=
    hreal (List.cons_ne_nil _ _) rfl "http://jobs/" _ rfl (by decide) hready hreadable
  obtain ⟨report, -, hleaves⟩ := hsubmits.refused 0 Nat.one_pos nofun rfl
  have hname : [job][0].kind.name = "deleteItem" := congrArg JobKind.name hkind
  rw [hname] at hleaves
  exact ⟨henqueues, htyped, hclock, job, report, hkind, hleaves⟩

/-- How a run ends, what it has printed, and how many requests it has sent. -/
def summaryOf (outcome : Except Failure Nat × Progress) : Except Failure Nat × List String × Nat :=
  (outcome.1, outcome.2.lines, outcome.2.requests.length)

/-- No job is submitted, and no report names one, where the address is none, where the token is not
ASCII, and where the publication is off the calendar; and after a request has been sent, a status
from an address that does not say where to go, and one with a location that cannot be made out, end
the command in the same way. -/
theorem enqueue_breaks_off :
    deletingItem.WellTyped ∧ earlyItem.WellTyped ∧
      (deletingItem.jobsAt noon).map (·.map JobRequest.kind) = .ok [.delete] ∧
      summaryOf (run (aroundItem deletingItem "http://jobs:x/" none []) ["enqueue", "1"]) =
        (.error .malformedAddress, [], 0) ∧
      summaryOf (run (aroundItem deletingItem "http://jobs/" (some "é") []) ["enqueue", "1"]) =
        (.error .nonAsciiHeader, [], 0) ∧
      summaryOf (run (aroundItem deletingItem "jobs" none []) ["enqueue", "1"]) =
        (.error .relativeAddress, [], 1) ∧
      summaryOf (run (aroundItem deletingItem "http://jobs/" none [.status 302 (some "http:x")])
        ["enqueue", "1"]) = (.error .malformedAddress, [], 1) ∧
      summaryOf (run (aroundItem deletingItem "http://jobs/" none [.status 302 (some "é")])
        ["enqueue", "1"]) = (.error .nonAsciiHeader, [], 1) ∧
      summaryOf (run (aroundItem earlyItem "http://jobs/" none []) ["enqueue", "1"]) =
        (.error .offCalendar, [], 1) := by
  refine ⟨wellTyped_deletingItem, ?_, kinds_deletingItem, ?_⟩
  · intro field
    cases field <;> rfl
  · decide +kernel

end Command

end Deferral
