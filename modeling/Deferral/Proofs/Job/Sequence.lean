/-
# Deferral.Proofs.Job.Sequence -- jobs one after the other

An item asks for its deletion, for its publication, for both or for neither. `Item.jobsAt` lists
these jobs in the order in which they are enqueued. An endpoint is sent a request for each of them
until it refuses one, and a queue in memory keeps one job for each.
-/

import Deferral.Proofs.Directive.Totality
import Deferral.Proofs.Job.Precision

namespace Deferral

/-! ## The jobs of an item -/

/-- The jobs that an item asks for at a time: its deletion if its text commands one, and then its
publication if it has an instant for it. -/
def Item.jobsAt (item : Item) (now : DateTime) : Except Failure (List JobRequest) := do
  let deletion ← (Enqueuing.deletion item none).job? now
  let publication ← (Enqueuing.publication item).job? now
  return deletion.toList ++ publication.toList

section Jobs

variable {item : Item} {now : DateTime}

theorem Item.WellTyped.exists_directiveText (h : item.WellTyped) :
    ∃ text, item.directiveText = .ok text := by
  have hadmits : Field.text.admits item.text = true := h .text
  rw [directiveText]
  cases htext : item.text <;> rw [htext] at hadmits <;> first | exact ⟨_, rfl⟩ | cases hadmits

/-- On a clock that reads an instant a well-typed item has a list of jobs, unless the instant of
its publication is off the calendar. -/
theorem Item.WellTyped.exists_jobsAt (h : item.WellTyped) (hnow : now.OnCalendar)
    (hscheduled : ∀ t, item.scheduledAt = .dateTime t → t.OnCalendar) :
    ∃ jobs, item.jobsAt now = .ok jobs := by
  have hdeletion : ∃ job?, (Enqueuing.deletion item none).job? now = .ok job? := by
    obtain ⟨text, htext⟩ := h.exists_directiveText
    obtain ⟨resolution, hresolution⟩ := (resolves_of_onCalendar text hnow).delete
    rw [Enqueuing.job?, htext, ok_bind, Option.getD_none, hresolution, ok_bind]
    exact ⟨_, rfl⟩
  have hpublication : ∃ job?, (Enqueuing.publication item).job? now = .ok job? := by
    have hadmits : Field.scheduledAt.admits item.scheduledAt = true := h .scheduledAt
    rw [Enqueuing.job?]
    rcases Field.admits_instant rfl hadmits with hnull | ⟨t, ht⟩
    · rw [hnull]
      exact ⟨none, rfl⟩
    · obtain ⟨due, hdue⟩ := DateTime.exists_toInstant_iff.mpr (hscheduled t ht)
      rw [ht, Value.toInstant, hdue]
      exact ⟨_, rfl⟩
  obtain ⟨deletion, hdeletion⟩ := hdeletion
  obtain ⟨publication, hpublication⟩ := hpublication
  rw [Item.jobsAt, hdeletion, ok_bind, hpublication]
  exact ⟨_, rfl⟩

/-- Every job of an item is for the item, at an instant. -/
theorem Item.eq_of_mem_jobsAt {jobs : List JobRequest} (h : item.jobsAt now = .ok jobs)
    {job : JobRequest} (hjob : job ∈ jobs) : ∃ kind due, job = ⟨kind, item.id, .utc due⟩ := by
  obtain ⟨deletion, hdeletion, h⟩ := bind_eq_ok h
  obtain ⟨publication, hpublication, h⟩ := bind_eq_ok h
  cases h
  rcases List.mem_append.mp hjob with hmem | hmem
  · rw [Option.mem_toList.mp hmem] at hdeletion
    exact (Enqueuing.eq_of_job? hdeletion).1
  · rw [Option.mem_toList.mp hmem] at hpublication
    exact (Enqueuing.eq_of_job? hpublication).1

/-- The jobs of an item whose id has a text can be sent. -/
theorem Item.sendable_of_mem_jobsAt {jobs : List JobRequest} (h : item.jobsAt now = .ok jobs)
    (hid : Field.id.admits item.id = true) {text : String} (htext : item.id.plainString = .ok text)
    {job : JobRequest} (hjob : job ∈ jobs) : job.Sendable := by
  obtain ⟨kind, due, rfl⟩ := Item.eq_of_mem_jobsAt h hjob
  refine ⟨Value.asJson_id hid htext, ?_⟩
  rw [startAfter_eq]
  exact isFinite_secondsOfMicros due.natAbs_lt

end Jobs

/-! ## Enqueuing one after the other -/

/-- Enqueues jobs one after the other. -/
def Service.enqueueEach : List JobRequest → Action Unit
  | [] => return
  | job :: jobs => do
    enqueue job.kind.task job
    enqueueEach jobs

section

variable {service : Service} {item : Item}

/-- A call that has no job does nothing and answers no. -/
theorem Enqueuing.bind_of_none {α : Type} (call : Enqueuing) {k : Bool → Action α}
    (h : call.job? service.clock = .ok none) : (call.act >>= k) service = k false service :=
  Action.bind_ok (by rw [call.act_eq, h])

/-- A call that has a job enqueues it, and then answers yes. -/
theorem Enqueuing.bind_of_some {α : Type} (call : Enqueuing) {k : Bool → Action α}
    {job : JobRequest} (h : call.job? service.clock = .ok (some job)) :
    (call.act >>= k) service = (Service.enqueue call.task job >>= fun _ => k true) service := by
  have hact : call.act service =
      (Service.enqueue call.task job >>= fun _ => pure true : Action Bool) service := by
    rw [call.act_eq, h]
  rw [Action.bind_congr hact, bind_assoc]
  rfl

theorem enqueueEach_cons (job : JobRequest) (jobs : List JobRequest) :
    Service.enqueueEach (job :: jobs) =
      Service.enqueue job.kind.task job >>= fun _ => Service.enqueueEach jobs := rfl

theorem enqueueEach_append (first second : List JobRequest) (service : Service) :
    Service.enqueueEach (first ++ second) service =
      (Service.enqueueEach first >>= fun _ => Service.enqueueEach second) service := by
  induction first generalizing service with
  | nil => rfl
  | cons job jobs ih =>
      rw [List.cons_append, enqueueEach_cons, enqueueEach_cons, bind_assoc]
      rcases henqueue : Service.enqueue job.kind.task job service with ⟨failure | ⟨⟩, after⟩
      · rw [Action.bind_error henqueue, Action.bind_error henqueue]
      · rw [Action.bind_ok henqueue, Action.bind_ok henqueue, ih]

/-- The two calls for an item enqueue its jobs, and one of them answers yes exactly if there is a
job. -/
theorem act_eq_enqueueEach {α : Type} {jobs : List JobRequest} {k : Bool → Action α}
    (h : item.jobsAt service.clock = .ok jobs) :
    (Service.enqueueDelete item none >>= fun deleting =>
      Service.enqueuePublish item >>= fun publishing => k (deleting || publishing)) service =
      (Service.enqueueEach jobs >>= fun _ => k !jobs.isEmpty) service := by
  obtain ⟨deletion, hdeletion, h⟩ := bind_eq_ok h
  obtain ⟨publication, hpublication, h⟩ := bind_eq_ok h
  cases h
  -- Whether there is an instant for the publication does not depend on the clock.
  have hpublish : ∀ (after : Service) (deleting : Bool),
      (Service.enqueuePublish item >>= fun publishing => k (deleting || publishing)) after =
        (Service.enqueueEach publication.toList >>= fun _ =>
          k (deleting || publication.isSome)) after := by
    intro after deleting
    cases publication with
    | none => exact Enqueuing.bind_of_none (.publication item) hpublication
    | some job =>
        have htask := (Enqueuing.eq_of_job? hpublication).2
        rw [Option.toList_some, enqueueEach_cons, bind_assoc, ← htask]
        exact Enqueuing.bind_of_some (.publication item) hpublication
  rw [Action.bind_congr (enqueueEach_append ..), bind_assoc]
  cases deletion with
  | none =>
      refine (Enqueuing.bind_of_none (.deletion item none) hdeletion).trans ?_
      rw [hpublish]
      cases publication <;> rfl
  | some job =>
      refine (Enqueuing.bind_of_some (.deletion item none) hdeletion).trans ?_
      rw [(Enqueuing.eq_of_job? hdeletion).2, Option.toList_some, enqueueEach_cons, bind_assoc]
      rcases henqueue : Service.enqueue job.kind.task job service with ⟨failure | ⟨⟩, after⟩
      · rw [Action.bind_error henqueue, Action.bind_error henqueue]
      · rw [Action.bind_ok henqueue, Action.bind_ok henqueue, hpublish]
        rfl

end

/-! ## Jobs for an endpoint -/

/-- From one queue to the other, the endpoint was sent one request for each of the jobs, and gave
one answer to each. -/
structure HttpQueue.Sends (queue : HttpQueue) (jobs : List JobRequest) (after : HttpQueue) :
    Prop where
  endpoint : after.endpoint = queue.endpoint
  answers : after.answers = queue.answers.drop jobs.length
  sent : ∃ requests, after.sent = queue.sent ++ requests ∧ List.Forall₂ Request.IsFor requests jobs

namespace HttpQueue.Sends

theorem refl (queue : HttpQueue) : queue.Sends [] queue :=
  ⟨rfl, rfl, [], (List.append_nil _).symm, .nil⟩

theorem trans {queue middle after : HttpQueue} {first second : List JobRequest}
    (h : queue.Sends first middle) (h' : middle.Sends second after) :
    queue.Sends (first ++ second) after := by
  obtain ⟨requests, hrequests, hfirst⟩ := h.sent
  obtain ⟨requests', hrequests', hsecond⟩ := h'.sent
  refine ⟨h'.endpoint.trans h.endpoint, ?_, requests ++ requests', ?_, ?_⟩
  · rw [h'.answers, h.answers, List.drop_drop, List.length_append]
  · rw [hrequests', hrequests, List.append_assoc]
  · exact List.rel_append hfirst hsecond

theorem send (queue : HttpQueue) {request : Request} {job : JobRequest} (h : request.IsFor job) :
    queue.Sends [job] (queue.send request) :=
  ⟨rfl, List.drop_one.symm, [request], rfl, .cons h .nil⟩

/-- The next answer is the one after those that were given. -/
theorem headD_answers {queue after : HttpQueue} {jobs : List JobRequest}
    (h : queue.Sends jobs after) :
    after.answers.headD .accepted = queue.answers.getD jobs.length .accepted := by
  rw [h.answers, List.headD_eq_getD, List.getD_eq_getElem?_getD, List.getD_eq_getElem?_getD,
    List.getElem?_drop, Nat.add_zero]

end HttpQueue.Sends

section

variable {service : Service} {queue : HttpQueue} {address : Address} {jobs : List JobRequest}

/-- As long as it accepts them, an endpoint is sent all jobs. -/
theorem enqueueEach_accepted (hqueue : service.queue = .http queue)
    (hready : queue.endpoint.Ready address) (hjobs : ∀ job ∈ jobs, job.Sendable)
    (hanswers : ∀ k < jobs.length, (queue.answers.getD k .accepted).Readable address ∧
      (queue.answers.getD k .accepted).accepts = true) :
    ∃ after queue', Service.enqueueEach jobs service = (.ok (), after) ∧
      after.queue = .http queue' ∧ queue.Sends jobs queue' := by
  -- From the back: what was sent before the last job says which answer is the next one.
  induction jobs using List.reverseRecOn with
  | nil => exact ⟨service, queue, rfl, hqueue, .refl queue⟩
  | append_singleton jobs job ih =>
      have hlength : (jobs ++ [job]).length = jobs.length + 1 := List.length_append
      rw [hlength] at hanswers
      obtain ⟨middle, queue', hfirst, hmiddle, hsends⟩ := ih
        (fun other hother => hjobs other (List.mem_append_left _ hother))
        fun k hk => hanswers k (Nat.lt_succ_of_lt hk)
      obtain ⟨hreadable, haccepts⟩ := hanswers jobs.length (Nat.lt_succ_self _)
      rw [← hsends.headD_answers] at hreadable haccepts
      obtain ⟨request, log, henqueue, hrequest⟩ := enqueue_accepted job.kind.task hmiddle
        (hsends.endpoint ▸ hready) hreadable haccepts (hjobs job (by simp))
      refine ⟨{ middle with queue := .http (queue'.send request), log }, queue'.send request, ?_,
        rfl, hsends.trans (.send queue' hrequest)⟩
      rw [enqueueEach_append, Action.bind_ok hfirst, enqueueEach_cons, Action.bind_ok henqueue]
      rfl

/-- The first job that it refuses is the last one that it is sent. -/
theorem enqueueEach_refused (hqueue : service.queue = .http queue)
    (hready : queue.endpoint.Ready address) (hjobs : ∀ job ∈ jobs, job.Sendable) {k : Nat}
    (hk : k < jobs.length)
    (hanswers : ∀ i < k, (queue.answers.getD i .accepted).Readable address ∧
      (queue.answers.getD i .accepted).accepts = true)
    (hreadable : (queue.answers.getD k .accepted).Readable address)
    (hrefuses : (queue.answers.getD k .accepted).accepts = false) :
    ∃ report after queue',
      (queue.answers.getD k .accepted).report? address = .ok (some report) ∧
      Service.enqueueEach jobs service =
        (.error (.jobNotSubmitted jobs[k].kind.name report), after) ∧
      after.queue = .http queue' ∧ queue.Sends (jobs.take (k + 1)) queue' := by
  -- All jobs before this one are accepted.
  have hlength : (jobs.take k).length = k := List.length_take_of_le hk.le
  obtain ⟨middle, queue', hfirst, hmiddle, hsends⟩ := enqueueEach_accepted hqueue hready
    (fun job hjob => hjobs job (List.mem_of_mem_take hjob)) (hlength.symm ▸ hanswers)
  have hnext := hsends.headD_answers
  rw [hlength] at hnext
  rw [← hnext] at hreadable hrefuses ⊢
  obtain ⟨report, request, log, hreport, henqueue, hrequest⟩ := enqueue_refused
    jobs[k].kind.task hmiddle (hsends.endpoint ▸ hready) hreadable hrefuses
    (hjobs _ (List.getElem_mem hk))
  refine ⟨report, { middle with queue := .http (queue'.send request), log }, queue'.send request,
    hreport, ?_, rfl, ?_⟩
  · have hsplit : jobs = jobs.take k ++ jobs[k] :: jobs.drop (k + 1) := by
      rw [← List.drop_eq_getElem_cons hk, List.take_append_drop]
    conv_lhs => rw [hsplit]
    rw [enqueueEach_append, Action.bind_ok hfirst, enqueueEach_cons, Action.bind_error henqueue]
  · rw [List.take_succ_eq_append_getElem hk]
    exact hsends.trans (.send queue' hrequest)

end

/-! ## Jobs for a queue in memory -/

/-- A queue in memory keeps a job for the submission of another one. -/
def JobRequest.IsKeptAs (job kept : JobRequest) : Prop :=
  ofSubmission (.text job.kind.name) job.payload (.float job.startAfter) = .ok kept

/-- Of the job for an instant a queue in memory keeps one for the integer that its id stands for
and for an instant less than 16 microseconds away, except in the last 15 microseconds of the
calendar. -/
theorem JobRequest.exists_isKeptAs (kind : JobKind) {id : Value} {n : Int} {due : Instant}
    (hid : id.toInteger = .ok n) (hdue : due.micros + 15 < Date.dayCount * microsPerDay) :
    ∃ kept : Instant, (⟨kind, id, .utc due⟩ : JobRequest).IsKeptAs ⟨kind, .int n, .utc kept⟩ ∧
      |kept.sinceEpoch - due.sinceEpoch| ≤ 15 := by
  obtain ⟨kept, hkept, hmicros⟩ := (instantOfSeconds_sinceEpoch due).1 hdue
  refine ⟨kept, ?_, ?_⟩
  · have hselect : (⟨kind, id, .utc due⟩ : JobRequest).payload.select "id" = .ok id := rfl
    rw [IsKeptAs, ofSubmission, JobKind.ofValue_name, ok_bind, hselect, ok_bind, hid, ok_bind,
      startAfter_eq]
    exact congrArg (· >>= _) hkept
  · rw [hmicros]
    exact microsOfSeconds_secondsOfMicros_near due.natAbs_sinceEpoch_lt

/-- A queue in memory keeps a job for each. -/
theorem enqueueEach_memory {service : Service} {jobs kept done : List JobRequest}
    (hqueue : service.queue = .memory done)
    (hkept : List.Forall₂ JobRequest.IsKeptAs jobs kept) :
    ∃ after, Service.enqueueEach jobs service = (.ok (), after) ∧
      after.queue = .memory (done ++ kept) := by
  induction hkept generalizing service done with
  | nil => exact ⟨service, rfl, by rw [hqueue, List.append_nil]⟩
  | @cons job first jobs kept hfirst hkept ih =>
      obtain ⟨log, henqueue⟩ := enqueue_eq service job.kind.task job
      have hlogged : ({ service with log } : Service).queue = .memory done := hqueue
      rw [Service.submit_memory hlogged, hfirst] at henqueue
      have hmiddle : ({ service with log, queue := .memory (done ++ [first]) } : Service).queue =
          .memory (done ++ [first]) := rfl
      obtain ⟨after, hrest, hafter⟩ := ih hmiddle
      refine ⟨after, ?_, ?_⟩
      · rw [enqueueEach_cons, Action.bind_ok henqueue]
        exact hrest
      · rw [hafter, List.append_assoc]
        rfl

/-- An action that leaves a queue in memory a queue in memory. -/
def Action.KeepsMemory {α : Type} (act : Action α) : Prop :=
  ∀ service jobs, service.queue = .memory jobs → ∃ jobs', (act service).2.queue = .memory jobs'

namespace Action

variable {α β : Type}

theorem KeepsMemory.bind {act : Action α} {next : α → Action β} (h : act.KeepsMemory)
    (hnext : ∀ a, (next a).KeepsMemory) : (act >>= next).KeepsMemory := by
  refine Action.bind_rel (r := fun (before after : Service) =>
    ∀ jobs, before.queue = .memory jobs → ∃ jobs', after.queue = .memory jobs') ?_ h hnext
  intro before middle after hfirst hsecond jobs hqueue
  obtain ⟨jobs', hjobs'⟩ := hfirst jobs hqueue
  exact hsecond jobs' hjobs'

/-- An action that leaves the service as it is. -/
theorem keepsMemory_of_eq {act : Action α} (h : ∀ service, (act service).2 = service) :
    act.KeepsMemory := by
  intro service jobs hqueue
  rw [h]
  exact ⟨jobs, hqueue⟩

theorem keepsMemory_ofExcept (x : Except Failure α) : KeepsMemory (ofExcept x : Action α) :=
  keepsMemory_of_eq fun service => by rw [Action.ofExcept_run]

theorem keepsMemory_enqueue (task : String) (job : JobRequest) :
    KeepsMemory (Service.enqueue task job) := by
  refine KeepsMemory.bind (fun service jobs hqueue => ⟨jobs, hqueue⟩) fun _ => ?_
  intro service jobs hqueue
  rw [Service.submit_memory hqueue]
  split
  · exact ⟨jobs, hqueue⟩
  · exact ⟨_, rfl⟩

theorem keepsMemory_act (call : Enqueuing) : KeepsMemory call.act := by
  intro service jobs hqueue
  rw [call.act_eq]
  split
  · exact ⟨jobs, hqueue⟩
  · exact ⟨jobs, hqueue⟩
  · exact KeepsMemory.bind (keepsMemory_enqueue _ _) (fun _ => keepsMemory_of_eq fun _ => rfl)
      service jobs hqueue

end Action

end Deferral
