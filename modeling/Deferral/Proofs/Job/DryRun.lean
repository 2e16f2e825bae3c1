/-
# Deferral.Proofs.Job.DryRun -- a dry run shows what would be sent

A queue in memory and one behind an endpoint are given the same submissions. As long as the
first takes them and the endpoint serves them, they stay in step: one has kept a job for each
request that the other has sent, and the request is the one for this job. The instants need care,
since the kept job has its instant from the seconds of the submission, and those may be too coarse
for it: but they are the seconds of that instant, too. A queue in memory looks neither at an
address nor at a token, and it writes no numeral, so what an endpoint does not serve shows in the
other run only.
-/

import Mathlib.Data.List.Forall2
import Deferral.Proofs.Job.Seconds
import Deferral.Proofs.Job.Submissions
import Deferral.Proofs.Store.RoundTrip

namespace Deferral

open Binary64

/-! ## Instants of kept jobs -/

theorem Instant.natAbs_lt (i : Instant) : ((i.micros : Int) - epochMicros).natAbs < 2 ^ 58 := by
  have hlt := i.micros_lt
  have hcalendar : Date.dayCount * microsPerDay < epochMicros + 2 ^ 58 := by decide
  have hepoch : epochMicros < 2 ^ 58 := by decide
  omega

theorem micros_of_instantSinceEpoch {seconds micros : Int} {i : Instant}
    (h : instantSinceEpoch seconds micros = .ok i) : (i.micros : Int) = epochMicros + micros := by
  rw [instantSinceEpoch] at h
  split at h
  · cases h
  · split at h
    · cases h
    · split at h
      · next hsome =>
          cases h
          exact (Instant.ofMicros?_eq_some_iff.mp hsome).2
      · cases h

/-- Seconds that are an instant are finite. -/
theorem instantOfSeconds_eq_ok {x : Binary64} {i : Instant}
    (h : instantOfSeconds (.float x) = .ok i) :
    x.isFinite = true ∧ (i.micros : Int) = epochMicros + microsOfSeconds x := by
  simp only [instantOfSeconds] at h
  split at h
  · cases h
  · next hnan =>
      split at h
      · cases h
      · next hinfinite =>
          refine ⟨?_, micros_of_instantSinceEpoch h⟩
          simp only [isNaN, isInfinite, Bool.and_eq_true, beq_iff_eq, bne_iff_ne] at hnan hinfinite
          rw [isFinite, bne_iff_ne]
          intro hfield
          exact hinfinite ⟨hfield, not_not.mp fun hfraction => hnan ⟨hfield, hfraction⟩⟩

theorem startAfter_eq {kind : JobKind} {id : Value} {due : Instant} :
    (⟨kind, id, .utc due⟩ : JobRequest).startAfter =
      secondsOfMicros ((due.micros : Int) - epochMicros) := by
  have hutc : (DateTime.utc due).utcMicros = due.micros := sub_zero _
  rw [JobRequest.startAfter, hutc]

/-- The instant that is made of the seconds of an instant has the same seconds. -/
theorem startAfter_of_instantOfSeconds {kind kind' : JobKind} {id id' : Value} {due i : Instant}
    (h : instantOfSeconds (.float (⟨kind, id, .utc due⟩ : JobRequest).startAfter) = .ok i) :
    (⟨kind', id', .utc i⟩ : JobRequest).startAfter =
      (⟨kind, id, .utc due⟩ : JobRequest).startAfter := by
  have hmicros := (instantOfSeconds_eq_ok h).2
  rw [startAfter_eq] at hmicros
  have hback : (i.micros : Int) - epochMicros =
      microsOfSeconds (secondsOfMicros ((due.micros : Int) - epochMicros)) := by omega
  rw [startAfter_eq, startAfter_eq, hback, secondsOfMicros_microsOfSeconds due.natAbs_lt]

/-! ## One submission -/

/-- An endpoint that takes the job for an item of this id: it has an address that says by itself
where to go and a token that a header can hold, and the id is an integer with a numeral. -/
structure Endpoint.Serves (endpoint : Endpoint) (id : Value) : Prop where
  ready : ∃ address, endpoint.Ready address ∧ address.isAbsolute = true
  numeral : ∃ n digits, id = .int n ∧ numeral n = .ok digits

/-- Every answer has a status from 200 to 299. -/
def HttpQueue.Accepts (queue : HttpQueue) : Prop :=
  ∀ answer ∈ queue.answers, answer.accepts = true

theorem JobRequest.ofSubmission_eq_ok {kind : JobKind} {n : Int} {x : Binary64} {job : JobRequest}
    (h : ofSubmission (.text kind.name) (.map [(.text "id", .int n)]) (.float x) = .ok job) :
    ∃ i, instantOfSeconds (.float x) = .ok i ∧ job = ⟨kind, .int n, .utc i⟩ := by
  rw [ofSubmission, JobKind.ofValue_name, ok_bind] at h
  obtain ⟨id, hid, h⟩ := bind_eq_ok h
  obtain ⟨m, hm, h⟩ := bind_eq_ok h
  obtain ⟨i, hi, h⟩ := bind_eq_ok h
  cases hid
  cases hm
  cases h
  exact ⟨i, hi, rfl⟩

namespace HttpQueue.Accepts

variable {queue : HttpQueue}

theorem headD (h : queue.Accepts) : (queue.answers.headD .accepted).accepts = true := by
  cases hanswers : queue.answers with
  | nil => rfl
  | cons answer answers => exact h answer (hanswers ▸ List.mem_cons_self)

theorem send (h : queue.Accepts) (request : Request) : (queue.send request).Accepts :=
  fun answer hanswer => h answer (List.mem_of_mem_tail hanswer)

end HttpQueue.Accepts

/-! ## One call -/

/-- What the records call a job. -/
def JobKind.task : JobKind → String
  | delete => "delete"
  | publish => "publish"

/-- A call that enqueues what an item asks for. -/
inductive Enqueuing where
  | deletion (item : Item) (now : Option DateTime)
  | publication (item : Item)

namespace Enqueuing

def item : Enqueuing → Item
  | deletion item _ => item
  | publication item => item

/-- What a call does. It answers whether it has submitted a job. -/
def act : Enqueuing → Action Bool
  | deletion item now => Service.enqueueDelete item now
  | publication item => Service.enqueuePublish item

/-- The job that a call submits, if it submits one. -/
def job? (clock : DateTime) : Enqueuing → Except Failure (Option JobRequest)
  | deletion item now => do
    let text ← item.directiveText
    let resolution ← resolveDelete text (now.getD clock)
    return resolution.timestamp.map fun due => ⟨.delete, item.id, .utc due⟩
  | publication item =>
    if item.scheduledAt.isNull then .ok none
    else do
      let due ← item.scheduledAt.toInstant
      return some ⟨.publish, item.id, .utc due⟩

/-- What the records call the job. -/
def task : Enqueuing → String
  | deletion _ _ => "delete"
  | publication _ => "publish"

/-- A call fails before it submits a job, or it has none to submit, or it submits one. -/
theorem act_eq (call : Enqueuing) (service : Service) :
    call.act service =
      match call.job? service.clock with
      | .error failure => (.error failure, service)
      | .ok none => (.ok false, service)
      | .ok (some job) =>
        ((do Service.enqueue call.task job; return true : Action Bool) service) := by
  cases call with
  | deletion item now =>
      have htime : Service.timeOr now service = (.ok (now.getD service.clock), service) := rfl
      rw [act, Service.enqueueDelete, Action.bind_ok htime, job?]
      cases htext : item.directiveText with
      | error failure => exact Action.bind_error (Action.ofExcept_run _ _)
      | ok text =>
          rw [Action.bind_ok (Action.ofExcept_run _ _), ok_bind]
          cases hresolution : resolveDelete text (now.getD service.clock) with
          | error failure => exact Action.bind_error (Action.ofExcept_run _ _)
          | ok resolution =>
              rw [Action.bind_ok (Action.ofExcept_run _ _), ok_bind]
              cases htimestamp : resolution.timestamp <;> rfl
  | publication item =>
      rw [act, Service.enqueuePublish, job?]
      cases hnull : item.scheduledAt.isNull with
      | true => rfl
      | false =>
          cases hdue : item.scheduledAt.toInstant with
          | error failure => exact Action.bind_error (Action.ofExcept_run _ _)
          | ok due => exact Action.bind_ok (Action.ofExcept_run _ _)

/-- A call that succeeds has no job to submit, or it submits its job. -/
theorem act_eq_ok_iff {call : Enqueuing} {service after : Service} {answer : Bool} :
    call.act service = (.ok answer, after) ↔
      (answer = false ∧ call.job? service.clock = .ok none ∧ after = service) ∨
        (answer = true ∧ ∃ job, call.job? service.clock = .ok (some job) ∧
          Service.enqueue call.task job service = (.ok (), after)) := by
  rw [call.act_eq]
  constructor
  · intro h
    cases hjob : call.job? service.clock with
    | error failure =>
        rw [hjob] at h
        cases h
    | ok job =>
        rw [hjob] at h
        cases job with
        | none =>
            cases h
            exact .inl ⟨rfl, rfl, rfl⟩
        | some job =>
            obtain ⟨⟨⟩, middle, henqueue, hyes⟩ := Action.bind_eq_ok h
            cases hyes
            exact .inr ⟨rfl, job, rfl, henqueue⟩
  · rintro (⟨rfl, hjob, rfl⟩ | ⟨rfl, job, hjob, henqueue⟩)
    · rw [hjob]
    · rw [hjob]
      exact Action.bind_ok henqueue

/-- The job of a call is for the item, at an instant, and the records call it by its kind. -/
theorem eq_of_job? {call : Enqueuing} {clock : DateTime} {job : JobRequest}
    (h : call.job? clock = .ok (some job)) :
    (∃ kind due, job = ⟨kind, call.item.id, .utc due⟩) ∧ call.task = job.kind.task := by
  cases call with
  | deletion item now =>
      obtain ⟨text, -, h⟩ := bind_eq_ok h
      obtain ⟨resolution, -, h⟩ := bind_eq_ok h
      obtain ⟨due, -, rfl⟩ := Option.map_eq_some_iff.mp (Except.ok.inj h)
      exact ⟨⟨.delete, due, rfl⟩, rfl⟩
  | publication item =>
      rw [job?] at h
      split at h
      · cases h
      · obtain ⟨due, -, h⟩ := bind_eq_ok h
        cases h
        exact ⟨⟨.publish, due, rfl⟩, rfl⟩

end Enqueuing

section Enqueue

variable {service after : Service} {task : String} {job : JobRequest}

/-- A queue in memory keeps the job. -/
theorem enqueue_memory {jobs : List JobRequest} (hqueue : service.queue = .memory jobs)
    (h : Service.enqueue task job service = (.ok (), after)) :
    ∃ kept, JobRequest.ofSubmission (.text job.kind.name) job.payload (.float job.startAfter) =
        .ok kept ∧
      after.queue = .memory (jobs ++ [kept]) ∧ after.clock = service.clock := by
  obtain ⟨log, henqueue⟩ := enqueue_eq service task job
  rw [henqueue] at h
  cases hkept : JobRequest.ofSubmission (.text job.kind.name) job.payload
      (.float job.startAfter) with
  | error failure =>
      simp only [Service.submit, hqueue, Queue.submit, hkept] at h
      cases h
  | ok kept =>
      simp only [Service.submit, hqueue, Queue.submit, hkept] at h
      cases h
      exact ⟨kept, rfl, rfl, rfl⟩

variable {queue : HttpQueue} {kind : JobKind} {id : Value} {due : DateTime}

/-- An endpoint that serves the item is sent a request for the job. -/
theorem enqueue_http (task : String) (hqueue : service.queue = .http queue)
    (haccepts : queue.Accepts) (hserves : queue.endpoint.Serves id)
    (hfinite : (⟨kind, id, due⟩ : JobRequest).startAfter.isFinite = true) :
    ∃ after request, Service.enqueue task ⟨kind, id, due⟩ service = (.ok (), after) ∧
      after.queue = .http (queue.send request) ∧ after.clock = service.clock ∧
      request.IsFor ⟨kind, id, due⟩ := by
  obtain ⟨address, hready, habsolute⟩ := hserves.ready
  obtain ⟨n, digits, rfl, hdigits⟩ := hserves.numeral
  have hjob : (⟨kind, .int n, due⟩ : JobRequest).Sendable := ⟨Value.asJson_int hdigits, hfinite⟩
  obtain ⟨request, log, henqueue, hrequest⟩ := enqueue_accepted task hqueue hready
    (Answer.readable_of_accepts haccepts.headD habsolute) haccepts.headD hjob
  exact ⟨_, request, henqueue, rfl, rfl, hrequest⟩

/-- An endpoint that takes the job serves the item. -/
theorem serves_of_enqueue {n : Int} (hqueue : service.queue = .http queue)
    (haccepts : queue.Accepts)
    (h : Service.enqueue task ⟨kind, .int n, due⟩ service = (.ok (), after)) :
    queue.endpoint.Serves (.int n) := by
  obtain ⟨log, henqueue⟩ := enqueue_eq service task ⟨kind, .int n, due⟩
  have hresult := congrArg Prod.fst (henqueue.symm.trans h)
  simp only [Service.submit, hqueue, Queue.submit, HttpQueue.submit, JobKind.ofValue_name]
    at hresult
  cases hrequest : queue.endpoint.request kind (⟨kind, .int n, due⟩ : JobRequest).payload
      (.float (⟨kind, .int n, due⟩ : JobRequest).startAfter) with
  | error failure =>
      rw [hrequest] at hresult
      cases hresult
  | ok request =>
      rw [hrequest] at hresult
      obtain ⟨records, houtcome, -⟩ := map_eq_ok hresult
      obtain ⟨report, hreport, -⟩ := bind_eq_ok houtcome
      obtain ⟨hready, body, hbody⟩ := Endpoint.request_eq_ok hrequest
      obtain ⟨digits, hdigits⟩ := numeral_of_submissionBody hbody
      exact ⟨⟨request.address, hready, Answer.isAbsolute_of_report? haccepts.headD hreport⟩,
        n, digits, rfl, hdigits⟩

end Enqueue

/-! ## Two services in step -/

/-- Two services with the same time, a queue in memory and an endpoint that accepts requests,
which has been sent one for each of the jobs. -/
structure InStep (endpoint : Endpoint) (dry real : Service) (jobs : List JobRequest)
    (queue : HttpQueue) : Prop where
  memory : dry.queue = .memory jobs
  http : real.queue = .http queue
  endpoint : queue.endpoint = endpoint
  accepts : queue.Accepts
  sent : List.Forall₂ Request.IsFor queue.sent jobs
  clock : real.clock = dry.clock

namespace InStep

variable {endpoint : Endpoint} {dry real : Service} {jobs : List JobRequest} {queue : HttpQueue}

/-- A call that succeeds in the dry run and submits only what the endpoint serves succeeds, and
sends one request or none, as it answers. -/
theorem act {dry' : Service} (h : InStep endpoint dry real jobs queue) {call : Enqueuing} {n : Int}
    (hid : call.item.id = .int n) {answer : Bool} (hdry : call.act dry = (.ok answer, dry'))
    (hserves : answer = true → endpoint.Serves call.item.id) :
    ∃ real' jobs' queue' requests, call.act real = (.ok answer, real') ∧
      InStep endpoint dry' real' jobs' queue' ∧ queue'.sent = queue.sent ++ requests ∧
      requests.length = answer.toNat := by
  rcases Enqueuing.act_eq_ok_iff.mp hdry with ⟨rfl, hjob, rfl⟩ | ⟨rfl, job, hjob, henqueue⟩
  · rw [← h.clock] at hjob
    exact ⟨real, jobs, queue, [], Enqueuing.act_eq_ok_iff.mpr (.inl ⟨rfl, hjob, rfl⟩), h,
      (List.append_nil _).symm, rfl⟩
  · obtain ⟨⟨kind, due, rfl⟩, -⟩ := Enqueuing.eq_of_job? hjob
    rw [hid] at hjob henqueue hserves
    obtain ⟨kept, hkept, hqueue, hclock⟩ := enqueue_memory h.memory henqueue
    obtain ⟨i, hi, rfl⟩ := JobRequest.ofSubmission_eq_ok hkept
    obtain ⟨real', request, hreal, hsent, hclock', hrequest⟩ :=
      enqueue_http call.task h.http h.accepts (h.endpoint.symm ▸ hserves rfl)
        (instantOfSeconds_eq_ok hi).1
    rw [← h.clock] at hjob
    refine ⟨real', _, _, [request], Enqueuing.act_eq_ok_iff.mpr (.inr ⟨rfl, _, hjob, hreal⟩),
      ⟨hqueue, hsent, h.endpoint, h.accepts.send request, ?_, ?_⟩, rfl, rfl⟩
    · refine List.rel_append h.sent (.cons ?_ .nil)
      rw [Request.IsFor, startAfter_of_instantOfSeconds hi]
      exact hrequest
    · rw [hclock, hclock', h.clock]

/-- A call that answers yes submits what the endpoint serves. -/
theorem serves_of_act {real' : Service} (h : InStep endpoint dry real jobs queue)
    {call : Enqueuing} {n : Int} (hid : call.item.id = .int n)
    (hreal : call.act real = (.ok true, real')) : endpoint.Serves call.item.id := by
  rcases Enqueuing.act_eq_ok_iff.mp hreal with ⟨hno, -⟩ | ⟨-, job, hjob, henqueue⟩
  · cases hno
  · obtain ⟨⟨kind, due, rfl⟩, -⟩ := Enqueuing.eq_of_job? hjob
    rw [hid] at henqueue ⊢
    rw [← h.endpoint]
    exact serves_of_enqueue h.http h.accepts henqueue

end InStep

/-! ## Runs -/

namespace Service

/-- Calls one after the other: the results, and the service after them. -/
def enqueueAll (service : Service) : List Enqueuing → List (Except Failure Bool) × Service
  | [] => ([], service)
  | call :: calls =>
    let (result, service) := call.act service
    let (results, service) := service.enqueueAll calls
    (result :: results, service)

theorem enqueueAll_cons {service after : Service} {call : Enqueuing} {calls : List Enqueuing}
    {result : Except Failure Bool} (h : call.act service = (result, after)) :
    service.enqueueAll (call :: calls) =
      (result :: (after.enqueueAll calls).1, (after.enqueueAll calls).2) := by
  rw [enqueueAll, h]

theorem enqueueAll_append (service : Service) (first second : List Enqueuing) :
    service.enqueueAll (first ++ second) =
      ((service.enqueueAll first).1 ++ ((service.enqueueAll first).2.enqueueAll second).1,
        ((service.enqueueAll first).2.enqueueAll second).2) := by
  induction first generalizing service with
  | nil => rfl
  | cons call calls ih =>
      rcases hact : call.act service with ⟨result, after⟩
      rw [List.cons_append, enqueueAll_cons hact, enqueueAll_cons hact, ih after]
      rfl

/-- The first calls of a run give the first results. -/
theorem enqueueAll_take (service : Service) (calls : List Enqueuing) (k : Nat) :
    (service.enqueueAll (calls.take k)).1 = (service.enqueueAll calls).1.take k := by
  induction calls generalizing service k with
  | nil => rw [List.take_nil, enqueueAll, List.take_nil]
  | cons call calls ih =>
      cases k with
      | zero => rfl
      | succ k =>
          rcases hact : call.act service with ⟨result, after⟩
          rw [List.take_succ_cons, enqueueAll_cons hact, enqueueAll_cons hact, List.take_succ_cons,
            ih after k]

end Service

/-- The endpoint serves the item of each call that answers yes. -/
def Endpoint.ServesAll (endpoint : Endpoint) (calls : List Enqueuing) (answers : List Bool) :
    Prop :=
  List.Forall₂ (fun call answer => answer = true → endpoint.Serves call.item.id) calls answers

namespace InStep

variable {endpoint : Endpoint} {dry real : Service} {jobs : List JobRequest} {queue : HttpQueue}
  {calls : List Enqueuing} {answers : List Bool}

/-- The run of a real service that is in step with a dry run, if the endpoint serves what it is
sent. -/
theorem enqueueAll (h : InStep endpoint dry real jobs queue)
    (hids : ∀ call ∈ calls, ∃ n, call.item.id = .int n)
    (hdry : (dry.enqueueAll calls).1 = answers.map .ok)
    (hserves : endpoint.ServesAll calls answers) :
    ∃ jobs' queue' requests, (real.enqueueAll calls).1 = answers.map .ok ∧
      InStep endpoint (dry.enqueueAll calls).2 (real.enqueueAll calls).2 jobs' queue' ∧
      queue'.sent = queue.sent ++ requests ∧ requests.length = answers.count true := by
  induction hserves generalizing dry real jobs queue with
  | nil => exact ⟨jobs, queue, [], rfl, h, (List.append_nil _).symm, rfl⟩
  | @cons call answer calls answers hcall hcalls ih =>
      rcases hact : call.act dry with ⟨result, dry'⟩
      rw [Service.enqueueAll_cons hact, List.map_cons, List.cons.injEq] at hdry
      obtain ⟨rfl, hrest⟩ := hdry
      obtain ⟨n, hid⟩ := hids call List.mem_cons_self
      obtain ⟨real', jobs', queue', requests, hreal, hstep, hsent, hlength⟩ := h.act hid hact hcall
      obtain ⟨jobs'', queue'', later, hresults, hrun, hlater, hcount⟩ :=
        ih hstep (fun call hcall => hids call (List.mem_cons_of_mem _ hcall)) hrest
      rw [Service.enqueueAll_cons hact, Service.enqueueAll_cons hreal]
      refine ⟨jobs'', queue'', requests ++ later, ?_, hrun, ?_, ?_⟩
      · rw [hresults, List.map_cons]
      · rw [hlater, hsent, List.append_assoc]
      · rw [List.length_append, hlength, hcount, List.count_cons]
        cases answer
        · exact Nat.zero_add _
        · exact Nat.add_comm _ _

/-- The endpoint serves whatever it was sent in a run that gives the answers of the dry run. -/
theorem servesAll (h : InStep endpoint dry real jobs queue)
    (hids : ∀ call ∈ calls, ∃ n, call.item.id = .int n)
    (hdry : (dry.enqueueAll calls).1 = answers.map .ok)
    (hreal : (real.enqueueAll calls).1 = answers.map .ok) : endpoint.ServesAll calls answers := by
  induction calls generalizing dry real jobs queue answers with
  | nil =>
      obtain rfl := List.map_eq_nil_iff.mp hdry.symm
      exact .nil
  | cons call calls ih =>
      rcases hact : call.act dry with ⟨result, dry'⟩
      rcases hact' : call.act real with ⟨result', real'⟩
      rw [Service.enqueueAll_cons hact] at hdry
      obtain ⟨answer, answers', rfl, rfl, hrest⟩ := List.map_eq_cons_iff.mp hdry.symm
      rw [Service.enqueueAll_cons hact', List.map_cons, List.cons.injEq] at hreal
      obtain ⟨rfl, hrest'⟩ := hreal
      obtain ⟨n, hid⟩ := hids call List.mem_cons_self
      have hserves : answer = true → endpoint.Serves call.item.id := by
        rintro rfl
        exact h.serves_of_act hid hact'
      -- The two services are in step after this call, too.
      obtain ⟨after, jobs', queue', -, hafter, hstep, -⟩ := h.act hid hact hserves
      cases hact'.symm.trans hafter
      exact .cons hserves
        (ih hstep (fun call hcall => hids call (List.mem_cons_of_mem _ hcall)) hrest.symm hrest')

/-- The requests for the first calls of a run are the first requests of the run. -/
theorem sent_take (h : InStep endpoint dry real [] queue)
    (hids : ∀ call ∈ calls, ∃ n, call.item.id = .int n)
    (hdry : (dry.enqueueAll calls).1 = answers.map .ok)
    (hserves : endpoint.ServesAll calls answers) (k : Nat) :
    (real.enqueueAll (calls.take k)).2.queue.sent =
      (real.enqueueAll calls).2.queue.sent.take ((answers.take k).count true) := by
  have hsent : queue.sent = [] := List.forall₂_nil_right_iff.mp h.sent
  have hfirst : (dry.enqueueAll (calls.take k)).1 = (answers.take k).map .ok := by
    rw [Service.enqueueAll_take, hdry, List.map_take]
  have happend := Service.enqueueAll_append dry (calls.take k) (calls.drop k)
  have hsplit : answers.map .ok = (answers.take k).map (Except.ok (ε := Failure)) ++
      (answers.drop k).map .ok := by rw [← List.map_append, List.take_append_drop]
  have hsecond : ((dry.enqueueAll (calls.take k)).2.enqueueAll (calls.drop k)).1 =
      (answers.drop k).map .ok := by
    have hresults := congrArg Prod.fst happend
    rw [List.take_append_drop, hdry, hfirst, hsplit] at hresults
    exact (List.append_cancel_left hresults).symm
  obtain ⟨_, queue', requests, -, hmiddle, hrequests, hcount⟩ :=
    h.enqueueAll (fun call hcall => hids call (List.mem_of_mem_take hcall)) hfirst
      (List.forall₂_take k hserves)
  obtain ⟨_, queue'', later, -, hend, hlater, -⟩ :=
    hmiddle.enqueueAll (fun call hcall => hids call (List.mem_of_mem_drop hcall)) hsecond
      (List.forall₂_drop k hserves)
  have hreal := congrArg Prod.snd (Service.enqueueAll_append real (calls.take k) (calls.drop k))
  rw [List.take_append_drop] at hreal
  rw [hreal, hend.http, hmiddle.http, Queue.sent, Queue.sent, hlater, hrequests, hsent,
    List.nil_append, ← hcount, List.take_left]

end InStep

/-- **A dry run agrees with the run that it stands for.** Two services with the same time, one
with an empty queue in memory and one with an endpoint that answers every request with a status
from 200 to 299, are given the same calls for items with integer ids, and none of them fails in the
dry run. The other run gives the same answers exactly if its endpoint serves the item of each call
that answers yes. Then one request is sent for each of these calls, in their order, and none for
the others; and each request has the kind, the payload and the seconds of the job that the dry
run has kept in its place. -/
theorem dry_run_agrees {dry real : Service} {queue : HttpQueue} (hclock : real.clock = dry.clock)
    (hdry : dry.queue = .memory []) (hreal : real.queue = .http queue) (haccepts : queue.Accepts)
    (hsent : queue.sent = []) {calls : List Enqueuing}
    (hids : ∀ call ∈ calls, ∃ n, call.item.id = .int n) {answers : List Bool}
    (hanswers : (dry.enqueueAll calls).1 = answers.map .ok) :
    ((real.enqueueAll calls).1 = answers.map .ok ↔ queue.endpoint.ServesAll calls answers) ∧
    (queue.endpoint.ServesAll calls answers →
      (real.enqueueAll calls).2.queue.sent.length = answers.count true ∧
      (∀ k, (real.enqueueAll (calls.take k)).2.queue.sent =
        (real.enqueueAll calls).2.queue.sent.take ((answers.take k).count true)) ∧
      List.Forall₂ Request.IsFor (real.enqueueAll calls).2.queue.sent
        (dry.enqueueAll calls).2.queue.jobs) := by
  have hstart : InStep queue.endpoint dry real [] queue :=
    ⟨hdry, hreal, rfl, haccepts, hsent ▸ List.Forall₂.nil, hclock⟩
  refine ⟨⟨hstart.servesAll hids hanswers, fun hserves => ?_⟩, fun hserves => ?_⟩
  · obtain ⟨_, _, _, hresults, -⟩ := hstart.enqueueAll hids hanswers hserves
    exact hresults
  · obtain ⟨jobs, queue', requests, -, hend, hrequests, hcount⟩ :=
      hstart.enqueueAll hids hanswers hserves
    have hfinal : (real.enqueueAll calls).2.queue.sent = requests := by
      rw [hend.http, Queue.sent, hrequests, hsent, List.nil_append]
    refine ⟨by rw [hfinal, hcount], hstart.sent_take hids hanswers hserves, ?_⟩
    rw [hend.http, hend.memory]
    exact hend.sent

/-- An endpoint with a token that answers that it has created the first job, and where. -/
def jobsEndpoint : HttpQueue where
  endpoint := ⟨.text "http://jobs/", .text "token", .int 30⟩
  answers := [.status 201 (some "http://jobs/1")]
  sent := []

/-- An instant that a double cannot hold to the microsecond. -/
def farAhead : DateTime := .utc ⟨252455615999999983, by decide⟩

/-- An item whose text commands its deletion. -/
def doomedItem : Item := { helloItem with text := .text "@delete in 3 days" }

/-- The deletion of an item, the publication of one that has no instant for it, and that of one
that has. -/
def threeCalls : List Enqueuing :=
  [.deletion doomedItem none, .publication helloItem,
    .publication { helloItem with scheduledAt := .dateTime farAhead }]

/-- Two requests are sent for these calls. -/
theorem dry_run_agrees_threeCalls :
    ((Service.fresh noon).enqueueAll threeCalls).1 = [true, false, true].map .ok ∧
      (({ Service.fresh noon with queue := .http jobsEndpoint } : Service).enqueueAll
        threeCalls).1 = [true, false, true].map .ok ∧
      (({ Service.fresh noon with queue := .http jobsEndpoint } : Service).enqueueAll
        threeCalls).2.queue.sent.length = 2 := by
  have hanswers : ((Service.fresh noon).enqueueAll threeCalls).1 = [true, false, true].map .ok := by
    decide +kernel
  have hids : ∀ call ∈ threeCalls, ∃ n, call.item.id = .int n := by
    simp only [threeCalls, List.forall_mem_cons]
    exact ⟨⟨1, rfl⟩, ⟨1, rfl⟩, ⟨1, rfl⟩, fun _ hcall => nomatch hcall⟩
  have hclock : ({ Service.fresh noon with queue := .http jobsEndpoint } : Service).clock =
      (Service.fresh noon).clock := rfl
  have haccepts : jobsEndpoint.Accepts := by
    intro answer hanswer
    obtain rfl := List.mem_singleton.mp hanswer
    rfl
  have hserves : jobsEndpoint.endpoint.Serves (.int 1) := by
    refine ⟨⟨_, ⟨rfl, _, rfl, ?_⟩, rfl⟩, 1, ['1'], rfl, ?_⟩ <;> decide +kernel
  have hagrees := dry_run_agrees hclock rfl rfl haccepts rfl hids hanswers
  have hall : jobsEndpoint.endpoint.ServesAll threeCalls [true, false, true] :=
    .cons (fun _ => hserves) (.cons nofun (.cons (fun _ => hserves) .nil))
  exact ⟨hanswers, hagrees.1.mpr hall, (hagrees.2 hall).1⟩

/-- A service with an endpoint that accepts every request. -/
def serviceAt (url token : String) : Service :=
  { Service.fresh noon with queue := .http ⟨⟨.text url, .text token, .int 30⟩, [], []⟩ }

/-- The deletion of an item with this id. -/
def deletionOf (n : Int) : List Enqueuing := [.deletion { doomedItem with id := .int n } none]

/-- A dry run succeeds whatever the endpoint is, and also for an id of more digits than a numeral
may have. The run at an endpoint fails for a token that is not ASCII, an address that is none, one
that does not say where to go, and such an id. -/
theorem dry_run_overlooks :
    ((Service.fresh noon).enqueueAll (deletionOf 1)).1 = [.ok true] ∧
    ((serviceAt "http://jobs/" "\u00e9").enqueueAll (deletionOf 1)).1 = [.error .nonAsciiHeader] ∧
    ((serviceAt "http://jobs:x/" "").enqueueAll (deletionOf 1)).1 = [.error .malformedAddress] ∧
    ((serviceAt "jobs" "").enqueueAll (deletionOf 1)).1 = [.error .relativeAddress] ∧
    ((Service.fresh noon).enqueueAll (deletionOf (tenTo maxDigits))).1 = [.ok true] ∧
    ((serviceAt "http://jobs/" "").enqueueAll (deletionOf (tenTo maxDigits))).1 =
      [.error .malformedNumber] := by
  refine ⟨?_, ?_, ?_, ?_, ?_, ?_⟩ <;> decide +kernel

end Deferral
