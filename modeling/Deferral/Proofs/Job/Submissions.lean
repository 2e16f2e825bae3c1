/-
# Deferral.Proofs.Job.Submissions -- one submission to an endpoint

An endpoint that has an address, and a token that a header can hold, is sent one request for each
job that JSON can hold. The answer decides what becomes of the submission: a status from 200 to 299
accepts the job, and what else the client can make out refuses it, with a report.
-/

import Deferral.Proofs.Item.Typed
import Deferral.Proofs.Store.Calls

namespace Deferral

open Binary64

/-! ## Bodies -/

/-- A request that is for a job: it names the kind, and it has the payload and the seconds. -/
def Request.IsFor (request : Request) (job : JobRequest) : Prop :=
  request.body = submissionBody job.kind job.payload (.float job.startAfter)

/-- An integer that has a text has a numeral. -/
theorem numeral_of_plainString {n : Int} {text : String}
    (h : Value.plainString (.int n) = .ok text) :
    ∃ digits, numeral n = .ok digits := by
  rw [Value.plainString, Value.plain, Value.literal] at h
  · cases hdigits : numeral n with
    | error failure =>
        rw [hdigits] at h
        cases h
    | ok digits => exact ⟨digits, rfl⟩
  all_goals simp

theorem Value.asJson_int {n : Int} {digits : List Char} (hdigits : numeral n = .ok digits) :
    (Value.int n).asJson = .ok (.int n) := by
  rw [Value.asJson, hdigits]
  rfl

/-- JSON holds the id of an item as it is, if the id has a text. -/
theorem Value.asJson_id {id : Value} (hid : Field.id.admits id = true) {text : String}
    (h : id.plainString = .ok text) : id.asJson = .ok id := by
  rcases Field.admits_id hid with ⟨n, rfl⟩ | ⟨b, rfl⟩
  · obtain ⟨digits, hdigits⟩ := numeral_of_plainString h
    exact Value.asJson_int hdigits
  · rw [Value.asJson] <;> simp

theorem entriesAsJson_cons {name : String} {value value' : Value}
    {entries done : List (Value × Value)} (h : value.asJson = .ok value') :
    Value.entriesAsJson ((.text name, value) :: entries) done =
      Value.entriesAsJson entries (Value.insertEntry (.text name) value' done) := by
  rw [Value.entriesAsJson, h]
  rfl

/-- JSON holds a submission as it is. -/
theorem submissionBody_asJson (kind : JobKind) {id : Value} {x : Binary64}
    (hid : id.asJson = .ok id) (hx : x.isFinite = true) :
    (submissionBody kind (.map [(.text "id", id)]) (.float x)).asJson =
      .ok (submissionBody kind (.map [(.text "id", id)]) (.float x)) := by
  have hpayload : Value.asJson (.map [(.text "id", id)]) = .ok (.map [(.text "id", id)]) := by
    rw [Value.asJson, entriesAsJson_cons hid]
    rfl
  have hname : Value.asJson (.text kind.name) = .ok (.text kind.name) := rfl
  have hfloat : Value.asJson (.float x) = .ok (.float x) := by
    rw [Value.asJson, if_pos hx]
  rw [submissionBody, Value.asJson, entriesAsJson_cons hname, entriesAsJson_cons hpayload,
    entriesAsJson_cons hfloat]
  rfl

/-- JSON holds no submission for an integer without a numeral. -/
theorem numeral_of_submissionBody {kind : JobKind} {n : Int} {startAfter body : Value}
    (h : (submissionBody kind (.map [(.text "id", .int n)]) startAfter).asJson = .ok body) :
    ∃ digits, numeral n = .ok digits := by
  have hname : Value.asJson (.text kind.name) = .ok (.text kind.name) := rfl
  rw [submissionBody, Value.asJson, entriesAsJson_cons hname, Value.entriesAsJson] at h
  obtain ⟨entries, hentries, -⟩ := map_eq_ok h
  obtain ⟨key, -, hdata⟩ := bind_eq_ok hentries
  obtain ⟨payload, hpayload, -⟩ := bind_eq_ok hdata
  rw [Value.asJson, Value.entriesAsJson] at hpayload
  obtain ⟨fields, hfields, -⟩ := map_eq_ok hpayload
  obtain ⟨key, -, hfield⟩ := bind_eq_ok hfields
  obtain ⟨id, hid, -⟩ := bind_eq_ok hfield
  rw [Value.asJson] at hid
  obtain ⟨digits, hdigits, -⟩ := map_eq_ok hid
  exact ⟨digits, hdigits⟩

/-! ## Requests -/

/-- An endpoint that requests can be sent to: it has an address, and its token is one that a
header can hold. -/
structure Endpoint.Ready (endpoint : Endpoint) (address : Address) : Prop where
  address_eq : endpoint.address = .ok address
  token : ∃ header, endpoint.tokenHeader = .ok header ∧
    ∀ text ∈ header, isAsciiText text.toList = true

theorem Endpoint.Ready.exists_request {endpoint : Endpoint} {address : Address} {kind : JobKind}
    {payload startAfter body : Value} (h : endpoint.Ready address)
    (hbody : (submissionBody kind payload startAfter).asJson = .ok body) :
    ∃ request, endpoint.request kind payload startAfter = .ok request ∧
      request.address = address ∧ request.body = body := by
  obtain ⟨header, hheader, hascii⟩ := h.token
  have hcheck : header.forM Endpoint.checkHeader = .ok () := by
    cases header with
    | none => rfl
    | some text =>
        show Endpoint.checkHeader text = .ok ()
        rw [Endpoint.checkHeader, if_pos (hascii text rfl)]
  refine ⟨⟨address, "application/json", Endpoint.credentialsHeader address <|> header,
    endpoint.timeout, body⟩, ?_, rfl, rfl⟩
  rw [Endpoint.request, hheader, h.address_eq, ok_bind, ok_bind, hcheck, ok_bind, hbody, ok_bind]
  rfl

/-- A request is made only at an endpoint that requests can be sent to, and of what JSON holds. -/
theorem Endpoint.request_eq_ok {endpoint : Endpoint} {kind : JobKind} {payload startAfter : Value}
    {request : Request} (h : endpoint.request kind payload startAfter = .ok request) :
    endpoint.Ready request.address ∧
      ∃ body, (submissionBody kind payload startAfter).asJson = .ok body := by
  obtain ⟨header, hheader, h⟩ := bind_eq_ok h
  obtain ⟨address, haddress, h⟩ := bind_eq_ok h
  obtain ⟨⟨⟩, hcheck, h⟩ := bind_eq_ok h
  obtain ⟨body, hbody, h⟩ := bind_eq_ok h
  cases h
  refine ⟨⟨haddress, header, hheader, fun text htext => ?_⟩, body, hbody⟩
  cases htext
  change checkHeader text = .ok () at hcheck
  by_contra hascii
  rw [checkHeader, if_neg hascii] at hcheck
  cases hcheck

theorem JobKind.ofValue_name (kind : JobKind) : JobKind.ofValue (.text kind.name) = .ok kind := by
  cases kind <;> rfl

/-- The payload of the job for an item. -/
theorem JobRequest.payload_eq (kind : JobKind) (n : Int) (due : DateTime) :
    (⟨kind, .int n, due⟩ : JobRequest).payload = .map [(.text "id", .int n)] := rfl

/-! ## Answers -/

namespace Answer

/-- An answer accepts a job. -/
def accepts : Answer → Bool
  | status code _ => code / 100 == 2
  | _ => false

/-- An answer that the client of an address can make out. A status comes from an address that says
by itself where to go. The location of a redirect is ASCII, and the client can put an address
together from the one that it is sent on to. -/
def Readable (address : Address) : Answer → Prop
  | status code location => address.isAbsolute = true ∧ (redirects code = true →
      ∀ text ∈ location, isAsciiText text.toList = true ∧ ∀ target,
        Address.ofText text.toList = .ok target → address.leadsTo target = .ok ())
  | transportFailure _ => True
  | breakdown _ => False

variable {answer : Answer} {address : Address}

theorem redirects_eq_false {code : Nat} (h : code / 100 = 2) : redirects code = false := by
  by_contra hredirect
  rw [Bool.not_eq_false, redirects, List.contains_iff_mem] at hredirect
  simp only [List.mem_cons, List.not_mem_nil, or_false] at hredirect
  omega

/-- The report on a status is what is wrong with the location, or else that on the status. -/
theorem report?_status {code : Nat} {location : Option String}
    (h : (status code location).Readable address) :
    ∃ broken : Option String, (redirects code = false → broken = none) ∧
      (status code location).report? address =
        .ok (broken <|> statusReport? (String.ofList address.text) code location) := by
  obtain ⟨habsolute, hlocation⟩ := h
  cases hredirect : redirects code with
  | false =>
      refine ⟨none, fun _ => rfl, ?_⟩
      rw [report?, hredirect, habsolute]
      rfl
  | true =>
      cases location with
      | none =>
          refine ⟨none, fun _ => rfl, ?_⟩
          rw [report?, hredirect, habsolute]
          rfl
      | some text =>
          obtain ⟨hascii, hleads⟩ := hlocation hredirect text rfl
          have hcheck : ∃ broken, checkLocation address text = .ok broken := by
            rw [checkLocation]
            cases htarget : Address.ofText text.toList with
            | error fault => exact ⟨_, rfl⟩
            | ok target => exact ⟨none, by dsimp only; rw [hleads target htarget]⟩
          obtain ⟨broken, hbroken⟩ := hcheck
          refine ⟨broken, nofun, ?_⟩
          rw [report?, hredirect, habsolute]
          simp only [if_true, Option.any_some, hascii, hbroken]
          rfl

/-- There is nothing to report on an answer that accepts the job. -/
theorem Readable.report?_of_accepts (h : answer.Readable address)
    (haccepts : answer.accepts = true) : answer.report? address = .ok none := by
  cases answer with
  | status code location =>
      have hcode : code / 100 = 2 := beq_iff_eq.mp haccepts
      obtain ⟨broken, hbroken, hreport⟩ := report?_status h
      rw [hreport, hbroken (redirects_eq_false hcode), statusReport?, if_pos hcode]
      rfl
  | transportFailure report => cases haccepts
  | breakdown kind => cases haccepts

/-- An answer that accepts a job can be made out if the address says by itself where to go. -/
theorem readable_of_accepts (haccepts : answer.accepts = true)
    (habsolute : address.isAbsolute = true) : answer.Readable address := by
  cases answer with
  | status code location =>
      refine ⟨habsolute, fun hredirect => ?_⟩
      rw [redirects_eq_false (beq_iff_eq.mp haccepts)] at hredirect
      cases hredirect
  | transportFailure report => trivial
  | breakdown kind => cases haccepts

/-- From another address no answer can be made out. -/
theorem isAbsolute_of_report? (haccepts : answer.accepts = true) {report : Option String}
    (h : answer.report? address = .ok report) : address.isAbsolute = true := by
  cases answer with
  | status code location =>
      by_contra hrelative
      rw [Bool.not_eq_true] at hrelative
      rw [report?, redirects_eq_false (beq_iff_eq.mp haccepts), hrelative] at h
      cases h
  | transportFailure report => cases haccepts
  | breakdown kind => cases haccepts

/-- There is a report on every other answer. -/
theorem Readable.report?_of_refuses (h : answer.Readable address)
    (hrefuses : answer.accepts = false) :
    ∃ report, answer.report? address = .ok (some report) := by
  cases answer with
  | status code location =>
      have hcode : ¬ code / 100 = 2 := beq_eq_false_iff_ne.mp hrefuses
      obtain ⟨broken, -, hreport⟩ := report?_status h
      rw [hreport, statusReport?, if_neg hcode]
      cases broken <;> exact ⟨_, rfl⟩
  | transportFailure report => exact ⟨report, rfl⟩
  | breakdown kind => exact h.elim

end Answer

/-! ## Outcomes -/

section

variable {service : Service} {queue : HttpQueue} {address : Address} {job : JobRequest}

/-- Once its record is left, enqueuing is submitting. -/
theorem enqueue_eq (service : Service) (task : String) (job : JobRequest) :
    ∃ log, Service.enqueue task job service =
      Service.submit (.text job.kind.name) job.payload (.float job.startAfter)
        { service with log } :=
  ⟨_, Action.bind_ok rfl⟩

/-- A job that an endpoint can be sent: its id can be sent, and its seconds are finite. -/
structure JobRequest.Sendable (job : JobRequest) : Prop where
  id : job.itemId.asJson = .ok job.itemId
  seconds : job.startAfter.isFinite = true

/-- An endpoint is sent one request for the job, and the answer decides the outcome. -/
theorem enqueue_sends (task : String) (hqueue : service.queue = .http queue)
    (hready : queue.endpoint.Ready address) (hjob : job.Sendable) :
    ∃ request log, Service.enqueue task job service =
        ((HttpQueue.outcome job.kind job.payload address (queue.answers.headD .accepted)).map
          fun _ => (), { service with queue := .http (queue.send request), log }) ∧
      request.IsFor job := by
  obtain ⟨log, henqueue⟩ := enqueue_eq service task job
  obtain ⟨request, hrequest, rfl, hbody⟩ := hready.exists_request
    (submissionBody_asJson job.kind hjob.id hjob.seconds)
  have hsubmit : queue.submit (.text job.kind.name) job.payload (.float job.startAfter) =
      (HttpQueue.outcome job.kind job.payload request.address (queue.answers.headD .accepted),
        queue.send request) := by
    rw [HttpQueue.submit, JobKind.ofValue_name]
    simp only [JobRequest.payload, hrequest]
  rw [henqueue]
  simp only [Service.submit, hqueue, Queue.submit, hsubmit]
  exact ⟨request, _, rfl, hbody⟩

/-- An answer that accepts the job lets the call succeed. -/
theorem enqueue_accepted (task : String) (hqueue : service.queue = .http queue)
    (hready : queue.endpoint.Ready address)
    (hanswer : (queue.answers.headD .accepted).Readable address)
    (haccepts : (queue.answers.headD .accepted).accepts = true) (hjob : job.Sendable) :
    ∃ request log, Service.enqueue task job service =
        (.ok (), { service with queue := .http (queue.send request), log }) ∧
      request.IsFor job := by
  obtain ⟨request, log, henqueue, hrequest⟩ := enqueue_sends task hqueue hready hjob
  have houtcome : HttpQueue.outcome job.kind job.payload address
      (queue.answers.headD .accepted) =
        .ok (HttpQueue.acceptedRecords job.kind job.payload) := by
    rw [HttpQueue.outcome, hanswer.report?_of_accepts haccepts, ok_bind]
    rfl
  exact ⟨request, log, by rw [henqueue, houtcome]; rfl, hrequest⟩

/-- Any other answer makes it fail, and names the kind of the job. -/
theorem enqueue_refused (task : String) (hqueue : service.queue = .http queue)
    (hready : queue.endpoint.Ready address)
    (hanswer : (queue.answers.headD .accepted).Readable address)
    (hrefuses : (queue.answers.headD .accepted).accepts = false) (hjob : job.Sendable) :
    ∃ report request log, (queue.answers.headD .accepted).report? address = .ok (some report) ∧
      Service.enqueue task job service =
        (.error (.jobNotSubmitted job.kind.name report),
          { service with queue := .http (queue.send request), log }) ∧
      request.IsFor job := by
  obtain ⟨request, log, henqueue, hrequest⟩ := enqueue_sends task hqueue hready hjob
  obtain ⟨report, hreport⟩ := hanswer.report?_of_refuses hrefuses
  have houtcome : HttpQueue.outcome job.kind job.payload address
      (queue.answers.headD .accepted) = .error (.jobNotSubmitted job.kind.name report) := by
    rw [HttpQueue.outcome, hreport, ok_bind]
    rfl
  exact ⟨report, request, log, hreport, by rw [henqueue, houtcome]; rfl, hrequest⟩

end

end Deferral
