import Oncall.Proofs.PagerDuty.Paging
import Mathlib.Data.List.Infix

/-! Why a call is refused. A response that is no success has one cause: the object is missing, the
name is taken, or neither. The status comes first, then what the body says, be it the details of an
envelope or, where there is none, its text as it stands. PagerDuty's wording for a taken name is
looked for in nothing else, and only a creation that is refused with it leads to an adoption. -/

namespace Oncall

/-- Every reply of a transcript was given in some state of the world. -/
theorem Workflow.exists_answer_of_mem {C : Type} {R : C → Type} {σ α W : Type}
    {answer : (c : C) → W → R c × W} {x : Workflow C R σ α} {w : W} {e : Answered R}
    (h : e ∈ x.transcript answer w) : ∃ w', (answer e.call w').1 = e.reply := by
  induction x generalizing w with
  | done a => cases h
  | call seen c next ih =>
    rcases List.mem_cons.1 h with rfl | h
    · exact ⟨w, rfl⟩
    · exact ih _ h

namespace PagerDuty

open Http Json

/-! ### The wording -/

theorem occursIn_iff (part whole : List Char) : occursIn part whole = true ↔ part <:+: whole := by
  induction whole with
  | nil => simp [occursIn]
  | cons c cs ih =>
    rw [occursIn, Bool.or_eq_true, ih, List.isPrefixOf_iff_prefix, List.infix_cons_iff]

/-- PagerDuty's wording for a taken name stands somewhere in the text. -/
def SaysTaken (text : String) : Prop := nameTaken.toList <:+: text.toList

theorem saysNameTaken_iff (text : String) : saysNameTaken text = true ↔ SaysTaken text :=
  occursIn_iff _ _

/-! ### Bodies -/

/-- What a field with a default stands for. -/
inductive FieldOr {α : Type} (default : α) (read? : Node → Option α) : Option Node → α → Prop
  | missing : FieldOr default read? none default
  | read {v : Node} {a : α} (h : read? v = some a) : FieldOr default read? (some v) a

theorem orElse_eq_some_iff {α : Type} {default a : α} {read? : Node → Option α}
    {field : Option Node} :
    orElse default read? field = some a ↔ FieldOr default read? field a := by
  constructor
  · intro h
    cases field with
    | none => cases h; exact .missing
    | some v => exact .read h
  · rintro (_ | h)
    · rfl
    · exact h

/-- A body that is an envelope of details: a message and errors, each empty where it is missing. -/
def IsEnvelope (body : Bytes) (message : String) (errors : List String) : Prop :=
  ∃ n, Node.read? body = some n ∧ ∃ details, n.fields? ["error"] = some [some details] ∧
    ∃ field field', details.fields? ["message", "errors"] = some [field, field'] ∧
      FieldOr "" Node.string? field message ∧ FieldOr [] (Node.listOf? Node.string?) field' errors

theorem enveloped?_eq_some_iff {α : Type} {name : String} {read? : Node → Option α} {v : Node}
    {a : α} : enveloped? name read? v = some a ↔
      ∃ inner, v.fields? [name] = some [some inner] ∧ read? inner = some a := by
  unfold enveloped?
  constructor
  · intro h
    obtain ⟨fields, hfields, h⟩ := Option.bind_eq_some_iff.1 h
    split at h
    next field =>
      obtain ⟨inner, rfl, hread⟩ := Option.bind_eq_some_iff.1 h
      exact ⟨inner, hfields, hread⟩
    next => cases h
  · rintro ⟨inner, hfields, hread⟩
    rw [hfields]
    exact hread

theorem ErrorDetails.ofNode?_eq_some_iff {v : Node} {message : String} {errors : List String} :
    ofNode? v = some ⟨message, errors⟩ ↔
      ∃ field field', v.fields? ["message", "errors"] = some [field, field'] ∧
        FieldOr "" Node.string? field message ∧
        FieldOr [] (Node.listOf? Node.string?) field' errors := by
  unfold ofNode?
  constructor
  · intro h
    obtain ⟨fields, hfields, h⟩ := Option.bind_eq_some_iff.1 h
    split at h
    next field field' =>
      obtain ⟨message', hmessage, h⟩ := Option.bind_eq_some_iff.1 h
      obtain ⟨errors', herrors, h⟩ := Option.bind_eq_some_iff.1 h
      cases h
      exact ⟨field, field', hfields, orElse_eq_some_iff.1 hmessage, orElse_eq_some_iff.1 herrors⟩
    next => cases h
  · rintro ⟨field, field', hfields, hmessage, herrors⟩
    rw [hfields]
    simp only [Option.bind_eq_bind, Option.bind_some, orElse_eq_some_iff.2 hmessage,
      orElse_eq_some_iff.2 herrors]

theorem isEnvelope_iff {body : Bytes} {message : String} {errors : List String} :
    IsEnvelope body message errors ↔
      readAs? (enveloped? "error" ErrorDetails.ofNode?) body = some ⟨message, errors⟩ := by
  simp only [IsEnvelope, readAs?, Option.bind_eq_some_iff, enveloped?_eq_some_iff,
    ErrorDetails.ofNode?_eq_some_iff]

/-- What the body of a refusal says: the details in its envelope, or its text and no errors. -/
inductive Says (body : Bytes) : String → List String → Prop
  | details {message : String} {errors : List String} (h : IsEnvelope body message errors) :
      Says body message errors
  | text (h : ∀ message errors, ¬ IsEnvelope body message errors) :
      Says body (String.ofList (Utf8.decodeLossy body)) []

theorem says_iff {body : Bytes} {message : String} {errors : List String} :
    Says body message errors ↔ ErrorDetails.ofBody body = ⟨message, errors⟩ := by
  rw [ErrorDetails.ofBody]
  cases hread : readAs? (enveloped? "error" ErrorDetails.ofNode?) body with
  | none =>
    have hnone : ∀ message errors, ¬ IsEnvelope body message errors := fun message errors h => by
      rw [isEnvelope_iff, hread] at h
      cases h
    constructor
    · rintro (h | -)
      · exact absurd h (hnone _ _)
      · rfl
    · intro h
      cases h
      exact .text hnone
  | some d =>
    constructor
    · rintro (h | h)
      · rw [isEnvelope_iff, hread] at h
        exact Option.some.inj h
      · exact absurd (isEnvelope_iff.2 hread) (h _ _)
    · intro h
      exact .details (isEnvelope_iff.2 (hread.trans (congrArg some h)))

/-! ### Causes -/

/-- The cause behind a response that is no success, to a call about a resource with an ID. -/
inductive Cause (resource id : String) (r : Response) : ApiError → Prop
  | missing (h : r.status = 404) : Cause resource id r (.notFound resource id)
  | takenInErrors {message e : String} {before after : List String} (h : r.status ≠ 404)
      (hbody : Says r.body message (before ++ e :: after)) (hbefore : ∀ x ∈ before, ¬ SaysTaken x)
      (he : SaysTaken e) : Cause resource id r (.duplicateName e)
  | takenInMessage {message : String} {errors : List String} (h : r.status ≠ 404)
      (hbody : Says r.body message errors) (herrors : ∀ x ∈ errors, ¬ SaysTaken x)
      (hmessage : SaysTaken message) : Cause resource id r (.duplicateName message)
  | other {message : String} {errors : List String} (h : r.status ≠ 404)
      (hbody : Says r.body message errors) (herrors : ∀ x ∈ errors, ¬ SaysTaken x)
      (hmessage : ¬ SaysTaken message) : Cause resource id r (.http r.status message errors)

section

variable {resource id : String} {r : Response}

theorem classify_of_body {message : String} {errors : List String} (h : r.status ≠ 404)
    (hbody : Says r.body message errors) : ApiError.classify r.status r.body resource id =
      match errors.find? saysNameTaken with
      | some e => .duplicateName e
      | none =>
        if saysNameTaken message then .duplicateName message
        else .http r.status message errors := by
  cases hfind : errors.find? saysNameTaken <;>
    simp [ApiError.classify, h, says_iff.1 hbody, hfind]

theorem find?_eq_none {errors : List String} (h : ∀ x ∈ errors, ¬ SaysTaken x) :
    errors.find? saysNameTaken = none :=
  List.find?_eq_none.2 fun x hx hsays => h x hx ((saysNameTaken_iff x).1 hsays)

theorem find?_middle {before after : List String} {e : String}
    (hbefore : ∀ x ∈ before, ¬ SaysTaken x) (he : SaysTaken e) :
    (before ++ e :: after).find? saysNameTaken = some e := by
  rw [List.find?_append, find?_eq_none hbefore, Option.none_or,
    List.find?_cons_of_pos ((saysNameTaken_iff e).2 he)]

/-- A cause is what the response is classified as. -/
theorem Cause.eq {e : ApiError} (h : Cause resource id r e) :
    ApiError.classify r.status r.body resource id = e := by
  cases h with
  | missing h => exact if_pos h
  | takenInErrors h hbody hbefore he =>
    rw [classify_of_body h hbody, find?_middle hbefore he]
  | takenInMessage h hbody herrors hmessage =>
    rw [classify_of_body h hbody, find?_eq_none herrors]
    exact if_pos ((saysNameTaken_iff _).2 hmessage)
  | other h hbody herrors hmessage =>
    rw [classify_of_body h hbody, find?_eq_none herrors]
    exact if_neg fun hsays => hmessage ((saysNameTaken_iff _).1 hsays)

/-- There is a cause behind every response. -/
theorem exists_cause (resource id : String) (r : Response) : ∃ e, Cause resource id r e := by
  by_cases h404 : r.status = 404
  · exact ⟨_, .missing h404⟩
  have hbody : Says r.body (ErrorDetails.ofBody r.body).message
      (ErrorDetails.ofBody r.body).errors := says_iff.2 rfl
  cases hfind : (ErrorDetails.ofBody r.body).errors.find? saysNameTaken with
  | some e =>
    obtain ⟨he, before, after, herrors, hbefore⟩ := List.find?_eq_some_iff_append.1 hfind
    rw [herrors] at hbody
    refine ⟨_, .takenInErrors h404 hbody (fun x hx hsays => ?_) ((saysNameTaken_iff e).1 he)⟩
    simpa [(saysNameTaken_iff x).2 hsays] using hbefore x hx
  | none =>
    have herrors : ∀ x ∈ (ErrorDetails.ofBody r.body).errors, ¬ SaysTaken x := fun x hx hsays =>
      List.find?_eq_none.1 hfind x hx ((saysNameTaken_iff x).2 hsays)
    by_cases hmessage : SaysTaken (ErrorDetails.ofBody r.body).message
    · exact ⟨_, .takenInMessage h404 hbody herrors hmessage⟩
    · exact ⟨_, .other h404 hbody herrors hmessage⟩

/-- Each response has one cause. -/
theorem cause_iff {e : ApiError} :
    Cause resource id r e ↔ ApiError.classify r.status r.body resource id = e := by
  refine ⟨Cause.eq, ?_⟩
  rintro rfl
  obtain ⟨e, h⟩ := exists_cause resource id r
  rwa [h.eq]

theorem Cause.ne_transport {e : ApiError} (h : Cause resource id r e) : e ≠ .transport := by
  rintro rfl
  cases h

theorem Cause.ne_decode {e : ApiError} (h : Cause resource id r e) : e ≠ .decode := by
  rintro rfl
  cases h

/-- A name is taken only in the wording that says so. -/
theorem Cause.saysTaken {message : String} (h : Cause resource id r (.duplicateName message)) :
    r.status ≠ 404 ∧ SaysTaken message := by
  cases h with
  | takenInErrors h _ _ he => exact ⟨h, he⟩
  | takenInMessage h _ _ hmessage => exact ⟨h, hmessage⟩

end

/-! ### Calls -/

/-- The kind of object that a call asks for. -/
def Call.resource : Call → String
  | .getService _ | .createService _ | .createIntegration _ _ | .deleteService _ => "service"
  | .getIntegration _ _ => "integration"
  | .getEscalationPolicy _ => "escalation policy"
  | .listServices _ => "services"

namespace Client

/-- The response to the last request of a call. -/
def lastResponse? (c : Client) (call : Call) (p : Peer) : Option Response :=
  match (c.sent call p).length with
  | 0 => none
  | n + 1 => (p.script[n]?.getD .dropped).response?

variable {c : Client} {call : Call} {p : Peer} {r : Response}

/-- A call that is no listing has one response at most. -/
theorem lastResponse?_eq {d : Draft} (hd : c.draft? call = some d) (p : Peer) :
    c.lastResponse? call p = (p.exchange d).1 := by
  rw [lastResponse?, sent_eq hd, Peer.exchange_eq]
  cases p.carries d with
  | none => rfl
  | some r => rw [Peer.next, List.head?_eq_getElem?]; rfl

theorem body_error_iff {d : Draft} {resource id : String} {e : ApiError} (hsent : e ≠ .transport) :
    (body d resource id p).1 = .error e ↔ ∃ r, (p.exchange d).1 = some r ∧ r.isSuccess = false ∧
      ApiError.classify r.status r.body resource id = e := by
  rw [body]
  rcases p.exchange d with ⟨_ | r, q⟩
  · exact iff_of_false (fun h => hsent (Except.error.inj h).symm) (by simp)
  · cases hr : r.isSuccess <;> simp [hr]

theorem decoded_error_iff {α : Type} {read? : Node → Option α} {x : Except ApiError Bytes}
    {e : ApiError} (hread : e ≠ .decode) : decoded read? x = .error e ↔ x = .error e := by
  cases x with
  | error e' => simp [decoded]
  | ok body => cases hbody : readAs? read? body <;> simp [decoded, hbody, Ne.symm hread]

/-- A call that is no listing fails as its response is classified. -/
theorem answer_error_iff_of_draft {call : Call} {d : Draft} (hd : c.draft? call = some d)
    {e : ApiError} (hsent : e ≠ .transport) (hread : e ≠ .decode) :
    (c.answer call p).1 = .error e ↔ ∃ r, c.lastResponse? call p = some r ∧ r.isSuccess = false ∧
      ApiError.classify r.status r.body call.resource call.subject = e := by
  rw [lastResponse?_eq hd]
  cases call with
  | listServices query => cases hd
  | deleteService id =>
    cases hd
    rw [← body_error_iff hsent]
    have hmap : ∀ x : Except ApiError Bytes, (x.map fun _ => ()) = .error e ↔ x = .error e := by
      intro x
      cases x <;> simp [Except.map]
    exact hmap _
  | _ =>
    cases hd
    rw [← body_error_iff hsent, answer, send, decoded_error_iff hread]
    rfl

end Client

/-! ### Listings -/

theorem NoPage.pageIn_eq_none {query : String} {d : Delivery} {e : ApiError}
    (h : NoPage query d e) : pageIn d = none := by
  cases h with
  | lost h => rw [pageIn, h]; rfl
  | refused h hr => simp [pageIn, h, hr]
  | undecodable h hr hbody => simp [pageIn, h, hr, hbody]

/-- A delivery is no page for one reason. -/
theorem NoPage.unique {query : String} {d : Delivery} {e e' : ApiError} (h : NoPage query d e)
    (h' : NoPage query d e') : e = e' := by
  cases h <;> cases h' <;> simp_all

/-- A listing fails as the delivery that stops it does. -/
theorem Listing.error_iff {query : String} {ds : List Delivery} {pages : List (List Service)}
    {result : Except ApiError (List Service)} (h : Listing query ds pages result) (e : ApiError) :
    result = .error e ↔ NoPage query (ds[pages.length]?.getD .dropped) e := by
  induction h with
  | usedUp =>
    constructor
    · intro he
      cases he
      exact .lost rfl
    · intro he
      rw [NoPage.unique he (.lost rfl)]
  | failed hd =>
    constructor
    · intro he
      cases he
      exact hd
    · intro he
      rw [NoPage.unique he hd]
  | last hd =>
    refine iff_of_false nofun fun he => ?_
    cases hd.symm.trans he.pageIn_eq_none
  | goesOn _ _ _ ih =>
    rw [List.length_cons, List.getElem?_cons_succ, ← ih]
    cases ‹Except ApiError (List Service)› <;> simp [Except.map]

namespace Client

variable {c : Client} {p : Peer}

/-- A listing that does not get as far as the peer sends nothing. -/
theorem listFrom_of_unreached (h : ∀ u, ¬ c.Reaches u p) (query : String) (found : List Service) :
    c.listFrom query found p = (.error .transport, p) := by
  have hnone : p.carries (c.pageDraft query found.length) = none := by
    rw [Option.eq_none_iff_forall_ne_some]
    intro r hr
    obtain ⟨u, hu, hadmits, -⟩ := Peer.carries_eq_some_iff.1 hr
    exact h u ⟨hu, hadmits⟩
  refine listFrom_of_error (Prod.ext ?_ ?_)
  · rw [page, send, body, Peer.exchange_eq, hnone]
    rfl
  · rw [page, snd_send, Peer.exchange_eq, hnone]

/-- The last response of a listing is in the delivery that stops it. -/
theorem lastResponse?_listServices {u : Url} (h : c.Reaches u p) {query : String}
    {pages : List (List Service)} {result : Except ApiError (List Service)}
    (hcourse : Listing query p.script pages result) :
    c.lastResponse? (.listServices query) p =
      (p.script[pages.length]?.getD .dropped).response? := by
  have hsent : (c.sent (.listServices query) p).length = pages.length + 1 := by
    rw [sent, answer, listFrom_of_listing hcourse [] h rfl, List.drop_left, pageRequests,
      List.length_map, List.length_range]
  rw [lastResponse?, hsent]

/-! ### Errors of calls -/

/-- A call fails as its last response is classified, unless that is missing or not understood. -/
theorem answer_error_iff {call : Call} {e : ApiError} (hsent : e ≠ .transport)
    (hread : e ≠ .decode) :
    (c.answer call p).1 = .error e ↔ ∃ r, c.lastResponse? call p = some r ∧ r.isSuccess = false ∧
      ApiError.classify r.status r.body call.resource call.subject = e := by
  cases hd : c.draft? call with
  | some d => exact answer_error_iff_of_draft hd hsent hread
  | none =>
    cases call with
    | listServices query =>
      by_cases hp : ∃ u, c.Reaches u p
      · obtain ⟨u, hp⟩ := hp
        obtain ⟨pages, result, hcourse⟩ := exists_listing query p.script
        have hresult : (c.answer (.listServices query) p).1 = result := by
          rw [answer, listFrom_of_listing hcourse [] hp rfl]
          cases result <;> rfl
        rw [hresult, hcourse.error_iff, lastResponse?_listServices hp hcourse]
        constructor
        · rintro (_ | ⟨h, hr⟩ | _)
          · exact absurd rfl hsent
          · exact ⟨_, h, hr, rfl⟩
          · exact absurd rfl hread
        · rintro ⟨r, h, hr, rfl⟩
          exact .refused h hr
      · have hrun := listFrom_of_unreached (not_exists.1 hp) query []
        have hsent' : c.lastResponse? (.listServices query) p = none := by
          rw [lastResponse?, sent, answer, hrun, List.drop_length, List.length_nil]
        rw [hsent', answer, hrun]
        exact iff_of_false (fun h => hsent (Except.error.inj h).symm) (by simp)
    | _ => cases hd

end Client

/-! ### Adoption -/

/-- A provisioning lists services only after its service was rejected as taken. -/
theorem rejected_of_listing {W : Type} {answer : (c : Call) → W → c.Reply × W} {c : TicketingConfig}
    {w : W} {query : String} {reply : Except ApiError (List Service)}
    (h : (⟨.listServices query, reply⟩ : Entry) ∈ c.provision.body.transcript answer w) :
    ∃ policy message, (⟨.createService (serviceToCreate c policy),
      .error (.duplicateName message)⟩ : Entry) ∈ c.provision.body.transcript answer w := by
  have hcourse := course_run answer c w
  generalize c.provision.body.transcript answer w = xs at h hcourse
  generalize (c.provision.body.run answer w).1 = o at hcourse
  cases hcourse with
  | invalid => cases h
  | unknown => simp at h
  | refused => simp at h
  | creates _ hs => cases hs <;> simp at h
  | taken => exact ⟨_, _, List.mem_cons_of_mem _ List.mem_cons_self⟩

/-- Whatever PagerDuty sends, a response that is no success has one cause, which is the error of the
call. A name is reported as taken only where such a response, with another status than 404, says so in
PagerDuty's wording, and a provisioning adopts a service only after such a report. -/
theorem refusal_causes (client : Client) (p : Peer) :
    (∀ call r, client.lastResponse? call p = some r → r.isSuccess = false →
      ∀ e, (client.answer call p).1 = .error e ↔ Cause call.resource call.subject r e) ∧
    (∀ call message, (client.answer call p).1 = .error (.duplicateName message) →
      SaysTaken message ∧ ∃ r, client.lastResponse? call p = some r ∧ r.isSuccess = false ∧
        r.status ≠ 404) ∧
    ∀ (c : TicketingConfig) query reply,
      (⟨.listServices query, reply⟩ : Entry) ∈ c.provision.body.transcript client.answer p →
      ∃ policy message, SaysTaken message ∧ (⟨.createService (serviceToCreate c policy),
        .error (.duplicateName message)⟩ : Entry) ∈ c.provision.body.transcript client.answer p := by
  have htaken : ∀ {call message} {p : Peer},
      (client.answer call p).1 = .error (.duplicateName message) →
      ∃ r, client.lastResponse? call p = some r ∧ r.isSuccess = false ∧
        Cause call.resource call.subject r (.duplicateName message) := by
    intro call message p h
    obtain ⟨r, hr, hs, hclassify⟩ :=
      (Client.answer_error_iff (e := .duplicateName message) nofun nofun).1 h
    exact ⟨r, hr, hs, cause_iff.2 hclassify⟩
  refine ⟨fun call r hr hs e => ?_, fun call message h => ?_, fun c query reply h => ?_⟩
  · obtain ⟨e', he'⟩ := exists_cause call.resource call.subject r
    have herror : (client.answer call p).1 = .error e' :=
      (Client.answer_error_iff he'.ne_transport he'.ne_decode).2 ⟨r, hr, hs, he'.eq⟩
    rw [herror, Except.error.injEq, cause_iff, he'.eq]
  · obtain ⟨r, hr, hs, hcause⟩ := htaken h
    exact ⟨hcause.saysTaken.2, r, hr, hs, hcause.saysTaken.1⟩
  · obtain ⟨policy, message, hmem⟩ := rejected_of_listing h
    obtain ⟨p', hreply⟩ := Workflow.exists_answer_of_mem hmem
    obtain ⟨r, -, -, hcause⟩ := htaken hreply
    exact ⟨policy, message, hcause.saysTaken.2, hmem⟩

/-- A creation is refused with two errors, the second of which says in PagerDuty's wording that the
name is taken, and a listing with the same body and status 404. -/
theorem refusal_causes_second_error :
    let body := Utf8.encode ("\x7b\"error\":\x7b\"message\":\"Invalid\",\"errors\":[\"no\"," ++
      "\"Name has already been taken.\"]\x7d\x7d").toList
    let peer (status : Nat) : Peer := ⟨[.plain "pd"], true, [.response status body], []⟩
    let service : Service := ⟨"", "a", "", ⟨"e", ""⟩, none, none, none, []⟩
    (lister.lastResponse? (.createService service) (peer 400) = some ⟨400, body⟩ ∧
      Cause "service" "a" ⟨400, body⟩ (.duplicateName "Name has already been taken.")) ∧
    lister.lastResponse? (.listServices "a") (peer 404) = some ⟨404, body⟩ ∧
      Cause "services" "a" ⟨404, body⟩ (.notFound "services" "a") := by
  intro body peer service
  have hcreation : lister.lastResponse? (.createService service) (peer 400) = some ⟨400, body⟩ := by
    decide +kernel
  have hlisting : lister.lastResponse? (.listServices "a") (peer 404) = some ⟨404, body⟩ := by
    decide +kernel
  refine ⟨⟨hcreation, ?_⟩, hlisting, ?_⟩
  · exact ((refusal_causes lister (peer 400)).1 _ _ hcreation rfl _).1 (by decide +kernel)
  · exact ((refusal_causes lister (peer 404)).1 _ _ hlisting rfl _).1 (by decide +kernel)

end PagerDuty
end Oncall
