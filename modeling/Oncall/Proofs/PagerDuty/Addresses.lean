import Oncall.Proofs.PagerDuty.Queries
import Oncall.Proofs.Url.Segment

/-! Where the ID of a service leads. An ID is written into the address of a request as it is, and
that address is then read like any other: what means something there is acted upon. A request goes to
the service with its ID only if the ID means nothing else, and then to no other service. -/

namespace Oncall.PagerDuty

open Http Url

/-- The target of the service with an ID: the path of the base, the services, and then one segment
that is read back as the ID. -/
def IsServiceTarget (c : Client) (id target : String) : Prop :=
  ∃ b segment, parse? (c.baseUrl ++ "/") = some b ∧
    target.toList = b.path ++ "services/".toList ++ segment ∧ '/' ∉ segment ∧ '?' ∉ segment ∧
    percentDecode segment = Utf8.encode id.toList

/-- A target is that of one service at most. -/
theorem IsServiceTarget.unique {c : Client} {id id' target : String}
    (h : IsServiceTarget c id target) (h' : IsServiceTarget c id' target) : id = id' := by
  obtain ⟨b, segment, hb, htarget, -, -, hid⟩ := h
  obtain ⟨b', segment', hb', htarget', -, -, hid'⟩ := h'
  obtain rfl : b = b' := Option.some.inj (hb.symm.trans hb')
  obtain rfl : segment = segment' := List.append_cancel_left (htarget.symm.trans htarget')
  exact String.toList_inj.1 (Utf8.encode_injective (hid.symm.trans hid'))

/-- The services have a segment of their own behind the base. -/
theorem parse?_services {base : String} (hquestion : '?' ∉ base.toList) (hhash : '#' ∉ base.toList)
    {b : Url} (h : parse? (base ++ "/") = some b) : parse? (base ++ "/services" ++ "/") =
      some ⟨b.secure, b.authority, b.login, b.path ++ "services/".toList, none⟩ := by
  obtain ⟨stack, hpath, hrests⟩ := exists_parse?_append hquestion hhash h
  have hurl : base ++ "/services" ++ "/" = base ++ "/" ++ "services/" := by
    rw [String.append_assoc, String.append_assoc]
    rfl
  have hparts : Parts.split isSlash (pathText (cleanBack "services/".toList)) =
      ["services".toList, []] := by decide
  have hresolved : resolveDots stack ["services".toList, []] =
      stack.reverse ++ ["services".toList, []] := by
    simp [resolveDots, isDot, isDoubleDot, lower]
  have hquery : queryOf (Parts.cut (· = '#') (cleanBack "services/".toList)).1 = none := by decide
  have hrendered : rendered ["services".toList, []] = '/' :: "services/".toList := by decide
  rw [hurl, hrests, hparts, hresolved, hquery, hpath, rendered_append, hrendered, List.append_cons]

section

variable {c : Client} (hquestion : '?' ∉ c.baseUrl.toList) (hhash : '#' ∉ c.baseUrl.toList)
  {id : String} (hid : id ≠ "")

include hquestion hhash hid in
/-- The target of a request that an ID leads to. -/
theorem isServiceTarget_iff {u : Url}
    (hu : parse? (c.baseUrl ++ Client.servicePath id) = some u) :
    IsServiceTarget c id u.target ↔ (parse? (c.baseUrl ++ "/")).isSome ∧ IsPlain id.toList := by
  have hne : id.toList ≠ [] := by simpa using hid
  have hnot : ∀ {x : Char}, x ∉ c.baseUrl.toList → x ∉ "/services".toList →
      x ∉ (c.baseUrl ++ "/services").toList := fun h h' => by
    rw [String.toList_append]
    exact fun hmem => (List.mem_append.1 hmem).elim h h'
  have hurl : c.baseUrl ++ Client.servicePath id = c.baseUrl ++ "/services" ++ "/" ++ id := by
    rw [Client.servicePath, show "/services/" = "/services" ++ "/" from rfl]
    simp only [String.append_assoc]
  rw [hurl] at hu
  cases hb : parse? (c.baseUrl ++ "/") with
  | none => simp [IsServiceTarget, hb]
  | some b =>
    rw [← exists_segment_iff (hnot hquestion (by decide)) (hnot hhash (by decide))
      (parse?_services hquestion hhash hb) hu hne]
    simp [IsServiceTarget, hb]

include hquestion hhash hid in
/-- A call about a service by its ID sends its one draft or nothing. -/
theorem sent_service {method : Method} {call : Call}
    (hdraft : c.draft? call = some (c.draft method (Client.servicePath id))) (p : Peer) :
    c.sent call p = [] ∨ ∃ r, c.sent call p = [r] ∧ r.method = method ∧
      (IsServiceTarget c id r.target ↔
        (parse? (c.baseUrl ++ "/")).isSome ∧ IsPlain id.toList) := by
  rw [Client.sent_eq hdraft]
  cases hr : p.carries (c.draft method (Client.servicePath id)) with
  | none => exact .inl rfl
  | some r =>
    obtain ⟨u, hu, -, rfl⟩ := Peer.carries_eq_some_iff.1 hr
    exact .inr ⟨_, rfl, rfl, isServiceTarget_iff hquestion hhash hid hu⟩

end

theorem received_deprovision (c : Client) (id : String) (p : Peer) :
    ((deprovision id).run c.answer p).2.received = p.received ++ c.sent (.deleteService id) p := by
  have hdraft : c.draft? (.deleteService id) = some (c.draft .delete (Client.servicePath id)) := rfl
  rw [deprovision, Workflow.run_call, Workflow.run_done, Client.sent_eq hdraft]
  exact Client.received_answer hdraft p

/-- An ID leads to one request at most. Behind a base without query and fragment it goes to the
service with that ID just if the base is an address and the ID is plain, and the target of a service
is that of no other. The same holds of what a deprovisioning deletes. -/
theorem service_target_iff_plain {c : Client} {baseUrl apiKey : String}
    (hc : c = Client.connect baseUrl apiKey) (hquestion : '?' ∉ baseUrl.toList)
    (hhash : '#' ∉ baseUrl.toList) :
    (∀ id call, id ≠ "" → call = .getService id ∨ call = .deleteService id → ∀ p,
      c.sent call p = [] ∨ ∃ r, c.sent call p = [r] ∧
        (IsServiceTarget c id r.target ↔
          (parse? (c.baseUrl ++ "/")).isSome ∧ IsPlain id.toList)) ∧
    (∀ id id' target, IsServiceTarget c id target → IsServiceTarget c id' target → id = id') ∧
    ∀ id p, id ≠ "" → ((deprovision id).run c.answer p).2.received = p.received ∨
      ∃ r, ((deprovision id).run c.answer p).2.received = p.received ++ [r] ∧ r.method = .delete ∧
        (IsServiceTarget c id r.target ↔
          (parse? (c.baseUrl ++ "/")).isSome ∧ IsPlain id.toList) := by
  have hquestion' : '?' ∉ c.baseUrl.toList := hc ▸ Client.not_mem_connect hquestion apiKey
  have hhash' : '#' ∉ c.baseUrl.toList := hc ▸ Client.not_mem_connect hhash apiKey
  refine ⟨fun id call hid hcall p => ?_, fun _ _ _ h h' => h.unique h', fun id p hid => ?_⟩
  · obtain ⟨method, hdraft⟩ : ∃ method,
        c.draft? call = some (c.draft method (Client.servicePath id)) := by
      rcases hcall with rfl | rfl <;> exact ⟨_, rfl⟩
    obtain h | ⟨r, hr, -, htarget⟩ := sent_service hquestion' hhash' hid hdraft p
    · exact .inl h
    · exact .inr ⟨r, hr, htarget⟩
  · have hdraft : c.draft? (.deleteService id) =
        some (c.draft .delete (Client.servicePath id)) := rfl
    rw [received_deprovision]
    obtain h | ⟨r, hr, hmethod, htarget⟩ := sent_service hquestion' hhash' hid hdraft p
    · exact .inl (by rw [h, List.append_nil])
    · exact .inr ⟨r, by rw [hr], hmethod, htarget⟩

/-- An ID with a blank, a percent sign and an accent, behind a base with a path. -/
theorem service_target_iff_plain_accented :
    let c := Client.connect "http://pd/api/" "k"
    let p : Peer := ⟨[.plain "pd"], true, [.response 204 []], []⟩
    let r : Request := ⟨.plain "pd", .delete, "/api/services/P%201%%C3%A9", c.headers, ""⟩
    ('?' ∉ "http://pd/api/".toList ∧ '#' ∉ "http://pd/api/".toList) ∧
      c.sent (.deleteService "P 1%é") p = [r] ∧ IsServiceTarget c "P 1%é" r.target := by
  intro c p r
  have hquestion : '?' ∉ "http://pd/api/".toList := by decide
  have hhash : '#' ∉ "http://pd/api/".toList := by decide
  have hsent : c.sent (.deleteService "P 1%é") p = [r] := by decide +kernel
  have hplain : IsPlain "P 1%é".toList :=
    (isPlain_iff (by decide)).2 ⟨by decide, unescaped_iff.2 (by decide)⟩
  refine ⟨⟨hquestion, hhash⟩, hsent, ?_⟩
  rcases (service_target_iff_plain rfl hquestion hhash).1 "P 1%é" (.deleteService "P 1%é")
    (by decide) (.inr rfl) p with h | ⟨r', hr, htarget⟩
  · cases hsent.symm.trans h
  · obtain rfl : r = r' := by simpa using hsent.symm.trans hr
    exact htarget.2 ⟨by decide +kernel, hplain⟩

/-- An ID with a dot segment deletes an escalation policy, and a fragment behind an ID is left out,
so that another ID leads to the same service. -/
theorem service_id_leads_elsewhere :
    let c := Client.connect "http://pd" "k"
    let p : Peer := ⟨[.plain "pd"], true, [.response 204 []], []⟩
    let r : Request := ⟨.plain "pd", .delete, "/escalation_policies/EP1", c.headers, ""⟩
    let r' : Request := ⟨.plain "pd", .delete, "/services/P1", c.headers, ""⟩
    (((deprovision "../escalation_policies/EP1").run c.answer p).2.received = [r] ∧
      ¬ IsServiceTarget c "../escalation_policies/EP1" r.target) ∧
    c.sent (.deleteService "P1") p = [r'] ∧ c.sent (.deleteService "P1#x") p = [r'] := by
  intro c p r r'
  refine ⟨⟨by decide +kernel, ?_⟩, by decide +kernel, by decide +kernel⟩
  rintro ⟨b, segment, hb, htarget, -⟩
  have hbase : parse? (c.baseUrl ++ "/") = some ⟨false, "pd".toList, none, ['/'], none⟩ := by
    decide +kernel
  obtain rfl := Option.some.inj (hb.symm.trans hbase)
  have hprefix : ['/'] ++ "services/".toList <+: r.target.toList := ⟨segment, htarget.symm⟩
  exact absurd hprefix (by decide)

end Oncall.PagerDuty
