import Oncall.Proofs.Dictionary
import Oncall.Proofs.Json.Record
import Oncall.Proofs.PagerDuty.Requests

/-! The objects of the API are read back from their own text. A member may be left out when it is
empty, absent or filled in by the server; reading restores it by the default that matches, and a
member that is required is never left out. So what is posted to create an object is read as the
object that is to be created. -/

namespace Oncall.PagerDuty

open Http Json

/-! ### Members that may be left out -/

theorem lookup_membersOf (fields : List (String × Option Value))
    (h : (fields.map (·.1)).Nodup) (name : String) :
    (fields.filterMap fun f => f.2.map (f.1, ·)).lookup name = (fields.lookup name).join := by
  induction fields with
  | nil => rfl
  | cons f fields ih =>
    obtain ⟨key, v⟩ := f
    obtain ⟨hkey, hrest⟩ := List.nodup_cons.1 h
    have ih := ih hrest
    by_cases hk : name = key
    · subst hk
      cases v with
      | some v => simp
      | none =>
        have hnone : List.lookup name fields = none := Dictionary.lookup_of_not_mem_keys hkey
        simpa [hnone] using ih
    · have hne : (name == key) = false := beq_eq_false_iff_ne.2 hk
      cases v with
      | some v => simpa [List.lookup_cons, hne] using ih
      | none => simpa [List.lookup_cons, hne] using ih

theorem keys_membersOf (fields : List (String × Option Value)) :
    ((fields.filterMap fun f => f.2.map (f.1, ·)).map (·.1)).Sublist (fields.map (·.1)) := by
  induction fields with
  | nil => exact .slnil
  | cons f fields ih =>
    obtain ⟨key, v⟩ := f
    cases v with
    | none => simpa using ih.cons key
    | some v => simpa using ih.cons_cons key

/-- Each declared field of an object is given as it was written, or left out as it was. -/
theorem fields?_membersOf {n : Node} {fields : List (String × Option Value)}
    (h : n.Spells (membersOf fields)) (hnodup : (fields.map (·.1)).Nodup) (names : List String) :
    ∃ fs, n.fields? names = some fs ∧
      List.Forall₂ (fun f name => SpellsField f (fields.lookup name).join) fs names := by
  obtain ⟨fs, hfs, hrel⟩ := fields?_of_spells h (hnodup.sublist (keys_membersOf fields)) names
  refine ⟨fs, hfs, ?_⟩
  simpa only [lookup_membersOf fields hnodup] using hrel

theorem readsField_unlessEmpty (s : String) :
    ReadsField (orElse "" Node.string?) (unlessEmpty s) s := by
  unfold unlessEmpty
  split
  next h =>
    rw [String.isEmpty_iff.1 h]
    exact readsField_default "" _
  next => exact (reads_string s).orElse ""

/-! ### Objects -/

theorem Reference.reads (r : Reference) : Reads Reference.ofNode? r.value r := by
  intro n hn
  obtain ⟨fs, hfs, hrel⟩ := fields?_membersOf hn (by simp) ["id", "type"]
  obtain _ | ⟨hid, _ | ⟨hkind, _ | _⟩⟩ := hrel
  have hid := (reads_string r.id).required _ hid
  have hkind := (reads_string r.kind).orElse "" _ hkind
  simp [Reference.ofNode?, hfs, hid, hkind]

theorem EscalationPolicy.reads (p : EscalationPolicy) :
    Reads EscalationPolicy.ofNode? p.value p := by
  intro n hn
  obtain ⟨fs, hfs, hrel⟩ := fields?_membersOf hn (by simp) ["id", "name"]
  obtain _ | ⟨hid, _ | ⟨hname, _ | _⟩⟩ := hrel
  have hid := (reads_string p.id).required _ hid
  have hname := (reads_string p.name).orElse "" _ hname
  simp [EscalationPolicy.ofNode?, hfs, hid, hname]

theorem Integration.reads (i : Integration) : Reads Integration.ofNode? i.value i := by
  intro n hn
  obtain ⟨fs, hfs, hrel⟩ := fields?_membersOf hn (by simp) ["id", "name", "type", "integration_key"]
  obtain _ | ⟨hid, _ | ⟨hname, _ | ⟨hkind, _ | ⟨hkey, _ | _⟩⟩⟩⟩ := hrel
  have hid := readsField_unlessEmpty i.id _ hid
  have hname := (reads_string i.name).orElse "" _ hname
  have hkind := (reads_string i.kind).orElse "" _ hkind
  have hkey := readsField_optional reads_string (fun _ => Value.noConfusion) i.integrationKey _ hkey
  simp [Integration.ofNode?, hfs, hid, hname, hkind, hkey]

theorem reads_seconds (n : UInt32) : Reads Node.word32? (seconds n) n := by
  rintro m (_ | _ | h | _ | _ | _)
  have hlt := n.toNat_lt
  simp [Node.word32?, Node.natUpTo?, h]
  omega

theorem Service.reads (s : Service) :
    Reads Service.ofNode? s.value { s with integrations := [] } := by
  intro n hn
  obtain ⟨fs, hfs, hrel⟩ := fields?_membersOf hn (by simp) ["id", "name", "description",
    "escalation_policy", "auto_resolve_timeout", "acknowledgement_timeout", "alert_creation",
    "integrations"]
  obtain _ | ⟨hid, _ | ⟨hname, _ | ⟨hdescription, _ | ⟨hpolicy, _ | ⟨hresolve, _ |
    ⟨hacknowledge, _ | ⟨halerts, _ | ⟨hintegrations, _ | _⟩⟩⟩⟩⟩⟩⟩⟩ := hrel
  have hid := readsField_unlessEmpty s.id _ hid
  have hname := (reads_string s.name).required _ hname
  have hdescription := readsField_unlessEmpty s.description _ hdescription
  have hpolicy := s.escalationPolicy.reads.required _ hpolicy
  have hresolve := readsField_optional reads_seconds (fun _ => Value.noConfusion)
    s.autoResolveTimeout _ hresolve
  have hacknowledge := readsField_optional reads_seconds (fun _ => Value.noConfusion)
    s.acknowledgementTimeout _ hacknowledge
  have halerts := readsField_optional reads_string (fun _ => Value.noConfusion)
    s.alertCreation _ halerts
  have hintegrations := readsField_default [] (Node.listOf? Integration.ofNode?) _ hintegrations
  simp [Service.ofNode?, hfs, hid, hname, hdescription, hpolicy, hresolve, hacknowledge, halerts,
    hintegrations]

/-- A page is read with its services in order, each without its integrations. -/
theorem ServiceList.reads (page : List Service) (more : Bool) :
    Reads ServiceList.ofNode? (membersOf [("services", some (.array (page.map Service.value))),
      ("more", some (.bool more))])
      ⟨page.map fun s => { s with integrations := [] }, more⟩ := by
  intro n hn
  obtain ⟨fs, hfs, hrel⟩ := fields?_membersOf hn (by simp) ["services", "more"]
  obtain _ | ⟨hservices, _ | ⟨hmore, _ | _⟩⟩ := hrel
  have hservices := (reads_listOf Service.reads page).orElse [] _ hservices
  have hmore := (reads_bool more).orElse false _ hmore
  simp [ServiceList.ofNode?, hfs, hservices, hmore]

/-- An object inside an object is read as it would be on its own. -/
theorem reads_envelope {α : Type} {read? : Node → Option α} {v : Value} {a : α}
    (h : Reads read? v a) (name : String) : Reads (enveloped? name read?) (envelope name v) a := by
  intro n hn
  obtain ⟨fs, hfs, hrel⟩ := fields?_of_spells hn (by simp) [name]
  obtain _ | ⟨hinner, _ | _⟩ := hrel
  rw [List.lookup_cons_self] at hinner
  have hinner := h.required _ hinner
  simp [enveloped?, hfs, hinner]

/-! ### Text -/

/-- A member that is left out, or legible. -/
def LegibleField (v : Option Value) : Prop := ∀ w ∈ v, w.Legible

theorem legible_membersOf {fields : List (String × Option Value)}
    (h : fields.Forall fun f => LegibleField f.2) : (membersOf fields).Legible := by
  refine membersLegible_iff.2 fun e he => ?_
  obtain ⟨f, hf, hfield⟩ := List.mem_filterMap.1 he
  obtain ⟨v, hv, rfl⟩ := Option.map_eq_some_iff.1 hfield
  exact List.forall_iff_forall_mem.1 h f hf v hv

theorem legible_some {v : Value} (h : v.Legible) : LegibleField (some v) := by
  rintro w ⟨⟩
  exact h

theorem legible_text (s : String) : LegibleField (some (.string s)) := legible_some trivial

theorem legible_unlessEmpty (s : String) : LegibleField (unlessEmpty s) := by
  unfold unlessEmpty
  split
  · exact nofun
  · exact legible_text s

theorem legible_optional {α : Type} {write : α → Value} (h : ∀ a, (write a).Legible)
    (o : Option α) : LegibleField (o.map write) := by
  cases o with
  | none => exact nofun
  | some a => exact legible_some (h a)

theorem legible_optionalText (o : Option String) : LegibleField (o.map .string) :=
  have h : ∀ s, (Value.string s).Legible := fun _ => trivial
  legible_optional h o

theorem legible_seconds (n : UInt32) : (seconds n).Legible := by
  have hlt := n.toNat_lt
  exact legible_natural (by simp only [maxWord]; omega)

theorem Reference.legible (r : Reference) : r.value.Legible :=
  legible_membersOf ⟨legible_text _, legible_text _⟩

theorem EscalationPolicy.legible (p : EscalationPolicy) : p.value.Legible :=
  legible_membersOf ⟨legible_text _, legible_text _⟩

theorem Integration.legible (i : Integration) : i.value.Legible :=
  legible_membersOf ⟨legible_unlessEmpty _, legible_text _, legible_text _,
    legible_optionalText _⟩

theorem Service.legible (s : Service) : s.value.Legible :=
  legible_membersOf ⟨legible_unlessEmpty _, legible_text _, legible_unlessEmpty _,
    legible_some s.escalationPolicy.legible, legible_optional legible_seconds _,
    legible_optional legible_seconds _, legible_optionalText _⟩

theorem ServiceList.legible (page : List Service) (more : Bool) :
    (membersOf [("services", some (.array (page.map Service.value))),
      ("more", some (.bool more))]).Legible := by
  refine legible_membersOf ⟨legible_some (itemsLegible_iff.2 fun v hv => ?_), legible_some trivial⟩
  obtain ⟨s, -, rfl⟩ := List.mem_map.1 hv
  exact s.legible

theorem legible_envelope (name : String) {v : Value} (h : v.Legible) : (envelope name v).Legible :=
  ⟨h, trivial⟩

theorem readAs?_of_reads {α : Type} {read? : Node → Option α} {v : Value} {a : α} {bs : Bytes}
    (htext : IsTextOf bs v) (h : Reads read? v a) : readAs? read? bs = some a := by
  obtain ⟨n, hn, hspell⟩ := htext
  simp [readAs?, hn, h n hspell]

/-- A call posts `a` to a path. It is made of one draft, with the headers of the client; a peer that
the draft gets to receives exactly this request, whose body is read as `a`. -/
def Client.Posts {α : Type} (c : Client) (call : Call) (path : String) (read? : Node → Option α)
    (a : α) : Prop :=
  ∃ d, c.draft? call = some d ∧ d.method = .post ∧ d.url = c.baseUrl ++ path ∧
    d.headers = c.headers ++ [("content-type", "application/json")] ∧
    ∀ p, c.sent call p = (p.carries d).toList ∧
      ∀ u, Url.parse? d.url = some u → p.admits d u = true → c.sent call p = [d.request u] ∧
        readAs? read? (Utf8.encode (d.request u).body.toList) = some a

theorem Client.posts {α : Type} {c : Client} {call : Call} {path : String} {v : Value}
    {read? : Node → Option α} {a : α} (hdraft : c.draft? call = some (c.draftWith path v))
    (hlegible : v.Legible) (h : Reads read? v a) : c.Posts call path read? a := by
  refine ⟨c.draftWith path v, hdraft, rfl, rfl, rfl, fun p => ⟨sent_eq hdraft p, ?_⟩⟩
  intro u hu hadmits
  refine ⟨?_, readAs?_of_reads (isTextOf_bytes hlegible) h⟩
  rw [sent_eq hdraft, Peer.carries_of_admits hu hadmits, Option.toList_some]

/-- Every object is read back from its own text, a service without its integrations; and what is
posted to create a service or an integration is read as what is to be created. -/
theorem objects_readBack :
    (∀ r : Reference, readAs? Reference.ofNode? r.value.bytes = some r) ∧
    (∀ p : EscalationPolicy, readAs? EscalationPolicy.ofNode? p.value.bytes = some p) ∧
    (∀ i : Integration, readAs? Integration.ofNode? i.value.bytes = some i) ∧
    (∀ s : Service, readAs? Service.ofNode? s.value.bytes = some { s with integrations := [] }) ∧
    (∀ (c : Client) (s : Service), c.Posts (.createService s) "/services"
      (enveloped? "service" Service.ofNode?) { s with integrations := [] }) ∧
    (∀ (c : Client) (id : String) (i : Integration),
      c.Posts (.createIntegration id i) ("/services/" ++ id ++ "/integrations")
        (enveloped? "integration" Integration.ofNode?) i) := by
  refine ⟨fun r => ?_, fun p => ?_, fun i => ?_, fun s => ?_, fun c s => ?_, fun c id i => ?_⟩
  · exact readAs?_of_reads (isTextOf_bytes r.legible) r.reads
  · exact readAs?_of_reads (isTextOf_bytes p.legible) p.reads
  · exact readAs?_of_reads (isTextOf_bytes i.legible) i.reads
  · exact readAs?_of_reads (isTextOf_bytes s.legible) s.reads
  · exact Client.posts rfl (legible_envelope _ s.legible) (reads_envelope s.reads _)
  · exact Client.posts rfl (legible_envelope _ i.legible) (reads_envelope i.reads _)

/-- A service with a quotation mark in its name and an integration, as a server receives it. -/
theorem objects_readBack_posted :
    let s : Service := ⟨"", "a\"b", "", ⟨"e", ""⟩, some 0, none, some "", [⟨"I1", "", "", none⟩]⟩
    let p : Peer := ⟨[.plain "pd"], true, [], []⟩
    ∃ r, (Client.connect "http://pd" "k").sent (.createService s) p = [r] ∧
      readAs? (enveloped? "service" Service.ofNode?) (Utf8.encode r.body.toList) =
        some { s with integrations := [] } := by
  intro s p
  obtain ⟨d, -, -, hurl, hheaders, hposts⟩ :=
    objects_readBack.2.2.2.2.1 (Client.connect "http://pd" "k") s
  have hu : Url.parse? d.url = some ⟨false, "pd".toList, none, "/services".toList, none⟩ := by
    rw [hurl]
    decide +kernel
  have hadmits : p.admits d ⟨false, "pd".toList, none, "/services".toList, none⟩ = true := by
    rw [Peer.admits, hheaders]
    decide +kernel
  exact ⟨_, (hposts p).2 _ hu hadmits⟩

end Oncall.PagerDuty
