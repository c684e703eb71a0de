import Oncall.PagerDuty.Resolve
import Oncall.Proofs.Source.Objects
import Oncall.Proofs.Text.Parts
import Oncall.Vault.Access
import Mathlib.Data.Bool.AllAny

/-! Objects from the Kubernetes API and from memory. A request for an object whose names are made of
label characters is made as its path is written, unless the path is too long to be asked for. Its
response means what the object holds, or that there is no such object, which is what memory says of
an object that it holds or lacks; so what is resolved from one source is resolved from the other. -/

namespace Oncall

namespace ObjectCall

/-- The path of an object under the API. -/
def path (c : ObjectCall) : String :=
  "/api/v1/namespaces/" ++ c.nspace ++ "/" ++ c.kind ++ "/" ++ c.name

theorem path_eq (c : ObjectCall) :
    c.path = "/api/v1/namespaces/" ++ c.nspace ++ "/" ++ c.kind ++ "/" ++ c.name := rfl

/-- Letters, digits and hyphens. -/
def isLabelChar (c : Char) : Bool := c.isAlphanum || c = '-'

/-- A call whose names are made of the characters of DNS labels. -/
structure Plain (c : ObjectCall) : Prop where
  nspace : ∀ x ∈ c.nspace.toList, isLabelChar x
  name : ∀ x ∈ c.name.toList, isLabelChar x
  nonempty : c.name ≠ ""

/-- The path is short enough to be asked for. -/
def Fits (c : ObjectCall) : Prop := c.path.utf8ByteSize ≤ Url.maxBytes

end ObjectCall

/-- A peer that the address of a server leads to. -/
structure Http.Peer.Hears (p : Peer) (u : Url) : Prop where
  reachable : p.reachable = true
  origin : Http.origin u ∈ p.origins

namespace Kubernetes

open Http Json ObjectCall

/-! ### Addresses -/

/-- Characters that stand for themselves in a path. -/
def InPath (x : Char) : Prop := Url.isPathChar x ∧ x ≠ '#' ∧ x ≠ '?'

instance (x : Char) : Decidable (InPath x) :=
  inferInstanceAs (Decidable (Url.isPathChar x ∧ x ≠ '#' ∧ x ≠ '?'))

theorem inPath_of_isLabelChar {x : Char} (h : isLabelChar x) : InPath x := by
  have hn : (0x30 ≤ x.toNat ∧ x.toNat ≤ 0x39) ∨ (0x41 ≤ x.toNat ∧ x.toNat ≤ 0x5A) ∨
      (0x61 ≤ x.toNat ∧ x.toNat ≤ 0x7A) ∨ x.toNat = 0x2D := by
    delta isLabelChar Char.isAlphanum Char.isAlpha Char.isUpper Char.isLower Char.isDigit at h
    simp only [UInt32.le_iff_toNat_le, Bool.or_eq_true, Bool.and_eq_true, decide_eq_true_eq,
      ge_iff_le] at h
    rcases h with h | rfl
    · change (_ ≤ x.toNat ∧ x.toNat ≤ _ ∨ _ ≤ x.toNat ∧ x.toNat ≤ _) ∨
        _ ≤ x.toNat ∧ x.toNat ≤ _ at h
      simp only [UInt32.reduceToNat, Char.reduceVal] at h
      omega
    · decide
  refine ⟨?_, ?_, ?_⟩
  · simp only [Url.isPathChar, Bool.or_eq_true, Bool.and_eq_true, decide_eq_true_eq]
    omega
  · rintro rfl
    simp at hn
  · rintro rfl
    simp at hn

theorem inPath_path {c : ObjectCall} (h : c.Plain) : ∀ x ∈ c.path.toList, InPath x := by
  have hroot : ∀ x ∈ "/api/v1/namespaces/".toList, InPath x :=
    List.all_iff_forall_prop.1 (by decide +kernel)
  have hslash : ∀ x ∈ "/".toList, InPath x :=
    List.all_iff_forall_prop.1 (by decide +kernel)
  have hkind : ∀ x ∈ c.kind.toList, InPath x := by
    cases c with
    | secret =>
      have hsecrets : ∀ x ∈ "secrets".toList, InPath x :=
        List.all_iff_forall_prop.1 (by decide +kernel)
      exact hsecrets
    | configMap =>
      have hmaps : ∀ x ∈ "configmaps".toList, InPath x :=
        List.all_iff_forall_prop.1 (by decide +kernel)
      exact hmaps
  have hnspace : ∀ x ∈ c.nspace.toList, InPath x := fun x hx =>
    inPath_of_isLabelChar (h.nspace x hx)
  have hname : ∀ x ∈ c.name.toList, InPath x := fun x hx => inPath_of_isLabelChar (h.name x hx)
  simp only [path_eq, String.toList_append, List.forall_mem_append]
  exact ⟨⟨⟨⟨⟨hroot, hnspace⟩, hslash⟩, hkind⟩, hslash⟩, hname⟩

/-- A path is asked for as it is written, if it may be asked for. -/
theorem path?_eq {c : ObjectCall} (h : c.Plain) :
    path? c = if c.path.utf8ByteSize ≤ Url.maxBytes then some c.path.toList else none := by
  have hfragment : Parts.cut (fun x => decide (x = '#')) c.path.toList = (c.path.toList, []) :=
    Parts.cut_of_forall fun x hx => decide_eq_false (inPath_path h x hx).2.1
  have hquery : Parts.cut (fun x => decide (x = '?')) c.path.toList = (c.path.toList, []) :=
    Parts.cut_of_forall fun x hx => decide_eq_false (inPath_path h x hx).2.2
  have hall : c.path.toList.all Url.isPathChar = true :=
    List.all_eq_true.2 fun x hx => (inPath_path h x hx).1
  have htarget : Url.isTarget c.path.toList = true := by
    simp [Url.isTarget, hfragment, hquery, hall]
  have hname : c.name.isEmpty = false := by simpa using h.nonempty
  obtain ⟨rest, hrest⟩ : ∃ rest, c.path.toList = '/' :: rest := by
    have hslash : "/api/v1/namespaces/".toList = '/' :: "api/v1/namespaces/".toList := by simp
    simp only [path_eq, String.toList_append, hslash, List.cons_append]
    exact ⟨_, rfl⟩
  have hstrict : Url.isStrict c.path = decide (c.path.utf8ByteSize ≤ Url.maxBytes) := by
    rw [hrest] at htarget
    simp [Url.isStrict, hrest, htarget]
  have hpath : path? c = if (!c.name.isEmpty && Url.isStrict c.path) = true then
    some (Parts.cut (fun x => decide (x = '#')) c.path.toList).1 else none := rfl
  rw [hpath, hname, hstrict, hfragment]
  simp

theorem addressOf_eq {c : ObjectCall} (h : c.Plain) (u : Url) :
    addressOf u c.path.toList =
      { u with
        login := none, path := Parts.trimEnd (· = '/') u.path ++ c.path.toList, query := none } := by
  have hquery : Parts.cut (fun x => decide (x = '?')) c.path.toList = (c.path.toList, []) :=
    Parts.cut_of_forall fun x hx => decide_eq_false (inPath_path h x hx).2.2
  simp [addressOf, hquery]

/-! ### Responses -/

/-- What is made of a response. -/
def meaning {α : Type} (read? : Node → Option α) (r : Response) : Except ConfigError α :=
  if 400 ≤ r.status && r.status < 600 then .error (.kube (refusal r))
  else
    match Utf8.decode? r.body with
    | none => .error (.kube .notText)
    | some _ =>
      match (Node.read? r.body).bind read? with
      | some a => .ok a
      | none => .error (.kube .decode)

theorem fetch_eq {α : Type} {c : ObjectCall} (hc : c.Plain) (hfits : c.Fits) {u : Url} {p : Peer}
    (hu : p.Hears u) (read? : Node → Option α) {r : Response} (hr : p.next.response? = some r) :
    (fetch (some u) c read? p).1 = meaning read? r := by
  have hpath : path? c = some c.path.toList := by
    rw [path?_eq hc]
    exact if_pos hfits
  have hsend : ∃ q, p.send ⟨.get, "", [], [], ""⟩ (addressOf u c.path.toList) = (some r, q) := by
    have horigin : origin { u with
        login := none, path := Parts.trimEnd (· = '/') u.path ++ c.path.toList, query := none } ∈
        p.origins := hu.origin
    simp [Peer.send, Peer.admits, addressOf_eq hc, hu.reachable, horigin, Peer.accept, hr]
  obtain ⟨q, hsend⟩ := hsend
  simp only [fetch, hpath, Option.map_some, hsend, meaning]
  split
  · rfl
  · cases Utf8.decode? r.body with
    | none => rfl
    | some text => cases (Node.read? r.body).bind read? <;> rfl

theorem meaning_of_success {α : Type} {read? : Node → Option α} {text : List Char} {n : Node}
    {a : α} (htext : Node.read? (Utf8.encode text) = some n) (hread : read? n = some a) :
    meaning read? ⟨200, Utf8.encode text⟩ = .ok a := by
  have hdecode : Utf8.decode? (Utf8.encode text) = some text := Utf8.decode?_eq_some_iff.2 rfl
  simp [meaning, hdecode, htext, hread]

/-- The text of a status whose code, where it is stated, is that of a missing object. -/
def IsMissing (text : List Char) : Prop :=
  ∃ es : List (String × Value), IsTextOf (Utf8.encode text) (.object es) ∧
    ∀ e ∈ es, e.1 = "code" → e.2 = .number (.integer 404)

theorem code_of_status {es : List (String × Value)} {n : Node} (hn : n.Spells (.object es))
    (hcode : ∀ e ∈ es, e.1 = "code" → e.2 = .number (.integer 404)) {s : ApiStatus}
    (hs : ApiStatus.ofNode? n = some s) : s.code = 404 := by
  obtain ⟨fields, hfields, hs⟩ := Option.bind_eq_some_iff.1 hs
  split at hs
  case h_2 => cases hs
  case h_1 status message reason code =>
    obtain _ | ⟨-, _ | ⟨-, _ | ⟨-, _ | ⟨hfield, _ | _⟩⟩⟩⟩ := spells_of_fields? hn hfields
    simp only [Option.bind_eq_bind, Option.bind_eq_some_iff] at hs
    obtain ⟨_, -, _, -, _, -, n, hcoded, hs⟩ := hs
    cases hs
    cases hlookup : es.lookup "code" with
    | none =>
      rw [hlookup] at hfield
      cases hfield
      cases hcoded
    | some v =>
      obtain ⟨front, back, hes, -⟩ := List.lookup_eq_some_iff.1 hlookup
      have hv : v = .number (.integer 404) := hcode ("code", v) (by simp [hes]) rfl
      subst hv
      rw [hlookup] at hfield
      obtain ⟨_ | _ | hliteral⟩ := hfield
      simpa [required, Node.natUpTo?, hliteral] using hcoded.symm

theorem meaning_of_missing {α : Type} (read? : Node → Option α) {text : List Char}
    (h : IsMissing text) :
    ∃ s : ApiStatus, meaning read? ⟨404, Utf8.encode text⟩ = .error (.kube (.api s)) ∧
      s.code = 404 := by
  obtain ⟨es, ⟨n, hread, hn⟩, hcode⟩ := h
  have hdecode : Utf8.decode? (Utf8.encode text) = some text := Utf8.decode?_eq_some_iff.2 rfl
  cases hs : ApiStatus.ofNode? n with
  | some s => exact ⟨s, by simp [meaning, refusal, hdecode, hread, hs], code_of_status hn hcode hs⟩
  | none => exact ⟨_, by simp [meaning, refusal, hdecode, hread, hs]; rfl, rfl⟩

/-- Text of an object with these data. -/
def IsObjectText {α : Type} (kind : String) (tests : List (String × (Node → Bool)))
    (item : α → Value) (d : Dictionary α) (text : List Char) : Prop :=
  Dictionary.Sorted d ∧ ∃ n data es, Node.read? (Utf8.encode text) = some n ∧
    IsObject kind tests data es n ∧ IsData item data d

/-- Text of what a call reads. -/
def Carries : (c : ObjectCall) → c.Result → List Char → Prop
  | .secret _ _ => IsObjectText "Secret"
      [("stringData", isDictionaryOf Node.string?), ("type", isText)] secretItem
  | .configMap _ _ => IsObjectText "ConfigMap" [("binaryData", isDictionaryOf secretValue?)] .string

/-- The compact text of an object. -/
def objectText {α : Type} (kind : String) (item : α → Value) (d : Dictionary α) : List Char :=
  (Value.object [("apiVersion", .string "v1"), ("kind", .string kind),
    ("data", .object (d.map fun e => (e.1, item e.2)))]).toString.toList

theorem isObjectText_objectText {α : Type} {kind : String} {tests : List (String × (Node → Bool))}
    {item : α → Value} (hitem : ∀ a, (item a).Legible)
    (htests : ∀ t ∈ tests, t.1 ∉ ["apiVersion", "kind", "data"]) {d : Dictionary α}
    (hd : Dictionary.Sorted d) : IsObjectText kind tests item d (objectText kind item d) := by
  have hdata : (Value.object (d.map fun e => (e.1, item e.2))).Legible :=
    membersLegible_iff.2 fun e he => by
      obtain ⟨x, -, rfl⟩ := List.mem_map.1 he
      exact hitem x.2
  obtain ⟨n, hread, hn⟩ := isTextOf_bytes (v := .object [("apiVersion", .string "v1"),
    ("kind", .string kind), ("data", .object (d.map fun e => (e.1, item e.2)))])
    ⟨trivial, trivial, hdata, trivial⟩
  refine ⟨hd, n, some (.object (d.map fun e => (e.1, item e.2))), _, hread,
    ⟨hn, by simp, by simp, by simp, ?_⟩, .object (.refl d)⟩
  cases hn with
  | object hspell =>
    obtain ⟨named, hnamed, hrel⟩ := named?_of_spells hspell
    have hknown : ∀ t ∈ ("metadata", isMetadata) :: ("immutable", isTruth) :: tests,
        t.1 ∉ ["apiVersion", "kind", "data"] := by
      simpa using htests
    simp only [isRecord, hnamed, List.all_eq_true]
    refine fun t ht => allPass_of_spells hrel fun e he hname => absurd ?_ (hknown t ht)
    rw [← hname]
    exact List.mem_map_of_mem (f := Prod.fst) he

/-- Every dictionary of a Secret has a text. -/
theorem carries_objectText (nspace name : String) {d : Payload} (hd : Dictionary.Sorted d) :
    Carries (.secret nspace name) d (objectText "Secret" secretItem d) := by
  have hitem : ∀ bs, (secretItem bs).Legible := fun _ => trivial
  exact isObjectText_objectText hitem (by simp) hd

theorem meaning_of_object {α : Type} {kind : String} {tests : List (String × (Node → Bool))}
    {item? : Node → Option α} {item : α → Value} (hitem : ∀ a, Reads item? (item a) a)
    {d : Dictionary α} {text : List Char} (h : IsObjectText kind tests item d text) :
    meaning (object? kind item? tests) ⟨200, Utf8.encode text⟩ = .ok d := by
  obtain ⟨hd, n, data, es, hread, hobject, hdata⟩ := h
  exact meaning_of_success hread (hobject.object? hitem hd hdata)

section

variable {c : ObjectCall} (hc : c.Plain) (hfits : c.Fits) {u : Url} {p : Peer} (hu : p.Hears u)
include hc hfits hu

/-- An object is read as its data. -/
theorem answer_of_object {d : c.Result} {text : List Char}
    (hp : p.next = .response 200 (Utf8.encode text)) (h : Carries c d text) :
    (answer (some u) c p).1 = .ok d := by
  have hr : p.next.response? = some ⟨200, Utf8.encode text⟩ := by rw [hp]; rfl
  cases c with
  | secret nspace name =>
    rw [answer, fetch_eq hc hfits hu _ hr]
    exact meaning_of_object reads_secretItem h
  | configMap nspace name =>
    rw [answer, fetch_eq hc hfits hu _ hr]
    exact meaning_of_object reads_string h

/-- A refusal that says that there is no object is one. -/
theorem answer_of_missing {text : List Char} (hp : p.next = .response 404 (Utf8.encode text))
    (h : IsMissing text) : ∃ e, (answer (some u) c p).1 = .error e ∧ e.isNotFound = true := by
  have hr : p.next.response? = some ⟨404, Utf8.encode text⟩ := by rw [hp]; rfl
  cases c with
  | secret nspace name =>
    obtain ⟨s, hs, hcode⟩ := meaning_of_missing secret? h
    exact ⟨_, (fetch_eq hc hfits hu _ hr).trans hs, by simp [ConfigError.isNotFound, hcode]⟩
  | configMap nspace name =>
    obtain ⟨s, hs, hcode⟩ := meaning_of_missing configMap? h
    exact ⟨_, (fetch_eq hc hfits hu _ hr).trans hs, by simp [ConfigError.isNotFound, hcode]⟩

end

end Kubernetes

/-! ### Memory -/

namespace ObjectStore

/-- The object that a call reads, if there is one. -/
def object? (s : ObjectStore) : (c : ObjectCall) → Option c.Result
  | .secret nspace name => s.secrets.lookup (nspace, name)
  | .configMap nspace name => s.configMaps.lookup (nspace, name)

theorem object?_putSecret (s : ObjectStore) (nspace name : String) (d : Payload) :
    (s.putSecret nspace name d).object? (.secret nspace name) = some d := by
  simp [putSecret, object?]

theorem answer_of_some {s : ObjectStore} {c : ObjectCall} {d : c.Result} (h : s.object? c = some d) :
    s.answer c = .ok d := by
  cases c with
  | secret nspace name =>
    have h : s.secrets.lookup (nspace, name) = some d := h
    simp [answer, h]
  | configMap nspace name =>
    have h : s.configMaps.lookup (nspace, name) = some d := h
    simp [answer, h]

theorem answer_of_none {s : ObjectStore} {c : ObjectCall} (h : s.object? c = none) :
    s.answer c = .error (missing c) := by
  cases c with
  | secret nspace name =>
    have h : s.secrets.lookup (nspace, name) = none := h
    simp [answer, h]
  | configMap nspace name =>
    have h : s.configMaps.lookup (nspace, name) = none := h
    simp [answer, h]

/-- What is in memory, as calls are answered from it. -/
def serve (c : ObjectCall) (s : ObjectStore) : c.Reply × ObjectStore := (s.answer c, s)

end ObjectStore

/-- The same, or failures to find an object. -/
def Alike {α : Type} (x y : Except ConfigError α) : Prop :=
  x = y ∨ ∃ e e', x = .error e ∧ y = .error e' ∧ e.isNotFound = true ∧ e'.isNotFound = true

namespace Kubernetes

open Http ObjectCall

/-- The next response is what a store holds for a call, or that there is no object. -/
def Mirrors (p : Peer) (s : ObjectStore) (c : ObjectCall) : Prop :=
  match s.object? c with
  | some d => ∃ text, p.next = .response 200 (Utf8.encode text) ∧ Carries c d text
  | none => ∃ text, p.next = .response 404 (Utf8.encode text) ∧ IsMissing text

theorem answers_alike {c : ObjectCall} (hc : c.Plain) (hfits : c.Fits) {u : Url} {p : Peer}
    (hu : p.Hears u) {s : ObjectStore} (h : Mirrors p s c) :
    Alike (answer (some u) c p).1 (s.answer c) := by
  unfold Mirrors at h
  cases hs : s.object? c with
  | some d =>
    rw [hs] at h
    obtain ⟨text, hp, htext⟩ := h
    exact .inl ((answer_of_object hc hfits hu hp htext).trans (ObjectStore.answer_of_some hs).symm)
  | none =>
    rw [hs] at h
    obtain ⟨text, hp, htext⟩ := h
    obtain ⟨e, he, hmissing⟩ := answer_of_missing hc hfits hu hp htext
    exact .inr ⟨e, _, he, ObjectStore.answer_of_none hs, hmissing, rfl⟩

/-- No request is made for a path that is too long. -/
theorem answer_of_long {c : ObjectCall} (hc : c.Plain) (h : Url.maxBytes < c.path.utf8ByteSize)
    (server : Option Url) (p : Peer) : answer server c p = (.error (.kube .buildRequest), p) := by
  have hpath : path? c = none := by rw [path?_eq hc, if_neg (Nat.not_le.2 h)]
  cases c with
  | secret nspace name => simp [answer, fetch, hpath]
  | configMap nspace name => simp [answer, fetch, hpath]

/-! ### Resolving -/

open PagerDuty (TicketingConfig)

/-- The same config, and results that are alike. -/
def ReadAlike (x y : TicketingConfig × Except ConfigError Unit) : Prop := x.1 = y.1 ∧ Alike x.2 y.2

/-- A config that is read from one object: if that fails, it stays as it was. -/
theorem run_alike {c : ObjectCall} {u : Url} {p : Peer} {s : ObjectStore}
    (h : Alike (answer (some u) c p).1 (s.answer c))
    {next : c.Reply → Reading (TicketingConfig × Except ConfigError Unit)} {cfg : TicketingConfig}
    {read : c.Result → TicketingConfig × Except ConfigError Unit}
    (herror : ∀ e, next (.error e) = .done (cfg, .error e))
    (hok : ∀ d, next (.ok d) = .done (read d)) :
    ReadAlike ((Workflow.call () c next).run (answer (some u)) p).1
      ((Workflow.call () c next).run ObjectStore.serve s).1 := by
  simp only [Workflow.run_call, ObjectStore.serve]
  obtain h | ⟨e, e', h, h', he, he'⟩ := h
  · rw [h]
    cases s.answer c with
    | error e =>
      rw [herror]
      exact ⟨rfl, .inl rfl⟩
    | ok d =>
      rw [hok]
      exact ⟨rfl, .inl rfl⟩
  · rw [h, h', herror, herror]
    exact ⟨rfl, .inr ⟨e, e', rfl, rfl, he, he'⟩⟩

/-- The read of the operator's Secret. -/
abbrev operatorSecret : ObjectCall := .secret PagerDuty.operatorNamespace PagerDuty.apiKeySecret

/-- The read of the IDs that are stored for a cluster. -/
abbrev storedIds (nspace cluster : String) : ObjectCall :=
  .configMap nspace (PagerDuty.clusterConfigMapName cluster)

theorem operatorSecret_plain : operatorSecret.Plain :=
  ⟨List.all_eq_true.1 (by decide +kernel), List.all_eq_true.1 (by decide +kernel),
    by decide +kernel⟩

theorem operatorSecret_fits : operatorSecret.Fits := by
  unfold Fits
  decide +kernel

section

variable {u : Url} {p : Peer} (hu : p.Hears u) {s : ObjectStore}
include hu

theorem loadSecret_alike (h : Mirrors p s operatorSecret) (cfg : TicketingConfig) :
    ReadAlike (cfg.loadSecret.run (answer (some u)) p).1
      (cfg.loadSecret.run ObjectStore.serve s).1 :=
  run_alike (answers_alike operatorSecret_plain operatorSecret_fits hu h) (fun _ => rfl) fun _ => rfl

theorem loadIds_alike {nspace cluster : String} (hc : (storedIds nspace cluster).Plain)
    (hfits : (storedIds nspace cluster).Fits) (h : Mirrors p s (storedIds nspace cluster))
    (cfg : TicketingConfig) :
    ReadAlike ((cfg.loadIds nspace cluster).run (answer (some u)) p).1
      ((cfg.loadIds nspace cluster).run ObjectStore.serve s).1 :=
  run_alike (answers_alike hc hfits hu h) (fun _ => rfl) fun _ => rfl

theorem resolve_alike {nspace name : String} (hc : (ObjectCall.secret nspace name).Plain)
    (hfits : (ObjectCall.secret nspace name).Fits) (h : Mirrors p s (.secret nspace name)) :
    Alike ((Vault.Access.resolve nspace name).run (answer (some u)) p).1
      ((Vault.Access.resolve nspace name).run ObjectStore.serve s).1 := by
  have halike := answers_alike hc hfits hu h
  simp only [Vault.Access.resolve, Workflow.run_call, Workflow.run_done]
  obtain h | ⟨e, e', h, h', he, he'⟩ := halike
  · exact .inl (congrArg (·.bind (Vault.Access.ofPayload nspace name)) h)
  · refine .inr ⟨e, e', ?_, ?_, he, he'⟩
    · exact congrArg (·.bind (Vault.Access.ofPayload nspace name)) h
    · exact congrArg (·.bind (Vault.Access.ofPayload nspace name)) h'

end

/-- Objects are read from a server as they are read from memory. An object is read as its data, from
a text that states them in any way, and an object that is not there is reported as such; and what is
resolved from one source is what is resolved from the other. -/
theorem sources_agree {u : Url} {p : Peer} (hu : p.Hears u) :
    (∀ c : ObjectCall, c.Plain → c.Fits →
      (∀ (d : c.Result) text, p.next = .response 200 (Utf8.encode text) → Carries c d text →
        (answer (some u) c p).1 = .ok d ∧
          ∀ s : ObjectStore, s.object? c = some d → s.answer c = .ok d) ∧
      (∀ text, p.next = .response 404 (Utf8.encode text) → IsMissing text →
        (∃ e, (answer (some u) c p).1 = .error e ∧ e.isNotFound = true) ∧
          ∀ s : ObjectStore, s.object? c = none →
            ∃ e, s.answer c = .error e ∧ e.isNotFound = true)) ∧
    ∀ s : ObjectStore,
      (∀ cfg : TicketingConfig, Mirrors p s operatorSecret →
        ReadAlike (cfg.loadSecret.run (answer (some u)) p).1
          (cfg.loadSecret.run ObjectStore.serve s).1) ∧
      (∀ (cfg : TicketingConfig) nspace cluster, (storedIds nspace cluster).Plain →
        (storedIds nspace cluster).Fits → Mirrors p s (storedIds nspace cluster) →
        ReadAlike ((cfg.loadIds nspace cluster).run (answer (some u)) p).1
          ((cfg.loadIds nspace cluster).run ObjectStore.serve s).1) ∧
      (∀ nspace name, (ObjectCall.secret nspace name).Plain →
        (ObjectCall.secret nspace name).Fits → Mirrors p s (.secret nspace name) →
        Alike ((Vault.Access.resolve nspace name).run (answer (some u)) p).1
          ((Vault.Access.resolve nspace name).run ObjectStore.serve s).1) := by
  refine ⟨fun c hc hfits => ⟨fun d text hp htext => ?_, fun text hp htext => ?_⟩,
    fun s => ⟨fun cfg h => ?_, fun cfg nspace cluster hc hfits h => ?_,
      fun nspace name hc hfits h => ?_⟩⟩
  · exact ⟨answer_of_object hc hfits hu hp htext, fun s => ObjectStore.answer_of_some⟩
  · exact ⟨answer_of_missing hc hfits hu hp htext,
      fun s hs => ⟨_, ObjectStore.answer_of_none hs, rfl⟩⟩
  · exact loadSecret_alike hu h cfg
  · exact loadIds_alike hu hc hfits h cfg
  · exact resolve_alike hu hc hfits h

/-- A server at `h`, and what answers there. -/
def host : Url := ⟨false, ['h'], none, ['/'], none⟩

def hostWith (d : Delivery) : Peer := ⟨[origin host], true, [d], []⟩

theorem hostWith_hears (d : Delivery) : (hostWith d).Hears host := ⟨rfl, List.mem_singleton_self _⟩

/-- A Secret with a byte that is no text is read as it is in memory. -/
theorem sources_agree_one_byte :
    (answer (some host) (.secret "n" "s") (hostWith (.response 200
      (Utf8.encode (objectText "Secret" secretItem [("k", [0xFF])]))))).1 = .ok [("k", [0xFF])] ∧
    (ObjectStore.empty.putSecret "n" "s" [("k", [0xFF])]).answer (.secret "n" "s") =
      .ok [("k", [0xFF])] := by
  have hc : (ObjectCall.secret "n" "s").Plain :=
    ⟨List.all_eq_true.1 (by decide +kernel), List.all_eq_true.1 (by decide +kernel),
      by decide +kernel⟩
  have hfits : (ObjectCall.secret "n" "s").Fits := by
    unfold Fits
    decide +kernel
  have htext := carries_objectText "n" "s" (Dictionary.sorted_nil.put "k" [(0xFF : UInt8)])
  obtain ⟨hserver, hmemory⟩ := ((sources_agree (hostWith_hears _)).1 _ hc hfits).1 _ _ rfl htext
  exact ⟨hserver, hmemory _ (ObjectStore.object?_putSecret .empty _ _ _)⟩

theorem utf8ByteSize_replicate (n : Nat) :
    (String.ofList (List.replicate n 'a')).utf8ByteSize = n := by
  have hsize : 'a'.utf8Size = 1 := by decide
  rw [String.utf8ByteSize_ofList]
  induction n with
  | zero => rfl
  | succ n ih => simp [List.replicate_succ, ih, hsize]

/-- A name of label characters may be too long to be asked for, though it may be in memory. -/
theorem long_name_not_asked_for :
    let c : ObjectCall := .secret "n" (String.ofList (List.replicate 65506 'a'))
    let text := objectText "Secret" secretItem [("k", [0x76])]
    let p := hostWith (.response 200 (Utf8.encode text))
    c.Plain ∧ p.Hears host ∧ Carries c [("k", [0x76])] text ∧
      (answer (some host) c p).1 = .error (.kube .buildRequest) ∧
      ∃ s : ObjectStore, s.answer c = .ok [("k", [0x76])] := by
  have hplain : ∀ n : Nat, n ≠ 0 →
      (ObjectCall.secret "n" (String.ofList (List.replicate n 'a'))).Plain := fun n hn => by
    have hnspace : ∀ x ∈ "n".toList, isLabelChar x := List.all_eq_true.1 (by decide +kernel)
    refine ⟨hnspace, ?_, ?_⟩
    · simp only [name, String.toList_ofList, List.mem_replicate]
      rintro x ⟨-, rfl⟩
      decide
    · simpa [name, String.ofList_eq_empty_iff] using hn
  have hsize : ∀ n : Nat,
      (ObjectCall.secret "n" (String.ofList (List.replicate n 'a'))).path.utf8ByteSize = 29 + n := by
    intro n
    have hroot : "/api/v1/namespaces/".utf8ByteSize = 19 := by decide +kernel
    have hkind : "secrets".utf8ByteSize = 7 := by decide +kernel
    have hshort : "n".utf8ByteSize = 1 ∧ "/".utf8ByteSize = 1 := by decide +kernel
    rw [path_eq]
    simp only [String.utf8ByteSize_append, nspace, name, kind, utf8ByteSize_replicate, hroot, hkind,
      hshort]
  have hc := hplain 65506 (by omega)
  refine ⟨hc, hostWith_hears _,
    carries_objectText _ _ (Dictionary.sorted_nil.put "k" [(0x76 : UInt8)]), ?_, ?_⟩
  · rw [answer_of_long hc]
    rw [hsize, Url.maxBytes]
    omega
  · exact ⟨_, ObjectStore.answer_of_some (ObjectStore.object?_putSecret .empty _ _ _)⟩

end Kubernetes
end Oncall
