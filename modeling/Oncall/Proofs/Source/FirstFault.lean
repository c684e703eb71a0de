import Oncall.PagerDuty.Resolve
import Oncall.Proofs.Source.Payload
import Oncall.Vault.Access

/-! Records that are filled from an object, one field after the other. Each field has a key that fills
it. A required key that is missing or empty, or that is no number where one is needed, stops the
reading: the fields of the keys before it are filled, nothing else has changed, and the error names
this key. Configs and accesses are read in this way. -/

namespace Oncall

open Unsigned (RunsOver Spells)

/-- A field of a record with the key that fills it: a required text, a required number of 32 bits, or
a text that has a default. -/
inductive Slot (σ : Type) where
  | text (key : String) (put : String → σ → σ)
  | word (key : String) (put : UInt32 → σ → σ)
  | orElse (key default : String) (put : String → σ → σ)

namespace Slot

variable {σ : Type}

/-- The key that has to be there and not be empty. -/
def required? : Slot σ → Option String
  | .text key _ | .word key _ => some key
  | .orElse _ _ _ => none

/-- A payload that has what a slot needs fills it. -/
inductive Fills (p : Payload) (c : σ) : Slot σ → σ → Prop
  | text {key : String} {put : String → σ → σ} {raw : Bytes} (h : p.lookup key = some raw)
      (hne : raw ≠ []) : Fills p c (.text key put) (put (Payload.textOf raw) c)
  | word {key : String} {put : UInt32 → σ → σ} {raw : Bytes} {w : UInt32}
      (h : p.lookup key = some raw) (hw : Spells (Utf8.decodeLossy raw) w.toNat) :
      Fills p c (.word key put) (put w c)
  | given {key default : String} {put : String → σ → σ} {raw : Bytes}
      (h : p.lookup key = some raw) (hne : raw ≠ []) :
      Fills p c (.orElse key default put) (put (Payload.textOf raw) c)
  | default {key default : String} {put : String → σ → σ}
      (h : p.lookup key = none ∨ p.lookup key = some []) :
      Fills p c (.orElse key default put) (put default c)

/-- What is wrong with the key of a slot, as an error about an object. -/
inductive Fault (p : Payload) (object : String) : Slot σ → ConfigError → Prop
  | missing {s : Slot σ} {key : String} (hs : s.required? = some key) (h : p.lookup key = none) :
      Fault p object s (.missingKey key object)
  | empty {s : Slot σ} {key : String} (hs : s.required? = some key) (h : p.lookup key = some []) :
      Fault p object s (.emptyValue key object)
  | number {key : String} {put : UInt32 → σ → σ} {raw : Bytes} {reason : Unsigned.ParseError}
      (h : p.lookup key = some raw) (hne : raw ≠ [])
      (hnone : ¬ ∃ n ≤ Payload.wordLimit, Spells (Utf8.decodeLossy raw) n)
      (hreason : reason = .tooLarge ↔ RunsOver Payload.wordLimit (Utf8.decodeLossy raw)) :
      Fault p object (.word key put) (.invalidNumber key object (Payload.textOf raw) reason)

/-- Slots that are filled one after the other. -/
inductive FillsAll (p : Payload) : List (Slot σ) → σ → σ → Prop
  | nil (c : σ) : FillsAll p [] c c
  | cons {s : Slot σ} {rest : List (Slot σ)} {c c' c'' : σ} (h : s.Fills p c c')
      (hrest : FillsAll p rest c' c'') : FillsAll p (s :: rest) c c''

/-- What comes of filling a record from an object. It stays as it was if the object cannot be read. If
a key is at fault, the slots before the first such key are filled, and the error is about that key.
Otherwise all slots are filled. -/
inductive Filling (slots : List (Slot σ)) (object : String) (c : σ) :
    Except ConfigError Payload → σ × Except ConfigError Unit → Prop
  | unread (e : ConfigError) : Filling slots object c (.error e) (c, .error e)
  | stops {p : Payload} {before after : List (Slot σ)} {s : Slot σ} {c' : σ} {e : ConfigError}
      (h : slots = before ++ s :: after) (hbefore : FillsAll p before c c')
      (hfault : s.Fault p object e) : Filling slots object c (.ok p) (c', .error e)
  | fills {p : Payload} {c' : σ} (h : FillsAll p slots c c') :
      Filling slots object c (.ok p) (c', .ok ())

/-! ### Reading slots -/

def read (p : Payload) (object : String) (c : σ) : Slot σ → Except ConfigError σ
  | .text key put => (p.required key object).map fun v => put v c
  | .word key put => (p.requiredWord key object).map fun v => put v c
  | .orElse key default put => .ok (put (p.optionalOr key object default) c)

/-- Reads slots up to the first fault. -/
def readAll (p : Payload) (object : String) : List (Slot σ) → σ → σ × Except ConfigError Unit
  | [], c => (c, .ok ())
  | s :: rest, c =>
    match s.read p object c with
    | .error e => (c, .error e)
    | .ok c' => readAll p object rest c'

/-- Reads slots from an object that may not be there. -/
def readFrom (slots : List (Slot σ)) (object : String) (c : σ) :
    Except ConfigError Payload → σ × Except ConfigError Unit
  | .error e => (c, .error e)
  | .ok p => readAll p object slots c

variable {p : Payload} {object : String} {c c' : σ} {s : Slot σ}

theorem map_eq_ok_iff {ε α β : Type} {x : Except ε α} {f : α → β} {b : β} :
    x.map f = .ok b ↔ ∃ a, x = .ok a ∧ f a = b := by
  cases x <;> simp [Except.map]

theorem map_eq_error_iff {ε α β : Type} {x : Except ε α} {f : α → β} {e : ε} :
    x.map f = .error e ↔ x = .error e := by
  cases x <;> simp [Except.map]

theorem read_eq_ok_iff : s.read p object c = .ok c' ↔ s.Fills p c c' := by
  constructor
  · intro h
    cases s with
    | text key put =>
      obtain ⟨v, hv, rfl⟩ := map_eq_ok_iff.1 h
      obtain ⟨raw, hraw, hne, rfl⟩ := Payload.required_eq_ok_iff.1 hv
      exact .text hraw hne
    | word key put =>
      obtain ⟨w, hw, rfl⟩ := map_eq_ok_iff.1 h
      obtain ⟨raw, hraw, hspells⟩ := Payload.requiredWord_eq_ok_iff.1 hw
      exact .word hraw hspells
    | orElse key default put =>
      cases h
      rw [Payload.optionalOr]
      cases hv : p.required key object with
      | ok v =>
        obtain ⟨raw, hraw, hne, rfl⟩ := Payload.required_eq_ok_iff.1 hv
        exact .given hraw hne
      | error e => exact .default ((Payload.required_eq_error_iff.1 hv).imp And.left And.left)
  · intro h
    cases h with
    | text h hne => exact map_eq_ok_iff.2 ⟨_, Payload.required_eq_ok_iff.2 ⟨_, h, hne, rfl⟩, rfl⟩
    | word h hw => exact map_eq_ok_iff.2 ⟨_, Payload.requiredWord_eq_ok_iff.2 ⟨_, h, hw⟩, rfl⟩
    | given h hne =>
      rw [read, Payload.optionalOr, Payload.required_eq_ok_iff.2 ⟨_, h, hne, rfl⟩]
    | default h =>
      rcases h with h | h
      · rw [read, Payload.optionalOr, Payload.required_of_none h]
      · rw [read, Payload.optionalOr, Payload.required_of_some h, if_pos rfl]

theorem read_of_required {key : String} {e : ConfigError} (hs : s.required? = some key)
    (h : p.required key object = .error e) : s.read p object c = .error e := by
  cases s with
  | text key put =>
    cases hs
    exact map_eq_error_iff.2 h
  | word key put =>
    cases hs
    exact map_eq_error_iff.2 (Payload.requiredWord_of_error h)
  | orElse key default put => cases hs

theorem fault_of_required {key : String} {e : ConfigError} (hs : s.required? = some key)
    (h : p.required key object = .error e) : s.Fault p object e := by
  rcases Payload.required_eq_error_iff.1 h with ⟨hnone, rfl⟩ | ⟨hempty, rfl⟩
  · exact .missing hs hnone
  · exact .empty hs hempty

theorem read_eq_error_iff {e : ConfigError} :
    s.read p object c = .error e ↔ s.Fault p object e := by
  constructor
  · intro h
    cases s with
    | text key put => exact fault_of_required rfl (map_eq_error_iff.1 h)
    | word key put =>
      rcases Payload.requiredWord_eq_error_iff.1 (map_eq_error_iff.1 h) with
        h | ⟨raw, reason, hraw, hne, hnone, hreason, rfl⟩
      · exact fault_of_required rfl h
      · exact .number hraw hne hnone hreason
    | orElse key default put => cases h
  · intro h
    cases h with
    | missing hs h => exact read_of_required hs (Payload.required_of_none h)
    | empty hs h => exact read_of_required hs ((Payload.required_of_some h).trans (if_pos rfl))
    | number h hne hnone hreason =>
      exact map_eq_error_iff.2
        (Payload.requiredWord_eq_error_iff.2 (.inr ⟨_, _, h, hne, hnone, hreason, rfl⟩))

/-! ### Reading all slots -/

variable {slots before rest : List (Slot σ)} {x : σ × Except ConfigError Unit}

/-- Slots that are filled are left behind. -/
theorem readAll_of_fillsAll (h : FillsAll p before c c') (rest : List (Slot σ)) :
    readAll p object (before ++ rest) c = readAll p object rest c' := by
  induction h with
  | nil => rfl
  | cons h _ ih =>
    rw [List.cons_append, readAll, read_eq_ok_iff.2 h]
    exact ih

theorem Filling.cons (h : s.Fills p c c') (hrest : Filling rest object c' (.ok p) x) :
    Filling (s :: rest) object c (.ok p) x := by
  cases hrest with
  | stops h' hbefore hfault =>
    subst h'
    exact .stops (List.cons_append ..).symm (.cons h hbefore) hfault
  | fills h' => exact .fills (.cons h h')

/-- A record with no fault was filled from an object that could be read. -/
theorem Filling.fillsAll {reply : Except ConfigError Payload}
    (h : Filling slots object c reply (c', .ok ())) : ∃ p, reply = .ok p ∧ FillsAll p slots c c' := by
  cases h with
  | fills h => exact ⟨_, rfl, h⟩

theorem filling_readAll (p : Payload) (object : String) (slots : List (Slot σ)) (c : σ) :
    Filling slots object c (.ok p) (readAll p object slots c) := by
  induction slots generalizing c with
  | nil => exact .fills (.nil c)
  | cons s rest ih =>
    rw [readAll]
    cases hs : s.read p object c with
    | error e => exact .stops rfl (.nil c) (read_eq_error_iff.1 hs)
    | ok c' => exact .cons (read_eq_ok_iff.1 hs) (ih c')

/-- Reading slots does this and nothing else. -/
theorem readFrom_eq_iff {reply : Except ConfigError Payload} :
    readFrom slots object c reply = x ↔ Filling slots object c reply x := by
  constructor
  · rintro rfl
    cases reply with
    | error e => exact .unread e
    | ok p => exact filling_readAll p object slots c
  · intro h
    cases h with
    | unread e => rfl
    | stops h hbefore hfault =>
      rw [readFrom, h, readAll_of_fillsAll hbefore, readAll, read_eq_error_iff.2 hfault]
    | @fills p c' h =>
      have hall : readAll p object (slots ++ []) c = readAll p object [] c' :=
        readAll_of_fillsAll h []
      rwa [List.append_nil] at hall

/-- The record, if no key was at fault. -/
def whole (x : σ × Except ConfigError Unit) : Except ConfigError σ := x.2.map fun _ => x.1

theorem whole_readAll_text (key : String) (put : String → σ → σ) :
    whole (readAll p object (.text key put :: rest) c) =
      (p.required key object).bind fun v => whole (readAll p object rest (put v c)) := by
  rw [readAll, read]
  cases p.required key object <;> rfl

end Slot

/-! ### Configs and accesses -/

namespace PagerDuty

open TicketingConfig

/-- What the operator's Secret fills, in the order it is read. -/
def secretSlots : List (Slot TicketingConfig) := [
  .text apiKeyKey fun v c => { c with apiKey := v },
  .text escalationPolicyKey fun v c => { c with escalationPolicyId := v },
  .word resolveTimeoutKey fun v c => { c with autoResolveTimeout := v },
  .word acknowledgeTimeoutKey fun v c => { c with acknowledgeTimeout := v },
  .orElse serviceLabelKey defaultServiceLabel fun v c => { c with serviceLabel := v }]

/-- What the ConfigMap of a cluster fills, in the order it is read. -/
def idSlots : List (Slot TicketingConfig) := [
  .text serviceIdKey fun v c => { c with serviceId := v },
  .text integrationIdKey fun v c => { c with integrationId := v }]

theorem readSecret_eq (c : TicketingConfig) (p : Payload) :
    c.readSecret p = Slot.readAll p (objectRef operatorNamespace apiKeySecret) secretSlots c := by
  simp only [readSecret, secretSlots, Slot.readAll, Slot.read]
  cases p.required apiKeyKey (objectRef operatorNamespace apiKeySecret) with
  | error e => rfl
  | ok apiKey =>
    cases p.required escalationPolicyKey (objectRef operatorNamespace apiKeySecret) with
    | error e => rfl
    | ok policy =>
      cases p.requiredWord resolveTimeoutKey (objectRef operatorNamespace apiKeySecret) with
      | error e => rfl
      | ok resolve =>
        cases p.requiredWord acknowledgeTimeoutKey (objectRef operatorNamespace apiKeySecret) with
        | error e => rfl
        | ok acknowledge => rfl

theorem readIds_eq (c : TicketingConfig) (object : String) (p : Payload) :
    c.readIds object p = Slot.readAll p object idSlots c := by
  simp only [readIds, idSlots, Slot.readAll, Slot.read]
  cases p.required serviceIdKey object with
  | error e => rfl
  | ok serviceId => cases p.required integrationIdKey object <;> rfl

/-- A complete config lacks at most what names its cluster. -/
theorem validate_of_credentials {c : TicketingConfig} (hkey : c.apiKey ≠ "")
    (hpolicy : c.escalationPolicyId ≠ "") :
    c.validate =
      if c.clusterId = "" then .error (.emptyValue "cluster_id" "ticketing config")
      else if c.baseDomain = "" then .error (.emptyValue "base_domain" "ticketing config")
      else .ok () := by
  by_cases hcluster : c.clusterId = ""
  · simp [validate, needed, hcluster]
  · by_cases hdomain : c.baseDomain = ""
    · simp [validate, needed, hcluster, hdomain]
    · simp [validate, needed, hcluster, hdomain, hkey, hpolicy]

/-- A Secret that fills all its slots gives a token and a policy, and leaves the cluster alone. -/
theorem credentials_of_fillsAll {p : Payload} {c c' : TicketingConfig}
    (h : Slot.FillsAll p secretSlots c c') :
    c'.apiKey ≠ "" ∧ c'.escalationPolicyId ≠ "" ∧ c'.clusterId = c.clusterId ∧
      c'.baseDomain = c.baseDomain := by
  have htext : ∀ {raw : Bytes}, raw ≠ [] → Payload.textOf raw ≠ "" :=
    fun hne h => hne (Payload.textOf_eq_empty_iff.1 h)
  rcases h with _ | ⟨hkey, h⟩
  rcases h with _ | ⟨hpolicy, h⟩
  rcases h with _ | ⟨hresolve, h⟩
  rcases h with _ | ⟨hacknowledge, h⟩
  rcases h with _ | ⟨hlabel, h⟩
  obtain _ | _ := h
  cases hkey with | text _ hkey
  cases hpolicy with | text _ hpolicy
  cases hresolve
  cases hacknowledge
  cases hlabel <;> exact ⟨htext hkey, htext hpolicy, rfl, rfl⟩

end PagerDuty

namespace Vault

/-- What the Secret of an access fills, in the order it is read. -/
def accessSlots : List (Slot Access) := [
  .text urlKey fun v a => { a with url := v },
  .text tokenKey fun v a => { a with token := v },
  .text mountKey fun v a => { a with mount := v },
  .text keyKey fun v a => { a with key := v },
  .text propertyKey fun v a => { a with property := v },
  .text pathKey fun v a => { a with path := v }]

/-- An access of which only its Secret is known. -/
def Access.blank (nspace secretName : String) : Access :=
  ⟨nspace, secretName, "", "", "", "", "", ""⟩

theorem ofPayload_eq (nspace secretName : String) (p : Payload) :
    Access.ofPayload nspace secretName p = Slot.whole
      (Slot.readAll p (objectRef nspace secretName) accessSlots (.blank nspace secretName)) := by
  simp only [accessSlots, Slot.whole_readAll_text]
  rfl

end Vault

/-! ### Reading them from a source -/

section Sources

open PagerDuty (TicketingConfig operatorNamespace apiKeySecret clusterConfigMapName)
open Vault (Access)

variable {V : Type} (answer : (call : ObjectCall) → V → call.Reply × V) (v : V)

theorem run_loadSecret (c : TicketingConfig) :
    (c.loadSecret.run answer v).1 =
      Slot.readFrom PagerDuty.secretSlots (objectRef operatorNamespace apiKeySecret) c
        (answer (.secret operatorNamespace apiKeySecret) v).1 := by
  rw [TicketingConfig.loadSecret, Workflow.run_call]
  cases (answer (.secret operatorNamespace apiKeySecret) v).1 with
  | error e => rfl
  | ok p => exact PagerDuty.readSecret_eq c p

theorem run_loadIds (c : TicketingConfig) (nspace cluster : String) :
    ((c.loadIds nspace cluster).run answer v).1 =
      Slot.readFrom PagerDuty.idSlots (objectRef nspace (clusterConfigMapName cluster)) c
        ((answer (.configMap nspace (clusterConfigMapName cluster)) v).1.map Payload.ofTexts) := by
  rw [TicketingConfig.loadIds, Workflow.run_call]
  cases (answer (.configMap nspace (clusterConfigMapName cluster)) v).1 with
  | error e => rfl
  | ok texts => exact PagerDuty.readIds_eq c _ _

theorem run_resolve (nspace secretName : String) :
    ((Access.resolve nspace secretName).run answer v).1 = Slot.whole
      (Slot.readFrom Vault.accessSlots (objectRef nspace secretName) (.blank nspace secretName)
        (answer (.secret nspace secretName) v).1) := by
  rw [Access.resolve, Workflow.run_call]
  cases (answer (.secret nspace secretName) v).1 with
  | error e => rfl
  | ok p => exact Vault.ofPayload_eq nspace secretName p

/-- Configs and accesses are filled up to the first key at fault, whatever the source and whatever the
config held before. The operator's Secret, the ConfigMap of a cluster and the Secret of an access each
fill their slots in order; the error is that of the source or names the first key at fault with its
object, and an access is only there if no key was. A config that was read from the operator's Secret
is complete but for what names its cluster. -/
theorem filled_up_to_first_fault :
    (∀ c : TicketingConfig,
      (∀ x, (c.loadSecret.run answer v).1 = x ↔
        Slot.Filling PagerDuty.secretSlots (objectRef operatorNamespace apiKeySecret) c
          (answer (.secret operatorNamespace apiKeySecret) v).1 x) ∧
      ∀ c', (c.loadSecret.run answer v).1 = (c', .ok ()) →
        c'.validate =
          if c.clusterId = "" then .error (.emptyValue "cluster_id" "ticketing config")
          else if c.baseDomain = "" then .error (.emptyValue "base_domain" "ticketing config")
          else .ok ()) ∧
    (∀ (c : TicketingConfig) (nspace cluster : String) x,
      ((c.loadIds nspace cluster).run answer v).1 = x ↔
        Slot.Filling PagerDuty.idSlots (objectRef nspace (clusterConfigMapName cluster)) c
          ((answer (.configMap nspace (clusterConfigMapName cluster)) v).1.map Payload.ofTexts) x) ∧
    ∀ nspace secretName r, ((Access.resolve nspace secretName).run answer v).1 = r ↔
      ∃ x, Slot.Filling Vault.accessSlots (objectRef nspace secretName) (.blank nspace secretName)
        (answer (.secret nspace secretName) v).1 x ∧ Slot.whole x = r := by
  refine ⟨fun c => ⟨fun x => ?_, fun c' h => ?_⟩, fun c nspace cluster x => ?_,
    fun nspace secretName r => ?_⟩
  · rw [run_loadSecret, Slot.readFrom_eq_iff]
  · rw [run_loadSecret, Slot.readFrom_eq_iff] at h
    generalize (answer (.secret operatorNamespace apiKeySecret) v).1 = reply at h
    cases h with
    | fills h =>
      obtain ⟨hkey, hpolicy, hcluster, hdomain⟩ := PagerDuty.credentials_of_fillsAll h
      rw [PagerDuty.validate_of_credentials hkey hpolicy, hcluster, hdomain]
  · rw [run_loadIds, Slot.readFrom_eq_iff]
  · rw [run_resolve]
    simp only [← Slot.readFrom_eq_iff, exists_eq_left']

/-- A Secret whose timeout is no number fills the token and the policy, and one whose timeout is a
number makes a config that lacks its cluster. -/
theorem filled_up_to_first_fault_timeout :
    let payload (timeout : String) : Payload := Payload.ofTexts
      [("ACKNOWLEDGE_TIMEOUT", "60"), ("ESCALATION_POLICY", "e"), ("PAGERDUTY_API_KEY", "k"),
        ("RESOLVE_TIMEOUT", timeout)]
    let store (timeout : String) :=
      ObjectStore.empty.putSecret operatorNamespace apiKeySecret (payload timeout)
    let load (timeout : String) :=
      (TicketingConfig.empty.loadSecret.run (fun call s => (s.answer call, s)) (store timeout)).1
    Slot.Filling PagerDuty.secretSlots "pagerduty-operator/pagerduty-api-key" .empty
      (.ok (payload "5m"))
      ({ TicketingConfig.empty with apiKey := "k", escalationPolicyId := "e" },
        .error (.invalidNumber "RESOLVE_TIMEOUT" "pagerduty-operator/pagerduty-api-key" "5m"
          .invalidDigit)) ∧
    ∃ c', load "300" = (c', .ok ()) ∧
      c'.validate = .error (.emptyValue "cluster_id" "ticketing config") := by
  intro payload store load
  have hload : load "5m" = ({ TicketingConfig.empty with apiKey := "k", escalationPolicyId := "e" },
      .error (.invalidNumber "RESOLVE_TIMEOUT" "pagerduty-operator/pagerduty-api-key" "5m"
        .invalidDigit)) := by decide +kernel
  have hok : load "300" = ((load "300").1, .ok ()) := by decide +kernel
  exact ⟨((filled_up_to_first_fault _ _).1 _).1 _ |>.1 hload, _, hok,
    ((filled_up_to_first_fault _ _).1 _).2 _ hok⟩

end Sources

end Oncall
