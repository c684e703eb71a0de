import Oncall.Proofs.Vault.EmptySecret

/-! What a reply of Vault means for a lookup: a list of cases, of which the first that holds
decides. The status comes first, then whether the body decodes, then the mapping under `data`, then
the property. Only `null` and the empty string are written as an empty text, so no other value is
refused as empty. -/

namespace Oncall

open Json

/-! ### Texts of values -/

namespace Json

theorem Number.text_ne_nil (n : Number) : n.text ≠ [] := by
  cases n with
  | integer n => exact List.append_ne_nil_of_right_ne_nil _ Nat.toDigits_ne_nil
  | double negative x =>
    refine List.append_ne_nil_of_right_ne_nil _ ?_
    rw [Binary64.text]
    split
    · exact List.cons_ne_nil _ _
    · rw [Shortest.Decimal.text]
      split_ifs <;> simp

theorem Value.text_ne_nil (v : Value) : v.text ≠ [] := by
  cases v with
  | null => exact List.cons_ne_nil _ _
  | bool b => cases b <;> exact List.cons_ne_nil _ _
  | number n => exact n.text_ne_nil
  | string s => exact List.cons_ne_nil _ _
  | array items => exact List.cons_ne_nil _ _
  | object members => exact List.cons_ne_nil _ _

theorem Value.toString_ne_empty (v : Value) : v.toString ≠ "" := fun h =>
  v.text_ne_nil (by rw [← String.toList_ofList (l := v.text)]; exact congrArg String.toList h)

end Json

namespace Vault

open Http

/-- Only `null` and the empty string are empty as texts. -/
theorem valueText_eq_empty_iff (v : Value) : valueText v = "" ↔ v = .null ∨ v = .string "" := by
  cases v with
  | null => exact iff_of_true rfl (.inl rfl)
  | string s => simp [valueText]
  | bool b => exact iff_of_false (Value.toString_ne_empty _) (by simp)
  | number n => exact iff_of_false (Value.toString_ne_empty _) (by simp)
  | array items => exact iff_of_false (Value.toString_ne_empty _) (by simp)
  | object members => exact iff_of_false (Value.toString_ne_empty _) (by simp)

/-! ### Bodies -/

/-- What a field stands for: a default where it is missing or `null`, and else what is read in it.
-/
inductive Given {α : Type} (default : α) (read? : Node → Option α) : Option Node → α → Prop
  | missing : Given default read? none default
  | null : Given default read? (some .null) default
  | read {v : Node} {a : α} (hv : v ≠ .null) (h : read? v = some a) : Given default read? (some v) a

theorem orNull_of_ne_null {α : Type} (default : α) (read? : Node → Option α) {v : Node}
    (hv : v ≠ .null) : orNull default read? (some v) = read? v := by
  have hoptional : Node.optional? read? v = (read? v).map some := by
    cases v with
    | null => exact absurd rfl hv
    | _ => rfl
  rw [orNull, orElse, hoptional, Option.map_map]
  exact Option.map_id'

theorem orNull_eq_some_iff {α : Type} {default a : α} {read? : Node → Option α}
    {field : Option Node} : orNull default read? field = some a ↔ Given default read? field a := by
  constructor
  · intro h
    cases field with
    | none =>
      cases h
      exact .missing
    | some v =>
      by_cases hv : v = .null
      · subst hv
        cases h
        exact .null
      · exact .read hv ((orNull_of_ne_null default read? hv).symm.trans h)
  · intro h
    cases h with
    | missing | null => rfl
    | read hv h => exact (orNull_of_ne_null default read? hv).trans h

/-- A body that names the errors of a refusal; no errors if they are missing or `null`. -/
def IsRefusal (body : Bytes) (errors : List String) : Prop :=
  ∃ n field, Node.read? body = some n ∧ n.fields? ["errors"] = some [field] ∧
    Given [] (Node.listOf? Node.string?) field errors

/-- A body with a payload and warnings, each empty where it is missing or `null`. -/
def IsReply (body : Bytes) (data : Dictionary Value) (warnings : List String) : Prop :=
  ∃ n field field', Node.read? body = some n ∧ n.fields? ["data", "warnings"] = some [field, field'] ∧
    Given [] (Node.dictionaryOf? (Node.value? valueLevels)) field data ∧
    Given [] (Node.listOf? Node.string?) field' warnings

theorem isRefusal_iff {body : Bytes} {errors : List String} :
    IsRefusal body errors ↔ (Node.read? body).bind errorsOf? = some errors := by
  constructor
  · rintro ⟨n, field, hn, hfields, hgiven⟩
    rw [hn, Option.bind_some, errorsOf?, hfields]
    exact orNull_eq_some_iff.2 hgiven
  · intro h
    obtain ⟨n, hn, h⟩ := Option.bind_eq_some_iff.1 h
    obtain ⟨fields, hfields, h⟩ := Option.bind_eq_some_iff.1 h
    split at h
    next field => exact ⟨n, field, hn, hfields, orNull_eq_some_iff.1 h⟩
    next => cases h

theorem isReply_iff {body : Bytes} {data : Dictionary Value} {warnings : List String} :
    IsReply body data warnings ↔
      (Node.read? body).bind SecretResponse.ofNode? = some ⟨data, warnings⟩ := by
  constructor
  · rintro ⟨n, field, field', hn, hfields, hdata, hwarnings⟩
    rw [hn, Option.bind_some, SecretResponse.ofNode?, hfields]
    simp only [Option.bind_eq_bind, Option.bind_some, orNull_eq_some_iff.2 hdata,
      orNull_eq_some_iff.2 hwarnings]
  · intro h
    obtain ⟨n, hn, h⟩ := Option.bind_eq_some_iff.1 h
    obtain ⟨fields, hfields, h⟩ := Option.bind_eq_some_iff.1 h
    split at h
    next field field' =>
      obtain ⟨data', hdata, h⟩ := Option.bind_eq_some_iff.1 h
      obtain ⟨warnings', hwarnings, h⟩ := Option.bind_eq_some_iff.1 h
      cases h
      exact ⟨n, field, field', hn, hfields, orNull_eq_some_iff.1 hdata,
        orNull_eq_some_iff.1 hwarnings⟩
    next => cases h

/-! ### Verdicts -/

/-- The statuses of success. -/
def Succeeds (r : Response) : Prop := 200 ≤ r.status ∧ r.status < 300

/-- A response that succeeds with a secret, which is the mapping under `data`, and with warnings. -/
def HoldsSecret (r : Response) (secret : List (String × Value)) (warnings : List String) : Prop :=
  Succeeds r ∧ ∃ data, IsReply r.body data warnings ∧ data.lookup "data" = some (.object secret)

/-- What a response means for an access: the warnings that are logged, and the result. -/
inductive Verdict (a : Access) (r : Response) : List String → Except Error String → Prop
  | notFound (h : r.status = 404) : Verdict a r [] (.error (.api (.notFound a.fullPath)))
  | refused {errors : List String} (h : r.status ≠ 404) (hs : ¬ Succeeds r)
      (he : IsRefusal r.body errors) :
      Verdict a r [] (.error (.api (.http a.fullPath r.status errors)))
  | unexplained (h : r.status ≠ 404) (hs : ¬ Succeeds r) (he : ∀ errors, ¬ IsRefusal r.body errors) :
      Verdict a r []
        (.error (.api (.http a.fullPath r.status [String.ofList (Utf8.decodeLossy r.body)])))
  | undecodable (hs : Succeeds r) (hr : ∀ data warnings, ¬ IsReply r.body data warnings) :
      Verdict a r [] (.error (.api .decode))
  | noMapping {data : Dictionary Value} {warnings : List String} (hs : Succeeds r)
      (hr : IsReply r.body data warnings)
      (hd : ∀ secret, data.lookup "data" ≠ some (.object secret)) :
      Verdict a r [] (.error (.malformed a.fullPath "data is not a mapping"))
  | emptyMapping {warnings : List String} (h : HoldsSecret r [] warnings) :
      Verdict a r warnings.reverse (.error (.malformed a.fullPath "secret data is empty"))
  | noProperty {secret : List (String × Value)} {warnings : List String}
      (h : HoldsSecret r secret warnings) (hne : secret ≠ [])
      (hp : secret.lookup a.property = none) :
      Verdict a r warnings.reverse (.error (.propertyNotFound a.property a.fullPath))
  | blank {secret : List (String × Value)} {warnings : List String} {v : Value}
      (h : HoldsSecret r secret warnings) (hp : secret.lookup a.property = some v)
      (hv : v = .null ∨ v = .string "") :
      Verdict a r warnings.reverse (.error (.emptyProperty a.property a.fullPath))
  | string {secret : List (String × Value)} {warnings : List String} {text : String}
      (h : HoldsSecret r secret warnings) (hp : secret.lookup a.property = some (.string text))
      (hv : text ≠ "") : Verdict a r warnings.reverse (.ok text)
  | other {secret : List (String × Value)} {warnings : List String} {v : Value}
      (h : HoldsSecret r secret warnings) (hp : secret.lookup a.property = some v)
      (hnull : v ≠ .null) (hv : ∀ text, v ≠ .string text) :
      Verdict a r warnings.reverse (.ok v.toString)

section

variable {a : Access} {r : Response} {path : String}

theorem interpret_of_notFound (h : r.status = 404) : interpret path r = .error (.notFound path) :=
  if_pos h

theorem interpret_of_refusal (h : r.status ≠ 404) (hs : ¬ Succeeds r) :
    interpret path r = .error (.http path r.status
      (((Node.read? r.body).bind errorsOf?).getD [String.ofList (Utf8.decodeLossy r.body)])) := by
  have hsuccess : ¬ r.isSuccess = true := by simpa [Response.isSuccess, Succeeds] using hs
  rw [interpret, if_neg h, if_neg hsuccess]

theorem interpret_of_success (hs : Succeeds r) :
    interpret path r = ((Node.read? r.body).bind SecretResponse.ofNode?).elim (.error .decode) .ok := by
  have h : r.status ≠ 404 := fun h => absurd hs.2 (by omega)
  have hsuccess : r.isSuccess = true := by simpa [Response.isSuccess, Succeeds] using hs
  rw [interpret, if_neg h, if_pos hsuccess]
  cases (Node.read? r.body).bind SecretResponse.ofNode? <;> rfl

theorem interpret_of_reply {data : Dictionary Value} {warnings : List String} (hs : Succeeds r)
    (hr : IsReply r.body data warnings) : interpret path r = .ok ⟨data, warnings⟩ := by
  rw [interpret_of_success hs, isReply_iff.1 hr]
  rfl

variable {secret : List (String × Value)} {warnings : List String}

/-! A secret that is held is looked into, and its warnings are logged. -/

theorem HoldsSecret.interpreted (h : HoldsSecret r secret warnings) (path : String) :
    ∃ s : SecretResponse, interpret path r = .ok s ∧ s.warnings = warnings ∧
      s.data.lookup "data" = some (.object secret) := by
  obtain ⟨hs, data, hr, hd⟩ := h
  exact ⟨⟨data, warnings⟩, interpret_of_reply hs hr, rfl, hd⟩

theorem HoldsSecret.of_empty (h : HoldsSecret r [] warnings) :
    warnings.reverse = a.logged (interpret a.fullPath r) ∧
      .error (.malformed a.fullPath "secret data is empty") =
        a.secret (interpret a.fullPath r) := by
  obtain ⟨s, hs, rfl, hd⟩ := h.interpreted a.fullPath
  rw [hs, Access.logged, Access.secret, SecretResponse.extract, hd]
  exact ⟨rfl, rfl⟩

theorem HoldsSecret.of_none (h : HoldsSecret r secret warnings) (hne : secret ≠ [])
    (hp : secret.lookup a.property = none) :
    warnings.reverse = a.logged (interpret a.fullPath r) ∧
      .error (.propertyNotFound a.property a.fullPath) =
        a.secret (interpret a.fullPath r) := by
  obtain ⟨s, hs, rfl, hd⟩ := h.interpreted a.fullPath
  have hne : secret.isEmpty = false := List.isEmpty_eq_false_iff.2 hne
  rw [hs, Access.logged, Access.secret, SecretResponse.extract, hd]
  simp only [hne, hp, Bool.false_eq_true, if_false, and_self]

theorem HoldsSecret.of_some {v : Value} (h : HoldsSecret r secret warnings)
    (hp : secret.lookup a.property = some v) :
    warnings.reverse = a.logged (interpret a.fullPath r) ∧
      (if valueText v = "" then .error (.emptyProperty a.property a.fullPath)
        else .ok (valueText v)) = a.secret (interpret a.fullPath r) := by
  obtain ⟨s, hs, rfl, hd⟩ := h.interpreted a.fullPath
  have hne : secret.isEmpty = false := by
    cases secret with
    | nil => cases hp
    | cons e secret => rfl
  rw [hs, Access.logged, Access.secret, SecretResponse.extract, hd]
  simp only [hne, hp, String.isEmpty_iff, Bool.false_eq_true, if_false, and_self]

/-- A verdict is what the response means. -/
theorem Verdict.eq {result : Except Error String} (h : Verdict a r warnings result) :
    warnings = a.logged (interpret a.fullPath r) ∧
      result = a.secret (interpret a.fullPath r) := by
  cases h with
  | notFound h =>
    rw [interpret_of_notFound h]
    exact ⟨rfl, rfl⟩
  | refused h hs he =>
    rw [interpret_of_refusal h hs, isRefusal_iff.1 he]
    exact ⟨rfl, rfl⟩
  | unexplained h hs he =>
    have hnone : (Node.read? r.body).bind errorsOf? = none :=
      Option.eq_none_iff_forall_ne_some.2 fun errors h => he errors (isRefusal_iff.2 h)
    rw [interpret_of_refusal h hs, hnone]
    exact ⟨rfl, rfl⟩
  | undecodable hs hr =>
    have hnone : (Node.read? r.body).bind SecretResponse.ofNode? = none :=
      Option.eq_none_iff_forall_ne_some.2 fun s h => hr s.data s.warnings (isReply_iff.2 h)
    rw [interpret_of_success hs, hnone]
    exact ⟨rfl, rfl⟩
  | noMapping hs hr hd =>
    rw [interpret_of_reply hs hr, Access.logged, Access.secret, SecretResponse.extract]
    split
    next secret h => exact absurd h (hd secret)
    next => exact ⟨rfl, rfl⟩
  | emptyMapping h => exact h.of_empty
  | noProperty h hne hp => exact h.of_none hne hp
  | blank h hp hv =>
    have hof := h.of_some hp
    rwa [if_pos ((valueText_eq_empty_iff _).2 hv)] at hof
  | string h hp hv =>
    have hof := h.of_some hp
    rwa [valueText, if_neg hv] at hof
  | @other _ _ v h hp hnull hv =>
    have hfull : valueText v ≠ "" := fun h =>
      ((valueText_eq_empty_iff v).1 h).elim hnull (hv "")
    have hof := h.of_some hp
    rw [if_neg hfull] at hof
    cases v with
    | null => exact absurd rfl hnull
    | string text => exact absurd rfl (hv text)
    | _ => exact hof

/-- There is a verdict on every secret. -/
theorem HoldsSecret.exists_verdict (a : Access) (h : HoldsSecret r secret warnings) :
    ∃ result, Verdict a r warnings.reverse result := by
  cases hp : secret.lookup a.property with
  | none =>
    by_cases hne : secret = []
    · subst hne
      exact ⟨_, .emptyMapping h⟩
    · exact ⟨_, .noProperty h hne hp⟩
  | some v =>
    by_cases hblank : v = .null ∨ v = .string ""
    · exact ⟨_, .blank h hp hblank⟩
    · rw [not_or] at hblank
      cases v with
      | null => exact absurd rfl hblank.1
      | string text => exact ⟨_, .string h hp fun h => hblank.2 (congrArg Value.string h)⟩
      | _ => exact ⟨_, .other h hp nofun nofun⟩

/-- There is a verdict on every response. -/
theorem exists_verdict (a : Access) (r : Response) :
    ∃ warnings result, Verdict a r warnings result := by
  by_cases h404 : r.status = 404
  · exact ⟨_, _, .notFound h404⟩
  · by_cases hs : Succeeds r
    · by_cases hr : ∃ data warnings, IsReply r.body data warnings
      · obtain ⟨data, warnings, hr⟩ := hr
        by_cases hd : ∃ secret, data.lookup "data" = some (.object secret)
        · obtain ⟨secret, hd⟩ := hd
          exact ⟨_, HoldsSecret.exists_verdict a ⟨hs, data, hr, hd⟩⟩
        · exact ⟨_, _, .noMapping hs hr (not_exists.1 hd)⟩
      · exact ⟨_, _, .undecodable hs fun data warnings h => hr ⟨data, warnings, h⟩⟩
    · by_cases he : ∃ errors, IsRefusal r.body errors
      · obtain ⟨errors, he⟩ := he
        exact ⟨_, _, .refused h404 hs he⟩
      · exact ⟨_, _, .unexplained h404 hs (not_exists.1 he)⟩

/-- Each response has one verdict: what it means. -/
theorem verdict_iff {result : Except Error String} :
    Verdict a r warnings result ↔ warnings = a.logged (interpret a.fullPath r) ∧
      result = a.secret (interpret a.fullPath r) := by
  refine ⟨Verdict.eq, ?_⟩
  rintro ⟨rfl, rfl⟩
  obtain ⟨warnings, result, h⟩ := exists_verdict a r
  obtain ⟨rfl, rfl⟩ := h.eq
  exact h

end

/-! ### Lookups -/

/-- A world that reaches Vault over HTTP; nobody else asks the peer. -/
structure Online {W : Type} (answer : (c : CacheCall) → W → c.Reply × W) (peer : W → Peer) : Prop where
  fetch : ∀ url token path w, (answer (.fetch url token path) w).1 = (read url token path (peer w)).1
  keeps : ∀ c w, c.isFetch = false → peer (answer c w).2 = peer w

variable {W : Type} {answer : (c : CacheCall) → W → c.Reply × W} {files : W → FileSystem}
  {peer : W → Peer}

theorem CacheWorld.online : Online answerInTime CacheWorld.peer where
  fetch url token path w := by
    simp only [answerInTime, CacheWorld.answer]
  keeps c w hc := by
    show (w.answer c).2.peer = w.peer
    cases c with
    | fetch url token path => cases hc
    | write path text =>
      rw [CacheWorld.answer]
      cases w.files.write path (Utf8.encode text.toList) <;> rfl
    | remove path =>
      rw [CacheWorld.answer]
      cases w.files.remove path <;> rfl
    | _ => rfl

/-- The only reply that Vault gives to a workflow is that of the peer as it was at first. -/
theorem Online.reply {α : Type} (ho : Online answer peer) (x : Lookup α) (w : W)
    {url token path : String} {reply : Except ApiError SecretResponse}
    (honce : (x.transcript answer w).countP (fun e => e.call.isFetch) = 1)
    (hmem : ⟨.fetch url token path, reply⟩ ∈ x.transcript answer w) :
    reply = (read url token path (peer w)).1 := by
  induction x generalizing w with
  | done a => cases hmem
  | call seen c next ih =>
    rw [Workflow.transcript_call] at honce hmem
    cases hc : c.isFetch with
    | true =>
      simp only [List.countP_cons, hc, if_true, Nat.add_eq_right, List.countP_eq_zero] at honce
      rcases List.mem_cons.1 hmem with heq | hmem
      · cases heq
        exact ho.fetch url token path w
      · exact absurd rfl (honce _ hmem)
    | false =>
      simp only [List.countP_cons, hc, Bool.false_eq_true, if_false, Nat.add_zero] at honce
      rcases List.mem_cons.1 hmem with heq | hmem
      · cases heq
        cases hc
      · rw [ih _ _ honce hmem, ho.keeps c w hc]

theorem read_of_exchange {address token path : String} {p : Peer} {r : Response}
    (h : (p.exchange (draft address token path)).1 = some r) :
    (read address token path p).1 = interpret path r := by
  rw [read]
  generalize p.exchange (draft address token path) = x at h
  obtain ⟨r', q⟩ := x
  cases h
  rfl

/-- The reply that a lookup got is what the response of Vault means. -/
theorem reply_of_response {c : Cache} {a : Access} {w : W} {reply : Except ApiError SecretResponse}
    {writes : List CacheEntry} {r : Response} (ho : Online answer peer)
    (h : Asks a reply writes (outcome answer (c.get a).body w))
    (hwrites : writes.countP (fun x => x.call.isFetch) = 0)
    (hr : ((peer w).exchange (draft a.url a.token a.fullPath)).1 = some r) :
    reply = interpret a.fullPath r := by
  have hmem : ⟨.fetch a.url a.token a.fullPath, reply⟩ ∈
      transfers ((c.get a).body.transcript answer w) := by
    rw [show transfers ((c.get a).body.transcript answer w) = _ from h.transfers]
    exact List.mem_cons_self
  have honce := h.fetches
  rw [hwrites] at honce
  exact (ho.reply _ w honce (List.mem_of_mem_filter hmem)).trans (read_of_exchange hr)

/-- Where no text is served, the response of Vault decides how a lookup ends: it logs the warnings
and has the result of the only verdict on the response, and never an empty text. -/
theorem get_by_response {c : Cache} (hd : FaultyDisk answer files c.dir) (ho : Online answer peer)
    (a : Access) (w : W) (r : Response)
    (hmiss : ¬ c.Hits answer files a w)
    (hr : ((peer w).exchange (draft a.url a.token a.fullPath)).1 = some r) :
    let o := outcome answer (c.get a).body w
    (∀ warnings result,
      Verdict a r warnings result ↔ warnings = warned o.transcript ∧ result = o.result) ∧
    ∀ text, o.result = .ok text → text ≠ "" := by
  intro o
  obtain ⟨reply, writes, hasks, hwrites⟩ := Cache.asks_of_miss hd hmiss
  have hreply := reply_of_response ho hasks hwrites hr
  constructor
  · intro warnings result
    rw [verdict_iff, hasks.warned, hasks.result, hreply]
  · rintro text hok rfl
    exact a.secret_ne_empty reply (hasks.result.symm.trans hok)

/-- Warnings are logged newest first, though the property is `null`. -/
theorem get_by_response_null :
    let c : Cache := ⟨"/cache", 5⟩
    let body := "\x7b\"warnings\":[\"old\",\"new\"],\"data\":" ++
      "\x7b\"data\":\x7b\"password\":null\x7d\x7d\x7d"
    let r : Response := ⟨200, Utf8.encode body.toList⟩
    let w : CacheWorld := ⟨⟨[(["cache"], .directory .epoch)], .epoch⟩,
      ⟨[.plain "vault:8200"], true, [.response r.status r.body], []⟩, []⟩
    FaultyDisk CacheWorld.answerInTime CacheWorld.files c.dir ∧
      Online CacheWorld.answerInTime CacheWorld.peer ∧
      (w.files.found? (c.path kvPassword)).isNone = true ∧
      Verdict kvPassword r ["new", "old"] (.error (.emptyProperty "password" "kv/data/p")) := by
  intro c body r w
  have hd : FaultyDisk CacheWorld.answerInTime CacheWorld.files c.dir :=
    (CacheWorld.disk c.dir).faulty
  have hnone : (w.files.found? (c.path kvPassword)).isNone = true := by decide
  have hmiss := get_by_response hd CacheWorld.online kvPassword w r (fun h => ?_) (by decide)
  · exact ⟨hd, CacheWorld.online, hnone, (hmiss.1 _ _).2 (by decide)⟩
  · obtain ⟨-, text, t, hfile⟩ := h
    rw [show CacheWorld.files w = w.files from rfl] at hfile
    rw [hfile] at hnone
    cases hnone

end Vault

end Oncall
