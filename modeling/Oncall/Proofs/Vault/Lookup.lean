import Oncall.Proofs.Transcript
import Oncall.Proofs.Vault.FaultyDisk
import Oncall.Proofs.Vault.ReadThrough

/-! One lookup, whatever is at its path and whatever Vault replies, on a disk whose writes may break
off. A file that is young enough and holds a text is served and left alone. One that is young enough
and holds none is removed, and Vault is asked; if it is too old or not there, Vault is asked and the
value saved. A value is returned whether or not it could be saved, a save that failed leaves no
file, and Vault is never asked twice. -/

namespace Oncall.Vault

open FileSystem (SameIn SameBut)

/-! ### What a lookup does -/

abbrev CacheEntry := Answered CacheCall.Reply

/-- Reads of Vault and writes of files; other calls look, log or remove. -/
def CacheCall.isTransfer : CacheCall → Bool
  | .fetch _ _ _ | .write _ _ => true
  | _ => false

def CacheCall.isFetch : CacheCall → Bool
  | .fetch _ _ _ => true
  | _ => false

def CacheCall.warning? : CacheCall → Option String
  | .warn text => some text
  | _ => none

/-- The reads of Vault and the writes of files, with what came of them. -/
def transfers (xs : List CacheEntry) : List CacheEntry := xs.filter fun x => x.call.isTransfer

/-- The warnings that were logged, in order. -/
def warned (xs : List CacheEntry) : List String := xs.filterMap fun x => x.call.warning?

@[simp] theorem transfers_append (xs ys : List CacheEntry) :
    transfers (xs ++ ys) = transfers xs ++ transfers ys := List.filter_append ..

@[simp] theorem warned_append (xs ys : List CacheEntry) :
    warned (xs ++ ys) = warned xs ++ warned ys := List.filterMap_append

/-- Neither is Vault asked, nor is anything written or logged. -/
structure Quiet (xs : List CacheEntry) : Prop where
  transfers : transfers xs = []
  warned : warned xs = []

/-- What a lookup came to: its result, the world after it, and what it asked for. -/
structure Outcome (W : Type) where
  result : Except Error String
  world : W
  transcript : List CacheEntry

def outcome {W : Type} (answer : (c : CacheCall) → W → c.Reply × W)
    (x : Lookup (Except Error String)) (w : W) : Outcome W :=
  ⟨(x.run answer w).1, (x.run answer w).2, x.transcript answer w⟩

/-- An outcome after other things have been asked for. -/
def Outcome.after {W : Type} (o : Outcome W) (xs : List CacheEntry) : Outcome W :=
  { o with transcript := xs ++ o.transcript }

/-- The warnings to log about a reply. -/
def Access.logged (a : Access) : Except ApiError SecretResponse → List String
  | .error _ => []
  | .ok r => (r.extract a.fullPath a.property).1

/-- Vault is asked once, and its word is the result; `writes` are the writes of files. -/
structure Asks {W : Type} (a : Access) (reply : Except ApiError SecretResponse)
    (writes : List CacheEntry) (o : Outcome W) : Prop where
  result : o.result = a.secret reply
  transfers : transfers o.transcript = ⟨.fetch a.url a.token a.fullPath, reply⟩ :: writes
  warned : warned o.transcript = a.logged reply

section Ask

variable {W : Type} (answer : (c : CacheCall) → W → c.Reply × W)

theorem outcome_bind {α : Type} (x : Lookup α) (f : α → Lookup (Except Error String)) (w : W) :
    outcome answer (x.bind f) w =
      (outcome answer (f (x.run answer w).1) (x.run answer w).2).after (x.transcript answer w) := by
  simp only [outcome, Outcome.after, Workflow.run_bind, Workflow.transcript_bind]

theorem Asks.after {a : Access} {reply : Except ApiError SecretResponse} {writes xs : List CacheEntry}
    {o : Outcome W} (h : Asks a reply writes o) (hq : Quiet xs) : Asks a reply writes (o.after xs) where
  result := h.result
  transfers := by rw [Outcome.after, transfers_append, hq.transfers, List.nil_append, h.transfers]
  warned := by rw [Outcome.after, warned_append, hq.warned, List.nil_append, h.warned]

/-- Reads of Vault are among the transfers. -/
theorem countP_isFetch (xs : List CacheEntry) :
    xs.countP (fun x => x.call.isFetch) = (transfers xs).countP fun x => x.call.isFetch := by
  rw [transfers, List.countP_filter]
  refine List.countP_congr fun x _ => ?_
  cases x.call <;> simp [CacheCall.isFetch, CacheCall.isTransfer]

theorem Asks.fetches {a : Access} {reply : Except ApiError SecretResponse}
    {writes : List CacheEntry} {o : Outcome W} (h : Asks a reply writes o) :
    o.transcript.countP (fun x => x.call.isFetch) =
      writes.countP (fun x => x.call.isFetch) + 1 := by
  rw [countP_isFetch, h.transfers, List.countP_cons_of_pos rfl]

theorem transcript_warnAll (texts : List String) (w : W) :
    (Cache.warnAll texts).transcript answer w = texts.map fun text => ⟨.warn text, ()⟩ := by
  induction texts generalizing w with
  | nil => rfl
  | cons text texts ih => exact congrArg (_ :: ·) (ih (answer (.warn text) w).2)

theorem warned_map (texts : List String) :
    warned (texts.map fun text => ⟨.warn text, ()⟩) = texts := by
  rw [warned, List.filterMap_map]
  exact List.filterMap_some

theorem transfers_map (texts : List String) :
    transfers (texts.map fun text => ⟨.warn text, ()⟩) = [] := by
  simp [transfers, CacheCall.isTransfer]

/-- Vault is asked once, and the warnings in its reply are logged. -/
theorem asks_ask (a : Access) (w : W) :
    ∃ reply, Asks a reply [] (outcome answer (Cache.ask a) w) := by
  refine ⟨(answer (.fetch a.url a.token a.fullPath) w).1, ?_⟩
  rw [outcome, Cache.ask, Workflow.run_call, Workflow.transcript_call]
  cases (answer (.fetch a.url a.token a.fullPath) w).1 with
  | error e => exact ⟨rfl, rfl, rfl⟩
  | ok r =>
    simp only [Workflow.run_bind, Workflow.run_done, Workflow.transcript_bind,
      Workflow.transcript_done, List.append_nil, transcript_warnAll]
    exact ⟨rfl, congrArg (_ :: ·) (transfers_map _), warned_map _⟩

end Ask

/-! ### How a lookup may end -/

variable {W : Type} {answer : (c : CacheCall) → W → c.Reply × W} {files : W → FileSystem}

/-- What is at a path after a text was to be saved there. -/
def SavedAs (text : String) (left : Option FileEntry) : Except FileError Unit → Prop
  | .ok () => ∃ t, left = some (.file (Utf8.encode text.toList) t)
  | .error _ => ∀ content t, left ≠ some (.file content t)

namespace Cache

/-- Young enough at a time to be served. -/
def Young (c : Cache) (now : Instant) (e : Option FileEntry) : Prop :=
  ∃ x, e = some x ∧ now.nanos - c.maxAge ≤ x.changed.nanos

/-- A text at the path of an access is young enough to be served. -/
def Hits (c : Cache) (answer : (c : CacheCall) → W → c.Reply × W) (files : W → FileSystem)
    (a : Access) (w : W) : Prop :=
  c.Young (c.lookupTime answer files a w) ((files w).found? (c.path a)) ∧
    ∃ (text : String) (t : Instant),
      (files w).found? (c.path a) = some (.file (Utf8.encode text.toList) t)

/-- A text is the result, Vault is not asked, and nothing has changed. -/
structure ServesText (c : Cache) (files : W → FileSystem) (w : W) (text : String) (o : Outcome W) :
    Prop where
  result : o.result = .ok text
  quiet : Quiet o.transcript
  same : SameIn c.dir (files w) (files o.world)

/-- Vault is asked once, nothing is written, and a file at the path is removed. -/
def FallsBack (c : Cache) (files : W → FileSystem) (a : Access) (w : W) (o : Outcome W) : Prop :=
  ∃ reply, Asks a reply [] o ∧
    (files o.world).found? (c.path a) = withoutFile ((files w).found? (c.path a)) ∧
    SameBut c.dir (cacheName a) (files w) (files o.world)

/-- Vault is asked once. An error leaves everything as it was; a value is to be written, and is the
result even if that fails. -/
inductive Renews (c : Cache) (files : W → FileSystem) (a : Access) (w : W) (o : Outcome W) : Prop
  | fails {reply : Except ApiError SecretResponse} {e : Error} (h : a.secret reply = .error e)
      (hasks : Asks a reply [] o) (hs : SameIn c.dir (files w) (files o.world)) :
      Renews c files a w o
  | saves {reply : Except ApiError SecretResponse} {text : String}
      {saved : Except FileError Unit} (h : a.secret reply = .ok text)
      (hasks : Asks a reply [⟨.write (c.path a) text, saved⟩] o)
      (hleft : SavedAs text ((files o.world).found? (c.path a)) saved)
      (hbut : SameBut c.dir (cacheName a) (files w) (files o.world)) :
      Renews c files a w o

end Cache

namespace FaultyDisk

variable {c : Cache} {a : Access} (hd : FaultyDisk answer files c.dir) (w : W)

include hd

theorem sameIn_warnAll (texts : List String) :
    SameIn c.dir (files w) (files ((Cache.warnAll texts).run answer w).2) := by
  induction texts generalizing w with
  | nil => exact .refl c.dir (files w)
  | cons text texts ih => exact (hd.sameIn w _ rfl fun _ => rfl).trans (ih _)

/-- Asking Vault leaves the directory as it is. -/
theorem sameIn_ask (a : Access) :
    SameIn c.dir (files w) (files ((Cache.ask a).run answer w).2) := by
  have hfetch := hd.sameIn w (.fetch a.url a.token a.fullPath) rfl fun _ => rfl
  rw [Cache.ask, Workflow.run_call]
  cases (answer (.fetch a.url a.token a.fullPath) w).1 with
  | error e => exact hfetch
  | ok r =>
    simp only [Workflow.run_bind, Workflow.run_done]
    exact hfetch.trans (hd.sameIn_warnAll _ _)

/-- Looking whether a file is young enough changes nothing. -/
theorem isFresh_spec (a : Access) :
    let x := c.isFresh (c.path a)
    ((x.run answer w).1 = true ↔
      c.Young (c.lookupTime answer files a w) ((files w).found? (c.path a))) ∧
    SameIn c.dir (files w) (files (x.run answer w).2) ∧ Quiet (x.transcript answer w) := by
  have hsame := hd.sameIn w (.changed (c.path a)) rfl fun _ => rfl
  have hreply := hd.reply (.changed (c.path a)) w _ rfl rfl
  intro x
  simp only [x, Cache.isFresh, Workflow.run_call, Workflow.transcript_call, hreply]
  cases hfound : (files w).found? (c.path a) with
  | none =>
    obtain ⟨e, he⟩ := FileSystem.changed_of_none hfound
    rw [he]
    refine ⟨iff_of_false Bool.false_ne_true ?_, hsame, rfl, rfl⟩
    rintro ⟨x, hx, -⟩
    cases hx
  | some entry =>
    rw [FileSystem.changed_of_found hfound]
    have hnow : (answer .now (answer (.changed (c.path a)) w).2).1 =
        c.lookupTime answer files a w := hd.reply .now _ _ rfl rfl
    refine ⟨?_, hsame.trans (hd.sameIn _ _ rfl fun _ => rfl), rfl, rfl⟩
    simp only [Workflow.run_call, Workflow.run_done, hnow, Instant.isFresh_iff, Cache.Young,
      Option.some.injEq, exists_eq_left']

/-- A file that holds a text is served and left alone. -/
theorem serve_text {text : String} {t : Instant}
    (h : (files w).found? (c.path a) = some (.file (Utf8.encode text.toList) t)) :
    c.ServesText files w text (outcome answer (Cache.serve (c.path a) a) w) := by
  have hreply := hd.reply (.readText (c.path a)) w _ rfl rfl
  rw [FileSystem.readText_eq_ok_iff.2 ⟨t, h⟩] at hreply
  simp only [outcome, Cache.serve, Workflow.run_call, Workflow.transcript_call, hreply]
  exact ⟨rfl, ⟨rfl, rfl⟩, hd.sameIn w _ rfl fun _ => rfl⟩

/-- Where no text is held, a file is removed and Vault asked. -/
theorem serve_unreadable
    (h : ∀ (text : String) t,
      (files w).found? (c.path a) ≠ some (.file (Utf8.encode text.toList) t)) :
    c.FallsBack files a w (outcome answer (Cache.serve (c.path a) a) w) := by
  have hreply := hd.reply (.readText (c.path a)) w _ rfl rfl
  have hread := hd.sameIn w (.readText (c.path a)) rfl fun _ => rfl
  set w₁ := (answer (.readText (c.path a)) w).2
  obtain ⟨hgone, hbut⟩ := hd.remove_spec w₁ a
  set w₂ := (answer (.remove (c.path a)) w₁).2
  obtain ⟨reply, hasks⟩ := asks_ask answer a w₂
  have hsame := hd.sameIn_ask w₂ a
  have hout : outcome answer (Cache.serve (c.path a) a) w =
      (outcome answer (Cache.ask a) w₂).after
        [⟨.readText (c.path a), (answer (.readText (c.path a)) w).1⟩,
          ⟨.remove (c.path a), (answer (.remove (c.path a)) w₁).1⟩] := by
    simp only [outcome, Cache.serve, Workflow.run_call, Workflow.transcript_call]
    cases hok : (answer (.readText (c.path a)) w).1 with
    | error e => rfl
    | ok text =>
      obtain ⟨t, ht⟩ := FileSystem.readText_eq_ok_iff.1 (hreply.symm.trans hok)
      exact absurd ht (h text t)
  rw [hout]
  refine ⟨reply, hasks.after ⟨rfl, rfl⟩, ?_, ((hread.sameBut _).trans hbut).trans (hsame.sameBut _)⟩
  exact (found?_path hsame).trans (hgone.trans (congrArg withoutFile (found?_path hread)))

/-- A save ends with the text in the file or, if the write failed, without a file. -/
theorem save_spec (a : Access) (text : String) :
    let x := Cache.save (c.path a) text
    let w' := (x.run answer w).2
    ∃ saved, transfers (x.transcript answer w) = [⟨.write (c.path a) text, saved⟩] ∧
      warned (x.transcript answer w) = [] ∧ ((x.run answer w).1 = true ↔ saved = .ok ()) ∧
      SavedAs text ((files w').found? (c.path a)) saved ∧
      SameBut c.dir (cacheName a) (files w) (files w') := by
  have hp := cacheName_plain a
  have hends := hd.write (c.path a) text w
  intro x w'
  simp only [x, w', Cache.save, Workflow.run_call, Workflow.transcript_call]
  set w₁ := (answer (.write (c.path a) text) w).2
  cases hsaved : (answer (.write (c.path a) text) w).1 with
  | ok u =>
    rw [hsaved] at hends
    refine ⟨.ok (), rfl, rfl, iff_of_true rfl rfl, ?_⟩
    cases hends with
    | written h hs =>
      obtain ⟨hthere, hbut⟩ := FileSystem.found?_of_write hp h
      exact ⟨⟨_, (found?_path hs).trans hthere⟩, hbut.trans (hs.sameBut _)⟩
  | error e =>
    rw [hsaved] at hends
    obtain ⟨hgone, hbut⟩ := hd.remove_spec w₁ a
    refine ⟨.error e, rfl, rfl, by simp, fun content t hleft => ?_, ?_⟩
    · exact withoutFile_ne_file _ content t (hgone.symm.trans hleft)
    · refine SameBut.trans ?_ hbut
      cases hends with
      | refused hs => exact hs.sameBut _
      | brokenOff h hs => exact (FileSystem.found?_of_write hp h).2.trans (hs.sameBut _)

/-- A value is saved and served, and is the result either way. -/
theorem keep_spec (a : Access) (text : String) :
    let o := outcome answer ((Cache.save (c.path a) text).bind fun saved =>
      if saved then Cache.serve (c.path a) a else .done (.ok text)) w
    ∃ saved, o.result = .ok text ∧ transfers o.transcript = [⟨.write (c.path a) text, saved⟩] ∧
      warned o.transcript = [] ∧ SavedAs text ((files o.world).found? (c.path a)) saved ∧
      SameBut c.dir (cacheName a) (files w) (files o.world) := by
  obtain ⟨saved, hwrite, hquiet, hended, hleft, hbut⟩ := hd.save_spec w a text
  simp only [outcome_bind]
  set w₁ := ((Cache.save (c.path a) text).run answer w).2
  cases saved with
  | error e =>
    rw [if_neg (by simp [hended])]
    refine ⟨.error e, rfl, ?_, ?_, hleft, hbut⟩
    · simp [Outcome.after, outcome, hwrite]
    · simp [Outcome.after, outcome, hquiet]
  | ok u =>
    obtain ⟨t, hthere⟩ := hleft
    -- the file that was just written is read back
    obtain ⟨hserved, hnothing, hsame⟩ := hd.serve_text w₁ hthere
    rw [if_pos (hended.2 rfl)]
    refine ⟨.ok (), hserved, ?_, ?_, ⟨t, (found?_path hsame).trans hthere⟩,
      hbut.trans (hsame.sameBut _)⟩
    · simp [Outcome.after, hwrite, hnothing.transfers]
    · simp [Outcome.after, hquiet, hnothing.warned]

/-- Vault is asked, and a value that it has is kept. -/
theorem refresh_spec (a : Access) :
    c.Renews files a w (outcome answer (Cache.refresh (c.path a) a) w) := by
  obtain ⟨reply, hresult, htransfers, hwarned⟩ := asks_ask answer a w
  have hsame := hd.sameIn_ask w a
  rw [Cache.refresh, outcome_bind]
  simp only [outcome] at hresult htransfers hwarned
  simp only [hresult]
  set w₁ := ((Cache.ask a).run answer w).2
  cases hsecret : a.secret reply with
  | error e =>
    refine .fails hsecret ⟨hsecret.symm, ?_, ?_⟩ hsame
    · simpa [Outcome.after, outcome] using htransfers
    · simpa [Outcome.after, outcome] using hwarned
  | ok text =>
    obtain ⟨saved, hkept, hwrite, hquiet, hleft, hbut⟩ := hd.keep_spec w₁ a text
    refine .saves hsecret ⟨hkept.trans hsecret.symm, ?_, ?_⟩ hleft ((hsame.sameBut _).trans hbut)
    · rw [Outcome.after, transfers_append, htransfers, hwrite]
      rfl
    · rw [Outcome.after, warned_append, hwarned, hquiet, List.append_nil]

end FaultyDisk

/-! ### The lookup -/

namespace Cache

variable {c : Cache} {a : Access} {w w₁ : W} {o : Outcome W} {xs : List CacheEntry}

theorem ServesText.of_same {text : String} (hs : SameIn c.dir (files w) (files w₁)) (hq : Quiet xs)
    (h : c.ServesText files w₁ text o) : c.ServesText files w text (o.after xs) where
  result := h.result
  quiet := ⟨by simp [Outcome.after, hq.transfers, h.quiet.transfers],
    by simp [Outcome.after, hq.warned, h.quiet.warned]⟩
  same := hs.trans h.same

theorem FallsBack.of_same (hs : SameIn c.dir (files w) (files w₁)) (hq : Quiet xs)
    (h : c.FallsBack files a w₁ o) : c.FallsBack files a w (o.after xs) := by
  obtain ⟨reply, hasks, hleft, hbut⟩ := h
  refine ⟨reply, hasks.after hq, ?_, (hs.sameBut _).trans hbut⟩
  exact hleft.trans (congrArg withoutFile (found?_path hs))

theorem Renews.of_same (hs : SameIn c.dir (files w) (files w₁)) (hq : Quiet xs)
    (h : c.Renews files a w₁ o) : c.Renews files a w (o.after xs) := by
  cases h with
  | fails h hasks hs' => exact .fails h (hasks.after hq) (hs.trans hs')
  | saves h hasks hleft hbut =>
    exact .saves h (hasks.after hq) hleft ((hs.sameBut _).trans hbut)

/-- A lookup serves or refreshes, by the age of what is at its path. -/
theorem outcome_get (hd : FaultyDisk answer files c.dir) (a : Access) (w : W) :
    let young := c.Young (c.lookupTime answer files a w) ((files w).found? (c.path a))
    ∃ w₁ xs, SameIn c.dir (files w) (files w₁) ∧ Quiet xs ∧
      (young → outcome answer (c.get a).body w =
        (outcome answer (serve (c.path a) a) w₁).after xs) ∧
      (¬ young → outcome answer (c.get a).body w =
        (outcome answer (refresh (c.path a) a) w₁).after xs) := by
  obtain ⟨hfresh, hsame, hquiet⟩ := hd.isFresh_spec w a
  refine ⟨_, _, hsame, hquiet, fun hyoung => ?_, fun hyoung => ?_⟩
  · rw [Cache.get, Job.body, outcome_bind, if_pos (hfresh.2 hyoung)]
  · rw [Cache.get, Job.body, outcome_bind, if_neg (hyoung ∘ hfresh.1)]

theorem get_young_text (hd : FaultyDisk answer files c.dir) {text : String} {t : Instant}
    (hyoung : c.Young (c.lookupTime answer files a w) ((files w).found? (c.path a)))
    (h : (files w).found? (c.path a) = some (.file (Utf8.encode text.toList) t)) :
    c.ServesText files w text (outcome answer (c.get a).body w) := by
  obtain ⟨w₁, xs, hsame, hquiet, hserve, -⟩ := outcome_get hd a w
  rw [hserve hyoung]
  exact (hd.serve_text w₁ ((found?_path hsame).trans h)).of_same hsame hquiet

theorem get_young_unreadable (hd : FaultyDisk answer files c.dir)
    (hyoung : c.Young (c.lookupTime answer files a w) ((files w).found? (c.path a)))
    (h : ∀ (text : String) t,
      (files w).found? (c.path a) ≠ some (.file (Utf8.encode text.toList) t)) :
    c.FallsBack files a w (outcome answer (c.get a).body w) := by
  obtain ⟨w₁, xs, hsame, hquiet, hserve, -⟩ := outcome_get hd a w
  rw [hserve hyoung]
  refine (hd.serve_unreadable w₁ fun text t => ?_).of_same hsame hquiet
  rw [found?_path hsame]
  exact h text t

theorem get_not_young (hd : FaultyDisk answer files c.dir)
    (hyoung : ¬ c.Young (c.lookupTime answer files a w) ((files w).found? (c.path a))) :
    c.Renews files a w (outcome answer (c.get a).body w) := by
  obtain ⟨w₁, xs, hsame, hquiet, -, hrefresh⟩ := outcome_get hd a w
  rw [hrefresh hyoung]
  exact (hd.refresh_spec w₁ a).of_same hsame hquiet

theorem Renews.asks (h : c.Renews files a w o) : ∃ reply writes, Asks a reply writes o ∧
    writes.countP (fun x => x.call.isFetch) = 0 := by
  cases h with
  | fails _ hasks _ => exact ⟨_, _, hasks, rfl⟩
  | saves _ hasks _ _ => exact ⟨_, _, hasks, rfl⟩

theorem Renews.sameBut (h : c.Renews files a w o) :
    SameBut c.dir (cacheName a) (files w) (files o.world) := by
  cases h with
  | fails _ _ hs => exact hs.sameBut _
  | saves _ _ _ hbut => exact hbut

theorem get_of_hit (hd : FaultyDisk answer files c.dir) (h : c.Hits answer files a w) :
    ∃ text t, (files w).found? (c.path a) = some (.file (Utf8.encode text.toList) t) ∧
      c.ServesText files w text (outcome answer (c.get a).body w) := by
  obtain ⟨hyoung, text, t, h⟩ := h
  exact ⟨text, t, h, get_young_text hd hyoung h⟩

theorem get_of_miss (hd : FaultyDisk answer files c.dir) (h : ¬ c.Hits answer files a w) :
    c.FallsBack files a w (outcome answer (c.get a).body w) ∨
      c.Renews files a w (outcome answer (c.get a).body w) := by
  by_cases hyoung : c.Young (c.lookupTime answer files a w) ((files w).found? (c.path a))
  · exact .inl (get_young_unreadable hd hyoung fun text t hfile => h ⟨hyoung, text, t, hfile⟩)
  · exact .inr (get_not_young hd hyoung)

/-- A lookup that serves no text asks Vault once. -/
theorem asks_of_miss (hd : FaultyDisk answer files c.dir) (h : ¬ c.Hits answer files a w) :
    ∃ reply writes, Asks a reply writes (outcome answer (c.get a).body w) ∧
      writes.countP (fun x => x.call.isFetch) = 0 := by
  rcases get_of_miss hd h with ⟨reply, hasks, -⟩ | h
  · exact ⟨reply, [], hasks, rfl⟩
  · exact h.asks

/-- A lookup changes nothing else in the directory than its own file. -/
theorem sameBut_get (hd : FaultyDisk answer files c.dir) (a : Access) (w : W) :
    SameBut c.dir (cacheName a) (files w) (files (outcome answer (c.get a).body w).world) := by
  by_cases hhit : c.Hits answer files a w
  · obtain ⟨text, t, -, hserves⟩ := get_of_hit hd hhit
    exact hserves.same.sameBut _
  · rcases get_of_miss hd hhit with ⟨reply, -, -, hbut⟩ | h
    · exact hbut
    · exact h.sameBut

/-- One lookup. A text that is young enough is served. What is young enough and no text is removed
if it is a file, and Vault's word is the result. In all other cases Vault is asked and its value
saved. Vault is never asked twice. -/
theorem get_by_entry (hd : FaultyDisk answer files c.dir) (a : Access) (w : W) :
    let o := outcome answer (c.get a).body w
    let entry := (files w).found? (c.path a)
    let young := c.Young (c.lookupTime answer files a w) entry
    let holds := fun text : String => ∃ t, entry = some (.file (Utf8.encode text.toList) t)
    (∀ text, young → holds text → c.ServesText files w text o) ∧
      (young → (∀ text, ¬ holds text) → c.FallsBack files a w o) ∧
      (¬ young → c.Renews files a w o) ∧
      o.transcript.countP (fun x => x.call.isFetch) ≤ 1 := by
  intro o entry young holds
  refine ⟨?_, fun hyoung h => ?_, get_not_young hd, ?_⟩
  · rintro text hyoung ⟨t, h⟩
    exact get_young_text hd hyoung h
  · exact get_young_unreadable hd hyoung fun text t he => h text ⟨t, he⟩
  · by_cases hhit : c.Hits answer files a w
    · obtain ⟨text, t, -, hserves⟩ := get_of_hit hd hhit
      rw [countP_isFetch, hserves.quiet.transfers]
      exact Nat.zero_le 1
    · obtain ⟨reply, writes, hasks, hwrites⟩ := asks_of_miss hd hhit
      rw [hasks.fetches, hwrites]

/-- On a full disk an old file is gone after a lookup, which returns the value nonetheless. -/
theorem get_by_entry_full :
    let c : Cache := ⟨"/cache", 5⟩
    let a : Access := ⟨"n", "s", "p", "password", "http://vault:8200", "t", "kv", "k"⟩
    let body := "\x7b\"data\":\x7b\"data\":\x7b\"password\":\"x\"\x7d\x7d\x7d"
    let old := [(["cache"], .directory .epoch), (["cache", "kv-password"], .file [121] .epoch)]
    let w : CacheWorld := ⟨⟨old, Instant.epoch.after 9⟩,
      ⟨[.plain "vault:8200"], true, [.response 200 (Utf8.encode body.toList)], []⟩, []⟩
    let o := outcome CacheWorld.answerFull (c.get a).body w
    let entry := w.files.found? (c.path a)
    FaultyDisk CacheWorld.answerFull CacheWorld.files c.dir ∧
      ¬ c.Young (c.lookupTime CacheWorld.answerFull CacheWorld.files a w) entry ∧
      c.Renews CacheWorld.files a w o ∧ o.result = .ok "x" ∧
      (o.world.files.found? (c.path a)).isNone = true := by
  intro c a body old w o entry
  have hd : FaultyDisk CacheWorld.answerFull CacheWorld.files c.dir := CacheWorld.fullDisk c.dir
  have hchanged : (w.files.found? (c.path a)).map (·.changed.nanos) = some 0 := by decide
  have hold : ¬ c.Young (c.lookupTime CacheWorld.answerFull CacheWorld.files a w)
      (w.files.found? (c.path a)) := by
    rintro ⟨x, hx, hn⟩
    rw [hx] at hchanged
    have hzero : x.changed.nanos = 0 := Option.some.inj hchanged
    rw [hzero] at hn
    exact absurd hn (by decide)
  exact ⟨hd, hold, (get_by_entry hd a w).2.2.1 hold, by decide, by decide⟩

end Cache

end Oncall.Vault
