import Oncall.Proofs.Vault.Deeds
import Mathlib.Data.List.Induction

/-! Lookups one after another. On a directory that was empty at first, each file holds what was stored
last under its path, as old as that is. So a lookup serves the last text stored under its path if one
was stored there within the age limit, and does nothing else; and if none was, it asks Vault once, and
stores what it got, or leaves every file as it was. -/

namespace Oncall.Vault

variable {W : Type} {answer : (c : CacheCall) → W → c.Reply × W} {files : W → FileSystem}

/-- What a reply of Vault means for an access. -/
def Access.secret (a : Access) : Except ApiError SecretResponse → Except Error String
  | .error e => .error (.api e)
  | .ok r => (r.extract a.fullPath a.property).2

/-- The text that was stored under a path, if that is what was done, and when. -/
def Deed.store? (path : String) : Deed → Option (String × Instant)
  | .stored p text t => if p = path then some (text, t) else none
  | _ => none

/-- What was stored under a path, first come first. -/
def stores (deeds : List Deed) (path : String) : List (String × Instant) :=
  deeds.filterMap (Deed.store? path)

theorem stores_append (deeds more : List Deed) (path : String) :
    stores (deeds ++ more) path = stores deeds path ++ stores more path :=
  List.filterMap_append

/-- Time passes, and things are done that leave a directory as it is. -/
structure Passes (dir : String) (files : W → FileSystem) (s s' : Recorded W) (deeds : List Deed) :
    Prop where
  same : FileSystem.SameIn dir (files s.1) (files s'.1)
  clock : (files s.1).clock.nanos ≤ (files s'.1).clock.nanos
  deeds : s'.2 = s.2 ++ deeds

namespace Cache

/-- The world, and what was done in it, after lookups one after another. -/
def after (c : Cache) (answer : (c : CacheCall) → W → c.Reply × W) (files : W → FileSystem)
    (accesses : List Access) (w : W) : Recorded W :=
  accesses.foldl (fun s a => ((c.get a).body.run (recorded answer files) s).2) (w, [])

theorem after_concat (c : Cache) (accesses : List Access) (a : Access) (w : W) :
    c.after answer files (accesses ++ [a]) w =
      ((c.get a).body.run (recorded answer files) (c.after answer files accesses w)).2 :=
  List.foldl_concat ..

/-- The time at which a lookup looks at its clock: after it has looked at its file. -/
def lookupTime (c : Cache) (answer : (c : CacheCall) → W → c.Reply × W) (files : W → FileSystem)
    (a : Access) (w : W) : Instant := (files (answer (.changed (c.path a)) w).2).clock

/-- A lookup that serves what was stored last, and does nothing. -/
def ServesLast (c : Cache) (files : W → FileSystem) (a : Access) (s s' : Recorded W)
    (result : Except Error String) : Prop :=
  (∃ e, (stores s.2 (c.path a)).getLast? = some e ∧ result = .ok e.1) ∧ Passes c.dir files s s' []

/-- The file of an access gets a text at some time in between, and no other file changes. -/
structure Saves (c : Cache) (files : W → FileSystem) (a : Access) (text : String) (t : Instant)
    (s s' : Recorded W) : Prop where
  since : (files s.1).clock.nanos ≤ t.nanos
  upTo : t.nanos ≤ (files s'.1).clock.nanos
  directory : (files s'.1).HasDirectory c.dir
  within : ∀ name, (files s'.1).within c.dir name =
    if cacheName a = name then some (.file (Utf8.encode text.toList) t)
    else (files s.1).within c.dir name

/-- A lookup that asks Vault once, and then stores what it got or leaves every file as it was. -/
def AsksOnce (c : Cache) (files : W → FileSystem) (a : Access) (s s' : Recorded W)
    (result : Except Error String) : Prop :=
  ∃ reply, result = a.secret reply ∧
    match a.secret reply with
    | .ok text => ∃ t, Saves c files a text t s s' ∧
        s'.2 = s.2 ++ [.fetched a.url a.token a.fullPath reply, .stored (c.path a) text t]
    | .error _ => Passes c.dir files s s' [.fetched a.url a.token a.fullPath reply]

end Cache

/-! ### Calls that leave files as they are -/

variable {dir : String} {s s' s'' : Recorded W}

theorem Passes.refl (dir : String) (files : W → FileSystem) (s : Recorded W) :
    Passes dir files s s [] :=
  ⟨.refl dir _, le_refl _, (List.append_nil _).symm⟩

theorem Passes.trans {ds ds' : List Deed} (h : Passes dir files s s' ds)
    (h' : Passes dir files s' s'' ds') : Passes dir files s s'' (ds ++ ds') :=
  ⟨h.same.trans h'.same, h.clock.trans h'.clock, by rw [h'.deeds, h.deeds, List.append_assoc]⟩

namespace Disk

variable (hd : Disk answer files dir)

include hd

theorem passes (c : CacheCall) (hc : ∀ fs, (c.onFiles fs).2 = fs) (s : Recorded W) :
    Passes dir files s (recorded answer files c s).2
      (Deed.of? c (answer c s.1).1 (files s.1).clock).toList :=
  ⟨hc (files s.1) ▸ hd.same c s.1, hd.clock c s.1, rfl⟩

theorem run_warnAll (texts : List String) (s : Recorded W) :
    Passes dir files s ((Cache.warnAll texts).run (recorded answer files) s).2 [] := by
  induction texts generalizing s with
  | nil => exact .refl dir files s
  | cons text texts ih => exact (hd.passes (.warn text) (fun _ => rfl) s).trans (ih _)

/-- Vault is asked once, and warnings leave no mark. -/
theorem run_ask (a : Access) (s : Recorded W) :
    ∃ reply, ((Cache.ask a).run (recorded answer files) s).1 = a.secret reply ∧
      Passes dir files s ((Cache.ask a).run (recorded answer files) s).2
        [.fetched a.url a.token a.fullPath reply] := by
  obtain ⟨reply, hr⟩ : ∃ reply, (answer (.fetch a.url a.token a.fullPath) s.1).1 = reply := ⟨_, rfl⟩
  have hpass := hd.passes (.fetch a.url a.token a.fullPath) (fun _ => rfl) s
  have hreply : (recorded answer files (.fetch a.url a.token a.fullPath) s).1 = reply := hr
  rw [hr] at hpass
  refine ⟨reply, ?_⟩
  rw [Cache.ask, Workflow.run_call, hreply]
  cases reply with
  | error e => exact ⟨rfl, hpass⟩
  | ok r =>
    simp only [Workflow.run_bind, Workflow.run_done]
    exact ⟨rfl, hpass.trans (hd.run_warnAll _ _)⟩

end Disk

/-! ### A lookup -/

/-- What every run keeps of a directory: it is there, each of its files holds what was stored last under
its path, and what was stored is in order of time. -/
structure Caches (c : Cache) (fs : FileSystem) (deeds : List Deed) : Prop where
  directory : fs.HasDirectory c.dir
  within : ∀ name, fs.within c.dir name =
    (stores deeds (joinPath c.dir name)).getLast?.map fun e => .file (Utf8.encode e.1.toList) e.2
  ordered : ∀ path, (stores deeds path).Pairwise fun e e' => e.2.nanos ≤ e'.2.nanos
  past : ∀ path, ∀ e ∈ stores deeds path, e.2.nanos ≤ fs.clock.nanos

section Lookup

variable {c : Cache} {a : Access} {s : Recorded W} (hd : Disk answer files c.dir)

theorem Caches.of_passes {s' : Recorded W} {ds : List Deed} (h : Caches c (files s.1) s.2)
    (hp : Passes c.dir files s s' ds) (hds : ∀ path, stores ds path = []) :
    Caches c (files s'.1) s'.2 := by
  have hstores : ∀ path, stores s'.2 path = stores s.2 path := fun path => by
    rw [hp.deeds, stores_append, hds, List.append_nil]
  refine ⟨hp.same.directory.2 h.directory, fun name => ?_, fun path => ?_, fun path e he => ?_⟩
  · rw [hp.same.within, h.within, hstores]
  · rw [hstores]
    exact h.ordered path
  · rw [hstores] at he
    exact (h.past path e he).trans hp.clock

/-- The youngest text under a path is the last. -/
theorem Caches.young_iff (h : Caches c (files s.1) s.2) (path : String) (n : Int) :
    (∃ e, (stores s.2 path).getLast? = some e ∧ n ≤ e.2.nanos) ↔
      ∃ e ∈ stores s.2 path, n ≤ e.2.nanos := by
  constructor
  · rintro ⟨e, he, hn⟩
    exact ⟨e, List.mem_of_getLast? he, hn⟩
  · rintro ⟨e, he, hn⟩
    obtain ⟨init, last, hl⟩ := (List.eq_nil_or_concat' (stores s.2 path)).resolve_left
      (List.ne_nil_of_mem he)
    -- the stores are in order of time, so none is younger than the last
    have ho := h.ordered path
    rw [hl] at he ho ⊢
    refine ⟨last, List.getLast?_concat, ?_⟩
    rcases List.mem_append.1 he with he | he
    · exact hn.trans ((List.pairwise_append.1 ho).2.2 e he last (List.mem_singleton_self last))
    · rwa [List.mem_singleton.1 he] at hn

theorem Cache.Saves.of_passes {s₁ s₂ s' : Recorded W} {ds ds' : List Deed} {text : String}
    {t : Instant} (h : Passes c.dir files s s₁ ds) (hs : c.Saves files a text t s₁ s₂)
    (h' : Passes c.dir files s₂ s' ds') : c.Saves files a text t s s' where
  since := h.clock.trans hs.since
  upTo := hs.upTo.trans h'.clock
  directory := h'.same.directory.2 hs.directory
  within name := by rw [h'.same.within, hs.within, h.same.within]

include hd

/-- A file is fresh if it changed within the age limit. -/
theorem run_isFresh (hdir : (files s.1).HasDirectory c.dir)
    (hl : FileSystem.Leads (c.path a)) :
    (((c.isFresh (c.path a)).run (recorded answer files) s).1 = true ↔
      ∃ e, (files s.1).within c.dir (cacheName a) = some e ∧
        (c.lookupTime answer files a s.1).nanos - c.maxAge ≤ e.changed.nanos) ∧
    Passes c.dir files s ((c.isFresh (c.path a)).run (recorded answer files) s).2 [] := by
  have hpass := hd.passes (.changed (c.path a)) (fun _ => rfl) s
  set s₁ := (recorded answer files (.changed (c.path a)) s).2
  have hreply : (recorded answer files (.changed (c.path a)) s).1 =
      ((files s.1).within c.dir (cacheName a)).elim (.error .notFound) fun e => .ok e.changed :=
    (hd.reply (.changed (c.path a)) s.1 _ rfl).trans
      (FileSystem.changed_of_within hl (cacheName_plain a) hdir)
  rw [Cache.isFresh, Workflow.run_call, hreply]
  cases (files s.1).within c.dir (cacheName a) with
  | none =>
    refine ⟨iff_of_false nofun ?_, hpass⟩
    rintro ⟨e, he, -⟩
    cases he
  | some e =>
    have hnow : (recorded answer files .now s₁).1 = c.lookupTime answer files a s.1 :=
      hd.reply .now s₁.1 _ rfl
    have hpass' := hpass.trans (hd.passes .now (fun _ => rfl) s₁)
    refine ⟨?_, hpass'⟩
    show (recorded answer files .now s₁).1.isFresh e.changed c.maxAge = true ↔ _
    rw [hnow, Instant.isFresh_iff]
    simp

/-- A file that holds a text is served as it is. -/
theorem run_serve (hdir : (files s.1).HasDirectory c.dir) (hl : FileSystem.Leads (c.path a))
    {text : String} {t : Instant}
    (hw : (files s.1).within c.dir (cacheName a) = some (.file (Utf8.encode text.toList) t)) :
    ((Cache.serve (c.path a) a).run (recorded answer files) s).1 = .ok text ∧
      Passes c.dir files s ((Cache.serve (c.path a) a).run (recorded answer files) s).2 [] := by
  have hreply : (recorded answer files (.readText (c.path a)) s).1 = .ok text :=
    (hd.reply (.readText (c.path a)) s.1 _ rfl).trans
      (FileSystem.readText_of_within hl (cacheName_plain a) hdir hw)
  rw [Cache.serve, Workflow.run_call, hreply]
  exact ⟨rfl, hd.passes (.readText (c.path a)) (fun _ => rfl) s⟩

/-- A text is saved where no directory is in the way. -/
theorem run_save (hdir : (files s.1).HasDirectory c.dir) (hl : FileSystem.Leads (c.path a))
    (hw : ∀ t, (files s.1).within c.dir (cacheName a) ≠ some (.directory t)) (text : String) :
    ((Cache.save (c.path a) text).run (recorded answer files) s).1 = true ∧
      ∃ t, c.Saves files a text t s ((Cache.save (c.path a) text).run (recorded answer files) s).2 ∧
        ((Cache.save (c.path a) text).run (recorded answer files) s).2.2 =
          s.2 ++ [.stored (c.path a) text t] := by
  obtain ⟨fs', hwrite, hwrote⟩ :=
    FileSystem.write_of_within hl (cacheName_plain a) hdir hw (Utf8.encode text.toList)
  have hfiles : (CacheCall.write (c.path a) text).onFiles (files s.1) = (some (.ok ()), fs') := by
    show changeFiles _ ((files s.1).write (joinPath c.dir (cacheName a)) _) = _
    rw [hwrite]
    rfl
  have hreply : (answer (.write (c.path a) text) s.1).1 = .ok () :=
    hd.reply (.write (c.path a) text) s.1 _ (by rw [hfiles])
  have hsame := hd.same (.write (c.path a) text) s.1
  rw [hfiles] at hsame
  rw [Cache.save, Workflow.run_call, show (recorded answer files (.write (c.path a) text) s).1 = .ok ()
    from hreply]
  refine ⟨rfl, (files s.1).clock, ⟨le_refl _, hd.clock _ _, hsame.directory.2 hwrote.directory,
    fun name => (hsame.within name).trans (hwrote.within name)⟩, ?_⟩
  show s.2 ++ (Deed.of? _ (answer (.write (c.path a) text) s.1).1 _).toList = _
  rw [hreply]
  rfl

/-- Asking Vault, as seen from a state that differs by time only. -/
theorem run_refresh {s₁ : Recorded W} (hp : Passes c.dir files s s₁ [])
    (hdir : (files s.1).HasDirectory c.dir)
    (hfile : ∀ t, (files s.1).within c.dir (cacheName a) ≠ some (.directory t))
    (hl : FileSystem.Leads (c.path a)) :
    c.AsksOnce files a s ((Cache.refresh (c.path a) a).run (recorded answer files) s₁).2
      ((Cache.refresh (c.path a) a).run (recorded answer files) s₁).1 := by
  obtain ⟨reply, hask, hpass⟩ := hd.run_ask a s₁
  have hpass := hp.trans hpass
  refine ⟨reply, ?_⟩
  rw [Cache.refresh, Workflow.run_bind, hask]
  set s₂ := ((Cache.ask a).run (recorded answer files) s₁).2
  cases a.secret reply with
  | error e => exact ⟨rfl, hpass⟩
  | ok text =>
    have hnot : ∀ t, (files s₂.1).within c.dir (cacheName a) ≠ some (.directory t) := by
      intro t
      rw [hpass.same.within]
      exact hfile t
    obtain ⟨hsaved, t, hsaves, hdeeds⟩ :=
      run_save hd (hpass.same.directory.2 hdir) hl hnot text
    set s₃ := ((Cache.save (c.path a) text).run (recorded answer files) s₂).2
    -- the file that was just written is read back
    obtain ⟨hserved, hpass'⟩ := run_serve hd hsaves.directory hl
      ((hsaves.within (cacheName a)).trans (if_pos rfl))
    have hrun : ((Cache.save (c.path a) text).bind fun saved =>
        if saved then Cache.serve (c.path a) a else .done (.ok text)).run (recorded answer files) s₂ =
        (Cache.serve (c.path a) a).run (recorded answer files) s₃ := by
      rw [Workflow.run_bind, hsaved, if_pos rfl]
    show (Workflow.run _ (Workflow.bind _ _) _).1 = _ ∧ _
    rw [hrun]
    refine ⟨hserved, t, hsaves.of_passes hpass hpass', ?_⟩
    rw [hpass'.deeds, List.append_nil, hdeeds, hpass.deeds, List.append_assoc]
    rfl

omit hd in
theorem Caches.of_saves {s' : Recorded W} {text : String} {t : Instant}
    {reply : Except ApiError SecretResponse} (h : Caches c (files s.1) s.2)
    (hs : c.Saves files a text t s s')
    (hdeeds : s'.2 = s.2 ++ [.fetched a.url a.token a.fullPath reply, .stored (c.path a) text t]) :
    Caches c (files s'.1) s'.2 := by
  have hstores : ∀ path, stores s'.2 path =
      stores s.2 path ++ if c.path a = path then [(text, t)] else [] := by
    intro path
    rw [hdeeds, stores_append]
    by_cases hp : c.path a = path
    · simp [stores, List.filterMap_cons, Deed.store?, hp]
    · simp [stores, List.filterMap_cons, Deed.store?, hp]
  refine ⟨hs.directory, fun name => ?_, fun path => ?_, fun path e he => ?_⟩
  · rw [hs.within, hstores, Cache.path]
    by_cases hn : cacheName a = name
    · rw [if_pos hn, if_pos (congrArg (joinPath c.dir) hn), List.getLast?_concat]
      rfl
    · rw [if_neg hn, if_neg fun e => hn (FileSystem.joinPath_injective c.dir e), List.append_nil,
        h.within]
  · rw [hstores]
    split
    · refine List.pairwise_append.2 ⟨h.ordered path, List.pairwise_singleton _ _, ?_⟩
      intro e he e' he'
      rw [List.mem_singleton.1 he']
      exact (h.past path e he).trans hs.since
    · rw [List.append_nil]
      exact h.ordered path
  · rw [hstores, List.mem_append] at he
    rcases he with he | he
    · exact (h.past path e he).trans (hs.since.trans hs.upTo)
    · split at he
      · rw [List.mem_singleton.1 he]
        exact hs.upTo
      · cases he

/-- A lookup of a file that is young enough serves it. -/
theorem run_get_young (hdir : (files s.1).HasDirectory c.dir) (hl : FileSystem.Leads (c.path a))
    {text : String} {t : Instant}
    (hw : (files s.1).within c.dir (cacheName a) = some (.file (Utf8.encode text.toList) t))
    (hyoung : (c.lookupTime answer files a s.1).nanos - c.maxAge ≤ t.nanos) :
    ((c.get a).body.run (recorded answer files) s).1 = .ok text ∧
      Passes c.dir files s ((c.get a).body.run (recorded answer files) s).2 [] := by
  obtain ⟨hfresh, hpass⟩ := run_isFresh hd hdir hl
  set s₁ := ((c.isFresh (c.path a)).run (recorded answer files) s).2
  obtain ⟨hserved, hpass'⟩ := run_serve hd (hpass.same.directory.2 hdir) hl
    ((hpass.same.within (cacheName a)).trans hw)
  have hout : (c.get a).body.run (recorded answer files) s =
      (Cache.serve (c.path a) a).run (recorded answer files) s₁ := by
    rw [Cache.get, Job.body, Workflow.run_bind, if_pos (hfresh.2 ⟨_, hw, hyoung⟩)]
  rw [hout]
  exact ⟨hserved, hpass.trans hpass'⟩

/-- A lookup of a file that is too old, or not there, asks Vault. -/
theorem run_get_old (hdir : (files s.1).HasDirectory c.dir) (hl : FileSystem.Leads (c.path a))
    (hfile : ∀ t, (files s.1).within c.dir (cacheName a) ≠ some (.directory t))
    (hold : ∀ e, (files s.1).within c.dir (cacheName a) = some e →
      e.changed.nanos < (c.lookupTime answer files a s.1).nanos - c.maxAge) :
    c.AsksOnce files a s ((c.get a).body.run (recorded answer files) s).2
      ((c.get a).body.run (recorded answer files) s).1 := by
  obtain ⟨hfresh, hpass⟩ := run_isFresh hd hdir hl
  set s₁ := ((c.isFresh (c.path a)).run (recorded answer files) s).2
  have hnot : ¬ ((c.isFresh (c.path a)).run (recorded answer files) s).1 = true := by
    rw [hfresh]
    rintro ⟨e, he, hn⟩
    exact absurd (hold e he) (not_lt.2 hn)
  have hout : (c.get a).body.run (recorded answer files) s =
      (Cache.refresh (c.path a) a).run (recorded answer files) s₁ := by
    rw [Cache.get, Job.body, Workflow.run_bind, if_neg hnot]
  rw [hout]
  exact run_refresh hd hpass hdir hfile hl

/-- One lookup on a directory that holds what was stored last. -/
theorem run_get (h : Caches c (files s.1) s.2) (hl : FileSystem.Leads (c.path a)) :
    let out := (c.get a).body.run (recorded answer files) s
    let young := ∃ e ∈ stores s.2 (c.path a),
      (c.lookupTime answer files a s.1).nanos - c.maxAge ≤ e.2.nanos
    (young → c.ServesLast files a s out.2 out.1) ∧ (¬ young → c.AsksOnce files a s out.2 out.1) := by
  intro out young
  have hwithin : (files s.1).within c.dir (cacheName a) = (stores s.2 (c.path a)).getLast?.map
      fun e => .file (Utf8.encode e.1.toList) e.2 := h.within (cacheName a)
  constructor
  · intro hyoung
    obtain ⟨e, he, hn⟩ := (h.young_iff (c.path a) _).2 hyoung
    rw [he] at hwithin
    obtain ⟨hserved, hpass⟩ := run_get_young hd h.directory hl hwithin hn
    exact ⟨⟨e, he, hserved⟩, hpass⟩
  · intro hyoung
    refine run_get_old hd h.directory hl (fun t => ?_) fun e he => ?_
    · rw [hwithin]
      cases (stores s.2 (c.path a)).getLast? <;> simp
    · rw [hwithin] at he
      obtain ⟨last, hlast, rfl⟩ := Option.map_eq_some_iff.1 he
      refine lt_of_not_ge fun hn => hyoung ?_
      exact (h.young_iff (c.path a) _).1 ⟨last, hlast, hn⟩

theorem Caches.get (h : Caches c (files s.1) s.2) (hl : FileSystem.Leads (c.path a)) :
    let s' := ((c.get a).body.run (recorded answer files) s).2
    Caches c (files s'.1) s'.2 := by
  intro s'
  obtain ⟨hserves, hasks⟩ := run_get hd h hl
  by_cases hyoung : ∃ e ∈ stores s.2 (c.path a),
      (c.lookupTime answer files a s.1).nanos - c.maxAge ≤ e.2.nanos
  · exact h.of_passes (hserves hyoung).2 fun _ => rfl
  · obtain ⟨reply, -, hmatch⟩ := hasks hyoung
    cases hsecret : a.secret reply with
    | ok text =>
      rw [hsecret] at hmatch
      obtain ⟨t, hsaves, hdeeds⟩ := hmatch
      exact h.of_saves hsaves hdeeds
    | error e =>
      rw [hsecret] at hmatch
      exact h.of_passes hmatch fun _ => rfl

end Lookup

/-! ### Every run -/

section Run

variable {c : Cache} {w : W} (hd : Disk answer files c.dir) (hdir : (files w).HasDirectory c.dir)
  (hempty : ∀ name, (files w).within c.dir name = none)

include hd hdir hempty

theorem caches_after (accesses : List Access)
    (hw : ∀ a ∈ accesses, (files w).Writable (c.path a)) :
    Caches c (files (c.after answer files accesses w).1) (c.after answer files accesses w).2 := by
  induction accesses using List.reverseRecOn with
  | nil => exact ⟨hdir, hempty, fun _ => List.Pairwise.nil, fun _ _ he => by cases he⟩
  | append_singleton accesses a ih =>
    rw [Cache.after_concat]
    exact (ih fun b hb => hw b (List.mem_append_left _ hb)).get hd
      (hw a (List.mem_append_right _ (List.mem_singleton_self a))).leads

/-- The read-through law. Whatever was looked up before, a lookup serves the text that was stored last
under its path, and does nothing, if some text was stored there within the age limit; otherwise it asks
Vault once, and returns and stores what it got, or returns the error and leaves every file. -/
theorem get_readThrough (accesses : List Access) (a : Access)
    (hw : ∀ b ∈ a :: accesses, (files w).Writable (c.path b)) :
    let s := c.after answer files accesses w
    let out := (c.get a).body.run (recorded answer files) s
    let young := ∃ e ∈ stores s.2 (c.path a),
      (c.lookupTime answer files a s.1).nanos - c.maxAge ≤ e.2.nanos
    (young → c.ServesLast files a s out.2 out.1) ∧ (¬ young → c.AsksOnce files a s out.2 out.1) :=
  run_get hd (caches_after hd hdir hempty accesses fun b hb => hw b (List.mem_cons_of_mem a hb))
    (hw a List.mem_cons_self).leads

end Run

/-- With an age limit of five calls, a second lookup serves the text of the first, and a third one comes
too late and is not answered. -/
theorem get_readThrough_three :
    let c : Cache := ⟨"/cache", 5⟩
    let a : Access := ⟨"n", "s", "p", "password", "http://vault:8200", "t", "kv", "k"⟩
    let body := "\x7b\"data\":\x7b\"data\":\x7b\"password\":\"x\"\x7d\x7d\x7d"
    let w : CacheWorld := ⟨⟨[(["cache"], .directory .epoch)], .epoch⟩,
      ⟨[.plain "vault:8200"], true, [.response 200 (Utf8.encode body.toList), .dropped], []⟩, []⟩
    let s := fun n => c.after CacheWorld.answerInTime CacheWorld.files (List.replicate n a) w
    let get := fun n => (c.get a).body.run (recorded CacheWorld.answerInTime CacheWorld.files) (s n)
    (w.files.HasDirectory c.dir ∧ (∀ name, w.files.within c.dir name = none) ∧
      w.files.Writable (c.path a)) ∧
      (c.ServesLast CacheWorld.files a (s 1) (get 1).2 (get 1).1 ∧ (get 1).1 = .ok "x") ∧
      c.AsksOnce CacheWorld.files a (s 2) (get 2).2 (get 2).1 ∧
        (get 2).1 = .error (.api .transport) := by
  intro c a body w s get
  have henter : w.files.enter [] (FileSystem.names c.dir) = .ok ["cache"] := by decide
  have hdir : w.files.HasDirectory c.dir := ⟨["cache"], henter⟩
  have hempty : ∀ name, w.files.within c.dir name = none := fun name => by
    rw [FileSystem.within_of_enter henter]
    simp [FileSystem.lookup?, w, List.lookup_cons]
  have hw : w.files.Writable (c.path a) := by
    have hok : (w.files.write (c.path a) []).isOk = true := by decide
    cases h : w.files.write (c.path a) [] with
    | ok fs => exact ⟨fs, h⟩
    | error e => rw [h] at hok; cases hok
  have hlaw := fun n => get_readThrough (CacheWorld.disk c.dir) hdir hempty (List.replicate n a) a
    fun b hb => by
      rcases List.mem_cons.1 hb with rfl | hb
      · exact hw
      · rwa [List.eq_of_mem_replicate hb]
  exact ⟨⟨hdir, hempty, hw⟩, ⟨(hlaw 1).1 (by decide), by decide⟩, (hlaw 2).2 (by decide), by decide⟩

end Oncall.Vault
