import Oncall.Proofs.Pool.Contract
import Oncall.Proofs.Vault.ReadThrough

/-! Lookups of one file, together. If the file is not there or too old, the first lookup that gets the
lock asks Vault; if it fails, the next one asks, and so on; the first to get a text stores it, and as
long as that is young the others are served it. So in every run to the end, in any order of polls, all
reads but the last have failed, and each lookup returns the one text that was read or the error of its
own read. -/

namespace Oncall.Vault

variable {W : Type} {answer : (c : CacheCall) → W → c.Reply × W} {files : W → FileSystem}

/-- When something was stored, if it was. -/
def Deed.storedAt? : Deed → Option Instant
  | .stored _ _ t => some t
  | _ => none

/-- What a deed read from Vault for the access of who did it, if it did. -/
def readOf? (accesses : List Access) (x : Nat × Deed) : Option (Nat × Except Error String) :=
  match x.2 with
  | .fetched _ _ _ reply => accesses[x.1]?.map fun a => (x.1, a.secret reply)
  | _ => none

/-- The reads of Vault in order: who asked, and what the reply meant. -/
def reads (accesses : List Access) (notes : List (Nat × Deed)) : List (Nat × Except Error String) :=
  notes.filterMap (readOf? accesses)

/-- Nothing was stored longer ago than the age limit. -/
def Timely (c : Cache) (fs : FileSystem) (notes : List (Nat × Deed)) : Prop :=
  ∀ x ∈ notes, ∀ t ∈ x.2.storedAt?, fs.clock.nanos - c.maxAge ≤ t.nanos

instance (c : Cache) (fs : FileSystem) (notes : List (Nat × Deed)) : Decidable (Timely c fs notes) :=
  inferInstanceAs (Decidable (∀ x ∈ notes, ∀ t ∈ x.2.storedAt?, fs.clock.nanos - c.maxAge ≤ t.nanos))

/-- A file that is not there, or too old to be served. -/
def Outdated (c : Cache) (fs : FileSystem) (name : String) : Prop :=
  ∀ e, fs.within c.dir name = some e →
    ∃ content t, e = .file content t ∧ t.nanos < fs.clock.nanos - c.maxAge

/-- All of these reads failed. -/
def AllFailed (rs : List (Nat × Except Error String)) : Prop := ∀ x ∈ rs, ∃ e, x.2 = .error e

/-- How far lookups of a file have come: all reads have failed so far and the file is of no use, or the
last one got a text, which is in the file since then. -/
inductive Progress (c : Cache) (accesses : List Access) (name : String) (fs : FileSystem)
    (notes : List (Nat × Deed)) : Prop where
  | trying (hfailed : AllFailed (reads accesses notes)) (hold : Outdated c fs name)
  | done (failed : List (Nat × Except Error String)) (i : Nat) (text : String) (t : Instant)
      (hreads : reads accesses notes = failed ++ [(i, .ok text)]) (hfailed : AllFailed failed)
      (hfile : fs.within c.dir name = some (.file (Utf8.encode text.toList) t))
      (hstored : (i, .stored (joinPath c.dir name) text t) ∈ notes)

/-- What a lookup returns was read, and an error by itself. -/
def Returns (rs : List (Nat × Except Error String)) (i : Nat) : Except Error String → Prop
  | .ok text => ∃ j, (j, .ok text) ∈ rs
  | .error e => (i, .error e) ∈ rs

section Notes

variable {c : Cache} {accesses : List Access} {name : String} {fs fs' : FileSystem}
  {notes notes' : List (Nat × Deed)}

/-- A read is a deed of the lookup that it is of. -/
theorem job_of_readOf? {x : Nat × Deed} {r : Nat × Except Error String}
    (h : readOf? accesses x = some r) : x.1 = r.1 := by
  obtain ⟨i, d⟩ := x
  cases d with
  | fetched url token path reply =>
    obtain ⟨a, -, rfl⟩ := Option.map_eq_some_iff.1 h
    rfl
  | _ => cases h

theorem reads_append (notes more : List (Nat × Deed)) :
    reads accesses (notes ++ more) = reads accesses notes ++ reads accesses more :=
  List.filterMap_append

theorem reads_mono (h : notes <+: notes') : reads accesses notes <+: reads accesses notes' :=
  h.filterMap _

/-- What is in time now was in time before. -/
theorem Timely.earlier (h : Timely c fs' notes') (hclock : fs.clock.nanos ≤ fs'.clock.nanos)
    (hnotes : notes <+: notes') : Timely c fs notes := by
  intro x hx t ht
  have := h x (hnotes.subset hx) t ht
  omega

/-- What is too old stays so. -/
theorem Outdated.later (h : Outdated c fs name) (hsame : FileSystem.SameIn c.dir fs fs')
    (hclock : fs.clock.nanos ≤ fs'.clock.nanos) : Outdated c fs' name := by
  intro e he
  obtain ⟨content, t, hfile, hold⟩ := h e ((hsame.within name).symm.trans he)
  exact ⟨content, t, hfile, by omega⟩

theorem Returns.later {rs rs' : List (Nat × Except Error String)} {i : Nat}
    {r : Except Error String} (h : Returns rs i r) (hreads : rs <+: rs') : Returns rs' i r := by
  cases r with
  | ok text =>
    obtain ⟨j, hj⟩ := h
    exact ⟨j, hreads.subset hj⟩
  | error e => exact hreads.subset h

theorem AllFailed.concat {rs : List (Nat × Except Error String)} (h : AllFailed rs) (i : Nat)
    (e : Error) : AllFailed (rs ++ [(i, .error e)]) := by
  intro x hx
  rcases List.mem_append.1 hx with hx | hx
  · exact h x hx
  · exact ⟨e, by rw [List.mem_singleton.1 hx]⟩

/-- Of the reads at any point, all but the last have failed. -/
theorem Progress.dropLast_failed (h : Progress c accesses name fs notes) :
    AllFailed (reads accesses notes).dropLast := by
  cases h with
  | trying hfailed _ => exact fun x hx => hfailed x (List.dropLast_subset _ hx)
  | done failed i text t hreads hfailed _ _ =>
    rw [hreads, List.dropLast_concat]
    exact hfailed

/-- After a read that got a text there is no other, if all reads but the last have failed. -/
theorem eq_of_read {rs rs' : List (Nat × Except Error String)} (hreads : rs <+: rs')
    (hfailed : AllFailed rs'.dropLast) {j : Nat} {text : String} (hj : (j, .ok text) ∈ rs) :
    rs' = rs ∧ ∀ k text', (k, .ok text') ∈ rs' → text' = text := by
  obtain ⟨init, last, rfl⟩ := (List.eq_nil_or_concat' rs').resolve_left
    (List.ne_nil_of_mem (hreads.subset hj))
  rw [List.dropLast_concat] at hfailed
  have hlast : ∀ k text', (k, .ok text') ∈ init ++ [last] → last = (k, .ok text') := by
    intro k text' hk
    rcases List.mem_append.1 hk with hk | hk
    · obtain ⟨e, he⟩ := hfailed _ hk
      cases he
    · exact (List.mem_singleton.1 hk).symm
  refine ⟨?_, fun k text' hk => ?_⟩
  · rcases List.prefix_concat_iff.1 hreads with heq | hinit
    · exact heq.symm
    · obtain ⟨e, he⟩ := hfailed _ (hinit.subset hj)
      cases he
  · cases (hlast k text' hk).symm.trans (hlast j text (hreads.subset hj))
    rfl

end Notes

/-! ### One lookup -/

section Lookup

variable {c : Cache} {accesses : List Access} {a : Access} {i : Nat} {w : W}
  {notes : List (Nat × Deed)}

/-- A fetch is read as what its reply meant, and nothing else is read. -/
theorem reads_fetched (hi : accesses[i]? = some a) (reply : Except ApiError SecretResponse)
    {deeds : List Deed} (hdeeds : ∀ d ∈ deeds, readOf? accesses (i, d) = none) :
    reads accesses ((Deed.fetched a.url a.token a.fullPath reply :: deeds).map (i, ·)) =
      [(i, a.secret reply)] := by
  have hread : readOf? accesses (i, .fetched a.url a.token a.fullPath reply) =
      some (i, a.secret reply) := by
    simp only [readOf?, hi, Option.map_some]
  have hnone : reads accesses (deeds.map (i, ·)) = [] := by
    rw [reads, List.filterMap_map]
    exact List.filterMap_eq_nil_iff.2 hdeeds
  rw [List.map_cons, reads, List.filterMap_cons_some hread]
  exact congrArg (_ :: ·) hnone

/-- After a read that failed, the next lookup has to try. -/
theorem Progress.of_failure {s : Recorded W} {reply : Except ApiError SecretResponse} {e : Error}
    (hi : accesses[i]? = some a) (hfailed : AllFailed (reads accesses notes))
    (hold : Outdated c (files w) (cacheName a)) (hsecret : a.secret reply = .error e)
    (hpass : Passes c.dir files (w, []) s [.fetched a.url a.token a.fullPath reply]) :
    let notes' := notes ++ s.2.map (i, ·)
    Progress c accesses (cacheName a) (files s.1) notes' ∧ (i, .error e) ∈ reads accesses notes' := by
  intro notes'
  have hnone : ∀ d ∈ ([] : List Deed), readOf? accesses (i, d) = none :=
    fun _ h => absurd h List.not_mem_nil
  have hreads : reads accesses notes' = reads accesses notes ++ [(i, .error e)] := by
    rw [reads_append, hpass.deeds, List.nil_append, reads_fetched hi reply hnone, hsecret]
  rw [hreads]
  refine ⟨.trying ?_ (hold.later hpass.same hpass.clock),
    List.mem_append_right _ (List.mem_singleton_self _)⟩
  rw [hreads]
  exact hfailed.concat i e

/-- After a read that got a text, the file has it. -/
theorem Progress.of_success {s : Recorded W} {reply : Except ApiError SecretResponse}
    {text : String} {t : Instant} (hi : accesses[i]? = some a)
    (hfailed : AllFailed (reads accesses notes)) (hsecret : a.secret reply = .ok text)
    (hsaves : c.Saves files a text t (w, []) s)
    (hdeeds : s.2 = [.fetched a.url a.token a.fullPath reply, .stored (c.path a) text t]) :
    let notes' := notes ++ s.2.map (i, ·)
    Progress c accesses (cacheName a) (files s.1) notes' ∧ (i, .ok text) ∈ reads accesses notes' := by
  intro notes'
  have hstore : ∀ d ∈ [Deed.stored (c.path a) text t], readOf? accesses (i, d) = none :=
    List.forall_mem_singleton.2 rfl
  have hreads : reads accesses notes' = reads accesses notes ++ [(i, .ok text)] := by
    rw [reads_append, hdeeds, reads_fetched hi reply hstore, hsecret]
  have hfile := (hsaves.within (cacheName a)).trans (if_pos rfl)
  have hstored : (i, .stored (c.path a) text t) ∈ notes' := by
    refine List.mem_append_right _ ?_
    rw [hdeeds]
    exact List.mem_cons_of_mem _ List.mem_cons_self
  refine ⟨.done (reads accesses notes) i text t hreads hfailed hfile hstored, ?_⟩
  rw [hreads]
  exact List.mem_append_right _ (List.mem_singleton_self _)

variable (hd : Disk answer files c.dir)

include hd

/-- Time passes in a lookup. -/
theorem clock_get (a : Access) (w : W) :
    (files w).clock.nanos ≤ (c.lookupTime answer files a w).nanos ∧
      (c.lookupTime answer files a w).nanos ≤
        (files ((c.get a).body.run (recorded answer files) (w, [])).2.1).clock.nanos := by
  refine ⟨hd.clock _ _, ?_⟩
  obtain ⟨next, hbody⟩ : ∃ next, (c.get a).body = .call () (.changed (c.path a)) next := ⟨_, rfl⟩
  rw [hbody, Workflow.run_call]
  refine Workflow.run_keeps (I := fun s : Recorded W =>
    (c.lookupTime answer files a w).nanos ≤ (files s.1).clock.nanos) (fun call s hs => ?_) _
    (le_refl _)
  exact hs.trans (hd.clock call s.1)

/-- A lookup after a read that got a text is served it, if that is still young. -/
theorem Progress.of_hit {failed : List (Nat × Except Error String)} {j : Nat} {text : String}
    {t : Instant} (hl : FileSystem.Leads (c.path a)) (hdir : (files w).HasDirectory c.dir)
    (hreads : reads accesses notes = failed ++ [(j, .ok text)]) (hfailed : AllFailed failed)
    (hfile : (files w).within c.dir (cacheName a) = some (.file (Utf8.encode text.toList) t))
    (hstored : (j, .stored (c.path a) text t) ∈ notes)
    (hyoung : (c.lookupTime answer files a w).nanos - c.maxAge ≤ t.nanos) :
    let out := (c.get a).body.run (recorded answer files) (w, [])
    (files out.2.1).HasDirectory c.dir ∧ out.2.2 = [] ∧ out.1 = .ok text ∧
      Progress c accesses (cacheName a) (files out.2.1) notes := by
  intro out
  obtain ⟨hserved, hpass⟩ := run_get_young hd (s := (w, [])) hdir hl hfile hyoung
  exact ⟨hpass.same.directory.2 hdir, hpass.deeds, hserved,
    .done failed j text t hreads hfailed ((hpass.same.within _).trans hfile) hstored⟩

/-- A lookup that has the lock brings the lookups of its file forward. -/
theorem Progress.get (hi : accesses[i]? = some a) (hl : FileSystem.Leads (c.path a))
    (hdir : (files w).HasDirectory c.dir)
    (h : Progress c accesses (cacheName a) (files w) notes) :
    let out := (c.get a).body.run (recorded answer files) (w, [])
    let notes' := notes ++ out.2.2.map (i, ·)
    Timely c (files out.2.1) notes' →
      (files out.2.1).HasDirectory c.dir ∧
        Progress c accesses (cacheName a) (files out.2.1) notes' ∧
        Returns (reads accesses notes') i out.1 := by
  intro out notes' htime
  have hbefore : (files w).clock.nanos ≤ (c.lookupTime answer files a w).nanos :=
    (clock_get hd a w).1
  have hafter : (c.lookupTime answer files a w).nanos ≤ (files out.2.1).clock.nanos :=
    (clock_get hd a w).2
  cases h with
  | trying hfailed hold =>
    have hasks : c.AsksOnce files a (w, []) out.2 out.1 := by
      refine run_get_old hd hdir hl (fun t ht => ?_) fun e he => ?_
      · obtain ⟨content, t', hfile, -⟩ := hold _ ht
        cases hfile
      · obtain ⟨content, t, rfl, hlt⟩ := hold e he
        show t.nanos < (c.lookupTime answer files a w).nanos - c.maxAge
        omega
    obtain ⟨reply, hout, hmatch⟩ := hasks
    rw [hout]
    cases hsecret : a.secret reply with
    | error e =>
      rw [hsecret] at hmatch
      obtain ⟨hprogress, hread⟩ := Progress.of_failure hi hfailed hold hsecret hmatch
      exact ⟨hmatch.same.directory.2 hdir, hprogress, hread⟩
    | ok text =>
      rw [hsecret] at hmatch
      obtain ⟨t, hsaves, hdeeds⟩ := hmatch
      obtain ⟨hprogress, hread⟩ := Progress.of_success hi hfailed hsecret hsaves hdeeds
      exact ⟨hsaves.directory, hprogress, i, hread⟩
  | done failed j text t hreads hfailed hfile hstored =>
    -- what was stored is in time at the end, so it was when the lookup looked
    have hyoung : (c.lookupTime answer files a w).nanos - c.maxAge ≤ t.nanos := by
      have hlast := htime _ (List.mem_append_left _ hstored) t rfl
      omega
    obtain ⟨hdirectory, hdeeds, hserved, hprogress⟩ :=
      Progress.of_hit hd hl hdir hreads hfailed hfile hstored hyoung
    have hnotes : notes' = notes := by
      show notes ++ out.2.2.map (i, ·) = notes
      rw [hdeeds]
      exact List.append_nil notes
    rw [hnotes, hserved]
    refine ⟨hdirectory, hprogress, j, ?_⟩
    rw [hreads]
    exact List.mem_append_right _ (List.mem_singleton_self _)

end Lookup

/-! ### Every run -/

/-- While nobody has the lock of the file, the lookups have come so far, unless a text is out of time. -/
def sharing (c : Cache) (files : W → FileSystem) (accesses : List Access) (name : String) :
    Contract (Except Error String) (Noted W Deed) where
  inv _ := True
  free key s := key = joinPath c.dir name → Timely c (files s.1) s.2 →
    (files s.1).HasDirectory c.dir ∧ Progress c accesses name (files s.1) s.2
  own key s s' := key = joinPath c.dir name ∧
    (files s.1).clock.nanos ≤ (files s'.1).clock.nanos ∧ s.2 <+: s'.2
  result i r s := Timely c (files s.1) s.2 → Returns (reads accesses s.2) i r
  free_of_own := by
    rintro key other s s' hne ⟨hother, -⟩ - hkey
    exact absurd (hother.trans hkey.symm) hne
  result_of_own := by
    rintro key i r s s' ⟨-, hclock, hnotes⟩ h htime
    exact (h (htime.earlier hclock hnotes)).later (reads_mono hnotes)

/-- Whether a job is waiting for Vault. -/
def isFetching : Stage CacheCall CacheCall.Reply Unit (Except Error String) → Bool
  | .calling _ _ _ (.fetch _ _ _) _ => true
  | _ => false

theorem holding_of_isFetching {st : Stage CacheCall CacheCall.Reply Unit (Except Error String)}
    (h : isFetching st = true) : ∃ key, st.use = .holding key := by
  cases st with
  | calling key seen left call next => exact ⟨key, rfl⟩
  | _ => cases h

/-- How lookups share what is read: `p` is any point of their run and `q` its end, and `rs` and `rs'` are
the reads that were made by then. -/
structure SharesReads (accesses : List Access)
    (p q : Pool CacheCall CacheCall.Reply Unit (Except Error String) W)
    (rs rs' : List (Nat × Except Error String)) : Prop where
  /-- Two reads are never in flight at a time. -/
  alone : ∀ (i j : Nat) st st', p.stages[i]? = some st → p.stages[j]? = some st' →
    isFetching st = true → isFetching st' = true → i = j
  /-- Vault is read again only if it failed. -/
  failed : AllFailed rs'.dropLast
  /-- Every lookup returns the text that was read, or the error of its own read. -/
  returned : ∀ i < accesses.length, ∃ r, q.stages[i]? = some (.finished r) ∧ Returns rs' i r
  /-- After a text was read there are no more reads, and who gets the lock returns that text. -/
  settled : ∀ j text, (j, .ok text) ∈ rs → rs' = rs ∧ ∀ (i : Nat) st, p.stages[i]? = some st →
    st.begun = false → q.stages[i]? = some (.finished (.ok text))

section Run

variable {c : Cache} {accesses : List Access} {name : String} {w : W}
  (hd : Disk answer files c.dir) (hname : ∀ a ∈ accesses, cacheName a = name)

include hd in
theorem sharing_get (delay : CacheCall → Nat) {i : Nat} {a : Access} (hi : accesses[i]? = some a)
    (hl : FileSystem.Leads (c.path a)) {s : Noted W Deed}
    (h : (sharing c files accesses (cacheName a)).free (c.path a) s) :
    let out := (c.get a).body.run (noted answer delay files i).answer s
    (sharing c files accesses (cacheName a)).free (c.path a) out.2 ∧
      (sharing c files accesses (cacheName a)).result i out.1 out.2 := by
  intro out
  have hout : out = _ := run_noted answer files delay i (c.get a).body s.1 s.2
  have hget : Timely c (files out.2.1) out.2.2 →
      (files out.2.1).HasDirectory c.dir ∧
        Progress c accesses (cacheName a) (files out.2.1) out.2.2 ∧
        Returns (reads accesses out.2.2) i out.1 := by
    rw [hout]
    intro htime
    obtain ⟨hbefore, hafter⟩ := clock_get hd (c := c) a s.1
    obtain ⟨hdir, hprogress⟩ :=
      h rfl (htime.earlier (hbefore.trans hafter) (List.prefix_append _ _))
    exact hprogress.get hd hi hl hdir htime
  exact ⟨fun _ htime => ⟨(hget htime).1, (hget htime).2.1⟩, fun htime => (hget htime).2.2⟩

include hd hname

/-- In every run without drops the lookups honour the contract. -/
theorem honours_lookups (hl : FileSystem.Leads (joinPath c.dir name))
    (hdir : (files w).HasDirectory c.dir) (hold : Outdated c (files w) name)
    (delay : CacheCall → Nat) {as : List Action} (hdrop : ∀ i, .drop i ∉ as) :
    (Pool.runEach (noted answer delay files) as (Pool.start (accesses.map c.get) (w, []))).Honours
      (noted answer delay files) (sharing c files accesses name) := by
  have hnone : AllFailed (reads accesses []) := fun x hx => absurd hx List.not_mem_nil
  refine (Pool.honours_start trivial (fun key _ _ => ⟨hdir, .trying hnone hold⟩) ?_).runEach as
    (.inl hdrop)
  intro i job hjob
  rw [List.getElem?_map, Option.map_eq_some_iff] at hjob
  obtain ⟨a, hi, rfl⟩ := hjob
  obtain rfl := hname a (List.mem_of_getElem? hi)
  intro s _ hfree
  refine Workflow.safe_of_run ?_ (fun call s' => ⟨rfl, hd.clock call s'.1, _, rfl⟩)
    (sharing_get hd delay hi hl hfree)
  -- all lookups have the one key
  rintro s' s'' ⟨other, hne, hother, -⟩
  exact hne hother

omit hd in
/-- Who is in a call has the lock of the file. -/
theorem key_of_holding (delay : CacheCall → Nat) (as : List Action) {i : Nat} {key : String}
    {st : Stage CacheCall CacheCall.Reply Unit (Except Error String)}
    (hst : (Pool.run ⟨answer, delay⟩ as (Pool.start (accesses.map c.get) w)).stages[i]? = some st)
    (huse : st.use = .holding key) : key = joinPath c.dir name := by
  have hkeyed := (Pool.keyed_start (accesses.map c.get) w).run ⟨answer, delay⟩ as i st hst key
    (Stage.needs_of_holding huse)
  obtain ⟨job, hjob, hneeds⟩ := Option.bind_eq_some_iff.1 hkeyed
  rw [List.getElem?_map, Option.map_eq_some_iff] at hjob
  obtain ⟨a, ha, rfl⟩ := hjob
  rw [← hname a (List.mem_of_getElem? ha)]
  exact (Option.some.inj hneeds).symm

/-- At the end all reads but the last have failed, and every lookup returns what was read. -/
theorem returns_of_isOver (hl : FileSystem.Leads (joinPath c.dir name))
    (hdir : (files w).HasDirectory c.dir) (hold : Outdated c (files w) name)
    (delay : CacheCall → Nat) {as : List Action} (hdrop : ∀ i, .drop i ∉ as) :
    let q := Pool.run ⟨answer, delay⟩ as (Pool.start (accesses.map c.get) w)
    let notes := Pool.notes ⟨answer, delay⟩ (noteDeed files) as (Pool.start (accesses.map c.get) w)
    q.IsOver → Timely c (files q.shared.world) notes →
      AllFailed (reads accesses notes).dropLast ∧ ∀ i < accesses.length,
        ∃ r, q.stages[i]? = some (.finished r) ∧ Returns (reads accesses notes) i r := by
  intro q notes hover htime
  have hend := honours_lookups hd hname hl hdir hold delay hdrop
  have hstages := Pool.stages_noting ⟨answer, delay⟩ (noteDeed files) as
    (Pool.start (accesses.map c.get) w)
  rw [show q.shared.world = _ from (Pool.world_noting ⟨answer, delay⟩ (noteDeed files) as _).symm]
    at htime
  constructor
  · -- nobody is in a call any more, so the file is as the contract says
    refine (hend.free (joinPath c.dir name) (fun i huse => ?_) rfl htime).2.dropLast_failed
    have hidle := Pool.use_of_isOver (fun st hst => hover st (hstages ▸ hst)) i
    cases hidle.symm.trans huse
  · intro i hi
    obtain ⟨r, hr⟩ := Pool.finished_of_isOver hdrop hover (i := i) (by rwa [List.length_map])
    exact ⟨r, hr, hend.job i _ ((congrArg (·[i]?) hstages).trans hr) htime⟩

/-- Lookups of one file that is not there or too old share what is read, in every run to the end in
which no text gets out of time: there is one read at a time, no read after one that got a text, and each
lookup returns this text or the error of its own read. -/
theorem lookups_share (hw : (files w).Writable (joinPath c.dir name))
    (hdir : (files w).HasDirectory c.dir) (hold : Outdated c (files w) name)
    (delay : CacheCall → Nat) (as bs : List Action) (hdrop : ∀ i, .drop i ∉ as ++ bs) :
    let run := fun as => Pool.run ⟨answer, delay⟩ as (Pool.start (accesses.map c.get) w)
    let notes := fun as =>
      Pool.notes ⟨answer, delay⟩ (noteDeed files) as (Pool.start (accesses.map c.get) w)
    (run (as ++ bs)).IsOver →
      Timely c (files (run (as ++ bs)).shared.world) (notes (as ++ bs)) →
      SharesReads accesses (run as) (run (as ++ bs)) (reads accesses (notes as))
        (reads accesses (notes (as ++ bs))) := by
  intro run notes hover htime
  obtain ⟨hfailed, hreturned⟩ :=
    returns_of_isOver hd hname hw.leads hdir hold delay hdrop hover htime
  refine ⟨fun i j st st' hi hj hst hst' => ?_, hfailed, hreturned, fun j text hj => ?_⟩
  · obtain ⟨key, huse⟩ := holding_of_isFetching hst
    obtain ⟨key', huse'⟩ := holding_of_isFetching hst'
    obtain rfl := key_of_holding hname delay as hi huse
    obtain rfl := key_of_holding hname delay as hj huse'
    exact ((Pool.fits_start (accesses.map c.get) w).run ⟨answer, delay⟩ as).caller_unique hi hj
      huse huse'
  · obtain ⟨hsame, honly⟩ :=
      eq_of_read (reads_mono (Pool.notes_mono as bs _)) hfailed hj
    refine ⟨hsame, fun i st hst hbegun => ?_⟩
    have hi : i < accesses.length := by
      have hlt := (List.getElem?_eq_some_iff.1 hst).1
      rwa [Pool.length_run, Pool.start, List.length_map, List.length_map] at hlt
    obtain ⟨r, hr, hreturns⟩ := hreturned i hi
    cases r with
    | ok text' =>
      obtain ⟨k, hk⟩ := hreturns
      rw [hr, honly k text' hk]
    | error e =>
      -- the read that failed was made by then, so the lookup has had the lock
      rw [hsame] at hreturns
      obtain ⟨x, hx, hread⟩ := List.mem_filterMap.1 hreturns
      rw [Pool.begins_run as (accesses.map c.get) w hst hx (job_of_readOf? hread)] at hbegun
      cases hbegun

end Run

/-- Three lookups of an old file, polled out of order. The second one gets the lock and fails; then the
first one gets a text, which the third is served. -/
theorem lookups_share_three :
    let c : Cache := ⟨"/cache", 100⟩
    let a : Access := ⟨"n", "s", "p", "password", "http://vault:8200", "t", "kv", "k"⟩
    let body := "\x7b\"data\":\x7b\"data\":\x7b\"password\":\"x\"\x7d\x7d\x7d"
    let w : CacheWorld := ⟨⟨[(["cache"], .directory .epoch), (["cache", "kv-password"],
      .file (Utf8.encode "old".toList) .epoch)], Instant.epoch.after 1000⟩,
      ⟨[.plain "vault:8200"], true, [.dropped, .response 200 (Utf8.encode body.toList)], []⟩, []⟩
    let as : List Action := [.poll 1, .poll 0, .poll 2, .poll 1, .poll 2, .poll 0, .poll 0]
    let bs : List Action := [.poll 2]
    let v : Oncall.Service CacheCall CacheCall.Reply CacheWorld :=
      ⟨CacheWorld.answerInTime, CacheCall.delay⟩
    let start := Pool.start ((List.replicate 3 a).map c.get) w
    let read := fun as =>
      reads (List.replicate 3 a) (Pool.notes v (noteDeed CacheWorld.files) as start)
    (w.files.HasDirectory c.dir ∧ w.files.Writable (joinPath c.dir "kv-password") ∧
      Outdated c w.files "kv-password") ∧
      SharesReads (List.replicate 3 a) (Pool.run v as start) (Pool.run v (as ++ bs) start) (read as)
        (read (as ++ bs)) ∧
      read as = [(1, .error (.api .transport)), (0, .ok "x")] ∧
      (Pool.run v (as ++ bs) start).stages.map Stage.result? =
        [some (.ok "x"), some (.error (.api .transport)), some (.ok "x")] := by
  intro c a body w as bs v start read
  have henter : w.files.enter [] (FileSystem.names c.dir) = .ok ["cache"] := by decide
  have hdir : w.files.HasDirectory c.dir := ⟨["cache"], henter⟩
  have hw : w.files.Writable (joinPath c.dir "kv-password") := by decide
  have hold : Outdated c w.files "kv-password" := by
    intro e he
    have hwithin : w.files.within c.dir "kv-password" =
        some (.file (Utf8.encode "old".toList) .epoch) := by
      rw [FileSystem.within_of_enter henter]
      rfl
    rw [hwithin] at he
    cases he
    exact ⟨_, _, rfl, by decide⟩
  have hover : (Pool.run v (as ++ bs) start).IsOver := by
    have hall : (Pool.run v (as ++ bs) start).stages.all Stage.isOver = true := by decide
    exact List.all_eq_true.1 hall
  have hname : ∀ b ∈ List.replicate 3 a, cacheName b = "kv-password" := by decide
  have hlaw := lookups_share (CacheWorld.disk c.dir) hname hw hdir hold CacheCall.delay as bs
    (fun i hi => by simp [as, bs] at hi) hover (by decide)
  exact ⟨⟨hdir, hw, hold⟩, hlaw, by decide, by decide⟩

end Oncall.Vault
