import Oncall.Proofs.Pool.Contract
import Oncall.Proofs.Vault.ReadThrough

/-! Which lookups share a file. What a file of the cache holds was fetched for an access with the name
of that file, whatever lookups run together and whichever of them are dropped. A name joins mount and
property with a dash and keeps no separators, so different pairs may have one name, and then one is
served the secret of the other: values are kept apart exactly if the names of the pairs are. -/

namespace Oncall.Vault

variable {W : Type} {answer : (c : CacheCall) → W → c.Reply × W} {files : W → FileSystem}

/-- A lookup among these fetched a text under this name: an access with this name was asked for, and
the text is what the reply means for it. -/
def Obtained (accesses : List Access) (name text : String) (notes : List (Nat × Deed)) : Prop :=
  ∃ (i : Nat) (a : Access) (reply : Except ApiError SecretResponse), accesses[i]? = some a ∧
    cacheName a = name ∧ (i, .fetched a.url a.token a.fullPath reply) ∈ notes ∧
    a.secret reply = .ok text

theorem Obtained.mono {accesses : List Access} {name text : String} {notes notes' : List (Nat × Deed)}
    (h : Obtained accesses name text notes) (hsub : notes ⊆ notes') :
    Obtained accesses name text notes' := by
  obtain ⟨i, a, reply, hi, hname, hmem, hreply⟩ := h
  exact ⟨i, a, reply, hi, hname, hsub hmem, hreply⟩

/-- Every text in a file was fetched under its name, and so is every text that is returned. -/
def provenance (c : Cache) (files : W → FileSystem) (accesses : List Access) :
    Contract (Except Error String) (Noted W Deed) where
  inv s := ∀ name text t, (files s.1).within c.dir name = some (.file (Utf8.encode text.toList) t) →
    Obtained accesses name text s.2
  free _ _ := True
  own _ s s' := s.2 ⊆ s'.2
  result i r s := ∀ a text, accesses[i]? = some a → r = .ok text →
    Obtained accesses (cacheName a) text s.2
  free_of_own _ _ _ := trivial
  result_of_own hsub h a text ha hr := (h a text ha hr).mono hsub

section Safe

variable {c : Cache} {accesses : List Access} {delay : CacheCall → Nat} {i : Nat} {a : Access}
  {key : String} {s : Noted W Deed}

variable (hd : Disk answer files c.dir)

include hd in
/-- A call leaves in the files what was fetched, unless it writes something else. -/
theorem inv_answer {call : CacheCall}
    (hwrite : ∀ path text, call = .write path text →
      ∃ b, path = c.path b ∧ Obtained accesses (cacheName b) text s.2)
    (h : (provenance c files accesses).inv s) :
    (provenance c files accesses).inv ((noted answer delay files i).answer call s).2 := by
  intro name text t hw
  have hsub : s.2 ⊆ ((noted answer delay files i).answer call s).2.2 := List.subset_append_left _ _
  have hsame := (hd.same call s.1).within name
  have hold : (files s.1).within c.dir name = some (.file (Utf8.encode text.toList) t) →
      Obtained accesses name text ((noted answer delay files i).answer call s).2.2 :=
    fun hw => (h name text t hw).mono hsub
  replace hw := hsame.symm.trans hw
  cases call with
  | write path written =>
    obtain ⟨b, rfl, hb⟩ := hwrite path written rfl
    cases hfs : (files s.1).write (c.path b) (Utf8.encode written.toList) with
    | error e =>
      simp only [CacheCall.onFiles, hfs] at hw
      exact hold hw
    | ok fs' =>
      simp only [CacheCall.onFiles, hfs] at hw
      have hwrote := FileSystem.wrote_of_write (cacheName_plain b) hfs
      replace hw := (hwrote.within name).symm.trans hw
      split at hw
      next hname =>
        -- the text that is in the file now is the one just written
        simp only [Option.some.injEq, FileEntry.file.injEq] at hw
        have htext : written = text := String.toList_inj.1 (Utf8.encode_injective hw.1)
        rw [← hname, ← htext]
        exact hb.mono hsub
      next => exact hold hw
  | remove path =>
    cases hfs : (files s.1).remove path with
    | error e =>
      simp only [CacheCall.onFiles, hfs] at hw
      exact hold hw
    | ok fs' =>
      simp only [CacheCall.onFiles, hfs] at hw
      exact hold (FileSystem.within_of_remove hfs hw)
  | _ => exact hold hw

omit hd in
theorem subset_of_others {s' : Noted W Deed}
    (h : Relation.ReflTransGen (Others (provenance c files accesses).own key) s s') :
    s.2 ⊆ s'.2 := by
  induction h with
  | refl => exact List.Subset.refl _
  | tail _ hstep ih =>
    obtain ⟨_, _, hsub⟩ := hstep
    exact List.Subset.trans ih hsub

/-- What is left of a lookup writes what was fetched for its file only, and ends as told. -/
abbrev Keeps (c : Cache) (accesses : List Access) (answer : (c : CacheCall) → W → c.Reply × W)
    (delay : CacheCall → Nat) (files : W → FileSystem) (i : Nat) (key : String) {α : Type}
    (Q : α → Noted W Deed → Prop) (x : Lookup α) (s : Noted W Deed) : Prop :=
  x.Safe (noted answer delay files i).answer (provenance c files accesses).inv
    (Others (provenance c files accesses).own key) ((provenance c files accesses).own key) Q s

variable {α : Type} {Q : α → Noted W Deed → Prop}

include hd

theorem keeps_call {call : CacheCall} {next : call.Reply → Lookup α}
    (hwrite : ∀ path text, call = .write path text →
      ∃ b, path = c.path b ∧ Obtained accesses (cacheName b) text s.2)
    (hnext : ∀ s', s.2 ⊆ s'.2 → (provenance c files accesses).inv s' →
      Keeps c accesses answer delay files i key Q
        (next ((noted answer delay files i).answer call s').1)
        ((noted answer delay files i).answer call s').2) :
    Keeps c accesses answer delay files i key Q (.call () call next) s := by
  intro s' hs' hI
  have hsub := subset_of_others hs'
  refine ⟨inv_answer hd (fun path text e => ?_) hI, List.subset_append_left _ _, hnext s' hsub hI⟩
  obtain ⟨b, hpath, hb⟩ := hwrite path text e
  exact ⟨b, hpath, hb.mono hsub⟩

theorem keeps_warnAll (texts : List String) (s : Noted W Deed) :
    Keeps c accesses answer delay files i key (fun _ s' => s.2 ⊆ s'.2) (Cache.warnAll texts) s := by
  have hall : ∀ s' : Noted W Deed, s.2 ⊆ s'.2 →
      Keeps c accesses answer delay files i key (fun _ s' => s.2 ⊆ s'.2) (Cache.warnAll texts) s' := by
    induction texts with
    | nil => exact fun s' hsub => hsub
    | cons text texts ih =>
      intro s' hsub
      refine keeps_call hd nofun fun s'' hsub' _ => ih _ ?_
      exact List.Subset.trans (List.Subset.trans hsub hsub') (List.subset_append_left _ _)
  exact hall s (List.Subset.refl _)

/-- What Vault is asked for has been fetched. -/
theorem keeps_ask (ha : accesses[i]? = some a) (s : Noted W Deed) :
    Keeps c accesses answer delay files i key
      (fun r s' => ∀ text, r = .ok text → Obtained accesses (cacheName a) text s'.2)
      (Cache.ask a) s := by
  refine keeps_call hd nofun fun s' _ _ => ?_
  obtain ⟨reply, hr⟩ : ∃ reply, (answer (.fetch a.url a.token a.fullPath) s'.1).1 = reply := ⟨_, rfl⟩
  have hnote : (i, Deed.fetched a.url a.token a.fullPath reply) ∈
      ((noted answer delay files i).answer (.fetch a.url a.token a.fullPath) s').2.2 := by
    refine List.mem_append_right _ ?_
    rw [show (Oncall.Service.mk answer delay).answer (.fetch a.url a.token a.fullPath) s'.1 =
      answer (.fetch a.url a.token a.fullPath) s'.1 from rfl, hr]
    exact List.mem_singleton_self _
  rw [show ((noted answer delay files i).answer (.fetch a.url a.token a.fullPath) s').1 = reply
    from hr]
  cases reply with
  | error e => exact fun text h => by cases h
  | ok r =>
    refine (keeps_warnAll hd _ _).bind fun _ s'' hsub text htext => ?_
    exact ⟨i, a, .ok r, ha, rfl, hsub hnote, htext⟩

theorem keeps_remove {β : Type} {path : String} {next : Lookup β} {Q : β → Noted W Deed → Prop}
    (hnext : ∀ s', s.2 ⊆ s'.2 → Keeps c accesses answer delay files i key Q next s') :
    Keeps c accesses answer delay files i key Q (.call () (.remove path) fun _ => next) s :=
  keeps_call hd nofun fun _ hsub _ => hnext _ (List.Subset.trans hsub (List.subset_append_left _ _))

/-- What is served was fetched under the name of the file. -/
theorem keeps_serve (ha : accesses[i]? = some a) (s : Noted W Deed) :
    Keeps c accesses answer delay files i key
      (fun r s' => ∀ text, r = .ok text → Obtained accesses (cacheName a) text s'.2)
      (Cache.serve (c.path a) a) s := by
  refine keeps_call hd nofun fun s' _ hI => ?_
  have hreply : ((noted answer delay files i).answer (.readText (c.path a)) s').1 =
      (files s'.1).readText (c.path a) := hd.reply (.readText (c.path a)) s'.1 _ rfl
  rw [hreply]
  cases hread : (files s'.1).readText (c.path a) with
  | error e => exact keeps_remove hd fun s'' _ => keeps_ask hd ha s''
  | ok text =>
    rintro text' ⟨⟩
    obtain ⟨t, hw⟩ := FileSystem.within_of_readText (cacheName_plain a) hread
    exact (hI (cacheName a) text t hw).mono (List.subset_append_left _ _)

theorem keeps_save {text : String} (htext : Obtained accesses (cacheName a) text s.2) :
    Keeps c accesses answer delay files i key
      (fun _ s' => Obtained accesses (cacheName a) text s'.2) (Cache.save (c.path a) text) s := by
  refine keeps_call hd ?_ fun s' hsub _ => ?_
  · rintro path text' ⟨⟩
    exact ⟨a, rfl, htext⟩
  · have htext' : Obtained accesses (cacheName a) text
        ((noted answer delay files i).answer (.write (c.path a) text) s').2.2 :=
      (htext.mono hsub).mono (List.subset_append_left _ _)
    cases ((noted answer delay files i).answer (.write (c.path a) text) s').1 with
    | ok u => exact htext'
    | error e => exact keeps_remove hd fun s'' hsub' => htext'.mono hsub'

theorem keeps_refresh (ha : accesses[i]? = some a) (s : Noted W Deed) :
    Keeps c accesses answer delay files i key
      (fun r s' => ∀ text, r = .ok text → Obtained accesses (cacheName a) text s'.2)
      (Cache.refresh (c.path a) a) s := by
  refine (keeps_ask hd ha s).bind fun r s' hr => ?_
  cases r with
  | error e => exact fun text h => by cases h
  | ok text =>
    refine (keeps_save hd (hr text rfl)).bind fun saved s'' hs => ?_
    cases saved with
    | true => exact keeps_serve hd ha s''
    | false =>
      rintro text' ⟨⟩
      exact hs

/-- A lookup honours the contract. -/
theorem keeps_get (ha : accesses[i]? = some a) (s : Noted W Deed) :
    Keeps c accesses answer delay files i key
      (fun r s' => ∀ text, r = .ok text → Obtained accesses (cacheName a) text s'.2)
      (c.get a).body s := by
  refine Workflow.Safe.bind (Q := fun _ _ => True) ?_ fun fresh s' _ => ?_
  · refine keeps_call hd nofun fun s' _ _ => ?_
    cases ((noted answer delay files i).answer (.changed (c.path a)) s').1 with
    | error e => trivial
    | ok changed => exact keeps_call hd nofun fun _ _ _ => trivial
  · cases fresh with
    | true => exact keeps_serve hd ha s'
    | false => exact keeps_refresh hd ha s'

end Safe

/-- A value that a lookup returns was fetched by a lookup of the same name, in every run. -/
theorem obtained_of_run {c : Cache} (hd : Disk answer files c.dir) {w : W}
    (hempty : ∀ name, (files w).within c.dir name = none) (accesses : List Access)
    (delay : CacheCall → Nat) (as : List Action) {i : Nat} {a : Access} {text : String}
    (ha : accesses[i]? = some a)
    (hr : (Pool.run ⟨answer, delay⟩ as (Pool.start (accesses.map c.get) w)).stages[i]? =
      some (.finished (.ok text))) :
    Obtained accesses (cacheName a) text
      (Pool.notes ⟨answer, delay⟩ (noteDeed files) as (Pool.start (accesses.map c.get) w)) := by
  have hstart : (Pool.start (accesses.map c.get) (w, ([] : List (Nat × Deed)))).Honours
      (noted answer delay files) (provenance c files accesses) := by
    refine Pool.honours_start (fun name text t hw => ?_) (fun _ => trivial) fun j job hj => ?_
    · rw [hempty name] at hw
      cases hw
    · rw [List.getElem?_map, Option.map_eq_some_iff] at hj
      obtain ⟨b, hb, rfl⟩ := hj
      intro s _ _
      refine (keeps_get hd hb s).weaken fun r s' hr => ⟨trivial, fun b' text hb' htext => ?_⟩
      cases hb.symm.trans hb'
      exact hr text htext
  have hrun := hstart.runEach as (.inr fun _ _ _ => trivial)
  have hstages := Pool.stages_noting ⟨answer, delay⟩ (noteDeed files) as
    (Pool.start (accesses.map c.get) w)
  exact hrun.job i _ ((congrArg (·[i]?) hstages).trans hr) a text ha rfl

/-! ### Names that two pairs share -/

/-- A lookup that is polled while nobody has a lock and calls take no time runs to its end. -/
theorem poll_alone (answer : (c : CacheCall) → W → c.Reply × W) (files : W → FileSystem)
    {p : Pool CacheCall CacheCall.Reply Unit (Except Error String) (Noted W Deed)} (hfits : p.Fits)
    (hidle : p.use = fun _ => .idle) {i : Nat} {c : Cache} {a : Access}
    (hst : p.stages[i]? = some (.fresh (c.get a))) :
    let out := (c.get a).body.run (recorded answer files) (p.shared.world.1, [])
    let q := p.act (noted answer (fun _ => 0) files i) (.poll i)
    q.Fits ∧ q.use = (fun _ => .idle) ∧ q.stages = p.stages.set i (.finished out.1) ∧
      q.shared.world = (out.2.1, p.shared.world.2 ++ out.2.2.map (i, ·)) := by
  intro out q
  obtain ⟨locks, log, hq⟩ := Pool.poll_of_no_delay (v := noted answer (fun _ => 0) files i)
    (fun _ => rfl) hfits hst (by simp [hidle])
  have hrun := run_noted answer files (fun _ => 0) i (c.get a).body
    p.shared.world.1 p.shared.world.2
  refine ⟨hfits.act _ _, ?_, ?_, ?_⟩
  · rw [show q = _ from hq, Pool.use_set hst, hidle]
    exact Function.update_eq_self i _
  · rw [show q = _ from hq]
    exact congrArg (fun r => p.stages.set i (.finished r)) (congrArg Prod.fst hrun)
  · rw [show q = _ from hq]
    exact congrArg Prod.snd hrun

/-- The reply of a Vault that knows the property of any secret. -/
def anySecret (property : String) : Except ApiError SecretResponse :=
  .ok ⟨[("data", .object [(property, .string "x")])], []⟩

/-- Files on a disk of their own beside such a Vault; time stands still. -/
def obliging (property : String) (call : CacheCall) (fs : FileSystem) : call.Reply × FileSystem :=
  match call with
  | .now => (fs.clock, fs)
  | .changed path => (fs.changed path, fs)
  | .fetch _ _ _ => (anySecret property, fs)
  | .warn _ => ((), fs)
  | .write path text =>
    match fs.write path (Utf8.encode text.toList) with
    | .ok fs' => (.ok (), fs')
    | .error e => (.error e, fs)
  | .readText path => (fs.readText path, fs)
  | .remove path =>
    match fs.remove path with
    | .ok fs' => (.ok (), fs')
    | .error e => (.error e, fs)

theorem obliging_files (property : String) (call : CacheCall) (fs : FileSystem) :
    (obliging property call fs).2 = (call.onFiles fs).2 := by
  cases call with
  | write path text =>
    simp only [obliging, CacheCall.onFiles]
    cases fs.write path (Utf8.encode text.toList) <;> rfl
  | remove path =>
    simp only [obliging, CacheCall.onFiles]
    cases fs.remove path <;> rfl
  | _ => rfl

theorem obliging_disk (property dir : String) : Disk (obliging property) id dir where
  reply call fs r h := by
    cases call with
    | fetch url token path => cases h
    | warn text => cases h
    | write path text =>
      simp only [CacheCall.onFiles, id] at h
      simp only [obliging]
      cases hw : fs.write path (Utf8.encode text.toList) <;> rw [hw] at h <;>
        exact Option.some.inj h
    | remove path =>
      simp only [CacheCall.onFiles, id] at h
      simp only [obliging]
      cases hw : fs.remove path <;> rw [hw] at h <;> exact Option.some.inj h
    | _ => exact Option.some.inj h
  same call fs := by
    rw [id, id, obliging_files]
    exact .refl dir _
  clock call fs := by rw [id, id, obliging_files, CacheCall.onFiles_clock]

/-- Time stands still, and Vault always says the same. -/
theorem run_obliging {α : Type} (property : String) (x : Lookup α) (fs : FileSystem) :
    (x.run (recorded (obliging property) id) (fs, [])).2.1.clock = fs.clock ∧
      ∀ url token path reply, Deed.fetched url token path reply ∈
        (x.run (recorded (obliging property) id) (fs, [])).2.2 → reply = anySecret property := by
  refine x.run_keeps (I := fun s : Recorded FileSystem => s.1.clock = fs.clock ∧
    ∀ url token path reply, Deed.fetched url token path reply ∈ s.2 → reply = anySecret property)
    (fun call s hs => ⟨?_, fun url token path reply hmem => ?_⟩)
    ⟨rfl, fun _ _ _ _ hmem => by cases hmem⟩
  · show (obliging property call s.1).2.clock = _
    rw [obliging_files, CacheCall.onFiles_clock, hs.1]
  · rcases List.mem_append.1 hmem with hmem | hmem
    · exact hs.2 url token path reply hmem
    · cases call with
      | fetch => cases List.mem_singleton.1 hmem; rfl
      | write path text =>
        generalize (obliging property (.write path text) s.1).1 = r at hmem
        cases r <;> simp [Deed.of?] at hmem
      | remove path =>
        generalize (obliging property (.remove path) s.1).1 = r at hmem
        cases r <;> simp [Deed.of?] at hmem
      | _ => cases hmem

section Pair

variable {c : Cache} {a b : Access} {fs : FileSystem} (hdir : fs.HasDirectory c.dir)
  (hempty : ∀ name, fs.within c.dir name = none) (hw : fs.Writable (c.path a))

include hdir hempty hw

/-- With an obliging Vault and an empty directory, a lookup stores what it fetched. -/
theorem first_lookup :
    let out := (c.get a).body.run (recorded (obliging a.property) id) (fs, [])
    out.1 = .ok "x" ∧ ∃ t, c.Saves id a "x" t (fs, []) out.2 ∧ fs.clock.nanos ≤ t.nanos := by
  intro out
  have hasks : c.AsksOnce id a (fs, []) out.2 out.1 :=
    run_get_old (obliging_disk a.property c.dir) hdir hw.leads (fun t => by simp [hempty])
      fun e he => by simp [hempty] at he
  obtain ⟨reply, hout, hmatch⟩ := hasks
  have hdeeds : Deed.fetched a.url a.token a.fullPath reply ∈ out.2.2 := by
    cases hsecret : a.secret reply with
    | ok text =>
      rw [hsecret] at hmatch
      obtain ⟨t, -, hds⟩ := hmatch
      rw [hds]
      exact List.mem_cons_self
    | error e =>
      rw [hsecret] at hmatch
      rw [hmatch.deeds]
      exact List.mem_cons_self
  obtain rfl := (run_obliging a.property (c.get a).body fs).2 _ _ _ _ hdeeds
  have hsecret : a.secret (anySecret a.property) = .ok "x" := by
    simp [Access.secret, anySecret, SecretResponse.extract, valueText]
  rw [hsecret] at hmatch
  obtain ⟨t, hsaves, -⟩ := hmatch
  exact ⟨hout.trans hsecret, t, hsaves, hsaves.since⟩

/-- A second lookup of the same name is served what the first one stored. -/
theorem second_lookup (hname : cacheName a = cacheName b) :
    let s := ((c.get a).body.run (recorded (obliging a.property) id) (fs, [])).2
    let out := (c.get b).body.run (recorded (obliging a.property) id) (s.1, [])
    out.1 = .ok "x" ∧ out.2.2 = [] := by
  intro s out
  obtain ⟨-, t, hsaves, ht⟩ := first_lookup hdir hempty hw
  have hpath : c.path b = c.path a := by rw [Cache.path, Cache.path, hname]
  have hclock : s.1.clock = fs.clock := (run_obliging a.property (c.get a).body fs).1
  obtain ⟨hserved, hpass⟩ := run_get_young (s := (s.1, [])) (a := b)
    (obliging_disk a.property c.dir) hsaves.directory (hpath ▸ hw.leads)
    ((hsaves.within (cacheName b)).trans (if_pos hname)) (by
      show s.1.clock.nanos - _ ≤ _
      rw [hclock]
      omega)
  exact ⟨hserved, hpass.deeds⟩

/-- Two lookups of one name, the second after the first: what the second returns the first fetched. -/
theorem run_pair {accesses : List Access} {i j : Nat} (hi : accesses[i]? = some a)
    (hj : accesses[j]? = some b) (hij : i ≠ j) (hname : cacheName a = cacheName b) :
    let q := Pool.runEach (noted (obliging a.property) (fun _ => 0) id) [.poll i, .poll j]
      (Pool.start (accesses.map c.get) (fs, []))
    q.stages[j]? = some (.finished (.ok "x")) ∧ ∀ x ∈ q.shared.world.2, x.1 = i := by
  intro q
  obtain ⟨hserved, hdeeds⟩ := second_lookup hdir hempty hw hname
  have hfresh : ∀ (k : Nat) (e : Access), accesses[k]? = some e →
      (Pool.start (accesses.map c.get) (fs, ([] : List (Nat × Deed)))).stages[k]? =
        some (.fresh (c.get e)) := by
    intro k e he
    simp [Pool.start, he]
  have hfirst := poll_alone (obliging a.property) id (Pool.fits_start _ _) (Pool.use_start _ _)
    (hfresh i a hi)
  have hq : q = ((Pool.start (accesses.map c.get) (fs, [])).act
      (noted (obliging a.property) (fun _ => 0) id i) (.poll i)).act
        (noted (obliging a.property) (fun _ => 0) id j) (.poll j) := rfl
  generalize (Pool.start (accesses.map c.get) (fs, [])).act
    (noted (obliging a.property) (fun _ => 0) id i) (.poll i) = p at hfirst hq
  obtain ⟨hfits, hidle, hstages, hworld⟩ := hfirst
  have hget : p.stages[j]? = some (.fresh (c.get b)) := by
    rw [hstages, List.getElem?_set_ne hij, hfresh j b hj]
  obtain ⟨-, -, hstages', hworld'⟩ := poll_alone (obliging a.property) id hfits hidle hget
  rw [hworld] at hstages' hworld'
  refine ⟨?_, fun x hx => ?_⟩
  · rw [hq, hstages', List.getElem?_set_self (List.getElem?_eq_some_iff.1 hget).1]
    exact congrArg (fun r => some (Stage.finished r)) hserved
  · rw [hq, hworld'] at hx
    rcases List.mem_append.1 hx with hx | hx
    · obtain ⟨d, -, rfl⟩ := List.mem_map.1 hx
      rfl
    · -- the second lookup did nothing that is noted
      obtain ⟨d, hd, -⟩ := List.mem_map.1 hx
      exact absurd (hdeeds ▸ hd) List.not_mem_nil

end Pair

/-! ### Whose secret is served -/

/-- Every value that a lookup returns was fetched for an access with its mount and its property, by a
lookup of the same cache, whatever the world does that has its disk, however long calls take, and in
whatever order lookups are polled or dropped. -/
def Isolated (c : Cache) (accesses : List Access) : Prop :=
  ∀ (W : Type) (answer : (c : CacheCall) → W → c.Reply × W) (files : W → FileSystem),
    Disk answer files c.dir → ∀ w, (∀ name, (files w).within c.dir name = none) →
    ∀ (delay : CacheCall → Nat) (as : List Action) (i : Nat) (a : Access) (text : String),
      accesses[i]? = some a →
      (Pool.run ⟨answer, delay⟩ as (Pool.start (accesses.map c.get) w)).stages[i]? =
        some (.finished (.ok text)) →
      ∃ (j : Nat) (b : Access) (reply : Except ApiError SecretResponse), accesses[j]? = some b ∧
        b.mount = a.mount ∧ b.property = a.property ∧
        (j, .fetched b.url b.token b.fullPath reply) ∈
          Pool.notes ⟨answer, delay⟩ (noteDeed files) as (Pool.start (accesses.map c.get) w) ∧
        b.secret reply = .ok text

/-- Accesses that share a file have one mount and one property. -/
def Separate (accesses : List Access) : Prop :=
  ∀ a ∈ accesses, ∀ b ∈ accesses, cacheName a = cacheName b →
    a.mount = b.mount ∧ a.property = b.property

instance (accesses : List Access) : Decidable (Separate accesses) :=
  inferInstanceAs (Decidable (∀ a ∈ accesses, ∀ b ∈ accesses, cacheName a = cacheName b →
    a.mount = b.mount ∧ a.property = b.property))

/-- Lookups are served what was fetched for their mount and their property, in every run, exactly if no
two of them share a file but have another mount or another property. -/
theorem isolated_iff_separate {c : Cache} {accesses : List Access} {fs : FileSystem}
    (hdir : fs.HasDirectory c.dir) (hempty : ∀ name, fs.within c.dir name = none)
    (hw : ∀ a ∈ accesses, fs.Writable (c.path a)) :
    Isolated c accesses ↔ Separate accesses := by
  constructor
  · intro h a ha b hb hname
    obtain ⟨i, hi⟩ := List.getElem?_of_mem ha
    obtain ⟨j, hj⟩ := List.getElem?_of_mem hb
    by_cases hij : i = j
    · subst hij
      cases hi.symm.trans hj
      exact ⟨rfl, rfl⟩
    -- in a run of the two, what the second is served the first has fetched
    obtain ⟨hserved, hnotes⟩ := run_pair hdir hempty (hw a ha) hi hj hij hname
    have hstages := Pool.stages_noting ⟨obliging a.property, fun _ => 0⟩ (noteDeed id)
      [.poll i, .poll j] (Pool.start (accesses.map c.get) fs)
    obtain ⟨k, d, reply, hk, hmount, hproperty, hfetched, -⟩ := h FileSystem (obliging a.property) id
      (obliging_disk a.property c.dir) fs hempty (fun _ => 0) _ j b "x" hj
      ((congrArg (·[j]?) hstages).symm.trans hserved)
    cases hnotes _ hfetched
    cases hi.symm.trans hk
    exact ⟨hmount, hproperty⟩
  · intro h W answer files hd w hempty delay as i a text ha hr
    obtain ⟨j, b, reply, hb, hname, hfetched, hreply⟩ :=
      obtained_of_run hd hempty accesses delay as ha hr
    obtain ⟨hmount, hproperty⟩ :=
      h b (List.mem_of_getElem? hb) a (List.mem_of_getElem? ha) hname
    exact ⟨j, b, reply, hb, hmount, hproperty, hfetched, hreply⟩

/-- Two accesses of different mounts and properties that are one text when joined with a dash. -/
def dashed : List Access :=
  [⟨"n", "s", "p", "c", "http://vault:8200", "t", "a-b", "k"⟩,
    ⟨"n", "s", "p", "b-c", "http://vault:8200", "t", "a", "k"⟩]

/-- Some run of the dashed ones serves one of them the secret of the other. -/
theorem not_isolated_dashed :
    let c : Cache := ⟨"/cache", defaultMaxAge⟩
    let fs : FileSystem := ⟨[(["cache"], .directory .epoch)], .epoch⟩
    (fs.HasDirectory c.dir ∧ (∀ name, fs.within c.dir name = none) ∧
      ∀ a ∈ dashed, fs.Writable (c.path a)) ∧ ¬ Isolated c dashed := by
  intro c fs
  have henter : fs.enter [] (FileSystem.names c.dir) = .ok ["cache"] := by decide
  have hdir : fs.HasDirectory c.dir := ⟨["cache"], henter⟩
  have hempty : ∀ name, fs.within c.dir name = none := fun name => by
    rw [FileSystem.within_of_enter henter]
    simp [FileSystem.lookup?, fs, List.lookup_cons]
  have hw : ∀ a ∈ dashed, fs.Writable (c.path a) := by decide
  refine ⟨⟨hdir, hempty, hw⟩, fun h => ?_⟩
  exact absurd ((isolated_iff_separate hdir hempty hw).1 h) (by decide)

/-- They have one file; started together, both return what Vault was asked for the first. -/
theorem dashed_share :
    let body := "\x7b\"data\":\x7b\"data\":\x7b\"c\":\"x\"\x7d\x7d\x7d"
    let w : CacheWorld := ⟨⟨[(["cache"], .directory .epoch)], .epoch⟩,
      ⟨[.plain "vault:8200"], true, [.response 200 (Utf8.encode body.toList), .dropped], []⟩, []⟩
    let out := Cache.getAll ⟨"/cache", defaultMaxAge⟩ dashed w
    dashed.map (Cache.path ⟨"/cache", defaultMaxAge⟩) = ["/cache/a-b-c", "/cache/a-b-c"] ∧
      out.1 = [some (.ok "x"), some (.ok "x")] ∧
      out.2.peer.received.map Http.Request.target = ["/v1/a-b/data/p"] := by
  decide

end Oncall.Vault
