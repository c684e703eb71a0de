import Oncall.Proofs.Cli.Choices
import Oncall.Proofs.Dictionary

/-! Command lines. What a command line comes to is decided by its command and the values that its
flags are given: it can be run if no required flag is missing, and neither the order nor the
spelling of the flags, nor the place of the global ones, has any influence. -/

namespace Oncall.Cli

namespace Level

/-- The flags that a command cannot do without. -/
def required : Level → List Flag
  | .provision => [.clusterId, .baseDomain]
  | .service | .integrationKey | .deprovision => [.nspace, .clusterName]
  | .get => [.nspace, .secretName]
  | .program | .pagerDuty | .vault => []

theorem mem_flags_of_global {f : Flag} (h : f ∈ globalFlags) (l : Level) : f ∈ l.flags :=
  List.mem_append_right _ h

theorem mem_flags_of_own {l : Level} {f : Flag} (h : f ∈ l.ownFlags) : f ∈ l.flags :=
  List.mem_append_left _ h

theorem not_global_of_own {l : Level} {f : Flag} (h : f ∈ l.ownFlags) : f ∉ globalFlags := by
  revert h
  cases l <;> cases f <;> decide

/-- Two words below the program there are only commands that can be run. -/
theorem isGroup_of_child {w v : String} {group l : Level} (hw : program.child? w = some group)
    (hv : group.child? v = some l) : l.isGroup = false := by
  have hall : ∀ x ∈ program.children, ∀ y ∈ x.2.children, y.2.isGroup = false := by decide
  obtain ⟨front, back, hgroup, -⟩ := List.lookup_eq_some_iff.1 hw
  obtain ⟨front', back', hl, -⟩ := List.lookup_eq_some_iff.1 hv
  exact hall (w, group) (by simp [hgroup]) (v, l) (by simp [hl])

end Level

/-- The words of an invocation: the program, a group, a command of the group, and flags around these.
Every flag stands at most once, after the command that knows it or, if it is global, anywhere. -/
structure CommandLine where
  program : String
  group : String
  command : String
  groupLevel : Level
  level : Level
  before : List Choice
  between : List Choice
  after : List Choice
  leadsToGroup : Level.program.child? group = some groupLevel
  leadsToCommand : groupLevel.child? command = some level
  isGlobal : ∀ c ∈ before ++ between, c.flag ∈ Level.globalFlags
  isKnown : ∀ c ∈ after, c.flag ∈ level.flags
  once : ((before ++ between ++ after).map Choice.flag).Nodup

/-- Where a flag's setting comes from if the environment says nothing. -/
def Flag.setting? (f : Flag) (value? : Option String) : Option Setting :=
  match value? with
  | some value => some ⟨.words, value⟩
  | none => f.default?.map fun value => ⟨.default, value⟩

/-- The settings of a level by the values of its flags. -/
def Level.settings (l : Level) (value? : Flag → Option String) : Settings :=
  l.flags.filterMap fun f => (f.setting? (value? f)).map (f, ·)

/-- No flag has its variable set. -/
def Environment.Unset (env : Environment) : Prop :=
  ∀ (f : Flag) (v : String), f.envName? = some v → List.lookup v env = none

section Settings

theorem value_setting? (f : Flag) (value? : Option String) :
    (f.setting? value?).map Setting.value = value?.or f.default? := by
  cases value? with
  | none => cases hd : f.default? <;> simp [Flag.setting?, hd]
  | some value => rfl

/-- A value from the words is stronger than a default, wherever it stands. -/
theorem stronger_setting? (f : Flag) {outer inner : Option String}
    (h : outer = none ∨ inner = none) :
    Setting.stronger (f.setting? outer) (f.setting? inner) = f.setting? (outer.or inner) := by
  rcases h with rfl | rfl
  · cases inner <;> cases hd : f.default? <;> simp [Flag.setting?, Setting.stronger, hd, Origin.rank]
  · cases outer <;> cases hd : f.default? <;> simp [Flag.setting?, Setting.stronger, hd, Origin.rank]

theorem lookup_filterMap (g : Flag → Option Setting) (fs : List Flag) (f : Flag) :
    List.lookup f (fs.filterMap fun f => (g f).map (f, ·)) = if f ∈ fs then g f else none := by
  induction fs with
  | nil => rfl
  | cons x fs ih =>
    rw [List.filterMap_cons]
    cases hx : g x with
    | none =>
      simp only [Option.map_none, ih, List.mem_cons]
      by_cases hf : f = x
      · simp [hf, hx]
      · simp [hf]
    | some v =>
      simp only [Option.map_some, List.lookup_cons, ih, List.mem_cons]
      by_cases hf : f = x
      · simp [hf, hx]
      · simp [hf, beq_eq_false_iff_ne.2 hf]

theorem Level.lookup_settings {l : Level} (value? : Flag → Option String) {f : Flag}
    (hf : f ∈ l.flags) : List.lookup f (l.settings value?) = f.setting? (value? f) := by
  rw [settings, lookup_filterMap fun f => f.setting? (value? f), if_pos hf]

theorem Level.value?_settings {l : Level} (value? : Flag → Option String) {f : Flag}
    (hf : f ∈ l.flags) : (l.settings value?).value? f = (value? f).or f.default? := by
  rw [Settings.value?, lookup_settings value? hf, value_setting?]

/-- When the words of a level are over, its settings are those of the values it was given. -/
theorem Scope.Has.settings {s : Scope} {l : Level} {given : List (Flag × String)}
    (h : s.Has l given) {env : Environment} (henv : env.Unset) :
    s.settings env = .ok (l.settings fun f => given.lookup f) := by
  have hsetting : ∀ f, Scope.setting ⟨l, given, none⟩ env f = .ok (f.setting? (given.lookup f)) := by
    intro f
    unfold Scope.setting Flag.setting?
    cases given.lookup f with
    | some value => rfl
    | none =>
      have hunset : (f.envName?.bind fun v => List.lookup v env) = none := by
        cases hname : f.envName? with
        | none => rfl
        | some v => exact henv f v hname
      simp only [hunset]
  have hall : ∀ fs : List Flag, (fs.mapM fun f =>
      (Scope.setting ⟨l, given, none⟩ env f).map fun v => v.map (f, ·)) =
        .ok (fs.map fun f => (f.setting? (given.lookup f)).map (f, ·)) := by
    intro fs
    induction fs with
    | nil => rfl
    | cons f fs ih =>
      rw [List.mapM_cons, hsetting, ih]
      rfl
  have hfound : (l.flags.map fun f => (f.setting? (given.lookup f)).map (f, ·)).filterMap id =
      l.settings fun f => given.lookup f := List.filterMap_map
  rw [Scope.settings, h, ← hfound]
  exact congrArg (fun x : Except Refusal (List (Option (Flag × Setting))) =>
    x.bind fun found => .ok (found.filterMap id)) (hall l.flags)

end Settings

/-- What is called for by the values of the flags. -/
def Level.invocation (l : Level) (value? : Flag → Option String) : Except Refusal Invocation :=
  match Command.ofSettings? (l.settings value?) l with
  | some c => .ok ⟨value? .kubeconfig, ((value? .logFormat).bind LogFormat.ofName?).getD .plain, c⟩
  | none => .error .missingArgument

/-- A command is made of the flags of its own level. -/
theorem Command.ofSettings?_congr {l : Level} {s s' : Settings}
    (h : ∀ f ∈ l.ownFlags, s.value? f = s'.value? f) : ofSettings? s l = ofSettings? s' l := by
  cases l with
  | provision =>
    simp only [ofSettings?, h .clusterId (by decide), h .baseDomain (by decide),
      h .pagerDutyUrl (by decide)]
  | get =>
    simp only [ofSettings?, h .nspace (by decide), h .secretName (by decide),
      h .cacheDir (by decide)]
  | service | integrationKey | deprovision =>
    simp only [ofSettings?, clusterArgs?, h .nspace (by decide), h .clusterName (by decide),
      h .pagerDutyUrl (by decide)]
  | program | pagerDuty | vault => rfl

section Choices

variable {cs ds : List Choice} {f : Flag}

theorem lookup_pairs_eq_none (h : f ∉ cs.map Choice.flag) :
    (cs.map Choice.pair).lookup f = none := by
  refine List.lookup_eq_none_iff.2 fun x hx => ?_
  obtain ⟨c, hc, rfl⟩ := List.mem_map.1 hx
  rw [bne_iff_ne]
  rintro rfl
  exact h (List.mem_map_of_mem hc)

/-- No flag stands in two places. -/
theorem lookup_pairs_or (h : ((cs ++ ds).map Choice.flag).Nodup) (f : Flag) :
    (cs.map Choice.pair).lookup f = none ∨ (ds.map Choice.pair).lookup f = none := by
  rw [List.map_append, List.nodup_append] at h
  by_cases hf : f ∈ cs.map Choice.flag
  · exact .inr (lookup_pairs_eq_none fun hf' => h.2.2 f hf f hf' rfl)
  · exact .inl (lookup_pairs_eq_none hf)

end Choices

namespace CommandLine

variable (a : CommandLine)

def args : List String :=
  a.program :: (a.before.flatMap Choice.words ++
    a.group :: (a.between.flatMap Choice.words ++ a.command :: a.after.flatMap Choice.words))

/-- The flags with their values, wherever they stand. -/
def given : List (Flag × String) := (a.before ++ a.between ++ a.after).map Choice.pair

/-- Reading leaves one scope for each level, each with what is given on it. -/
theorem read_args : ∃ outer group inner : Scope,
    Reader.start.read a.args.tail = .ok ⟨inner, [group, outer], false⟩ ∧
    outer.Has .program (a.before.map Choice.pair) ∧
    group.Has a.groupLevel (a.between.map Choice.pair) ∧
    inner.Has a.level (a.after.map Choice.pair) := by
  have honce := a.once
  rw [List.map_append, List.map_append, List.nodup_append, List.nodup_append] at honce
  obtain ⟨⟨hbefore, hbetween, -⟩, hafter, -⟩ := honce
  have hglobal : ∀ l : Level, ∀ c ∈ a.before ++ a.between, c.flag ∈ l.flags :=
    fun l c hc => l.mem_flags_of_global (a.isGlobal c hc)
  obtain ⟨outer, houter, hread⟩ := Reader.read_choices (r := .start) (Scope.has_start .program) rfl
    a.before (fun c hc => hglobal _ c (List.mem_append_left _ hc)) hbefore (fun _ _ => rfl)
    (a.group :: (a.between.flatMap Choice.words ++ a.command :: a.after.flatMap Choice.words))
  obtain ⟨group, hgroup, hread'⟩ := Reader.read_choices (r := Reader.enter ⟨outer, [], false⟩ _)
    (Scope.has_start a.groupLevel) rfl a.between
    (fun c hc => hglobal _ c (List.mem_append_right _ hc)) hbetween (fun _ _ => rfl)
    (a.command :: a.after.flatMap Choice.words)
  obtain ⟨inner, hinner, hread''⟩ := Reader.read_choices
    (r := Reader.enter ⟨group, [outer], false⟩ _) (Scope.has_start a.level) rfl a.after a.isKnown
    hafter (fun _ _ => rfl) []
  refine ⟨outer, group, inner, ?_, houter, hgroup, hinner⟩
  rw [List.append_nil] at hread''
  show Reader.start.read (a.before.flatMap Choice.words ++ _) = _
  rw [hread, Reader.read_child houter rfl a.leadsToGroup]
  refine hread'.trans ?_
  rw [Reader.read_child hgroup rfl a.leadsToCommand]
  exact hread''

theorem lookup_given (f : Flag) : a.given.lookup f =
    (((a.before.map Choice.pair).lookup f).or ((a.between.map Choice.pair).lookup f)).or
      ((a.after.map Choice.pair).lookup f) := by
  rw [given, List.map_append, List.map_append, List.lookup_append, List.lookup_append]

/-- The flags of a command stand after it. -/
theorem lookup_given_of_own {f : Flag} (hf : f ∈ a.level.ownFlags) :
    a.given.lookup f = (a.after.map Choice.pair).lookup f := by
  have hnone : ∀ cs : List Choice, (∀ c ∈ cs, c.flag ∈ Level.globalFlags) →
      (cs.map Choice.pair).lookup f = none := by
    intro cs hcs
    refine lookup_pairs_eq_none fun hmem => Level.not_global_of_own hf ?_
    obtain ⟨c, hc, rfl⟩ := List.mem_map.1 hmem
    exact hcs c hc
  rw [lookup_given, hnone a.before fun c hc => a.isGlobal c (List.mem_append_left _ hc),
    hnone a.between fun c hc => a.isGlobal c (List.mem_append_right _ hc)]
  rfl

/-- The global setting of a flag is the one it is given on whichever level. -/
theorem globalSetting_eq {f : Flag} (hf : f ∈ Level.globalFlags) :
    globalSetting [Level.program.settings fun f => (a.before.map Choice.pair).lookup f,
      a.groupLevel.settings fun f => (a.between.map Choice.pair).lookup f,
      a.level.settings fun f => (a.after.map Choice.pair).lookup f] f =
        f.setting? (a.given.lookup f) := by
  have honce := a.once
  have hbefore : ((a.before ++ a.between).map Choice.flag).Nodup := by
    rw [List.map_append, List.nodup_append] at honce
    exact honce.1
  have hafter := lookup_pairs_or honce f
  rw [List.map_append, List.lookup_append] at hafter
  show Setting.stronger (Setting.stronger (Setting.stronger none _) _) _ = _
  rw [Level.lookup_settings _ (Level.mem_flags_of_global hf _),
    Level.lookup_settings _ (Level.mem_flags_of_global hf _),
    Level.lookup_settings _ (Level.mem_flags_of_global hf _)]
  rw [show ∀ x, Setting.stronger none x = x from fun x => by cases x <;> rfl,
    stronger_setting? f (lookup_pairs_or hbefore f), stronger_setting? f hafter, lookup_given]

/-- Parsing comes down to the values of the flags. -/
theorem parse_args {env : Environment} (henv : env.Unset) :
    Invocation.parse a.args env = a.level.invocation fun f => a.given.lookup f := by
  obtain ⟨outer, group, inner, hread, houter, hgroup, hinner⟩ := a.read_args
  have hcommand : Command.ofSettings? (a.level.settings fun f => (a.after.map Choice.pair).lookup f)
      a.level = Command.ofSettings? (a.level.settings fun f => a.given.lookup f) a.level := by
    refine Command.ofSettings?_congr fun f hf => ?_
    rw [Level.value?_settings _ (Level.mem_flags_of_own hf),
      Level.value?_settings _ (Level.mem_flags_of_own hf), lookup_given_of_own a hf]
  have houters : [group, outer].mapM (fun s => s.settings env) =
      .ok [a.groupLevel.settings fun f => (a.between.map Choice.pair).lookup f,
        Level.program.settings fun f => (a.before.map Choice.pair).lookup f] := by
    rw [List.mapM_cons, List.mapM_cons, hgroup.settings henv, houter.settings henv]
    rfl
  have hgroupless := Level.isGroup_of_child a.leadsToGroup a.leadsToCommand
  have hkubeconfig := a.globalSetting_eq (f := .kubeconfig) (by decide)
  have hlogFormat := a.globalSetting_eq (f := .logFormat) (by decide)
  simp only [Invocation.parse, hread, bind, Except.bind, hinner.settings henv, hinner.spec.1,
    Level.command, hgroupless, hcommand, Level.invocation, houters]
  cases Command.ofSettings? (a.level.settings fun f => a.given.lookup f) a.level with
  | none => rfl
  | some c =>
    simp only [List.reverse_cons, List.reverse_nil, List.nil_append, List.cons_append, hkubeconfig,
      hlogFormat, value_setting?]
    cases a.given.lookup .kubeconfig <;> cases a.given.lookup .logFormat <;> rfl

end CommandLine

/-- A cluster is named by the values of its flags. -/
def ClusterArgs.Holds (value? : Flag → Option String) (c : ClusterArgs) : Prop :=
  value? .nspace = some c.nspace ∧ value? .clusterName = some c.clusterName ∧
    c.pagerDutyUrl = (value? .pagerDutyUrl).getD PagerDuty.defaultUrl

/-- A command of a level has the values of its flags. -/
def Command.Holds (value? : Flag → Option String) : Level → Command → Prop
  | .provision, .provision clusterId baseDomain url =>
    value? .clusterId = some clusterId ∧ value? .baseDomain = some baseDomain ∧
      url = (value? .pagerDutyUrl).getD PagerDuty.defaultUrl
  | .service, .service c | .integrationKey, .integrationKey c | .deprovision, .deprovision c =>
    c.Holds value?
  | .get, .getSecret nspace secretName cacheDir =>
    value? .nspace = some nspace ∧ value? .secretName = some secretName ∧
      cacheDir = value? .cacheDir
  | _, _ => False

/-- An invocation has the values of the flags of its command and of the global ones. -/
def Invocation.Holds (value? : Flag → Option String) (l : Level) (i : Invocation) : Prop :=
  i.kubeconfig = value? .kubeconfig ∧ i.logFormat.name = (value? .logFormat).getD "plain" ∧
    i.command.Holds value? l

section Invocation

variable {l : Level} (value? : Flag → Option String)

/-- A flag without a default has the value that it is given. -/
theorem value?_own {f : Flag} (hf : f ∈ l.ownFlags) (hdefault : f.default? = none) :
    (l.settings value?).value? f = value? f := by
  rw [Level.value?_settings value? (Level.mem_flags_of_own hf), hdefault, Option.or_none]

theorem value?_url (hf : .pagerDutyUrl ∈ l.ownFlags) :
    (l.settings value?).value? .pagerDutyUrl =
      some ((value? .pagerDutyUrl).getD PagerDuty.defaultUrl) := by
  rw [Level.value?_settings value? (Level.mem_flags_of_own hf)]
  cases value? .pagerDutyUrl <;> rfl

theorem clusterArgs?_eq_some (hl : l.ownFlags = Level.service.ownFlags) {c : ClusterArgs} :
    clusterArgs? (l.settings value?) = some c ↔ c.Holds value? := by
  have hn := value?_own value? (l := l) (f := .nspace) (by rw [hl]; decide) rfl
  have hc := value?_own value? (l := l) (f := .clusterName) (by rw [hl]; decide) rfl
  have hu := value?_url value? (l := l) (by rw [hl]; decide)
  obtain ⟨nspace, clusterName, url⟩ := c
  simp only [clusterArgs?, hn, hc, hu, ClusterArgs.Holds]
  cases value? .nspace <;> cases value? .clusterName <;> simp [eq_comm]

/-- The command that is made of the settings is the one that has the values of its flags. -/
theorem ofSettings?_eq_some {c : Command} :
    Command.ofSettings? (l.settings value?) l = some c ↔ c.Holds value? l := by
  cases l with
  | provision =>
    have hi := value?_own value? (l := .provision) (f := .clusterId) (by decide) rfl
    have hd := value?_own value? (l := .provision) (f := .baseDomain) (by decide) rfl
    have hu := value?_url value? (l := .provision) (by decide)
    simp only [Command.ofSettings?, hi, hd, hu]
    cases hi : value? .clusterId <;> cases hd : value? .baseDomain <;> cases c <;>
      simp [Command.Holds, hi, hd, eq_comm]
  | get =>
    have hn := value?_own value? (l := .get) (f := .nspace) (by decide) rfl
    have hs := value?_own value? (l := .get) (f := .secretName) (by decide) rfl
    have hd := value?_own value? (l := .get) (f := .cacheDir) (by decide) rfl
    simp only [Command.ofSettings?, hn, hs, hd]
    cases hn : value? .nspace <;> cases hs : value? .secretName <;> cases c <;>
      simp [Command.Holds, hn, hs, eq_comm]
  | service | integrationKey | deprovision =>
    simp (disch := decide) only [Command.ofSettings?, Option.map_eq_some_iff, clusterArgs?_eq_some]
    cases c <;> simp [Command.Holds]
  | program | pagerDuty | vault => cases c <;> simp [Command.ofSettings?, Command.Holds]

/-- There is such a command just if the required flags have values. -/
theorem exists_holds_iff (hl : l.isGroup = false) :
    (∃ c : Command, c.Holds value? l) ↔ ∀ f ∈ l.required, (value? f).isSome := by
  have hrequired : ∀ f g : Flag, (∀ x ∈ [f, g], (value? x).isSome) ↔
      (∃ v, value? f = some v) ∧ ∃ v, value? g = some v := by
    simp [Option.isSome_iff_exists]
  have hcluster : (∃ c : ClusterArgs, c.Holds value?) ↔
      (∃ v, value? .nspace = some v) ∧ ∃ v, value? .clusterName = some v := by
    constructor
    · rintro ⟨c, hn, hc, -⟩
      exact ⟨⟨_, hn⟩, _, hc⟩
    · rintro ⟨⟨nspace, hn⟩, clusterName, hc⟩
      exact ⟨⟨nspace, clusterName, _⟩, hn, hc, rfl⟩
  cases l with
  | provision =>
    rw [Level.required, hrequired]
    constructor
    · rintro ⟨c, hc⟩
      cases c with
      | provision => exact ⟨⟨_, hc.1⟩, _, hc.2.1⟩
      | _ => cases hc
    · rintro ⟨⟨clusterId, hi⟩, baseDomain, hd⟩
      exact ⟨.provision clusterId baseDomain _, hi, hd, rfl⟩
  | get =>
    rw [Level.required, hrequired]
    constructor
    · rintro ⟨c, hc⟩
      cases c with
      | getSecret => exact ⟨⟨_, hc.1⟩, _, hc.2.1⟩
      | _ => cases hc
    · rintro ⟨⟨nspace, hn⟩, secretName, hs⟩
      exact ⟨.getSecret nspace secretName _, hn, hs, rfl⟩
  | service | integrationKey | deprovision =>
    simp (disch := decide) only [← ofSettings?_eq_some, Command.ofSettings?,
      Option.map_eq_some_iff, clusterArgs?_eq_some]
    rw [Level.required, hrequired, ← hcluster]
    constructor
    · rintro ⟨_, c, hc, -⟩
      exact ⟨c, hc⟩
    · rintro ⟨c, hc⟩
      exact ⟨_, c, hc, rfl⟩
  | program | pagerDuty | vault => cases hl

/-- What is called for has the values of its flags. -/
theorem holds_of_invocation {i : Invocation} (h : l.invocation value? = .ok i)
    (hformat : ∀ value, value? .logFormat = some value → value = "plain" ∨ value = "json") :
    i.Holds value? l := by
  unfold Level.invocation at h
  split at h
  next c hc =>
    cases h
    refine ⟨rfl, ?_, (ofSettings?_eq_some value?).1 hc⟩
    cases hvalue : value? .logFormat with
    | none => rfl
    | some value => rcases hformat value hvalue with rfl | rfl <;> rfl
  next => cases h

end Invocation

namespace CommandLine

/-- Whether a command line can be run, and what is run then, is decided by its command and the
values of its flags: it can if and only if the required flags are given, it has their values, and
all command lines that give the same values come to the same. -/
theorem parse_by_values {env : Environment} (henv : env.Unset) (a : CommandLine) :
    ((∃ i, Invocation.parse a.args env = .ok i) ↔
      ∀ f ∈ a.level.required, f ∈ a.given.map Prod.fst) ∧
    (∀ i, Invocation.parse a.args env = .ok i → i.Holds (fun f => a.given.lookup f) a.level) ∧
    ∀ b : CommandLine, b.level = a.level → b.given.Perm a.given →
      Invocation.parse b.args env = Invocation.parse a.args env := by
  have hl := Level.isGroup_of_child a.leadsToGroup a.leadsToCommand
  have hsome : ∀ f, (a.given.lookup f).isSome ↔ f ∈ a.given.map Prod.fst := by
    intro f
    simp [List.lookup_isSome_iff]
  refine ⟨?_, fun i hi => ?_, fun b hlevel hgiven => ?_⟩
  · have hexists := exists_holds_iff (fun f => a.given.lookup f) hl
    simp only [hsome] at hexists
    rw [← hexists, parse_args a henv, Level.invocation]
    simp only [← ofSettings?_eq_some]
    cases Command.ofSettings? (a.level.settings fun f => a.given.lookup f) a.level <;> simp
  · rw [parse_args a henv] at hi
    refine holds_of_invocation _ hi fun value hvalue => ?_
    obtain ⟨front, back, hsplit, -⟩ := List.lookup_eq_some_iff.1 hvalue
    have hmem : (Flag.logFormat, value) ∈ a.given := by simp [hsplit]
    obtain ⟨c, -, hc⟩ := List.mem_map.1 hmem
    obtain ⟨hflag, rfl⟩ := Prod.mk.inj hc
    exact c.isFormat hflag
  · have honce : (b.given.map Prod.fst).Nodup := by
      have h := b.once
      rwa [given, List.map_map]
    rw [parse_args a henv, parse_args b henv, hlevel]
    exact congrArg a.level.invocation (funext fun f => Dictionary.lookup_perm hgiven honce f)

end CommandLine

/-- The same choice, written as one word. -/
def Choice.join (c : Choice) : Choice := { c with spelling := .joined, hasLetter := nofun }

def readsHelp : Choice := ⟨.kubeconfig, "help", .apart, by decide, by decide, nofun, nofun⟩

def logsJson : Choice := ⟨.logFormat, "json", .apart, by decide, by decide, by decide, nofun⟩

def inGet : Choice :=
  ⟨.nspace, "get", .letter 'n', by decide, by decide, nofun, fun _ h => by cases h; rfl⟩

def asksSecret : Choice := ⟨.secretName, "a=b", .apart, by decide, by decide, nofun, nofun⟩

/-- All flags stand behind the command, each in two words. -/
def flagsLast : CommandLine :=
  ⟨"oncall", "vault", "get", .vault, .get, [], [], [inGet, asksSecret, logsJson, readsHelp],
    rfl, rfl, by decide, by decide, by decide⟩

/-- Global flags stand before the command, and values are attached. -/
def flagsAround : CommandLine :=
  ⟨"oncall", "vault", "get", .vault, .get, [logsJson.join], [readsHelp],
    [asksSecret.join, inGet.join], rfl, rfl, by decide, by decide, by decide⟩

theorem parse_by_values_around :
    flagsLast.args = ["oncall", "vault", "get", "-n", "get", "--secret-name", "a=b",
      "--log-format", "json", "--kubeconfig", "help"] ∧
    flagsAround.args = ["oncall", "--log-format=json", "vault", "--kubeconfig", "help", "get",
      "--secret-name=a=b", "--namespace=get"] ∧
    Invocation.parse flagsAround.args [] = Invocation.parse flagsLast.args [] ∧
    ∃ i, Invocation.parse flagsLast.args [] = .ok i ∧ i.kubeconfig = some "help" ∧
      i.logFormat.name = "json" ∧ i.command = .getSecret "get" "a=b" none := by
  have henv : Environment.Unset [] := fun _ _ _ => rfl
  obtain ⟨hok, hholds, hsame⟩ := CommandLine.parse_by_values henv flagsLast
  refine ⟨by decide, by decide, hsame flagsAround rfl (by decide), ?_⟩
  obtain ⟨i, hi⟩ := hok.2 (by decide)
  obtain ⟨hkubeconfig, hformat, hcommand⟩ := hholds i hi
  have hmade := (ofSettings?_eq_some fun f => flagsLast.given.lookup f).2 hcommand
  exact ⟨i, hi, hkubeconfig, hformat, (Option.some.inj hmade).symm⟩

end Oncall.Cli
