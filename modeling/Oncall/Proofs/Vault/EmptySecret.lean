import Oncall.Proofs.Vault.Lookup

/-! Empty secrets. No value of Vault is an empty text, so none is returned or saved; but a file that
is empty is served like any other. A lookup returns an empty text just where its file is empty and
young enough, and no lookup makes such a file. -/

namespace Oncall.Vault

theorem extract_ne_empty (r : SecretResponse) (path property : String) :
    (r.extract path property).2 ≠ .ok "" := by
  rw [SecretResponse.extract]
  split
  · dsimp only
    split
    · exact nofun
    · split
      · exact nofun
      · split
        · exact nofun
        next hfull => exact fun h => hfull (by rw [Except.ok.inj h]; rfl)
  · exact nofun

/-- Vault's word is never an empty text. -/
theorem Access.secret_ne_empty (a : Access) (reply : Except ApiError SecretResponse) :
    a.secret reply ≠ .ok "" := by
  cases reply with
  | error e => exact nofun
  | ok r => exact extract_ne_empty r a.fullPath a.property

theorem encode_eq_nil {text : String} (h : Utf8.encode text.toList = []) : text = "" :=
  String.toList_inj.1 (Utf8.encode_injective h)

namespace Cache

variable {W : Type} {answer : (c : CacheCall) → W → c.Reply × W} {files : W → FileSystem}
  {c : Cache} {a b : Access} {w : W} {o : Outcome W}

/-- An empty text is returned just where an empty file is young enough. -/
theorem eq_empty_iff (hd : FaultyDisk answer files c.dir) (a : Access) (w : W) :
    (outcome answer (c.get a).body w).result = .ok "" ↔
      c.Young (c.lookupTime answer files a w) ((files w).found? (c.path a)) ∧
        ∃ t, (files w).found? (c.path a) = some (.file [] t) := by
  constructor
  · intro hempty
    by_cases hhit : c.Hits answer files a w
    · obtain ⟨text, t, h, hserves⟩ := get_of_hit hd hhit
      obtain rfl : text = "" := Except.ok.inj (hserves.result.symm.trans hempty)
      exact ⟨hhit.1, t, h⟩
    · obtain ⟨reply, writes, hasks, -⟩ := asks_of_miss hd hhit
      exact absurd (hasks.result.symm.trans hempty) (a.secret_ne_empty reply)
  · rintro ⟨hyoung, t, h⟩
    have hserves : c.ServesText files w "" (outcome answer (c.get a).body w) :=
      get_young_text hd hyoung h
    exact hserves.result

/-- After a lookup its path leads to no empty file that was not there before. -/
theorem own_empty_file (hd : FaultyDisk answer files c.dir) {t : Instant}
    (h : (files (outcome answer (c.get a).body w).world).found? (c.path a) = some (.file [] t)) :
    (files w).found? (c.path a) = some (.file [] t) := by
  by_cases hhit : c.Hits answer files a w
  · obtain ⟨text, t', -, hserves⟩ := get_of_hit hd hhit
    exact (found?_path hserves.same).symm.trans h
  · rcases get_of_miss hd hhit with ⟨reply, -, hleft, -⟩ | hrenews
    · exact absurd (hleft.symm.trans h) (withoutFile_ne_file _ [] t)
    · cases hrenews with
      | fails _ _ hs => exact (found?_path hs).symm.trans h
      | @saves reply text saved hsecret _ hleft _ =>
        cases saved with
        | error e => exact absurd h (hleft [] t)
        | ok u =>
          obtain ⟨t', hfile⟩ := hleft
          rw [hfile] at h
          injection Option.some.inj h with hnil
          exact absurd (encode_eq_nil hnil ▸ hsecret) (a.secret_ne_empty reply)

/-- A lookup makes no empty file, neither its own nor another. -/
theorem empty_file_of_get (hd : FaultyDisk answer files c.dir) (a b : Access) {t : Instant}
    (h : (files (outcome answer (c.get a).body w).world).found? (c.path b) = some (.file [] t)) :
    (files w).found? (c.path b) = some (.file [] t) := by
  by_cases hname : cacheName a = cacheName b
  · rw [path, ← hname] at h ⊢
    exact own_empty_file hd h
  · rwa [path, (sameBut_get hd a w).found? (cacheName_plain b) hname] at h

/-- The world after lookups one after another. -/
def worldAfter (c : Cache) (answer : (c : CacheCall) → W → c.Reply × W) (accesses : List Access)
    (w : W) : W :=
  accesses.foldl (fun w a => ((c.get a).body.run answer w).2) w

/-- In a directory without empty files no number of lookups makes one. -/
theorem no_empty_file_after (hd : FaultyDisk answer files c.dir) (accesses : List Access)
    (h : ∀ b t, (files w).found? (c.path b) ≠ some (.file [] t)) (b : Access) (t : Instant) :
    (files (c.worldAfter answer accesses w)).found? (c.path b) ≠ some (.file [] t) := by
  induction accesses generalizing w with
  | nil => exact h b t
  | cons a accesses ih => exact ih fun b t hb => h b t (empty_file_of_get hd a b hb)

/-- There a lookup never returns an empty text, whatever was looked up before. -/
theorem get_ne_empty_after (hd : FaultyDisk answer files c.dir) (accesses : List Access)
    (h : ∀ b t, (files w).found? (c.path b) ≠ some (.file [] t)) (a : Access) :
    (outcome answer (c.get a).body (c.worldAfter answer accesses w)).result ≠ .ok "" := by
  rw [Ne, eq_empty_iff hd]
  rintro ⟨-, t, hfile⟩
  exact no_empty_file_after hd accesses h a t hfile

/-- A lookup returns an empty text just where its file is empty and young enough, whatever Vault
has. No lookup makes an empty file, so in a directory without one none ever returns an empty text.
-/
theorem get_empty_iff (hd : FaultyDisk answer files c.dir) (a : Access) (w : W) :
    let o := outcome answer (c.get a).body w
    let entry := (files w).found? (c.path a)
    (o.result = .ok "" ↔
      c.Young (c.lookupTime answer files a w) entry ∧ ∃ t, entry = some (.file [] t)) ∧
    (∀ b t, (files o.world).found? (c.path b) = some (.file [] t) →
      (files w).found? (c.path b) = some (.file [] t)) ∧
    ∀ accesses, (∀ b t, (files w).found? (c.path b) ≠ some (.file [] t)) →
      (outcome answer (c.get a).body (c.worldAfter answer accesses w)).result ≠ .ok "" :=
  ⟨eq_empty_iff hd a w, fun b _ h => empty_file_of_get hd a b h, fun accesses h =>
    get_ne_empty_after hd accesses h a⟩

end Cache

/-! ### An empty file -/

def kvPassword : Access := ⟨"n", "s", "p", "password", "http://vault:8200", "t", "kv", "k"⟩

/-- The file of an access is empty and new, and Vault has a value. -/
def emptied : CacheWorld :=
  let body := "\x7b\"data\":\x7b\"data\":\x7b\"password\":\"x\"\x7d\x7d\x7d"
  ⟨⟨[(["cache"], .directory .epoch), (["cache", "kv-password"], .file [] .epoch)], .epoch⟩,
    ⟨[.plain "vault:8200"], true, [.response 200 (Utf8.encode body.toList)], []⟩, []⟩

/-- An empty secret is returned although Vault has another. -/
theorem empty_file_served :
    (((⟨"/cache", defaultMaxAge⟩ : Cache).get kvPassword).body.run CacheWorld.answer emptied).1 =
        .ok "" ∧
      ((Cache.ask kvPassword).run CacheWorld.answer emptied).1 = .ok "x" := by
  decide

theorem get_empty_iff_emptied :
    let c : Cache := ⟨"/cache", defaultMaxAge⟩
    let entry := emptied.files.found? (c.path kvPassword)
    FaultyDisk CacheWorld.answerInTime CacheWorld.files c.dir ∧
      c.Young (c.lookupTime CacheWorld.answerInTime CacheWorld.files kvPassword emptied) entry ∧
      ∃ t, entry = some (.file [] t) := by
  intro c entry
  have hd : FaultyDisk CacheWorld.answerInTime CacheWorld.files c.dir :=
    (CacheWorld.disk c.dir).faulty
  exact ⟨hd, (Cache.get_empty_iff hd kvPassword emptied).1.1 (by decide)⟩

end Oncall.Vault
