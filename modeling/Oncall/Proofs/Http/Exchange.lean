import Oncall.Http

/-! What an exchange does to a peer. A draft leads to one request or to none, whatever the peer makes
of it, and the peer keeps what it has received. -/

namespace Oncall.Http

/-- How a server answers: by the requests that it has had, and the one it is asked. -/
abbrev Conduct : Type := List Request → Request → Delivery

namespace Peer

variable {p q q' : Peer} {d : Draft} {u : Url} {r : Request}

/-- The peer after one request, whatever its answer. -/
def taken (p : Peer) (r : Request) : Peer :=
  { p with script := p.script.tail, received := p.received ++ [r] }

/-! ### The request of a draft -/

/-- The request that gets as far as the peer, if a draft leads to one. -/
def carries (p : Peer) (d : Draft) : Option Request :=
  (Url.parse? d.url).bind fun u => if p.admits d u then some (d.request u) else none

theorem carries_eq_some_iff : p.carries d = some r ↔
    ∃ u, Url.parse? d.url = some u ∧ p.admits d u = true ∧ d.request u = r := by
  simp [carries, Option.bind_eq_some_iff]

theorem carries_of_admits (hu : Url.parse? d.url = some u) (h : p.admits d u = true) :
    p.carries d = some (d.request u) :=
  carries_eq_some_iff.2 ⟨u, hu, h, rfl⟩

/-- An exchange is the peer's next delivery for a request that gets there. -/
theorem exchange_eq (p : Peer) (d : Draft) :
    p.exchange d = match p.carries d with
      | none => (none, p)
      | some r => (p.next.response?, p.taken r) := by
  unfold exchange carries send
  cases Url.parse? d.url with
  | none => rfl
  | some u =>
    simp only [Option.bind_some]
    by_cases h : p.admits d u = true <;> simp [h, accept, taken]

theorem received_exchange (p : Peer) (d : Draft) :
    (p.exchange d).2.received = p.received ++ (p.carries d).toList := by
  rw [exchange_eq]
  cases p.carries d with
  | none => exact (List.append_nil _).symm
  | some r => rfl

/-- A draft that got a response reached the peer. -/
theorem exchange_of_some {response : Response} (h : p.exchange d = (some response, q)) :
    ∃ u, Url.parse? d.url = some u ∧ p.admits d u = true ∧ p.next.response? = some response ∧
      p.taken (d.request u) = q := by
  rw [exchange_eq] at h
  cases hr : p.carries d with
  | none =>
    rw [hr] at h
    cases h
  | some r =>
    rw [hr] at h
    obtain ⟨u, hu, hadmits, rfl⟩ := carries_eq_some_iff.1 hr
    obtain ⟨hresponse, hq⟩ := Prod.mk.inj h
    exact ⟨u, hu, hadmits, hresponse, hq⟩

/-! ### Requests of one method -/

/-- From one state of a peer to another it received requests of one method. -/
def Grows (m : Method) (p q : Peer) : Prop :=
  ∃ rs, q.received = p.received ++ rs ∧ ∀ r ∈ rs, r.method = m

variable {m : Method}

theorem Grows.refl (m : Method) (p : Peer) : Grows m p p := ⟨[], by simp, nofun⟩

theorem Grows.trans (h : Grows m p q) (h' : Grows m q q') : Grows m p q' := by
  obtain ⟨rs, hrs, hall⟩ := h
  obtain ⟨rs', hrs', hall'⟩ := h'
  refine ⟨rs ++ rs', by rw [hrs', hrs, List.append_assoc], fun r hr => ?_⟩
  rcases List.mem_append.1 hr with hr | hr
  · exact hall r hr
  · exact hall' r hr

theorem grows_send (p : Peer) (d : Draft) (u : Url) : Grows d.method p (p.send d u).2 := by
  unfold send
  split
  · exact ⟨[d.request u], rfl, by simp [Draft.request]⟩
  · exact .refl _ p

theorem grows_exchange (p : Peer) (d : Draft) : Grows d.method p (p.exchange d).2 := by
  unfold exchange
  split
  · exact .refl _ p
  · exact grows_send p d _

/-! ### Servers -/

/-- From one state of a peer to another, every request is answered as the server answers it. -/
def Follows (conduct : Conduct) (p q : Peer) : Prop :=
  ∀ n r, q.received[p.received.length + n]? = some r →
    p.script[n]? = some (conduct (q.received.take (p.received.length + n)) r)

variable {conduct : Conduct} {rs : List Request}

theorem Follows.next (h : Follows conduct p q) (hq : q.received = p.received ++ r :: rs) :
    p.next = conduct p.received r := by
  have h0 := h 0 r (by simp [hq])
  simp only [hq, Nat.add_zero, List.take_left] at h0
  rw [Peer.next, List.head?_eq_getElem?, h0]
  rfl

theorem Follows.taken (h : Follows conduct p q) (r : Request) : Follows conduct (p.taken r) q := by
  intro n x hx
  simp only [Peer.taken, List.length_append, List.length_singleton, Nat.add_assoc] at hx ⊢
  rw [List.getElem?_tail, Nat.add_comm n 1]
  exact h (1 + n) x hx

end Peer

end Oncall.Http
