import Oncall.Proofs.PagerDuty.RoundTrip
import Oncall.Proofs.Url.Form

/-!
Listing against a server that pages honestly. Such a server holds a list of services; asked from an
offset within it, it sends as many of the next services as it likes, at least one, and says whether
more follow. However it cuts the list, a client gets all of it, once, for one request a page.
-/

namespace Oncall

/-- The offset that a request asks from: the last parameter of its query. -/
def Http.Request.offset? (r : Http.Request) : Option Nat :=
  let (name, value) := Parts.cut (· = '=') (Parts.afterLast (· = '&') r.target.toList)
  if name = "offset".toList then some (Nat.ofDigitChars 10 (value.drop 1) 0) else none

namespace PagerDuty

open Http Json

/-- The page in a delivery, if it brings one. -/
def pageIn (d : Delivery) : Option ServiceList :=
  d.response?.bind fun r => if r.isSuccess then readAs? ServiceList.ofNode? r.body else none

/-- The body of a page as a server writes it. -/
def pageBody (page : List Service) (more : Bool) : Bytes :=
  Utf8.encode (membersOf [("services", some (.array (page.map Service.value))),
    ("more", some (.bool more))]).toString.toList

theorem pageIn_success (body : Bytes) :
    pageIn (.response 200 body) = readAs? ServiceList.ofNode? body := rfl

/-- A page in a successful response is read as it was sent. -/
theorem pageIn_pageBody (page : List Service) (more : Bool) :
    pageIn (.response 200 (pageBody page more)) =
      some ⟨page.map fun s => { s with integrations := [] }, more⟩ := by
  rw [pageIn_success]
  exact readAs?_of_reads (isTextOf_bytes (ServiceList.legible page more))
    (ServiceList.reads page more)

/-- The request for the page at an offset, as the server at the address receives it. -/
def Client.pageRequest (c : Client) (u : Url) (query : String) (offset : Nat) : Request :=
  (c.pageDraft query offset).request u

/-- A server that has these services: asked from an offset within them it sends a page of the next
ones, of any length but not empty, and says whether more follow. Without services the page is
empty. -/
def Pages (conduct : Conduct) (ask : Nat → Request) (services : List Service) : Prop :=
  ∀ before offset, offset < services.length ∨ services = [] ∧ offset = 0 →
    ∃ k, 1 ≤ k ∧ pageIn (conduct before (ask offset)) =
      some ⟨(services.drop offset).take k, decide (offset + k < services.length)⟩

/-- The requests of a listing from an offset to the last page, each with the page it is answered
with: every request asks from behind the pages before it. -/
inductive Exchanges (conduct : Conduct) :
    List Request → Nat → List (Request × List Service) → Prop
  | last {before : List Request} {r : Request} {offset : Nat} {page : List Service}
      (hr : r.offset? = some offset) (h : pageIn (conduct before r) = some ⟨page, false⟩) :
      Exchanges conduct before offset [(r, page)]
  | more {before : List Request} {r : Request} {offset : Nat} {page : List Service}
      {rest : List (Request × List Service)} (hr : r.offset? = some offset)
      (h : pageIn (conduct before r) = some ⟨page, true⟩)
      (hrest : Exchanges conduct (before ++ [r]) (offset + page.length) rest) :
      Exchanges conduct before offset ((r, page) :: rest)

namespace Client

/-- The client's requests for pages get as far as the peer. -/
structure Reaches (c : Client) (u : Url) (p : Peer) : Prop where
  address : Url.parse? (c.baseUrl ++ "/services") = some u
  admitted : p.admits (c.draft .get "/services") u

variable {c : Client} {query : String} {u : Url} {p : Peer}

theorem Reaches.taken (h : c.Reaches u p) (r : Request) : c.Reaches u (p.taken r) := ⟨h.1, h.2⟩

theorem offset?_pageRequest (c : Client) (u : Url) (query : String) (offset : Nat) :
    (c.pageRequest u query offset).offset? = some offset := by
  obtain ⟨front, hfront⟩ : ∃ front, (c.pageRequest u query offset).target.toList =
      front ++ '&' :: ("offset".toList ++ '=' :: Nat.toDigits 10 offset) := by
    obtain ⟨front, hfront⟩ := u.target_addPairs (c.pageDraft query offset).pairs (by simp [pageDraft])
    have hlast : Form.encodePair ("offset", toString offset) =
        "offset".toList ++ '=' :: Nat.toDigits 10 offset := by
      rw [Form.encodePair, Form.encodeText_toString, show Form.encodeText "offset" = "offset".toList by decide]
    refine ⟨front ++ (Form.encodePair ("query", query) ++ '&' ::
      (Form.encodePair ("include[]", "integrations") ++ '&' ::
        Form.encodePair ("limit", toString pageLimit))), ?_⟩
    rw [pageRequest, Draft.request, hfront, ← hlast]
    simp only [pageDraft, Form.encode, List.append_assoc, List.cons_append]
  have hdigits : ∀ x ∈ Nat.toDigits 10 offset, x.isDigit := fun x hx =>
    Nat.isDigit_of_mem_toDigits (by omega) (by omega) hx
  have hplain : ∀ x ∈ "offset".toList ++ '=' :: Nat.toDigits 10 offset,
      decide (x = '&') = false := by
    intro x hx
    rw [decide_eq_false_iff_not]
    rintro rfl
    simp only [List.mem_append, List.mem_cons] at hx
    rcases hx with hx | hx | hx
    · exact absurd hx (by decide)
    · exact absurd hx (by decide)
    · exact absurd (hdigits _ hx) (by decide)
  rw [Request.offset?, hfront, Parts.afterLast_append (by simp) hplain]
  simp [Parts.cut, Nat.ofDigitChars_ten_toDigits]

theorem exchange_pageDraft (h : c.Reaches u p) (query : String) (offset : Nat) :
    p.exchange (c.pageDraft query offset) =
      (p.next.response?, p.taken (c.pageRequest u query offset)) := by
  have hp : p.admits (c.pageDraft query offset) u := h.admitted
  rw [Peer.exchange, show (c.pageDraft query offset).url = c.baseUrl ++ "/services" from rfl,
    h.address]
  simp only [Peer.send, hp, if_true]
  rfl

theorem page_snd (h : c.Reaches u p) (query : String) (offset : Nat) :
    (c.page query offset p).2 = p.taken (c.pageRequest u query offset) := by
  rw [page, send, body, exchange_pageDraft h]
  cases p.next.response? <;> rfl

theorem page_of_pageIn (h : c.Reaches u p) (query : String) (offset : Nat) {l : ServiceList}
    (hl : pageIn p.next = some l) :
    c.page query offset p = (.ok l, p.taken (c.pageRequest u query offset)) := by
  refine Prod.ext ?_ (page_snd h query offset)
  rw [page, send, body, exchange_pageDraft h]
  cases hr : p.next.response? with
  | none => simp [pageIn, hr] at hl
  | some r =>
    simp only [pageIn, hr, Option.bind_some] at hl
    split at hl
    · simp [decoded, *]
    · cases hl

theorem listFrom_of_page {found : List Service} {l : ServiceList} {q : Peer}
    (h : c.page query found.length p = (.ok l, q)) :
    c.listFrom query found p =
      if !l.more || l.services.isEmpty then (.ok (found ++ l.services), q)
      else c.listFrom query (found ++ l.services) q := by
  rw [listFrom]
  split
  · next h' => cases h.symm.trans h'
  · next h' =>
    cases h.symm.trans h'
    rfl

/-- A listing asks for a page first, and only adds to what the peer has received. -/
theorem received_listFrom (query : String) (found : List Service) (h : c.Reaches u p) :
    ∃ rs, (c.listFrom query found p).2.received =
      p.received ++ c.pageRequest u query found.length :: rs := by
  fun_induction listFrom c query found p with
  | case1 found p e q hq =>
    have htaken := page_snd h query found.length
    rw [hq] at htaken
    exact ⟨[], congrArg Peer.received htaken⟩
  | case2 found p l q hq _ =>
    have htaken := page_snd h query found.length
    rw [hq] at htaken
    exact ⟨[], congrArg Peer.received htaken⟩
  | case3 found p l q hq _ ih =>
    have htaken := page_snd h query found.length
    rw [hq] at htaken
    subst htaken
    obtain ⟨rs, hrs⟩ := ih (h.taken _)
    exact ⟨_, hrs.trans (List.append_assoc ..)⟩

/-- Induction on the services that are still to come: the pages tile them. -/
theorem listFrom_exchanges {conduct : Conduct} {services : List Service}
    (hpages : Pages conduct (c.pageRequest u query) services) (found rest : List Service) (p : Peer)
    (hs : services = found ++ rest) (hrest : rest ≠ [] ∨ services = []) (hp : c.Reaches u p)
    (hfollows : p.Follows conduct (c.listFrom query found p).2) :
    ∃ exchanges, Exchanges conduct p.received found.length exchanges ∧
      (exchanges.map Prod.snd).flatten = rest ∧
      c.listFrom query found p = (.ok services,
        { p with
          script := p.script.drop exchanges.length
          received := p.received ++ exchanges.map Prod.fst }) := by
  have hwithin : found.length < services.length ∨ services = [] ∧ found.length = 0 := by
    rcases hrest with h | rfl
    · exact .inl (by simp [hs, List.length_pos_iff.mpr h])
    · simp_all
  obtain ⟨k, hk, hpage⟩ := hpages p.received found.length hwithin
  have hcut : services.drop found.length = rest := by simp [hs]
  have hmore : decide (found.length + k < services.length) = decide (k < rest.length) := by
    simp [hs]
  rw [hcut, hmore] at hpage
  obtain ⟨rs, hrs⟩ := received_listFrom query found hp
  have hloop := listFrom_of_page
    (page_of_pageIn hp query found.length (by rw [hfollows.next hrs]; exact hpage))
  by_cases hlast : k < rest.length
  · -- a page that is not the last: the rest is listed from behind it
    have hne : rest.take k ≠ [] := by
      intro h
      have := congrArg List.length h
      simp only [List.length_take, List.length_nil] at this
      omega
    have hgo : (!decide (k < rest.length) || (rest.take k).isEmpty) = false := by
      simp [hlast, hne]
    rw [hgo, if_neg (by decide)] at hloop
    rw [hloop] at hfollows ⊢
    obtain ⟨exchanges, hex, hflat, hrun⟩ := listFrom_exchanges hpages (found ++ rest.take k)
      (rest.drop k) (p.taken (c.pageRequest u query found.length)) (by simp [hs])
      (.inl (by simpa using hlast)) (hp.taken _) (hfollows.taken _)
    refine ⟨_ :: exchanges, .more (c.offset?_pageRequest u query found.length)
      (by simpa [hlast] using hpage) (by simpa [Peer.taken] using hex), ?_, ?_⟩
    · simp [hflat]
    · simpa [Peer.taken, List.drop_drop, Nat.add_comm] using hrun
  · have hstop : (!decide (k < rest.length) || (rest.take k).isEmpty) = true := by simp [hlast]
    rw [hstop, if_pos rfl] at hloop
    have hall : rest.take k = rest := List.take_of_length_le (by omega)
    rw [hall] at hpage hloop
    refine ⟨[_], .last (c.offset?_pageRequest u query found.length)
      (by simpa [hlast] using hpage), by simp, ?_⟩
    rw [hloop, ← hs]
    simp [Peer.taken]
  termination_by rest.length
  decreasing_by simp; omega

end Client

/-- However a server cuts its services into pages, a listing returns all of them, in order, and
sends exactly one request for each page, at the offset that the pages before it reach. -/
theorem listServices_pages {conduct : Conduct} {services : List Service} (c : Client)
    (query : String) {u : Url} {p : Peer}
    (hpages : Pages conduct (c.pageRequest u query) services) (hp : c.Reaches u p)
    (hfollows : p.Follows conduct (c.answer (.listServices query) p).2) :
    ∃ exchanges, Exchanges conduct p.received 0 exchanges ∧
      (exchanges.map Prod.snd).flatten = services ∧
      (c.answer (.listServices query) p).1 = .ok services ∧
      (c.answer (.listServices query) p).2.received =
        p.received ++ exchanges.map Prod.fst := by
  obtain ⟨exchanges, hex, hflat, hrun⟩ := Client.listFrom_exchanges hpages [] services p rfl
    (by by_cases h : services = [] <;> simp [h]) hp hfollows
  refine ⟨exchanges, hex, hflat, ?_, ?_⟩
  · exact congrArg Prod.fst hrun
  · exact congrArg (Peer.received ∘ Prod.snd) hrun

/-- A server that sends two services and one in turn. -/
def alternating (services : List Service) : Conduct := fun before r =>
  match r.offset? with
  | some offset =>
    let k := 2 - before.length % 2
    .response 200 (pageBody ((services.drop offset).take k) (offset + k < services.length))
  | none => .dropped

theorem alternating_pages {services : List Service} (h : ∀ s ∈ services, s.integrations = [])
    {ask : Nat → Request} (hask : ∀ o, (ask o).offset? = some o) :
    Pages (alternating services) ask services := by
  intro before offset _
  refine ⟨2 - before.length % 2, by omega, ?_⟩
  have hbare : ∀ s ∈ (services.drop offset).take (2 - before.length % 2),
      { s with integrations := [] } = s := fun s hs => by
    rw [← h s (List.mem_of_mem_drop (List.mem_of_mem_take hs))]
  simp only [alternating, hask, pageIn_pageBody]
  rw [List.map_congr_left hbare, List.map_id']

def threeServices : List Service :=
  ["a", "b", "c"].map fun name => ⟨"", name, "", ⟨"e", ""⟩, none, none, none, []⟩

def lister : Client := ⟨"http://pd", "k"⟩

def listerUrl : Url := ⟨false, "pd".toList, none, "/services".toList, none⟩

/-- Three services on two pages. -/
theorem listServices_two_pages :
    let p : Peer := ⟨[.plain "pd"], true, [.response 200 (pageBody (threeServices.take 2) true),
      .response 200 (pageBody (threeServices.drop 2) false)], []⟩
    ∃ exchanges, Exchanges (alternating threeServices) p.received 0 exchanges ∧
      (exchanges.map Prod.snd).flatten = threeServices ∧
      (lister.answer (.listServices "x") p).1 = .ok threeServices ∧
      (lister.answer (.listServices "x") p).2.received =
        p.received ++ exchanges.map Prod.fst := by
  intro p
  have hask := lister.offset?_pageRequest listerUrl "x"
  have hreach : lister.Reaches listerUrl p := ⟨by decide +kernel, by decide +kernel⟩
  have hq : (lister.answer (.listServices "x") p).2.received =
      [lister.pageRequest listerUrl "x" 0, lister.pageRequest listerUrl "x" 2] := by
    decide +kernel
  have hfirst : alternating threeServices [] (lister.pageRequest listerUrl "x" 0) =
      .response 200 (pageBody (threeServices.take 2) true) := by
    rw [alternating, hask]
    rfl
  have hsecond : alternating threeServices [lister.pageRequest listerUrl "x" 0]
      (lister.pageRequest listerUrl "x" 2) =
        .response 200 (pageBody (threeServices.drop 2) false) := by
    rw [alternating, hask]
    rfl
  have hfollows : p.Follows (alternating threeServices)
      (lister.answer (.listServices "x") p).2 := by
    rintro (_ | _ | n) r h
    · rw [hq] at h
      obtain rfl := Option.some.inj h
      rw [hq]
      exact congrArg some hfirst.symm
    · rw [hq] at h
      obtain rfl := Option.some.inj h
      rw [hq]
      exact congrArg some hsecond.symm
    · rw [hq] at h
      cases h
  exact listServices_pages lister "x" (alternating_pages (by decide) hask) hreach hfollows

end PagerDuty

end Oncall
