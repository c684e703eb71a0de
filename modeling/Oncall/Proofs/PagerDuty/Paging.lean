import Oncall.Proofs.PagerDuty.Adoption
import Oncall.Proofs.PagerDuty.Token

/-! Listing on any script. A listing goes through the deliveries of its peer one after the other:
pages that hold services and say that more follow, and then the delivery that stops it. Whatever the
pages hold, each request asks from behind the services of the pages before it, and what is returned
is all of the services or, if the stop is a failure, none. -/

namespace Oncall.PagerDuty

open Http Json

/-- Why a delivery is no page. -/
inductive NoPage (query : String) (d : Delivery) : ApiError → Prop
  | lost (h : d.response? = none) : NoPage query d .transport
  | refused {r : Response} (h : d.response? = some r) (hr : r.isSuccess = false) :
      NoPage query d (.classify r.status r.body "services" query)
  | undecodable {r : Response} (h : d.response? = some r) (hr : r.isSuccess = true)
      (hbody : readAs? ServiceList.ofNode? r.body = none) : NoPage query d .decode

/-- The course of a listing through a script: the pages before its stop, and its result. -/
inductive Listing (query : String) :
    List Delivery → List (List Service) → Except ApiError (List Service) → Prop
  | usedUp : Listing query [] [] (.error .transport)
  | failed {d : Delivery} {ds : List Delivery} {e : ApiError} (h : NoPage query d e) :
      Listing query (d :: ds) [] (.error e)
  | last {d : Delivery} {ds : List Delivery} {l : ServiceList} (h : pageIn d = some l)
      (hl : l.services = [] ∨ l.more = false) : Listing query (d :: ds) [] (.ok l.services)
  | goesOn {d : Delivery} {ds : List Delivery} {page : List Service} {pages : List (List Service)}
      {result : Except ApiError (List Service)} (h : pageIn d = some ⟨page, true⟩)
      (hne : page ≠ []) (hrest : Listing query ds pages result) :
      Listing query (d :: ds) (page :: pages) (result.map (page ++ ·))

theorem exists_noPage (query : String) {d : Delivery} (h : pageIn d = none) :
    ∃ e, NoPage query d e := by
  cases hr : d.response? with
  | none => exact ⟨_, .lost hr⟩
  | some r =>
    cases hs : r.isSuccess with
    | false => exact ⟨_, .refused hr hs⟩
    | true =>
      simp only [pageIn, hr, Option.bind_some, hs, if_true] at h
      exact ⟨_, .undecodable hr hs h⟩

/-- Every script is gone through in some way. -/
theorem exists_listing (query : String) (ds : List Delivery) :
    ∃ pages result, Listing query ds pages result := by
  induction ds with
  | nil => exact ⟨_, _, .usedUp⟩
  | cons d ds ih =>
    cases hd : pageIn d with
    | none =>
      obtain ⟨e, he⟩ := exists_noPage query hd
      exact ⟨_, _, .failed he⟩
    | some l =>
      obtain ⟨services, more⟩ := l
      by_cases hl : services = [] ∨ more = false
      · exact ⟨_, _, .last hd hl⟩
      · rw [not_or, Bool.not_eq_false] at hl
        obtain ⟨hne, rfl⟩ := hl
        obtain ⟨pages, result, hrest⟩ := ih
        exact ⟨_, _, .goesOn hd hne hrest⟩

namespace Client

variable {c : Client} {query : String} {u : Url} {p : Peer}

theorem page_of_noPage (h : c.Reaches u p) (offset : Nat) {e : ApiError}
    (he : NoPage query p.next e) :
    c.page query offset p = (.error e, p.taken (c.pageRequest u query offset)) := by
  refine Prod.ext ?_ (page_snd h query offset)
  rw [page, send, body, exchange_pageDraft h]
  cases he with
  | lost hr => rw [hr]; rfl
  | refused hr hs => rw [hr]; simp [decoded, hs]
  | undecodable hr hs hbody => rw [hr]; simp [decoded, hs, hbody]

/-- The requests of a listing that goes on through pages: each asks from behind the pages before
it. -/
def pageRequests (c : Client) (u : Url) (query : String) (offset : Nat)
    (pages : List (List Service)) : List Request :=
  (List.range (pages.length + 1)).map fun n =>
    c.pageRequest u query (offset + (pages.take n).flatten.length)

theorem pageRequests_cons (c : Client) (u : Url) (query : String) (offset : Nat)
    (page : List Service) (pages : List (List Service)) :
    c.pageRequests u query offset (page :: pages) =
      c.pageRequest u query offset :: c.pageRequests u query (offset + page.length) pages := by
  simp only [pageRequests, List.length_cons, List.range_succ_eq_map (n := pages.length + 1),
    List.map_cons, List.map_map, List.take_zero, List.flatten_nil, List.length_nil, Nat.add_zero]
  congr 1
  refine List.map_congr_left fun n _ => ?_
  simp only [Function.comp_apply, List.take_succ_cons, List.flatten_cons, List.length_append,
    Nat.add_assoc]

/-- Induction on the course: one request for each delivery that it goes through. -/
theorem listFrom_of_listing {ds : List Delivery} {pages : List (List Service)}
    {result : Except ApiError (List Service)} (hcourse : Listing query ds pages result)
    (found : List Service) (hp : c.Reaches u p) (hscript : p.script = ds) :
    c.listFrom query found p = (result.map (found ++ ·),
      { p with
        script := ds.drop (pages.length + 1)
        received := p.received ++ c.pageRequests u query found.length pages }) := by
  induction hcourse generalizing p found with
  | usedUp =>
    have hnone : NoPage query p.next .transport := .lost (by rw [Peer.next, hscript]; rfl)
    rw [listFrom_of_error (page_of_noPage hp found.length hnone)]
    simp [Peer.taken, hscript, pageRequests, Except.map]
  | @failed d ds e he =>
    have hnext : p.next = d := by rw [Peer.next, hscript]; rfl
    rw [listFrom_of_error (page_of_noPage hp found.length (hnext ▸ he))]
    simp [Peer.taken, hscript, pageRequests, Except.map]
  | @last d ds l hd hl =>
    have hnext : p.next = d := by rw [Peer.next, hscript]; rfl
    have hstop : (!l.more || l.services.isEmpty) = true := by
      rcases hl with h | h <;> simp [h]
    rw [listFrom_of_page (page_of_pageIn hp query found.length (hnext ▸ hd)), if_pos hstop]
    simp [Peer.taken, hscript, pageRequests, Except.map]
  | @goesOn d ds page pages result hd hne _ ih =>
    have hnext : p.next = d := by rw [Peer.next, hscript]; rfl
    rw [listFrom_of_page (page_of_pageIn hp query found.length (hnext ▸ hd)),
      if_neg (by simp [hne]), ih (found ++ page) (hp.taken _) (by rw [Peer.taken, hscript]; rfl)]
    refine Prod.ext ?_ ?_
    · cases result <;> simp [Except.map]
    · simp [Peer.taken, pageRequests_cons]

end Client

/-- On whatever script, a listing takes one course: it asks for one page after the other, each from
behind the services of the pages before it, up to the delivery that stops it. That is a page that is
empty or says that no more follow, a delivery that is no page, or the end of the script. It returns
the services of all pages, or why it could not go on and none of them, and leaves the rest of the
script. -/
theorem listServices_stops (c : Client) (query : String) {u : Url} {p : Peer}
    (hp : c.Reaches u p) :
    (∃ pages result, Listing query p.script pages result) ∧
    ∀ pages result, Listing query p.script pages result →
      c.answer (.listServices query) p = (result,
        { p with
          script := p.script.drop (pages.length + 1)
          received := p.received ++ (List.range (pages.length + 1)).map fun n =>
            c.pageRequest u query (pages.take n).flatten.length }) := by
  refine ⟨exists_listing query p.script, fun pages result hcourse => ?_⟩
  have hrun := Client.listFrom_of_listing hcourse [] hp rfl
  have hresult : result.map ([] ++ ·) = result := by cases result <;> rfl
  rw [hresult] at hrun
  rw [Client.answer, hrun]
  simp only [Client.pageRequests, List.length_nil, Nat.zero_add]

/-- Pages of two services and of one that announce more, and then a response that breaks off: three
requests, no service, and a delivery left over. -/
theorem listServices_stops_third :
    let page (services : List Service) : Delivery := .response 200 (pageBody services true)
    let p : Peer := ⟨[.plain "pd"], true, [page (threeServices.take 2), page (threeServices.drop 2),
      .truncated, page []], []⟩
    lister.Reaches listerUrl p ∧
      lister.answer (.listServices "x") p = (.error .transport,
        ⟨[.plain "pd"], true, [page []], [0, 2, 3].map (lister.pageRequest listerUrl "x")⟩) := by
  intro page p
  have hp : lister.Reaches listerUrl p := ⟨by decide +kernel, by decide +kernel⟩
  have hcourse : Listing "x" p.script [threeServices.take 2, threeServices.drop 2]
      (.error .transport) :=
    .goesOn (pageIn_pageBody _ _) (by decide)
      (.goesOn (pageIn_pageBody _ _) (by decide) (.failed (.lost rfl)))
  have hoffsets : (List.range 3).map (fun n =>
      ([threeServices.take 2, threeServices.drop 2].take n).flatten.length) = [0, 2, 3] := by
    decide
  refine ⟨hp, ?_⟩
  rw [(listServices_stops lister "x" hp).2 _ _ hcourse, ← hoffsets, List.map_map]
  rfl

end Oncall.PagerDuty
