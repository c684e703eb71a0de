import Oncall.Proofs.PagerDuty.Refusals
import Oncall.Proofs.Url.Form
import Oncall.Proofs.Url.Joined

/-! What a listing asks for. The query of its requests is read back as the pairs that it is made of,
whatever the text that is searched for; so no text can add a pair or change one, and the requests
for two texts are never the same. -/

namespace Oncall

open Http

/-- The query of a request, behind the question mark. -/
def Http.Request.query (r : Request) : List Char :=
  (Parts.cut (· = '?') r.target.toList).2.drop 1

theorem Http.Draft.query_request {d : Draft} {u : Url} (hu : Url.parse? d.url = some u)
    (hquestion : '?' ∉ d.url.toList) (hpairs : d.pairs ≠ []) :
    (d.request u).query = Form.encode d.pairs := by
  have hnone := Url.query_eq_none hu hquestion
  have htarget : (d.request u).target.toList = u.path ++ '?' :: Form.encode d.pairs := by
    cases hd : d.pairs with
    | nil => exact absurd hd hpairs
    | cons pair pairs => simp [request, hd, Url.addPairs, hnone, Url.target]
  rw [Request.query, htarget, Parts.cut_of_first (Url.question_not_mem_path hu)]
  rfl

namespace PagerDuty

/-- The pairs that ask for the page at an offset. -/
def pagePairs (query : String) (offset : Nat) : List (String × String) :=
  [("query", query), ("include[]", "integrations"), ("limit", "100"), ("offset", toString offset)]

namespace Client

theorem pairs_pageDraft (c : Client) (query : String) (offset : Nat) :
    (c.pageDraft query offset).pairs = pagePairs query offset := by
  rw [pageDraft, pagePairs, show toString pageLimit = "100" by decide]

variable {c : Client} {u : Url} {p : Peer}

/-- The request for a page is read as the pairs it was made of. -/
theorem decode_query_pageRequest (hbase : '?' ∉ c.baseUrl.toList)
    (hu : Url.parse? (c.baseUrl ++ "/services") = some u) (query : String) (offset : Nat) :
    Form.decode (c.pageRequest u query offset).query = pagePairs query offset := by
  have hquestion : '?' ∉ (c.baseUrl ++ "/services").toList := by
    have hpath : '?' ∉ "/services".toList := by decide
    rw [String.toList_append, List.mem_append, not_or]
    exact ⟨hbase, hpath⟩
  have hpairs := c.pairs_pageDraft query offset
  have hquery := Draft.query_request (d := c.pageDraft query offset) hu hquestion
    (by rw [hpairs]; exact List.cons_ne_nil _ _)
  rw [pageRequest, hquery, hpairs, Form.decode_encode]

/-- All requests of a listing, whatever the course it takes. -/
theorem map_decode_sent (hbase : '?' ∉ c.baseUrl.toList) (hp : c.Reaches u p) {query : String}
    {pages : List (List Service)} {result : Except ApiError (List Service)}
    (hcourse : Listing query p.script pages result) :
    (c.sent (.listServices query) p).map (fun r => Form.decode r.query) =
      (List.range (pages.length + 1)).map fun n =>
        pagePairs query (pages.take n).flatten.length := by
  rw [sent, answer, listFrom_of_listing hcourse [] hp rfl, List.drop_left, pageRequests,
    List.map_map]
  refine List.map_congr_left fun n _ => ?_
  rw [Function.comp_apply, decode_query_pageRequest hbase hp.address, List.length_nil, Nat.zero_add]

theorem sent_of_unreached (h : ∀ u, ¬ c.Reaches u p) (query : String) :
    c.sent (.listServices query) p = [] := by
  rw [sent, answer, listFrom_of_unreached h, List.drop_length]

/-- Connecting adds nothing to the base. -/
theorem not_mem_connect {baseUrl : String} {x : Char} (h : x ∉ baseUrl.toList) (apiKey : String) :
    x ∉ (connect baseUrl apiKey).baseUrl.toList := by
  rw [connect, trimEndSlashes, String.toList_ofList]
  exact fun hx => h ((Parts.trimEnd_sublist _ _).subset hx)

end Client

/-- Whatever text a listing searches for, each of its requests is read as the four pairs it was made
of: the text, the integrations, the limit, and how many services were listed before. Only a client
that does not reach its peer sends none. The requests for two texts are never the same. -/
theorem listing_query_pairs {c : Client} {baseUrl apiKey : String}
    (hc : c = Client.connect baseUrl apiKey) (hbase : '?' ∉ baseUrl.toList) :
    (∀ query offset (p : Peer) r, p.carries (c.pageDraft query offset) = some r →
      Form.decode r.query = pagePairs query offset) ∧
    (∀ query p, (∀ u, ¬ c.Reaches u p) ∧ c.sent (.listServices query) p = [] ∨
      (∃ u, c.Reaches u p) ∧ ∀ pages result, Listing query p.script pages result →
        (c.sent (.listServices query) p).map (fun r => Form.decode r.query) =
          (List.range (pages.length + 1)).map fun n =>
            pagePairs query (pages.take n).flatten.length) ∧
    ∀ query query' p p', query ≠ query' → ∀ r ∈ c.sent (.listServices query) p,
      ∀ r' ∈ c.sent (.listServices query') p', r.target ≠ r'.target := by
  have hbase' : '?' ∉ c.baseUrl.toList := hc ▸ Client.not_mem_connect hbase apiKey
  have hsent : ∀ query p, (∀ u, ¬ c.Reaches u p) ∧ c.sent (.listServices query) p = [] ∨
      (∃ u, c.Reaches u p) ∧ ∀ pages result, Listing query p.script pages result →
        (c.sent (.listServices query) p).map (fun r => Form.decode r.query) =
          (List.range (pages.length + 1)).map fun n =>
            pagePairs query (pages.take n).flatten.length := by
    intro query p
    by_cases hp : ∃ u, c.Reaches u p
    · obtain ⟨u, hp⟩ := hp
      exact .inr ⟨⟨u, hp⟩, fun pages result hcourse => Client.map_decode_sent hbase' hp hcourse⟩
    · have hnone : ∀ u, ¬ c.Reaches u p := not_exists.1 hp
      exact .inl ⟨hnone, Client.sent_of_unreached hnone query⟩
  -- Every script is gone through in some way, so each request is one of a course.
  have hread : ∀ query p, ∀ r ∈ c.sent (.listServices query) p, ∃ offset,
      Form.decode r.query = pagePairs query offset := by
    intro query p r hr
    obtain ⟨pages, result, hcourse⟩ := exists_listing query p.script
    rcases hsent query p with ⟨-, hnone⟩ | ⟨-, hall⟩
    · rw [hnone] at hr
      cases hr
    · have hmem := List.mem_map_of_mem (f := fun r => Form.decode r.query) hr
      rw [hall pages result hcourse] at hmem
      obtain ⟨n, -, hn⟩ := List.mem_map.1 hmem
      exact ⟨_, hn.symm⟩
  refine ⟨fun query offset p r hr => ?_, hsent, fun query query' p p' hne r hr r' hr' htarget => ?_⟩
  · obtain ⟨u, hu, -, rfl⟩ := Peer.carries_eq_some_iff.1 hr
    exact Client.decode_query_pageRequest hbase' hu query offset
  · obtain ⟨offset, hpairs⟩ := hread query p r hr
    obtain ⟨offset', hpairs'⟩ := hread query' p' r' hr'
    have hquery : r.query = r'.query := by rw [Request.query, Request.query, htarget]
    rw [hquery, hpairs'] at hpairs
    exact hne (Prod.mk.inj (List.cons.inj hpairs).1).2.symm

/-- A text of separators, escapes and blanks behind a base with a path: a listing that breaks off has
sent one request. -/
theorem listing_query_pairs_separators :
    let c := Client.connect "http://pd/api/" "k"
    let p : Peer := ⟨[.plain "pd"], true, [.truncated], []⟩
    let query := "a&limit=1+%26 #é"
    let r (offset : String) : Request :=
      ⟨.plain "pd", .get, "/api/services?query=a%26limit%3D1%2B%2526+%23%C3%A9" ++
        "&include%5B%5D=integrations&limit=100&offset=" ++ offset, c.headers, ""⟩
    '?' ∉ "http://pd/api/".toList ∧ p.carries (c.pageDraft query 7) = some (r "7") ∧
      Form.decode (r "7").query = pagePairs query 7 ∧
      c.sent (.listServices query) p = [r "0"] ∧ Form.decode (r "0").query = pagePairs query 0 := by
  intro c p query r
  have hbase : '?' ∉ "http://pd/api/".toList := by decide
  have hdraft : p.carries (c.pageDraft query 7) = some (r "7") := by decide +kernel
  have hsent : c.sent (.listServices query) p = [r "0"] := by decide +kernel
  have hpairs := listing_query_pairs (c := c) rfl hbase
  refine ⟨hbase, hdraft, hpairs.1 _ 7 p _ hdraft, hsent, ?_⟩
  rcases hpairs.2.1 query p with ⟨-, hnone⟩ | ⟨-, hall⟩
  · rw [hsent] at hnone
    cases hnone
  · have hread := hall [] _ (.failed (.lost rfl))
    rw [hsent] at hread
    exact (List.cons.inj hread).1

end PagerDuty
end Oncall
