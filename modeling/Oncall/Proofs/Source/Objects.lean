import Oncall.Proofs.Dictionary
import Oncall.Proofs.Json.Record
import Oncall.Proofs.Text.Base64
import Oncall.Source.Kubernetes

/-! Objects of the Kubernetes API as their text may state them: members in any order, the data under
one of them or left out, and whatever else an object of the kind may hold. However an object is
written, what is read of it is its data. -/

namespace Oncall.Kubernetes

open Json

variable {α : Type}

/-! ### Data -/

/-- What an object states under `data`: nothing, `null`, or the entries of a dictionary in any
order. -/
inductive IsData (item : α → Value) : Option Value → Dictionary α → Prop
  | absent : IsData item none []
  | null : IsData item (some .null) []
  | object {es : List (String × α)} {d : Dictionary α} (h : es.Perm d) :
      IsData item (some (.object (es.map fun e => (e.1, item e.2)))) d

theorem mapM_of_spells {item? : Node → Option α} {item : α → Value}
    (h : ∀ a, Reads item? (item a) a) {named : List (String × Node)} {es : List (String × α)}
    (hes : List.Forall₂ (fun m e => m.1 = e.1 ∧ m.2.Spells e.2) named
      (es.map fun e => (e.1, item e.2))) :
    (named.mapM fun m => (item? m.2).map (m.1, ·)) = some es := by
  rw [List.forall₂_map_right_iff] at hes
  induction hes with
  | nil => rfl
  | @cons m e named es hm _ ih =>
    obtain ⟨hname, hv⟩ := hm
    rw [List.mapM_cons, ih, h e.2 m.2 hv, hname]
    rfl

theorem reads_dictionary {item? : Node → Option α} {item : α → Value}
    (h : ∀ a, Reads item? (item a) a) {d : Dictionary α} (hd : Dictionary.Sorted d)
    {es : List (String × α)} (hes : es.Perm d) :
    Reads (Node.dictionaryOf? item?) (.object (es.map fun e => (e.1, item e.2))) d := by
  rintro n (_ | _ | _ | _ | _ | hspell)
  obtain ⟨named, hnamed, hrel⟩ := named?_of_spells hspell
  simp [Node.dictionaryOf?, hnamed, mapM_of_spells h hrel, hd.ofList_perm hes]

theorem IsData.reads {item? : Node → Option α} {item : α → Value}
    (h : ∀ a, Reads item? (item a) a) {v : Value} {d : Dictionary α} (hd : Dictionary.Sorted d)
    (hv : IsData item (some v) d) :
    ∃ o, Reads (Node.optional? (Node.dictionaryOf? item?)) v o ∧ o.getD [] = d := by
  cases hv with
  | null =>
    refine ⟨none, ?_, rfl⟩
    rintro n (_ | _)
    rfl
  | object hes => exact ⟨some d, (reads_dictionary h hd hes).optional? (nofun), rfl⟩

/-- How a Secret writes a value. -/
def secretItem (bs : Bytes) : Value := .string (String.ofList (Base64.encode bs))

theorem reads_secretItem (bs : Bytes) : Reads secretValue? (secretItem bs) bs := by
  intro n hn
  have htext := (reads_string (String.ofList (Base64.encode bs))).optional? (nofun) n hn
  simp [secretValue?, htext, Base64.decode?_encode]

/-! ### Objects -/

/-- The tree of an object's text: its version and kind are stated right and its data once, if they
are stated, and whatever else it holds has the type it should have. -/
structure IsObject (kind : String) (tests : List (String × (Node → Bool))) (data : Option Value)
    (es : List (String × Value)) (n : Node) : Prop where
  spells : n.Spells (.object es)
  version : ∀ e ∈ es, e.1 = "apiVersion" → e.2 = .string "v1"
  kind : ∀ e ∈ es, e.1 = "kind" → e.2 = .string kind
  data : es.filter (fun e => e.1 == "data") = data.toList.map ("data", ·)
  rest : isRecord (("metadata", isMetadata) :: ("immutable", isTruth) :: tests) n

theorem allPass_of_spells {named : List (String × Node)} {es : List (String × Value)}
    (h : List.Forall₂ (fun m e => m.1 = e.1 ∧ m.2.Spells e.2) named es) {name : String}
    {test : Node → Bool}
    (htest : ∀ e ∈ es, e.1 = name → ∀ n : Node, n.Spells e.2 → test n = true) :
    allPass named name test = true := by
  induction h with
  | nil => rfl
  | @cons m e named es hm _ ih =>
    have ih := ih fun e he => htest e (List.mem_cons_of_mem _ he)
    have hm' : m.1 = name → test m.2 = true := fun hname =>
      htest e List.mem_cons_self (hm.1.symm.trans hname) m.2 hm.2
    by_cases hname : m.1 = name
    · simpa [allPass, hm' hname] using ih
    · simpa [allPass, hname] using ih

theorem lookup_eq_head? (es : List (String × Value)) (name : String) :
    es.lookup name = (es.filter fun e => e.1 == name).head?.map (·.2) := by
  induction es with
  | nil => rfl
  | cons e es ih =>
    obtain ⟨key, v⟩ := e
    rw [Dictionary.lookup_cons]
    split
    next h => simp [h]
    next h => rw [ih, List.filter_cons_of_neg (by simpa using h)]

/-- The last member of a name, if it is stated once or not at all. -/
theorem last?_of_spells {named : List (String × Node)} {es : List (String × Value)}
    (h : List.Forall₂ (fun m e => m.1 = e.1 ∧ m.2.Spells e.2) named es) {name : String}
    {v : Option Value} (hv : es.filter (fun e => e.1 == name) = v.toList.map (name, ·)) :
    SpellsField (last? named name) v := by
  have hfound := find?_of_spells (List.forall₂_reverse_iff.2 h) name
  rw [lookup_eq_head?, List.filter_reverse, hv] at hfound
  cases v <;> exact hfound

theorem IsObject.object? {kind : String} {tests : List (String × (Node → Bool))}
    {data : Option Value} {es : List (String × Value)} {n : Node} (h : IsObject kind tests data es n)
    {item? : Node → Option α} {item : α → Value} (hitem : ∀ a, Reads item? (item a) a)
    {d : Dictionary α} (hd : Dictionary.Sorted d) (hdata : IsData item data d) :
    object? kind item? tests n = some d := by
  obtain ⟨members, hspell⟩ : ∃ members, n = .object members ∧
      List.Forall₂ (SpellsMember Node.Spells) members es := by
    cases h.spells with
    | object hspell => exact ⟨_, rfl, hspell⟩
  obtain ⟨rfl, hspell⟩ := hspell
  obtain ⟨named, hnamed, hrel⟩ := named?_of_spells hspell
  have hversion : allPass named "apiVersion" (fun v => v.string? = some "v1") = true :=
    allPass_of_spells hrel fun e he hname m hm => by
      rw [h.version e he hname] at hm
      simp [reads_string _ m hm]
  have hkind : allPass named "kind" (fun v => v.string? = some kind) = true :=
    allPass_of_spells hrel fun e he hname m hm => by
      rw [h.kind e he hname] at hm
      simp [reads_string _ m hm]
  have hpass : allPass named "data"
      (fun v => (Node.optional? (Node.dictionaryOf? item?) v).isSome) = true :=
    allPass_of_spells hrel fun e he hname m hm => by
      have hmem : e ∈ es.filter fun e => e.1 == "data" :=
        List.mem_filter.2 ⟨he, by simpa using hname⟩
      rw [h.data, List.mem_map] at hmem
      obtain ⟨v, hv, rfl⟩ := hmem
      rw [Option.mem_toList.1 hv] at hdata
      obtain ⟨o, hread, -⟩ := hdata.reads hitem hd
      simp [hread m hm]
  have hlast := last?_of_spells hrel h.data
  simp only [Kubernetes.object?, hnamed, Option.bind_eq_bind, Option.bind_some, hversion, hkind,
    hpass, h.rest, Bool.and_self, if_pos]
  generalize last? named "data" = field at hlast ⊢
  cases hlast with
  | none =>
    cases hdata
    rfl
  | some hm =>
    obtain ⟨o, hread, hd⟩ := hdata.reads hitem hd
    simp [hread _ hm, hd]

end Oncall.Kubernetes
