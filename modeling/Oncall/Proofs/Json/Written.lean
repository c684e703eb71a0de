import Oncall.Json.Value
import Oncall.Proofs.Json.Text
import Mathlib.Data.List.Forall2

/-! JSON text is read as what was written. A tree that the reader builds may spell a value in many
ways: members in the order they are given, any escapes, any legible number. The compact text of a
value is read token by token, and the tree that is built from the tokens is one of its spellings. -/

namespace Oncall.Json

open Utf8

/-- A member and its spelling. -/
inductive SpellsMember (S : Node → Value → Prop) : Bytes × Node → String × Value → Prop
  | mk {key : Bytes} {name : String} {n : Node} {v : Value} (hname : text? key = some name)
      (hv : S n v) : SpellsMember S (key, n) (name, v)

/-- A tree is one of the spellings of a value. -/
inductive Node.Spells : Node → Value → Prop
  | null : Spells .null .null
  | bool (b : Bool) : Spells (.bool b) (.bool b)
  | number {literal : Bytes} {n : Number} (h : number? literal = some n) :
      Spells (.number literal) (.number n)
  | string {raw : Bytes} {s : String} (h : text? raw = some s) : Spells (.string raw) (.string s)
  | array {ns : List Node} {vs : List Value} (h : List.Forall₂ Spells ns vs) :
      Spells (.array ns) (.array vs)
  | object {ms : List (Bytes × Node)} {es : List (String × Value)}
      (h : List.Forall₂ (SpellsMember Spells) ms es) : Spells (.object ms) (.object es)

mutual

/-- The tokens of a tree. -/
def Node.tokens : Node → List Token
  | .null => [.null]
  | .bool b => [.bool b]
  | .number literal => [.number literal]
  | .string raw => [.string raw]
  | .array items => .openArray :: [Token.comma].intercalate (itemTokens items) ++ [.closeArray]
  | .object members =>
    .openObject :: [Token.comma].intercalate (memberTokens members) ++ [.closeObject]

def itemTokens : List Node → List (List Token)
  | [] => []
  | v :: vs => v.tokens :: itemTokens vs

def memberTokens : List (Bytes × Node) → List (List Token)
  | [] => []
  | (key, v) :: ms => (.string key :: .colon :: v.tokens) :: memberTokens ms

end

/-! ### Building -/

/-- Induction on trees, with the parts of a tree given as members of its list. -/
@[elab_as_elim]
theorem Node.induction {P : Node → Prop} (null : P .null) (bool : ∀ b, P (.bool b))
    (number : ∀ literal, P (.number literal)) (string : ∀ raw, P (.string raw))
    (array : ∀ items, (∀ n ∈ items, P n) → P (.array items))
    (object : ∀ members, (∀ m ∈ members, P m.2) → P (.object members)) : ∀ n, P n
  | .null => null
  | .bool b => bool b
  | .number literal => number literal
  | .string raw => string raw
  | .array items => array items fun n _ => Node.induction null bool number string array object n
  | .object members => object members fun m hm =>
    have : sizeOf m.2 < sizeOf members := by
      have h1 := List.sizeOf_lt_of_mem hm
      have h2 : sizeOf m.2 < sizeOf m := by cases m; simp
      omega
    Node.induction null bool number string array object m.2

theorem intercalate_cons (t : List Token) {ts : List (List Token)} (h : ts ≠ []) :
    [Token.comma].intercalate (t :: ts) = t ++ .comma :: [Token.comma].intercalate ts := by
  obtain ⟨u, us, rfl⟩ := List.exists_cons_of_ne_nil h
  simp

theorem intercalate_head (t : List Token) (ts : List (List Token)) :
    ∃ rest, [Token.comma].intercalate (t :: ts) = t ++ rest := by
  cases ts with
  | nil => exact ⟨[], by simp⟩
  | cons u us => exact ⟨_, intercalate_cons t (List.cons_ne_nil u us)⟩

/-- The first token of a tree opens a value, so it may also stand where an end might. -/
theorem foldlM_itemOrEnd (n : Node) (rest : List Token) (s : List Frame) :
    (n.tokens ++ rest).foldlM Builder.step ⟨s, .itemOrEnd⟩ =
      (n.tokens ++ rest).foldlM Builder.step ⟨s, .value⟩ := by
  cases n <;> simp [Node.tokens, Builder.step]

/-- A tree is built from its tokens, within whatever is open. -/
def Node.Builds (n : Node) : Prop :=
  ∀ s, n.tokens.foldlM Builder.step ⟨s, .value⟩ = Builder.put n s

theorem foldlM_itemTokens {v : Node} {vs : List Node} (h : ∀ n ∈ v :: vs, n.Builds)
    (done : List Node) (s : List Frame) :
    ([Token.comma].intercalate (itemTokens (v :: vs))).foldlM Builder.step
      ⟨.items done :: s, .value⟩ = some ⟨.items ((v :: vs).reverse ++ done) :: s, .commaOrEnd⟩ := by
  induction vs generalizing v done with
  | nil =>
    have hv := h v List.mem_cons_self (.items done :: s)
    simpa [itemTokens, Builder.put] using hv
  | cons w vs ih =>
    have hv := h v List.mem_cons_self (.items done :: s)
    have hrest := ih (fun n hn => h n (List.mem_cons_of_mem v hn)) (v :: done)
    rw [itemTokens, intercalate_cons _ (by simp [itemTokens]), List.foldlM_append, hv]
    simpa [Builder.put, Builder.step] using hrest

theorem foldlM_memberTokens {m : Bytes × Node} {ms : List (Bytes × Node)}
    (h : ∀ x ∈ m :: ms, x.2.Builds) (done : List (Bytes × Node)) (s : List Frame) :
    ([Token.comma].intercalate (memberTokens (m :: ms))).foldlM Builder.step
      ⟨.members done :: s, .key⟩ = some ⟨.members ((m :: ms).reverse ++ done) :: s, .commaOrEnd⟩ := by
  induction ms generalizing m done with
  | nil =>
    have hv := h m List.mem_cons_self (.member done m.1 :: s)
    simpa [memberTokens, Builder.step, Builder.put] using hv
  | cons x ms ih =>
    have hv := h m List.mem_cons_self (.member done m.1 :: s)
    have hrest := ih (fun n hn => h n (List.mem_cons_of_mem m hn)) (m :: done)
    rw [memberTokens, intercalate_cons _ (by simp [memberTokens]), List.foldlM_append]
    simpa [hv, Builder.put, Builder.step] using hrest

theorem Node.builds (n : Node) : n.Builds := by
  induction n using Node.induction with
  | null | bool | number | string =>
    intro s
    simp [Node.tokens, Builder.step, Builder.startValue]
  | array items ih =>
    intro s
    cases items with
    | nil => simp [Node.tokens, itemTokens, Builder.step, Builder.startValue, Builder.close]
    | cons v vs =>
      have hitems := foldlM_itemTokens ih [] s
      obtain ⟨rest, hrest⟩ := intercalate_head v.tokens (itemTokens vs)
      rw [itemTokens, hrest, ← foldlM_itemOrEnd, ← hrest] at hitems
      have hopen : Builder.step ⟨s, .value⟩ .openArray = some ⟨.items [] :: s, .itemOrEnd⟩ := rfl
      rw [Node.tokens, itemTokens, List.cons_append, List.foldlM_cons, hopen, Option.bind_eq_bind,
        Option.bind_some, List.foldlM_append, hitems]
      simp [Builder.step, Builder.close]
  | object members ih =>
    intro s
    cases members with
    | nil => simp [Node.tokens, memberTokens, Builder.step, Builder.startValue, Builder.close]
    | cons m ms =>
      have hmembers := foldlM_memberTokens ih [] s
      obtain ⟨rest, hrest⟩ :=
        intercalate_head (.string m.1 :: .colon :: m.2.tokens) (memberTokens ms)
      have hopen : Builder.step ⟨s, .value⟩ .openObject = some ⟨.members [] :: s, .keyOrEnd⟩ := rfl
      have hfirst : ∀ ts, (.string m.1 :: ts).foldlM Builder.step ⟨.members [] :: s, .keyOrEnd⟩ =
          (.string m.1 :: ts).foldlM Builder.step ⟨.members [] :: s, .key⟩ := fun ts => rfl
      rw [memberTokens, hrest, List.cons_append, ← hfirst, ← List.cons_append, ← hrest] at hmembers
      rw [Node.tokens, memberTokens, List.cons_append, List.foldlM_cons, hopen, Option.bind_eq_bind,
        Option.bind_some, List.foldlM_append, hmembers]
      simp [Builder.step, Builder.close]

theorem Node.ofTokens?_tokens (n : Node) : Node.ofTokens? n.tokens = some n := by
  simp [Node.ofTokens?, n.builds [], Builder.put, Builder.root?]

/-! ### Reading tokens -/

/-- The lexer has read these tokens: it is past the last one, or in a number that any separator
ends. -/
structure Lexer.Past (l : Lexer) (ts : List Token) : Prop where
  finish : l.finish = some ts
  comma : l.step 0x2C = some ⟨.between, .comma :: ts⟩
  closeArray : l.step 0x5D = some ⟨.between, .closeArray :: ts⟩
  closeObject : l.step 0x7D = some ⟨.between, .closeObject :: ts⟩

theorem Lexer.past_between (ts : List Token) : Lexer.Past ⟨.between, ts⟩ ts := ⟨rfl, rfl, rfl, rfl⟩

/-- A separator ends a number that may end. -/
theorem Lexer.past_number {part : NumberPart} (h : part.isEnd = true) (raw : Bytes)
    (ts : List Token) : Lexer.Past ⟨.number part raw, ts⟩ (.number raw.reverse :: ts) := by
  cases part with
  | zero | whole | fraction | exponent => exact ⟨rfl, rfl, rfl, rfl⟩
  | minus | point | mark | sign => cases h

/-- Bytes are read as these tokens, wherever they stand between tokens. -/
def Lexes (bs : Bytes) (ts : List Token) : Prop :=
  ∀ before, ∃ l, bs.foldlM Lexer.step ⟨.between, before⟩ = some l ∧ l.Past (ts.reverse ++ before)

theorem Lexes.tokens? {bs : Bytes} {ts : List Token} (h : Lexes bs ts) : tokens? bs = some ts := by
  obtain ⟨l, hl, hpast⟩ := h []
  simp [Json.tokens?, hl, hpast.finish]

theorem lexes_stringText (s : String) : Lexes (encode (stringText s)) [.string (literal s)] :=
  fun before => ⟨_, foldlM_stringText s before, Lexer.past_between _⟩

theorem lexes_toDigits (n : Nat) :
    Lexes (encode (Nat.toDigits 10 n)) [.number (encode (Nat.toDigits 10 n))] := by
  intro before
  refine ⟨_, foldlM_toDigits n before, ?_⟩
  have hend : (if n = 0 then NumberPart.zero else NumberPart.whole).isEnd = true := by
    split <;> rfl
  simpa using Lexer.past_number hend (encode (Nat.toDigits 10 n)).reverse before

/-- What separates texts separates their tokens. -/
theorem Lexes.intercalate {bss : List Bytes} {tss : List (List Token)}
    (h : List.Forall₂ Lexes bss tss) :
    Lexes (([0x2C] : Bytes).intercalate bss) ([Token.comma].intercalate tss) := by
  induction h with
  | nil => exact fun before => ⟨_, rfl, Lexer.past_between _⟩
  | @cons bs ts bss tss hbs hrest ih =>
    cases hrest with
    | nil => simpa using hbs
    | cons hbs' hrest' =>
      intro before
      obtain ⟨l, hl, hpast⟩ := hbs before
      obtain ⟨l', hl', hpast'⟩ := ih (.comma :: (ts.reverse ++ before))
      refine ⟨l', ?_, ?_⟩
      · rw [List.intercalate_cons_cons, List.append_assoc, List.foldlM_append, hl]
        simpa [hpast.comma] using hl'
      · rw [List.intercalate_cons_cons]
        simpa using hpast'

/-- What opens and closes a text opens and closes its tokens. -/
theorem Lexes.enclosed {first last : UInt8} {opening closing : Token}
    (hopen : ∀ ts, Lexer.step ⟨.between, ts⟩ first = some ⟨.between, opening :: ts⟩)
    (hclose : ∀ {l : Lexer} {ts}, l.Past ts → l.step last = some ⟨.between, closing :: ts⟩)
    {bs : Bytes} {ts : List Token} (h : Lexes bs ts) :
    Lexes (first :: bs ++ [last]) (opening :: ts ++ [closing]) := by
  intro before
  obtain ⟨l, hl, hpast⟩ := h (opening :: before)
  refine ⟨_, ?_, Lexer.past_between _⟩
  rw [List.cons_append, List.foldlM_cons, hopen, Option.bind_eq_bind, Option.bind_some,
    List.foldlM_append, hl]
  simp [hclose hpast]

theorem Lexes.member (name : String) {bs : Bytes} {ts : List Token} (h : Lexes bs ts) :
    Lexes (encode (stringText name) ++ 0x3A :: bs) (.string (literal name) :: .colon :: ts) := by
  intro before
  obtain ⟨l, hl, hpast⟩ := h (.colon :: .string (literal name) :: before)
  have hcolon : Lexer.step ⟨.between, .string (literal name) :: before⟩ 0x3A =
    some ⟨.between, .colon :: .string (literal name) :: before⟩ := rfl
  refine ⟨l, ?_, by simpa using hpast⟩
  rw [List.foldlM_append, foldlM_stringText, Option.bind_eq_bind, Option.bind_some,
    List.foldlM_cons, hcolon]
  exact hl

theorem encode_commaJoined (ts : List (List Char)) :
    encode (commaJoined ts) = ([0x2C] : Bytes).intercalate (ts.map encode) := by
  induction ts with
  | nil => rfl
  | cons t ts ih =>
    cases ts with
    | nil => simp [commaJoined]
    | cons u us =>
      rw [commaJoined, encode_append, encode_cons, ih]
      · rfl
      · simp

/-! ### Reading values -/

/-- The text of a number is one token, which means the number. -/
def Number.Legible (n : Number) : Prop :=
  Lexes (encode n.text) [.number (encode n.text)] ∧ number? (encode n.text) = some n

mutual

/-- All numbers in a value are legible. -/
def Value.Legible : Value → Prop
  | .number n => n.Legible
  | .array items => ItemsLegible items
  | .object members => MembersLegible members
  | _ => True

def ItemsLegible : List Value → Prop
  | [] => True
  | v :: vs => v.Legible ∧ ItemsLegible vs

def MembersLegible : List (String × Value) → Prop
  | [] => True
  | (_, v) :: ms => v.Legible ∧ MembersLegible ms

end

theorem itemsLegible_iff {vs : List Value} : ItemsLegible vs ↔ ∀ v ∈ vs, v.Legible := by
  induction vs with
  | nil => simp [ItemsLegible]
  | cons v vs ih => simp [ItemsLegible, ih]

theorem membersLegible_iff {es : List (String × Value)} :
    MembersLegible es ↔ ∀ e ∈ es, e.2.Legible := by
  induction es with
  | nil => simp [MembersLegible]
  | cons e es ih => simp [MembersLegible, ih]

/-- Numbers without a sign that fit 64 bits are legible. -/
theorem legible_natural {n : Nat} (h : n ≤ maxWord) : (Number.integer n).Legible := by
  have htext : (Number.integer n).text = Nat.toDigits 10 n := by simp [Number.text]
  rw [Number.Legible, htext]
  exact ⟨lexes_toDigits n, number?_toDigits h⟩

/-- A text is read as a tree that spells the value. -/
def ReadsBack (text : List Char) (v : Value) : Prop :=
  ∃ n : Node, n.Spells v ∧ Lexes (encode text) n.tokens

mutual

theorem Value.readsBack : (v : Value) → v.Legible → ReadsBack v.text v
  | .null, _ => ⟨.null, .null, fun before => ⟨_, rfl, Lexer.past_between _⟩⟩
  | .bool true, _ => ⟨.bool true, .bool true, fun before => ⟨_, rfl, Lexer.past_between _⟩⟩
  | .bool false, _ => ⟨.bool false, .bool false, fun before => ⟨_, rfl, Lexer.past_between _⟩⟩
  | .number n, h => ⟨.number (encode n.text), .number h.2, h.1⟩
  | .string s, _ => ⟨.string (literal s), .string (text?_literal s), lexes_stringText s⟩
  | .array items, h => by
    obtain ⟨ns, hspell, hlex⟩ := itemsReadBack items h
    refine ⟨.array ns, .array hspell, ?_⟩
    rw [Value.text, encode_append, encode_cons, encode_commaJoined]
    exact (Lexes.intercalate hlex).enclosed (fun _ => rfl) (·.closeArray)
  | .object members, h => by
    obtain ⟨ms, hspell, hlex⟩ := membersReadBack members h
    refine ⟨.object ms, .object hspell, ?_⟩
    rw [Value.text, encode_append, encode_cons, encode_commaJoined]
    exact (Lexes.intercalate hlex).enclosed (fun _ => rfl) (·.closeObject)

theorem itemsReadBack : (vs : List Value) → ItemsLegible vs →
    ∃ ns : List Node, List.Forall₂ Node.Spells ns vs ∧
      List.Forall₂ Lexes ((itemTexts vs).map encode) (itemTokens ns)
  | [], _ => ⟨[], .nil, .nil⟩
  | v :: vs, h => by
    obtain ⟨n, hn, hlex⟩ := v.readsBack h.1
    obtain ⟨ns, hns, hlexes⟩ := itemsReadBack vs h.2
    exact ⟨n :: ns, .cons hn hns, .cons hlex hlexes⟩

theorem membersReadBack : (es : List (String × Value)) → MembersLegible es →
    ∃ ms : List (Bytes × Node), List.Forall₂ (SpellsMember Node.Spells) ms es ∧
      List.Forall₂ Lexes ((memberTexts es).map encode) (memberTokens ms)
  | [], _ => ⟨[], .nil, .nil⟩
  | (name, v) :: es, h => by
    obtain ⟨n, hn, hlex⟩ := v.readsBack h.1
    obtain ⟨ms, hms, hlexes⟩ := membersReadBack es h.2
    refine ⟨(literal name, n) :: ms, .cons (.mk (text?_literal name) hn) hms, .cons ?_ hlexes⟩
    rw [encode_append, encode_cons]
    exact Lexes.member name hlex

end

/-- These bytes are JSON text of a value, however it is laid out and spelled. -/
def IsTextOf (bs : Bytes) (v : Value) : Prop := ∃ n : Node, Node.read? bs = some n ∧ n.Spells v

/-- The bytes of the compact text. -/
def Value.bytes (v : Value) : Bytes := encode v.toString.toList

/-- The compact text of a value is text of it. -/
theorem isTextOf_bytes {v : Value} (h : v.Legible) : IsTextOf v.bytes v := by
  obtain ⟨n, hspell, hlex⟩ := v.readsBack h
  refine ⟨n, ?_, hspell⟩
  rw [Value.bytes, Value.toString, String.toList_ofList]
  simp [Node.read?, hlex.tokens?, n.ofTokens?_tokens]

end Oncall.Json
