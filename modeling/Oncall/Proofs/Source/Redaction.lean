import Oncall.PagerDuty.Ticketing
import Oncall.Proofs.Text.Quoted
import Oncall.Vault.Access

/-! Records that carry a token are shown without it and with everything else. What two of them show
is the same just when they agree up to the token: a reader of the logs learns nothing of the token,
and no text in another field makes one record look like a different one. -/

namespace Oncall

open PagerDuty

theorem quoted_inj {s t : String} : quoted s = quoted t ↔ s = t :=
  quoted_injective.eq_iff

theorem toString_word_inj {m n : UInt32} : toString m.toNat = toString n.toNat ↔ m = n := by
  refine ⟨fun h => ?_, fun h => h ▸ rfl⟩
  rw [Nat.toString_eq_ofList_toDigits, Nat.toString_eq_ofList_toDigits] at h
  exact UInt32.toNat_inj.1
    (Quoted.toDigits_inj (by decide) (by decide) (String.ofList_injective h))

theorem fieldsApart_quoted {name s t : String} : FieldsApart (name, quoted s) (name, quoted t) :=
  ⟨rfl, toldApart_quoted s t⟩

theorem fieldsApart_number {name : String} {m n : Nat} :
    FieldsApart (name, toString m) (name, toString n) :=
  ⟨rfl, toldApart_number m n⟩

theorem config_eq_of_shown {c d : TicketingConfig} (h : c.shown = d.shown) :
    { c with apiKey := d.apiKey } = d := by
  have hfields := shownRecord_inj
    (.cons fieldsApart_quoted <| .cons fieldsApart_number <| .cons fieldsApart_number <|
      .cons fieldsApart_quoted <| .cons fieldsApart_quoted <| .cons fieldsApart_quoted <|
      .cons fieldsApart_quoted <| .cons fieldsApart_quoted <| .cons fieldsApart_quoted .nil)
    h
  simp only [List.cons.injEq, Prod.mk.injEq, quoted_inj, toString_word_inj, true_and,
    and_true] at hfields
  obtain ⟨hpolicy, hresolve, hacknowledge, hlabel, hcluster, hdomain, hservice, hids⟩ := hfields
  rw [hpolicy, hresolve, hacknowledge, hlabel, hcluster, hdomain, hservice, hids]

theorem access_eq_of_shown {a b : Vault.Access} (h : a.shown = b.shown) :
    { a with token := b.token } = b := by
  have hfields := shownRecord_inj
    (.cons fieldsApart_quoted <| .cons fieldsApart_quoted <| .cons fieldsApart_quoted <|
      .cons fieldsApart_quoted <| .cons fieldsApart_quoted <| .cons fieldsApart_quoted <|
      .cons fieldsApart_quoted <| .cons fieldsApart_quoted .nil)
    h
  simp only [List.cons.injEq, Prod.mk.injEq, quoted_inj, true_and, and_true] at hfields
  obtain ⟨hspace, hsecret, hpath, hproperty, hurl, hmount, hkey⟩ := hfields
  rw [hspace, hsecret, hpath, hproperty, hurl, hmount, hkey]

/-- What is shown of a config, or of an access, tells everything but the token. -/
theorem shown_up_to_token :
    (∀ c d : TicketingConfig, c.shown = d.shown ↔ { c with apiKey := d.apiKey } = d) ∧
      ∀ a b : Vault.Access, a.shown = b.shown ↔ { a with token := b.token } = b := by
  refine ⟨fun c d => ⟨config_eq_of_shown, fun h => ?_⟩,
    fun a b => ⟨access_eq_of_shown, fun h => ?_⟩⟩
  · -- the text does not read the token
    have hshown : c.shown = ({ c with apiKey := d.apiKey } : TicketingConfig).shown := rfl
    rw [hshown, h]
  · have hshown : a.shown = ({ a with token := b.token } : Vault.Access).shown := rfl
    rw [hshown, h]

end Oncall
