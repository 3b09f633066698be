import ChainDecode.Proofs.Carbon.AddressRewriting
import ChainDecode.Proofs.Carbon.AddressSources

/-! # Keys recovered from addresses

The digits of a key become an address text from which the key is read back. A decoded transaction
has the digits of keys at every place of the inventory, so showing them as addresses loses nothing.
-/
namespace ChainDecode.Carbon.AddressView

open Places

/-- An address text as the digits of its key; every other text as it is. -/
def keyHex (t : Text) : Text :=
  match Address.keyOfText t with
  | .ok key => Text.Hex.encode key
  | .error _ => t

theorem encoded_key_shown {key : List UInt8} (h : key.length = 32) :
    ∃ text, Address.textOfKeyHex (Text.Hex.encode key) = .ok text ∧
      keyText (Text.Hex.encode key) = text ∧ Address.keyOfText text = .ok key := by
  have hex := Text.keyHex_encode h
  obtain ⟨same, a, _, decoded, made, known⟩ := Address.textOfKeyHex_ok hex
  rw [Text.Hex.decode_encode] at decoded
  cases decoded
  exact ⟨a.text, known, keyText_key hex known, Address.keyOfText_text made⟩

theorem keyHex_keyText {key : List UInt8} (h : key.length = 32) :
    keyHex (keyText (Text.Hex.encode key)) = Text.Hex.encode key := by
  obtain ⟨text, _, shown, back⟩ := encoded_key_shown h
  rw [shown, keyHex, back]

theorem rewrite_back {places : Places} {v : Json} (h : Keyed places v) :
    places.rewrite keyHex (places.rewrite keyText v) = v := by
  have back : places.rewrite (keyHex ∘ keyText) v = places.rewrite id v := by
    refine rewrite_congr fun path s found here => ?_
    obtain ⟨key, size, same⟩ := h path _ found here
    rw [Json.str.inj same, Function.comp_apply, keyHex_keyText size, id]
  rw [rewrite_rewrite, back, rewrite_id]

/-- Showing the keys of a decoded transaction as addresses loses nothing. At every place of the
inventory stood the digits of a key, and now stands its address text, from which the key is read
back; the places and everything else are unchanged. Writing the keys back gives the transaction
again, so transactions that are shown alike are alike. -/
theorem addresses_keep_keys {bytes : List UInt8} {t : Transaction} {warnings : List Text}
    (accepted : Transaction.decode bytes = .ok (t, warnings)) :
    ∃ after, apply .address t.toJson = .ok after ∧ after.outline = t.toJson.outline ∧
      (∀ path, InInventory after path ↔ InInventory t.toJson path) ∧
      (∀ path u, t.toJson.at? path = some u → InInventory t.toJson path →
        ∃ key text, key.length = 32 ∧ u = .str (Text.Hex.encode key) ∧
          after.at? path = some (.str (Text.ofString text)) ∧
          Address.textOfKeyHex (Text.Hex.encode key) = .ok text ∧
          Address.keyOfText text = .ok key ∧ ¬ (Text.ofString text).KeyHex) ∧
      (∀ path leaf, t.toJson.at? path = some leaf → leaf.isLeaf = true →
        ¬ InInventory t.toJson path → after.at? path = some leaf) ∧
      transactionPlaces.rewrite keyHex after = t.toJson ∧
      ∀ others u remarks, Transaction.decode others = .ok (u, remarks) →
        apply .address u.toJson = .ok after → u.toJson = t.toJson := by
  have shown : ∀ u : Transaction,
      apply .address u.toJson = .ok (transactionPlaces.rewrite keyText u.toJson) := by
    intro u
    obtain ⟨members, record⟩ : ∃ members, u.toJson = .obj members := ⟨_, rfl⟩
    rw [record, apply, showTransaction_eq]
  have keyed := decoded_keyed accepted
  refine ⟨transactionPlaces.rewrite keyText t.toJson, shown t, outline_rewrite _, ?_, ?_, ?_,
    rewrite_back keyed, ?_⟩
  · intro path
    unfold InInventory
    rw [along_rewrite]
  · intro path u found inside
    obtain ⟨key, size, rfl⟩ := keyed path u found inside
    obtain ⟨text, known, same, back⟩ := encoded_key_shown size
    refine ⟨key, text, size, rfl, ?_, known, back, ?_⟩
    · rw [at?_rewrite_leaf found rfl, onText, same]
      exact congrArg some (if_pos inside)
    · rw [← same]
      exact keyText_not_keyHex _
  · intro path leaf found isLeaf outside
    rw [at?_rewrite_leaf found isLeaf]
    exact congrArg some (if_neg outside)
  · intro others u remarks decoded alike
    have same : transactionPlaces.rewrite keyText u.toJson =
        transactionPlaces.rewrite keyText t.toJson := by
      rw [shown u] at alike
      exact Except.ok.inj alike
    rw [← rewrite_back (decoded_keyed decoded), same, rewrite_back keyed]

def payerKey : List UInt8 := List.replicate 32 7

def accountKey : List UInt8 := List.replicate 32 9

/-- A user pays for a call that looks up the name of another user's address. -/
def lookupCall : List UInt8 :=
  0 :: List.replicate 24 0 ++ payerKey ++ [0] ++ [0, 0, 0, 0, 8, 0, 0, 0, 32, 0, 0, 0] ++
    accountKey ++ [0, 0, 0, 0]

/-- The gas payer and the argument of a call are both shown by the addresses of users, and the key
is read back from the address. -/
theorem lookup_keeps_keys :
    ∃ t after, (∃ warnings, Transaction.decode lookupCall = .ok (t, warnings)) ∧
      apply .address t.toJson = .ok after ∧
      (t.toJson.at? [5] = some (.str (Text.Hex.encode payerKey)) ∧
        after.at? [5] = some (.str "P2K4FWx53hePArJzkDVD1jKZdjrgYD9RiswitrqkUdgSBGa")) ∧
      (t.toJson.at? [9, 5, 0, 2] = some (.str (Text.Hex.encode accountKey)) ∧
        after.at? [9, 5, 0, 2] = some (.str "P2K4PMYMedfZmSmGviW5cPA9PHPArdYmrFaqiC9sEisvquz")) ∧
      Address.keyOfText "P2K4PMYMedfZmSmGviW5cPA9PHPArdYmrFaqiC9sEisvquz" = .ok accountKey ∧
      transactionPlaces.rewrite keyHex after = t.toJson := by
  have facts : (Transaction.decode lookupCall).toOption.map (fun found =>
      ((found.1.toJson.at? [5]).bind Json.text?, (found.1.toJson.at? [9, 5, 0, 2]).bind Json.text?,
        (transactionPlaces.along found.1.toJson [9, 5, 0, 2]).isHere)) =
      some (some (.ofString (Text.Hex.encode payerKey)),
        some (.ofString (Text.Hex.encode accountKey)), true) := by
    decide +kernel
  have payerText : Address.textOfKeyHex (.ofString (Text.Hex.encode payerKey)) =
      .ok "P2K4FWx53hePArJzkDVD1jKZdjrgYD9RiswitrqkUdgSBGa" := by
    decide +kernel
  have accountText : Address.textOfKeyHex (.ofString (Text.Hex.encode accountKey)) =
      .ok "P2K4PMYMedfZmSmGviW5cPA9PHPArdYmrFaqiC9sEisvquz" := by
    decide +kernel
  have ofText : ∀ {v : Option Json} {s : Text}, v.bind Json.text? = some s → v = some (.str s) := by
    intro v s h
    obtain ⟨u, rfl, text⟩ := Option.bind_eq_some_iff.mp h
    cases u <;> cases text
    rfl
  cases accepted : Transaction.decode lookupCall with
  | error f =>
    rw [accepted] at facts
    cases facts
  | ok found =>
    obtain ⟨t, warnings⟩ := found
    rw [accepted] at facts
    obtain ⟨payer, account, inside⟩ : _ ∧ _ ∧ _ := by
      simpa only [Except.toOption, Option.map_some, Option.some.injEq, Prod.mk.injEq] using facts
    obtain ⟨after, shown, -, -, keys, -, back, -⟩ := addresses_keep_keys accepted
    obtain ⟨key, text, -, same, reached, named, -, -⟩ := keys [5] _ (ofText payer) rfl
    obtain ⟨key', text', -, same', reached', named', known, -⟩ :=
      keys [9, 5, 0, 2] _ (ofText account) inside
    rw [← Json.str.inj same] at named
    rw [← Json.str.inj same'] at named'
    cases payerText.symm.trans named
    cases accountText.symm.trans named'
    have own : key' = accountKey := by
      have digits := Text.ofString_inj.mp (Json.str.inj same')
      have decoded := Text.Hex.decode_encode key'
      rw [← digits, Text.Hex.decode_encode] at decoded
      exact (Except.ok.inj decoded).symm
    exact ⟨t, after, ⟨warnings, rfl⟩, shown, ⟨ofText payer, reached⟩, ⟨ofText account, reached'⟩,
      own ▸ known, back⟩

end ChainDecode.Carbon.AddressView
