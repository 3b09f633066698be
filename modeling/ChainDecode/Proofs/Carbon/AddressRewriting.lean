import ChainDecode.Proofs.Address
import ChainDecode.Proofs.Carbon.AddressPlaces

/-! # Showing keys is rewriting

The walk over a transaction rewrites the texts at the places of the inventory, whatever value it is
given. What the rewriting does to a single text then says everything: what is left alone, and why a
second walk finds nothing to do.
-/
namespace ChainDecode.Carbon.AddressView

open Places

theorem all_digits_iff (ls : List Letter) :
    ls.all (·.is Text.Hex.isHexDigit) = true ↔
      ∃ cs : List Char, ls = cs.map .char ∧ ∀ c ∈ cs, Text.HexDigit c := by
  constructor
  · intro all
    induction ls with
    | nil => exact ⟨[], rfl, List.forall_mem_nil _⟩
    | cons l rest ih =>
      rw [List.all_cons, Bool.and_eq_true] at all
      obtain ⟨cs, rfl, hex⟩ := ih all.2
      cases l with
      | surrogate place => cases all.1
      | char c =>
        have first : Text.HexDigit c := (Text.hexDigit_iff c).mp all.1
        exact ⟨c :: cs, rfl, List.forall_mem_cons.mpr ⟨first, hex⟩⟩
  · rintro ⟨cs, rfl, hex⟩
    rw [List.all_map, List.all_eq_true]
    exact fun c member => (Text.hexDigit_iff c).mpr (hex c member)

theorem keyHex_of_isKeyHex {t : Text} (h : isKeyHex t = true) : t.KeyHex := by
  unfold isKeyHex at h
  simp only [Bool.and_eq_true, decide_eq_true_eq] at h
  split at h
  · rename_i rest marked
    obtain ⟨cs, rfl, hex⟩ := (all_digits_iff rest).mp h.2
    exact ⟨cs, by simpa using h.1, hex, Or.inr (congrArg Text.mk marked)⟩
  · obtain ⟨cs, same, hex⟩ := (all_digits_iff t.letters).mp h.2
    have size := h.1
    rw [same, List.length_map] at size
    exact ⟨cs, size, hex, Or.inl (congrArg Text.mk same)⟩

theorem isKeyHex_of_keyHex {t : Text} (h : t.KeyHex) : isKeyHex t = true := by
  obtain ⟨cs, size, hex, form⟩ := h
  have counted : (decide ((cs.map Letter.char).length = 64) &&
      (cs.map Letter.char).all (·.is Text.Hex.isHexDigit)) = true := by
    rw [List.length_map, size, (all_digits_iff _).mpr ⟨cs, rfl, hex⟩]
    rfl
  unfold isKeyHex
  rcases form with rfl | rfl
  · -- The digits themselves never look like a front `0x`.
    match cs with
    | [] | [_] => cases size
    | c :: d :: cs =>
      have unmarked : d ≠ 'x' :=
        (Text.Hex.digit_no_mark ((Text.hexDigit_iff d).mpr (hex d (by simp)))).1
      simp only [Text.ofChars, List.map_cons] at *
      split
      · rename_i same
        simp only [List.cons.injEq, Letter.char.injEq] at same
        exact absurd same.2.1 unmarked
      · exact counted
  · exact counted

theorem isKeyHex_iff (t : Text) : isKeyHex t = true ↔ t.KeyHex :=
  ⟨keyHex_of_isKeyHex, isKeyHex_of_keyHex⟩

def keyText (t : Text) : Text :=
  if isKeyHex t then
    match Address.textOfKeyHex t with
    | .ok text => text
    | .error _ => t
  else t

theorem keyText_key {t : Text} {text : String} (h : t.KeyHex)
    (known : Address.textOfKeyHex t = .ok text) : keyText t = text := by
  rw [keyText, if_pos ((isKeyHex_iff t).mpr h), known]

theorem keyText_other {t : Text} (h : ¬ t.KeyHex) : keyText t = t := by
  rw [keyText, if_neg fun hex => h ((isKeyHex_iff t).mp hex)]

/-- No address text is a key in hexadecimal, so none is rewritten again. -/
theorem keyText_not_keyHex (t : Text) : ¬ (keyText t).KeyHex := by
  by_cases h : t.KeyHex
  · obtain ⟨key, a, _, _, made, known⟩ := Address.textOfKeyHex_ok h
    rw [keyText_key h known]
    exact Address.text_not_keyHex made
  · rw [keyText_other h]
    exact h

theorem keyText_keyText : keyText ∘ keyText = keyText :=
  funext fun t => keyText_other (keyText_not_keyHex t)

theorem showKey_eq (v : Json) : showKey v = onText keyText v := by
  cases v with
  | str s =>
    rw [showKey, onText, keyText]
    split
    · split <;> simp_all
    · rfl
  | _ => rfl

/-- The named members of a record, each an address. -/
def fields (names : List Text) : Places := members (names.map fun name => (name, here))

section Shapes

variable {f : Text → Text} {places : Places}

theorem rewrite_without_items (h : places.item = nowhere) (list : List Json) :
    places.rewrite f (.arr list) = .arr list := by
  have same : list.map (nowhere.rewrite f) = list.map id :=
    List.map_congr_left fun v _ => rewrite_nowhere v
  rw [rewrite, h, same, List.map_id]

theorem rewrite_without_members {record : List (Text × Json)}
    (h : ∀ name, places.member record name = nowhere) :
    places.rewrite f (.obj record) = .obj record := by
  have same : (record.map fun m => (m.1, nowhere.rewrite f m.2)) = record.map id :=
    List.map_congr_left fun m _ => congrArg (Prod.mk m.1) (rewrite_nowhere m.2)
  rw [rewrite]
  simp only [h, same, List.map_id]

theorem rewrite_other {v : Json} (h : v.isLeaf = true) (other : places.isHere = false) :
    places.rewrite f v = v := by
  rw [rewrite_leaf h, other, if_neg (by decide)]

theorem rewrite_here (v : Json) : here.rewrite f v = onText f v := by
  cases v with
  | arr list => exact rewrite_without_items rfl list
  | obj record => exact rewrite_without_members fun _ => rfl
  | _ => rw [rewrite_leaf rfl, isHere, if_pos rfl]

end Shapes

theorem lookup_fields (names : List Text) (name : Text) :
    (names.map fun n => (n, here)).lookup name = if name ∈ names then some here else none := by
  induction names with
  | nil => rfl
  | cons first rest ih =>
    by_cases same : name = first
    · simp [same]
    · have other : (name == first) = false := beq_eq_false_iff_ne.mpr same
      simp only [List.map_cons, List.lookup_cons, other, ih, List.mem_cons, same, false_or]

theorem showRecord_eq (names : List Text) (v : Json) :
    showRecord names v = (fields names).rewrite keyText v := by
  cases v with
  | obj record =>
    rw [showRecord, showMembers, rewrite]
    refine congrArg Json.obj (List.map_congr_left fun m _ => ?_)
    rw [fields, member, named, lookup_fields]
    split
    · rw [Option.getD_some, rewrite_here, showKey_eq]
    · rw [Option.getD_none, rewrite_nowhere]
  | arr list => exact (rewrite_without_items rfl list).symm
  | _ => exact (rewrite_other rfl rfl).symm

theorem showRecords_eq (names : List Text) (v : Json) :
    showRecords names v = (items (fields names)).rewrite keyText v := by
  cases v with
  | arr list =>
    rw [showRecords, rewrite]
    exact congrArg Json.arr (List.map_congr_left fun u _ => showRecord_eq names u)
  | obj record => exact (rewrite_without_members fun _ => rfl).symm
  | _ => exact (rewrite_other rfl rfl).symm

def tablePlaces (names : List Text) (lists records : List (Text × List Text)) :
    List (Text × Places) :=
  (names.map fun name => (name, here)) ++
    ((lists.map fun l => (l.1, items (fields l.2))) ++ records.map fun l => (l.1, fields l.2))

theorem named_table (names : List Text) (lists records : List (Text × List Text)) (name : Text) :
    named (tablePlaces names lists records) name =
      if name ∈ names then here
      else
        match lists.lookup name, records.lookup name with
        | some inner, _ => items (fields inner)
        | none, some inner => fields inner
        | none, none => nowhere := by
  rw [named, tablePlaces, List.lookup_append, List.lookup_append, lookup_fields,
    lookup_map fun _ inner => items (fields inner), lookup_map fun _ inner => fields inner]
  split
  · rfl
  · cases lists.lookup name with
    | some inner => rfl
    | none => cases records.lookup name <;> rfl

theorem typedPlaces_isHere (type : ArgType) :
    (typedPlaces type).isHere = decide (type = .plain .bytes32) := by
  cases type with
  | plain p => cases p <;> rfl
  | _ => rfl

theorem typedPlaces_member (type : ArgType) (record : List (Text × Json)) (name : Text) :
    (typedPlaces type).member record name =
      named (tablePlaces (keyMembers type) (keyLists type) (keyRecords type)) name := by
  cases type with
  | plain p => cases p <;> rfl
  | _ => rfl

theorem showTypedMember_eq (type : ArgType) (record : List (Text × Json)) (m : Text × Json) :
    showTypedMember type m =
      (m.1, ((typedPlaces type).member record m.1).rewrite keyText m.2) := by
  rw [showTypedMember, typedPlaces_member, named_table]
  split
  · rw [rewrite_here, showKey_eq]
  · cases (keyLists type).lookup m.1 with
    | some names => exact congrArg (Prod.mk m.1) (showRecords_eq names m.2)
    | none =>
      cases (keyRecords type).lookup m.1 with
      | some names => exact congrArg (Prod.mk m.1) (showRecord_eq names m.2)
      | none => exact congrArg (Prod.mk m.1) (rewrite_nowhere m.2).symm

theorem rewrite_named_cons (name : Text) (places : Places) (rest : List (Text × Places))
    (wanted : Text) (v : Json) :
    (named ((name, places) :: rest) wanted).rewrite keyText v =
      if wanted = name then places.rewrite keyText v
      else (named rest wanted).rewrite keyText v := by
  rw [named_cons]
  split <;> rfl

theorem rewrite_named_nil (wanted : Text) (v : Json) :
    (named [] wanted).rewrite keyText v = v := rewrite_nowhere v

-- One theorem for each function of the walk, along its own recursion.
mutual

theorem showTyped_eq (type : ArgType) :
    ∀ v, showTyped type v = (typedPlaces type).rewrite keyText v
  | .arr list => by
    cases type with
    | array item =>
      rw [showTyped, showItems_eq item list, rewrite]
      rfl
    | calls =>
      rw [showTyped, showCallItems_eq list, rewrite]
      rfl
    | plain p =>
      have plain : (typedPlaces (.plain p)).item = nowhere := by cases p <;> rfl
      exact (rewrite_without_items plain list).symm
    | _ => exact (rewrite_without_items rfl list).symm
  | .obj record => by
    rw [showTyped, rewrite]
    exact congrArg Json.obj (List.map_congr_left fun m _ => showTypedMember_eq type record m)
  | .null | .bool _ | .int _ | .real _ | .str _ => by
    rw [rewrite_leaf rfl, typedPlaces_isHere, ← showKey_eq]
    simp only [showTyped, decide_eq_true_eq]

theorem showItems_eq (type : ArgType) :
    ∀ list, showItems type list = list.map ((typedPlaces type).rewrite keyText)
  | [] => rfl
  | v :: rest => by
    rw [showItems, showTyped_eq type v, showItems_eq type rest, List.map_cons]

theorem showCall_eq : ∀ v, showCall v = call.rewrite keyText v
  | .obj record => by
    rw [showCall, showCallMembers_eq record, rewrite]
    rfl
  | .arr list => (rewrite_without_items rfl list).symm
  | .null | .bool _ | .int _ | .real _ | .str _ => (rewrite_other rfl rfl).symm

theorem showCallItems_eq : ∀ list, showCallItems list = list.map (call.rewrite keyText)
  | [] => rfl
  | v :: rest => by
    rw [showCallItems, showCall_eq v, showCallItems_eq rest, List.map_cons]

theorem showCallMembers_eq :
    ∀ record, showCallMembers record =
      record.map fun m => (m.1, (named callPlaces m.1).rewrite keyText m.2)
  | [] => rfl
  | (name, v) :: rest => by
    rw [showCallMembers, showArguments_eq v, showSections_eq v, showCallMembers_eq rest,
      List.map_cons, callPlaces, rewrite_named_cons, rewrite_named_cons, rewrite_named_nil]

theorem showSections_eq :
    ∀ v, showSections v = (items (members [("args", items argument)])).rewrite keyText v
  | .arr list => by
    rw [showSections, showSectionItems_eq list, rewrite]
    rfl
  | .obj record => (rewrite_without_members fun _ => rfl).symm
  | .null | .bool _ | .int _ | .real _ | .str _ => (rewrite_other rfl rfl).symm

theorem showSectionItems_eq :
    ∀ list, showSectionItems list =
      list.map ((members [("args", items argument)]).rewrite keyText)
  | [] => rfl
  | .obj record :: rest => by
    rw [showSectionItems, showSectionMembers_eq record, showSectionItems_eq rest, List.map_cons,
      rewrite]
    rfl
  | .arr list :: rest => by
    rw [showSectionItems, showSectionItems_eq rest, List.map_cons, rewrite_without_items rfl]
    nofun
  | .null :: rest | .bool _ :: rest | .int _ :: rest | .real _ :: rest | .str _ :: rest => by
    rw [showSectionItems, showSectionItems_eq rest, List.map_cons, rewrite_other rfl rfl]
    nofun

theorem showSectionMembers_eq :
    ∀ record, showSectionMembers record =
      record.map fun m => (m.1, (named [("args", items argument)] m.1).rewrite keyText m.2)
  | [] => rfl
  | (name, v) :: rest => by
    rw [showSectionMembers, showArguments_eq v, showSectionMembers_eq rest, List.map_cons,
      rewrite_named_cons, rewrite_named_nil]

theorem showArguments_eq : ∀ v, showArguments v = (items argument).rewrite keyText v
  | .arr list => by
    rw [showArguments, showArgumentItems_eq list, rewrite]
    rfl
  | .obj record => (rewrite_without_members fun _ => rfl).symm
  | .null | .bool _ | .int _ | .real _ | .str _ => (rewrite_other rfl rfl).symm

theorem showArgumentItems_eq :
    ∀ list, showArgumentItems list = list.map (argument.rewrite keyText)
  | [] => rfl
  | .obj record :: rest => by
    rw [showArgumentItems, showArgumentItems_eq rest, List.map_cons]
    cases known : argumentType record with
    | some type =>
      simp only [rewrite, argument_member known, showArgumentMembers_eq type record]
    | none => rw [rewrite_without_members (argument_unknown known)]
  | .arr list :: rest => by
    rw [showArgumentItems, showArgumentItems_eq rest, List.map_cons, rewrite_without_items rfl]
    nofun
  | .null :: rest | .bool _ :: rest | .int _ :: rest | .real _ :: rest | .str _ :: rest => by
    rw [showArgumentItems, showArgumentItems_eq rest, List.map_cons, rewrite_other rfl rfl]
    nofun

theorem showArgumentMembers_eq (type : ArgType) :
    ∀ record, showArgumentMembers type record =
      record.map fun m => (m.1, (named [("value", typedPlaces type)] m.1).rewrite keyText m.2)
  | [] => rfl
  | (name, v) :: rest => by
    rw [showArgumentMembers, showTyped_eq type v, showArgumentMembers_eq type rest, List.map_cons,
      rewrite_named_cons, rewrite_named_nil]

end

theorem messagePlaces_table :
    messagePlaces = members (tablePlaces ["to", "from"] messageLists []) := rfl

theorem showMessageMember_eq (m : Text × Json) (record : List (Text × Json)) :
    showMessageMember m = (m.1, (messagePlaces.member record m.1).rewrite keyText m.2) := by
  rw [showMessageMember, messagePlaces_table, member, named_table]
  split
  · rw [rewrite_here, showKey_eq]
  · cases messageLists.lookup m.1 with
    | some names => exact congrArg (Prod.mk m.1) (showRecords_eq names m.2)
    | none => exact congrArg (Prod.mk m.1) (rewrite_nowhere m.2).symm

theorem showMessage_eq (v : Json) : showMessage v = messagePlaces.rewrite keyText v := by
  cases v with
  | obj record =>
    rw [showMessage, rewrite]
    exact congrArg Json.obj (List.map_congr_left fun m _ => showMessageMember_eq m record)
  | arr list => exact (rewrite_without_items rfl list).symm
  | _ => exact (rewrite_other rfl rfl).symm

theorem showCalls_eq (v : Json) : showCalls v = (items call).rewrite keyText v := by
  cases v with
  | arr list =>
    rw [showCalls, showCallItems_eq, rewrite]
    rfl
  | obj record => exact (rewrite_without_members fun _ => rfl).symm
  | _ => exact (rewrite_other rfl rfl).symm

theorem showMember_eq (m : Text × Json) (record : List (Text × Json)) :
    showMember m = (m.1, (transactionPlaces.member record m.1).rewrite keyText m.2) := by
  rw [showMember, transactionPlaces, member]
  simp only [rewrite_named_cons, rewrite_named_nil]
  rw [rewrite_here, showKey_eq, showRecords_eq, showMessage_eq, showCall_eq, showCalls_eq]
  rfl

theorem showTransaction_eq (record : List (Text × Json)) :
    .obj (showTransaction record) = transactionPlaces.rewrite keyText (.obj record) := by
  rw [showTransaction, rewrite]
  exact congrArg Json.obj (List.map_congr_left fun m _ => showMember_eq m record)

/-- Showing the keys of a record as addresses keeps its shape and every leaf but the keys in
hexadecimal at places of the inventory, which become their address texts. The other mode changes
nothing. -/
theorem showing_changes_keys_only (members : List (Text × Json)) :
    apply .bytes (.obj members) = .ok (.obj members) ∧
    ∃ after, apply .address (.obj members) = .ok (.obj after) ∧
      (Json.obj after).outline = (Json.obj members).outline ∧
      ∀ path leaf, (Json.obj members).at? path = some leaf → leaf.isLeaf = true →
        (∃ hex text, leaf = .str hex ∧ hex.KeyHex ∧ InInventory (.obj members) path ∧
          Address.textOfKeyHex hex = .ok text ∧ (Json.obj after).at? path = some (.str text)) ∨
        ((¬ ∃ hex, leaf = .str hex ∧ hex.KeyHex ∧ InInventory (.obj members) path) ∧
          (Json.obj after).at? path = some leaf) := by
  refine ⟨rfl, showTransaction members, rfl, ?_, ?_⟩
  · rw [showTransaction_eq, outline_rewrite]
  intro path leaf found isLeaf
  rw [showTransaction_eq, at?_rewrite_leaf found isLeaf]
  by_cases convertible : ∃ hex, leaf = .str hex ∧ hex.KeyHex ∧ InInventory (.obj members) path
  · obtain ⟨hex, rfl, key, inside⟩ := convertible
    obtain ⟨_, a, _, _, _, known⟩ := Address.textOfKeyHex_ok key
    refine Or.inl ⟨hex, a.text, rfl, key, inside, known, ?_⟩
    rw [if_pos (show (transactionPlaces.along _ path).isHere = true from inside), onText,
      keyText_key key known]
  · refine Or.inr ⟨convertible, ?_⟩
    split
    · rename_i inside
      cases leaf with
      | str s =>
        have other : ¬ s.KeyHex := fun key => convertible ⟨s, rfl, key, inside⟩
        rw [onText, keyText_other other]
      | _ => rfl
    · rfl

/-- The zero key of a gas payer is shown as an address, the same digits in a payload are not. -/
theorem gas_payer_shown :
    ∃ after, apply .address (.obj
        [("gas_from", .str (Text.Hex.encode (List.replicate 32 0))),
          ("payload", .str (Text.Hex.encode (List.replicate 32 0)))]) = .ok (.obj after) ∧
      (Json.obj after).at? [0] = some (.str "NULL") ∧
      (Json.obj after).at? [1] = some (.str (Text.Hex.encode (List.replicate 32 0))) := by
  obtain ⟨-, after, shown, -, leaves⟩ := showing_changes_keys_only
    [("gas_from", .str (Text.Hex.encode (List.replicate 32 0))),
      ("payload", .str (Text.Hex.encode (List.replicate 32 0)))]
  have key : (Text.Hex.encode (List.replicate 32 0) : Text).KeyHex := Text.keyHex_encode rfl
  refine ⟨after, shown, ?_, ?_⟩
  · rcases leaves [0] _ rfl rfl with ⟨hex, text, same, _, _, known, reached⟩ | ⟨other, _⟩
    · cases same
      have null : Address.textOfKeyHex (Text.Hex.encode (List.replicate 32 0)) = .ok "NULL" := by
        decide +kernel
      rw [null] at known
      cases known
      exact reached
    · exact absurd ⟨_, rfl, key, by decide⟩ other
  · rcases leaves [1] _ rfl rfl with ⟨_, _, _, _, inside, _, _⟩ | ⟨_, reached⟩
    · exact absurd inside (by decide)
    · exact reached

/-- Showing keys again changes nothing, in a value of any type, in a record, and in a row of
requests for either mode: one request for addresses decides. -/
theorem showing_is_idempotent :
    (∀ type v, showTyped type (showTyped type v) = showTyped type v) ∧
    (∀ members, showTransaction (showTransaction members) = showTransaction members) ∧
    ∀ (modes : List Mode) members, modes.foldlM (fun v mode => apply mode v) (.obj members) =
      if .address ∈ modes then apply .address (.obj members) else .ok (.obj members) := by
  have typed : ∀ type v, showTyped type (showTyped type v) = showTyped type v := by
    intro type v
    rw [showTyped_eq, showTyped_eq, rewrite_rewrite, keyText_keyText]
  have record : ∀ members, showTransaction (showTransaction members) = showTransaction members := by
    intro members
    have twice : Json.obj (showTransaction (showTransaction members)) =
        .obj (showTransaction members) := by
      rw [showTransaction_eq, showTransaction_eq, rewrite_rewrite, keyText_keyText]
    exact Json.obj.inj twice
  refine ⟨typed, record, fun modes => ?_⟩
  induction modes with
  | nil => exact fun members => rfl
  | cons mode rest ih =>
    intro members
    rw [List.foldlM_cons]
    cases mode with
    | bytes =>
      have first : apply .bytes (.obj members) = .ok (.obj members) := rfl
      have others := ih members
      rw [first]
      simpa [bind, Except.bind] using others
    | address =>
      have first : apply .address (.obj members) = .ok (.obj (showTransaction members)) := rfl
      have again : apply .address (.obj (showTransaction members)) =
          .ok (.obj (showTransaction members)) := by
        change Except.ok (Json.obj (showTransaction (showTransaction members))) = _
        rw [record]
      have others := ih (showTransaction members)
      rw [again] at others
      rw [first, if_pos List.mem_cons_self]
      simpa [bind, Except.bind] using others

end ChainDecode.Carbon.AddressView
