import ChainDecode.Proofs.Carbon.AddressPlaces
import ChainDecode.Proofs.Carbon.Containment

/-! # Keys at the places of addresses

In a decoded transaction every place of the inventory holds the digits of a key: each reader puts a
key wherever the places look for one, whatever bytes it is given and however deep calls are
embedded.
-/
namespace ChainDecode.Carbon

namespace ArgType

theorem ofName_plain (p : PlainType) : ofName p.name = .plain p := by
  have all : ∀ p ∈ PlainType.all, ofName p.name = .plain p := by decide +kernel
  exact all p (by cases p <;> decide)

theorem ofName_array (name : Text) : ofName (name ++ "[]") = .array (.ofName name) := by
  have brackets : (name ++ Text.ofString "[]").letters.reverse =
      .char ']' :: .char '[' :: name.letters.reverse := by
    rw [Text.letters_append, List.reverse_append]
    rfl
  rw [ofName, brackets, ofReversedName, ofName]

theorem ofName_name {type : ArgType} (known : type.strangers = []) :
    ofName type.name = type := by
  induction type with
  | plain p => exact ofName_plain p
  | array item ih => rw [name, ofName_array, ih known]
  | unknown name => cases known
  | _ => decide +kernel

end ArgType

namespace AddressView

open Places

def Keyed (places : Places) (v : Json) : Prop :=
  ∀ path u, v.at? path = some u → (places.along v path).isHere = true →
    ∃ key : List UInt8, key.length = 32 ∧ u = .str (Text.Hex.encode key)

/-- What holds below a value holds of the value, unless it should be a key itself. -/
theorem keyed_of_under {places : Places} {v : Json} (other : places.isHere = false)
    (below : ∀ c ∈ places.under v, Keyed c.1 c.2) : Keyed places v := by
  intro path u found here
  cases path with
  | nil =>
    have same : places.isHere = true := here
    rw [other] at same
    cases same
  | cons place path =>
    rw [Json.at?_cons, ← children_under places, List.getElem?_map] at found
    rw [along] at here
    cases reached : (places.under v)[place]? with
    | none =>
      rw [reached] at found
      cases found
    | some c =>
      rw [reached] at found here
      exact below c (List.mem_of_getElem? reached) path u found here

theorem keyed_key {key : List UInt8} (h : key.length = 32) :
    Keyed here (.str (Text.Hex.encode key)) := by
  intro path u found _
  cases path with
  | nil =>
    cases found
    exact ⟨key, h, rfl⟩
  | cons place path => cases found

theorem keyed_nowhere (v : Json) : Keyed nowhere v := by
  induction v using Json.induct with
  | step v ih =>
    refine keyed_of_under rfl fun c inside => ?_
    have child : c.2 ∈ v.children := by
      rw [← children_under nowhere]
      exact List.mem_map_of_mem inside
    have same : c.1 = nowhere := by
      cases v with
      | arr list =>
        obtain ⟨u, _, rfl⟩ := List.mem_map.mp inside
        rfl
      | obj record =>
        obtain ⟨m, _, rfl⟩ := List.mem_map.mp inside
        rfl
      | _ => cases inside
    rw [same]
    exact ih c.2 child

theorem keyed_leaf {places : Places} {v : Json} (leaf : v.isLeaf = true)
    (other : places.isHere = false) : Keyed places v := by
  refine keyed_of_under other fun c inside => ?_
  cases v with
  | arr list => cases leaf
  | obj record => cases leaf
  | _ => cases inside

theorem keyed_arr {places : Places} {list : List Json} (other : places.isHere = false)
    (h : ∀ v ∈ list, Keyed places.item v) : Keyed places (.arr list) := by
  refine keyed_of_under other fun c inside => ?_
  obtain ⟨v, member, rfl⟩ := List.mem_map.mp inside
  exact h v member

theorem keyed_obj {places : Places} {record : List (Text × Json)} (other : places.isHere = false)
    (h : ∀ m ∈ record, Keyed (places.member record m.1) m.2) : Keyed places (.obj record) := by
  refine keyed_of_under other fun c inside => ?_
  obtain ⟨m, member, rfl⟩ := List.mem_map.mp inside
  exact h m member

theorem keyed_list {places : Places} {values : List Value} (other : places.isHere = false)
    (h : ∀ v ∈ values, Keyed places.item v.toJson) : Keyed places (Value.list values).toJson := by
  refine keyed_arr other ?_
  induction values with
  | nil => exact List.forall_mem_nil _
  | cons v rest ih =>
    rw [Value.itemsJson, List.forall_mem_cons]
    rw [List.forall_mem_cons] at h
    exact ⟨h.1, ih h.2⟩

theorem mem_fieldsJson {fields : List (String × Value)} {m : Text × Json}
    (h : m ∈ Value.fieldsJson fields) : ∃ f ∈ fields, m = (Text.ofString f.1, f.2.toJson) := by
  induction fields with
  | nil => cases h
  | cons f rest ih =>
    rcases List.mem_cons.mp h with same | inside
    · exact ⟨f, List.mem_cons_self, same⟩
    · obtain ⟨g, member, same⟩ := ih inside
      exact ⟨g, List.mem_cons_of_mem f member, same⟩

theorem keyed_record {places : Places} {fields : List (String × Value)}
    (other : places.isHere = false)
    (h : ∀ f ∈ fields, Keyed (places.member (Value.fieldsJson fields) f.1) f.2.toJson) :
    Keyed places (Value.record fields).toJson := by
  refine keyed_obj other fun m inside => ?_
  obtain ⟨f, member, rfl⟩ := mem_fieldsJson inside
  exact h f member

mutual

def layoutKeyed : Layout → Places → Bool
  | .fixed size, places => !places.isHere || size == 32
  | .counted item, places => !places.isHere && layoutKeyed item places.item
  | .listed _ item, places => !places.isHere && layoutKeyed item places.item
  | .record fields, places =>
    match places with
    | members list => fieldsKeyed fields list
    | nowhere => true
    | _ => false
  | _, places => !places.isHere

def fieldsKeyed : List (String × Layout) → List (Text × Places) → Bool
  | [], _ => true
  | (name, layout) :: rest, list => layoutKeyed layout (named list name) && fieldsKeyed rest list

end

abbrev YieldsKeyed {σ : Type} (places : Places) (r : EStateM Fault σ Value) : Prop :=
  Yields (fun v => Keyed places v.toJson) r

section Readers

variable {σ α : Type} {places : Places}

theorem yields_nowhere (r : EStateM Fault σ Value) : YieldsKeyed nowhere r :=
  fun _ v _ _ => keyed_nowhere v.toJson

theorem yields_leaf {r : EStateM Fault σ α} {value : α → Value}
    (leaf : ∀ a, (value a).toJson.isLeaf = true) (other : (!places.isHere) = true) :
    YieldsKeyed places (r >>= fun a => pure (value a)) :=
  .after fun a => .pure (keyed_leaf (leaf a) (by simpa using other))

end Readers

mutual

theorem layout_keyed : (layout : Layout) → (places : Places) → layoutKeyed layout places = true →
    YieldsKeyed places layout.read
  | .u8, places, h => by
    rw [Layout.read]
    exact yields_leaf (fun _ => rfl) h
  | .u32, places, h => by
    rw [Layout.read]
    exact yields_leaf (fun _ => rfl) h
  | .u64, places, h => by
    rw [Layout.read]
    exact yields_leaf (fun _ => rfl) h
  | .i64, places, h => by
    rw [Layout.read]
    exact yields_leaf (fun _ => rfl) h
  | .intx, places, h => by
    rw [Layout.read]
    exact yields_leaf (fun _ => rfl) h
  | .bytes, places, h => by
    rw [Layout.read]
    exact yields_leaf (fun _ => rfl) h
  | .smallText, places, h => by
    rw [Layout.read]
    exact yields_leaf (fun _ => rfl) h
  | .typeName, places, h => by
    rw [Layout.read]
    exact yields_leaf (fun _ => rfl) h
  | .fixed size, places, h => by
    rw [Layout.read]
    refine .bind (.take size _) fun bytes length => .pure ?_
    cases places with
    | here =>
      have key : size = 32 := by simpa [layoutKeyed, isHere] using h
      exact keyed_key (length.trans key)
    | _ => exact keyed_leaf rfl rfl
  | .counted item, places, h => by
    simp only [layoutKeyed, Bool.and_eq_true, Bool.not_eq_true'] at h
    have inner := layout_keyed item places.item h.2
    rw [Layout.read]
    exact .after fun n => .bind (.times inner n) fun _ each => .pure (keyed_list h.1 each)
  | .listed negative item, places, h => by
    simp only [layoutKeyed, Bool.and_eq_true, Bool.not_eq_true'] at h
    have inner := layout_keyed item places.item h.2
    rw [Layout.read]
    exact .after fun n => .bind (.times inner n) fun _ each => .pure (keyed_list h.1 each)
  | .record fields, places, h => by
    cases places with
    | members list =>
      have inner := fields_keyed fields list (by simpa only [layoutKeyed] using h)
      rw [Layout.read]
      exact .bind inner fun _ each => .pure (keyed_record rfl each)
    | nowhere => exact yields_nowhere _
    | _ => cases h

theorem fields_keyed : (fields : List (String × Layout)) → (list : List (Text × Places)) →
    fieldsKeyed fields list = true →
      Yields (fun values => ∀ f ∈ values, Keyed (named list f.1) f.2.toJson)
        (Layout.readFields fields)
  | [], _, _ => by
    rw [Layout.readFields]
    exact .pure (List.forall_mem_nil _)
  | (name, layout) :: rest, list, h => by
    simp only [fieldsKeyed, Bool.and_eq_true] at h
    have first := layout_keyed layout (named list name) h.1
    have others := fields_keyed rest list h.2
    rw [Layout.readFields]
    exact .bind first fun _ one => .bind others fun _ each =>
      .pure (List.forall_mem_cons.mpr ⟨one, each⟩)

end

theorem plain_keyed (p : PlainType) : YieldsKeyed (typedPlaces (.plain p)) p.layout.read := by
  refine layout_keyed p.layout _ ?_
  cases p <;> decide

theorem lift_yields {α : Type} {kind : α → Prop} {r : Read α} (h : Yields kind r) :
    Yields kind (ArgRead.lift r) := by
  intro s a t e
  exact h s.cursor a t.cursor (of_lift_ok e).1

theorem argumentType_shown (name : String) (type : ArgType) (v : Value) :
    argumentType (Value.fieldsJson
      [("name", .text name), ("type", .text type.name), ("value", v)]) =
        some (.ofName type.name) := by
  have typeName : (Text.ofString "type" == Text.ofString "name") = false := by decide
  have valueName : (Text.ofString "value" == Text.ofString "name") = false := by decide
  have valueType : (Text.ofString "value" == Text.ofString "type") = false := by decide
  simp [argumentType, Json.field?, Value.fieldsJson, Value.toJson, List.lookup_cons, typeName,
    valueName, valueType]

section Calls

variable {read : ArgType → ArgRead Value}
  (keyed : ∀ type, YieldsKeyed (typedPlaces type) (read type))
include keyed

theorem arguments_keyed {method : String} {args : List ArgDef}
    (known : ∀ arg ∈ args, arg.type.strangers = []) (s : ArgState) :
    ∀ a ∈ (decodeArgsFrom read method args s).1, Keyed argument a.toValue.toJson := by
  induction args generalizing s with
  | nil => exact List.forall_mem_nil _
  | cons arg rest ih =>
    rw [decodeArgsFrom]
    cases result : read arg.type s with
    | ok v after =>
      have others := ih (fun a member => known a (List.mem_cons_of_mem arg member)) after
      refine List.forall_mem_cons.mpr ⟨?_, others⟩
      have value := keyed arg.type s v after result
      have type := argumentType_shown arg.name arg.type v
      rw [ArgType.ofName_name (known arg List.mem_cons_self)] at type
      refine keyed_record rfl fun f member => ?_
      rw [argument_member type, named_cons, named_nil]
      simp only [List.mem_cons, List.not_mem_nil, or_false] at member
      rcases member with rfl | rfl | rfl
      · rw [if_neg (show ¬ Text.ofString "name" = Text.ofString "value" by decide)]
        exact keyed_nowhere _
      · rw [if_neg (show ¬ Text.ofString "type" = Text.ofString "value" by decide)]
        exact keyed_nowhere _
      · rw [if_pos rfl]
        exact value
    | error f after =>
      dsimp only
      split <;> exact List.forall_mem_nil _

theorem decodeArgs_keyed {module method : Int} {args : List UInt8} {arguments : List CallArgument}
    (decoded : (decodeArgs read (Catalog.lookup module method) args).1 = some arguments) :
    ∀ a ∈ arguments, Keyed argument a.toValue.toJson := by
  cases found : Catalog.lookup module method with
  | none =>
    rw [found] at decoded
    cases decoded
  | some signature =>
    rw [found] at decoded
    cases decoded
    exact arguments_keyed keyed (signatures_known signature (mem_signatures found)) _

omit keyed in
theorem argumentFields_keyed {list : List (Text × Places)} {args : List UInt8}
    {arguments : Option (List CallArgument)} (bytes : named list "args_hex" = nowhere)
    (typed : named list "args" = items argument)
    (h : ∀ given, arguments = some given → ∀ a ∈ given, Keyed argument a.toValue.toJson) :
    ∀ f ∈ argumentFields args arguments, Keyed (named list f.1) f.2.toJson := by
  rw [argumentFields, List.forall_mem_cons]
  constructor
  · rw [bytes]
    exact keyed_nowhere _
  · intro f member
    obtain ⟨given, known, rfl⟩ := Option.map_eq_some_iff.mp (Option.mem_toList.mp member)
    rw [typed]
    refine keyed_list rfl fun v inside => ?_
    obtain ⟨a, argument, rfl⟩ := List.mem_map.mp inside
    exact h given known a argument

theorem section_keyed {module method : Int} (raw : RawSection) :
    Keyed (members [("args", items argument)])
      (decodeSection read (Catalog.lookup module method) raw).1.toValue.toJson := by
  have offset : ∀ v, Keyed (named [("args", items argument)] "register_offset") v := keyed_nowhere
  unfold decodeSection
  split
  · refine keyed_record rfl (List.forall_mem_cons.mpr ⟨offset _, ?_⟩)
    exact argumentFields_keyed rfl rfl fun given decoded => decodeArgs_keyed keyed decoded
  · exact keyed_record rfl (List.forall_mem_cons.mpr ⟨offset _, List.forall_mem_nil _⟩)

def ContentKeyed : CallContent → Prop
  | .sections parts => ∀ s ∈ parts, Keyed (members [("args", items argument)]) s.toValue.toJson
  | .plain _ arguments =>
    ∀ given, arguments = some given → ∀ a ∈ given, Keyed argument a.toValue.toJson

omit keyed in
theorem call_keyed (c : Call) (h : ContentKeyed c.content) : Keyed call c.toValue.toJson := by
  have moduleId : ∀ v, Keyed (named callPlaces "module_id") v := keyed_nowhere
  have methodId : ∀ v, Keyed (named callPlaces "method_id") v := keyed_nowhere
  have moduleName : ∀ v, Keyed (named callPlaces "module_name") v := keyed_nowhere
  have methodName : ∀ v, Keyed (named callPlaces "method_name") v := keyed_nowhere
  have sections : named callPlaces "sections" = items (members [("args", items argument)]) := rfl
  refine keyed_record rfl fun f member => ?_
  change Keyed (named callPlaces f.1) f.2.toJson
  simp only [List.mem_append, List.mem_cons, List.not_mem_nil, or_false, Option.mem_toList,
    Option.map_eq_some_iff] at member
  rcases member with (((rfl | rfl) | ⟨_, _, rfl⟩) | ⟨_, _, rfl⟩) | inside
  · exact moduleId _
  · exact methodId _
  · exact moduleName _
  · exact methodName _
  · cases content : c.content with
    | sections parts =>
      rw [content] at h inside
      rw [List.mem_singleton.mp inside, sections]
      refine keyed_list rfl fun v shown => ?_
      obtain ⟨s, part, rfl⟩ := List.mem_map.mp shown
      exact h s part
    | plain args arguments =>
      rw [content] at h inside
      exact argumentFields_keyed rfl rfl h f inside

theorem decodedCall_keyed (c : RawCall) :
    Keyed call (decodeCallWith read c).1.toValue.toJson := by
  obtain ⟨module, method, args, sections⟩ := c
  have plain : ContentKeyed (.plain args (decodeArgs read (Catalog.lookup module method) args).1) :=
    fun given decoded => decodeArgs_keyed keyed decoded
  refine call_keyed _ ?_
  rcases sections with _ | _ | ⟨first, rest⟩
  · exact plain
  · exact plain
  · intro s part
    obtain ⟨_, decoded, rfl⟩ := List.mem_map.mp part
    obtain ⟨raw, _, rfl⟩ := List.mem_map.mp decoded
    exact section_keyed keyed raw

theorem embedded_keyed (raws : List RawCall) :
    Yields (fun values => ∀ v ∈ values, Keyed call v.toJson) (readAllEmbedded read raws) := by
  induction raws with
  | nil => exact .pure (List.forall_mem_nil _)
  | cons c rest ih =>
    have first : YieldsKeyed call (readEmbedded read c) :=
      .after fun _ => .pure (decodedCall_keyed keyed c)
    exact .bind first fun _ one => .bind ih fun _ others =>
      .pure (List.forall_mem_cons.mpr ⟨one, others⟩)

end Calls

theorem organization_keyed {name owner metadata imports : Value} (key : Keyed here owner.toJson)
    (each : Keyed (typedPlaces (.array (.plain .memberImport))) imports.toJson) :
    Keyed (typedPlaces .organizationImport)
      (Value.record [("info", .record [("name", name), ("owner", owner), ("metadata", metadata)]),
        ("member_imports", imports)]).toJson := by
  have infoName : ∀ v, Keyed (named [("owner", here)] "name") v := keyed_nowhere
  have infoOwner : named [("owner", here)] "owner" = here := rfl
  have infoMetadata : ∀ v, Keyed (named [("owner", here)] "metadata") v := keyed_nowhere
  have info : ∀ record, (typedPlaces .organizationImport).member record "info" =
      members [("owner", here)] := fun _ => rfl
  have list : ∀ record, (typedPlaces .organizationImport).member record "member_imports" =
      typedPlaces (.array (.plain .memberImport)) := fun _ => rfl
  refine keyed_record rfl (List.forall_mem_cons.mpr ⟨?_, List.forall_mem_singleton.mpr ?_⟩)
  · rw [info]
    refine keyed_record rfl (List.forall_mem_cons.mpr ⟨infoName _, List.forall_mem_cons.mpr ⟨?_,
      List.forall_mem_singleton.mpr (infoMetadata _)⟩⟩)
    change Keyed (named [("owner", here)] "owner") owner.toJson
    rw [infoOwner]
    exact key
  · rw [list]
    exact each

theorem series_keyed {token info imports : Value}
    (owner : Keyed (typedPlaces (.plain .seriesInfo)) info.toJson)
    (each : Keyed (typedPlaces (.array (.plain .nftImport))) imports.toJson) :
    Keyed (typedPlaces .seriesImport)
      (Value.record [("token_id", token), ("info", info), ("imports", imports)]).toJson := by
  have first : ∀ record, (typedPlaces .seriesImport).member record "token_id" = nowhere :=
    fun _ => rfl
  have second : ∀ record, (typedPlaces .seriesImport).member record "info" =
      typedPlaces (.plain .seriesInfo) := fun _ => rfl
  have list : ∀ record, (typedPlaces .seriesImport).member record "imports" =
      typedPlaces (.array (.plain .nftImport)) := fun _ => rfl
  refine keyed_record rfl (List.forall_mem_cons.mpr ⟨?_, List.forall_mem_cons.mpr ⟨?_,
    List.forall_mem_singleton.mpr ?_⟩⟩)
  · rw [first]
    exact keyed_nowhere _
  · rw [second]
    exact owner
  · rw [list]
    exact each

theorem argument_keyed (levels : Nat) (type : ArgType) :
    YieldsKeyed (typedPlaces type) (readArg levels type) := by
  -- An embedded call reads its arguments one level down, so the hypothesis is about every type.
  induction levels generalizing type with
  | zero =>
    intro s v t e
    cases e
  | succ levels ih =>
    unfold readArg
    split
    · exact lift_yields (plain_keyed _)
    · exact yields_nowhere _
    · exact yields_nowhere _
    · exact .after fun name => .bind (lift_yields (plain_keyed .bytes32)) fun owner key =>
        .after fun metadata => .bind (ih (.array (.plain .memberImport))) fun imports each =>
          .pure (organization_keyed key each)
    · exact .after fun token => .bind (lift_yields (plain_keyed .seriesInfo)) fun info owner =>
        .bind (ih (.array (.plain .nftImport))) fun imports each => .pure (series_keyed owner each)
    · exact .after fun raws => .bind (embedded_keyed ih raws) fun _ each =>
        .pure (keyed_list rfl each)
    · exact lift_yields (layout_keyed _ _ rfl)
    · rename_i item _
      have inner : YieldsKeyed (typedPlaces item) (readArg levels item) := ih item
      exact .after fun n => .bind (.times inner n) fun _ each => .pure (keyed_list rfl each)
    · exact yields_nowhere _

theorem messages_keyed {type : TxType} {layout : Layout} (h : type.layout? = some layout) :
    layoutKeyed layout messagePlaces = true := by
  cases type <;> cases h <;> decide

theorem rawCall_keyed (c : RawCall) : Keyed messagePlaces c.toValue.toJson := by
  have moduleId : ∀ record v, Keyed (messagePlaces.member record "module_id") v :=
    fun _ => keyed_nowhere
  have methodId : ∀ record v, Keyed (messagePlaces.member record "method_id") v :=
    fun _ => keyed_nowhere
  have sections : ∀ record v, Keyed (messagePlaces.member record "sections") v :=
    fun _ => keyed_nowhere
  have args : ∀ record v, Keyed (messagePlaces.member record "args") v := fun _ => keyed_nowhere
  obtain ⟨module, method, bytes, parts⟩ := c
  refine keyed_record rfl (List.forall_mem_cons.mpr ⟨moduleId _ _, List.forall_mem_cons.mpr
    ⟨methodId _ _, List.forall_mem_singleton.mpr ?_⟩⟩)
  cases parts with
  | none => exact args _ _
  | some parts => exact sections _ _

theorem rawCalls_keyed (raws : List RawCall) :
    Keyed messagePlaces (Message.calls raws).toValue.toJson := by
  have calls : ∀ record v, Keyed (messagePlaces.member record "calls") v := fun _ => keyed_nowhere
  exact keyed_record rfl (List.forall_mem_singleton.mpr (calls _ _))

theorem message_keyed (code : Json) :
    Yields (fun m => Keyed messagePlaces m.toValue.toJson) (Message.readOf code) := by
  unfold Message.readOf
  split
  · unfold Message.read
    split
    · rename_i layout known
      exact .bind (layout_keyed layout _ (messages_keyed known)) fun _ value => .pure value
    · split
      · exact .after fun c => .pure (rawCall_keyed c)
      · exact .after fun raws => .pure (rawCalls_keyed raws)
  · intro s m t e
    cases e

/-- Who pays, who signs and who is named in the message are keys. -/
structure EnvelopeKeyed (e : Envelope) : Prop where
  gasFrom : e.gasFrom.length = 32
  witnesses : ∀ w ∈ e.witnesses, w.address.length = 32
  message : Keyed messagePlaces e.message.toValue.toJson

theorem envelope_keyed : Yields EnvelopeKeyed Envelope.read := by
  have witness : Yields (fun w => w.address.length = 32) Envelope.readWitness :=
    .bind (.take 32 _) fun _ address => .after fun _ => .pure address
  have witnesses : Yields (fun ws => ∀ w ∈ ws, w.address.length = 32) Envelope.readWitnesses :=
    .after fun n => .times witness n
  exact .after fun _ => .after fun _ => .after fun _ => .after fun _ =>
    .bind (.take 32 _) fun _ gasFrom => .after fun _ =>
      .bind (message_keyed _) fun _ message => .bind witnesses fun _ signed =>
        .pure ⟨gasFrom, signed, message⟩

theorem calls_keyed (m : Message) (record : List (Text × Json)) :
    ∀ field ∈ m.decodeCalls.1.fields,
      Keyed (transactionPlaces.member record field.1) field.2 := by
  have one : transactionPlaces.member record "call" = call := rfl
  have many : transactionPlaces.member record "calls" = items call := rfl
  have decoded : ∀ c, Keyed call (decodeCall 0 c).1.toValue.toJson := fun c =>
    decodedCall_keyed (argument_keyed _) c
  cases m with
  | fields v => exact List.forall_mem_nil _
  | call c =>
    refine List.forall_mem_singleton.mpr ?_
    rw [one]
    exact decoded c
  | calls raws =>
    refine List.forall_mem_singleton.mpr ?_
    rw [many]
    refine keyed_arr rfl fun v shown => ?_
    obtain ⟨c, member, rfl⟩ := List.mem_map.mp shown
    obtain ⟨_, pair, rfl⟩ := List.mem_map.mp member
    obtain ⟨raw, _, rfl⟩ := List.mem_map.mp pair
    exact decoded raw

theorem witnesses_keyed {signed : List Witness} (h : ∀ w ∈ signed, w.address.length = 32)
    (record : List (Text × Json)) :
    ∀ field ∈ (Witnesses.signed signed).fields,
      Keyed (transactionPlaces.member record field.1) field.2 := by
  have list : transactionPlaces.member record "witnesses" = items (members [("address", here)]) :=
    rfl
  have address : ∀ witness, (members [("address", here)]).member witness "address" = here :=
    fun _ => rfl
  have signature : ∀ witness v,
      Keyed ((members [("address", here)]).member witness "signature") v := fun _ => keyed_nowhere
  have signer : ∀ w ∈ signed, Keyed (members [("address", here)]) w.toJson := by
    intro w member
    refine keyed_obj rfl (List.forall_mem_cons.mpr ⟨?_, List.forall_mem_singleton.mpr
      (signature _ _)⟩)
    rw [address]
    exact keyed_key (h w member)
  refine List.forall_mem_singleton.mpr ?_
  rw [list]
  refine keyed_arr rfl fun v shown => ?_
  obtain ⟨w, member, rfl⟩ := List.mem_map.mp shown
  exact signer w member

theorem transaction_keyed {e : Envelope} (h : EnvelopeKeyed e) :
    Keyed transactionPlaces (Transaction.ofEnvelope e).1.toJson := by
  have type : ∀ record v, Keyed (transactionPlaces.member record "type") v :=
    fun _ => keyed_nowhere
  have typeName : ∀ record v, Keyed (transactionPlaces.member record "type_name") v :=
    fun _ => keyed_nowhere
  have expiry : ∀ record v, Keyed (transactionPlaces.member record "expiry") v :=
    fun _ => keyed_nowhere
  have maxGas : ∀ record v, Keyed (transactionPlaces.member record "max_gas") v :=
    fun _ => keyed_nowhere
  have maxData : ∀ record v, Keyed (transactionPlaces.member record "max_data") v :=
    fun _ => keyed_nowhere
  have payload : ∀ record v, Keyed (transactionPlaces.member record "payload") v :=
    fun _ => keyed_nowhere
  have gasFrom : ∀ record, transactionPlaces.member record "gas_from" = here := fun _ => rfl
  have message : ∀ record, transactionPlaces.member record "msg" = messagePlaces := fun _ => rfl
  refine keyed_obj rfl fun field member => ?_
  rcases List.mem_append.mp member with front | calls
  · rcases List.mem_append.mp front with head | witnesses
    · simp only [List.mem_cons, List.not_mem_nil, or_false] at head
      rcases head with rfl | rfl | rfl | rfl | rfl | rfl | rfl | rfl
      · exact type _ _
      · exact typeName _ _
      · exact expiry _ _
      · exact maxGas _ _
      · exact maxData _ _
      · rw [gasFrom]
        exact keyed_key h.gasFrom
      · exact payload _ _
      · rw [message]
        exact h.message
    · exact witnesses_keyed h.witnesses _ field witnesses
  · exact calls_keyed e.message _ field calls

theorem decoded_keyed {bytes : List UInt8} {t : Transaction} {warnings : List Text}
    (accepted : Transaction.decode bytes = .ok (t, warnings)) :
    Keyed transactionPlaces t.toJson := by
  obtain ⟨⟨envelope, cursor⟩, read, made⟩ := except_bind_ok.mp accepted
  cases made
  exact transaction_keyed (Yields.onBytes envelope_keyed read)

end AddressView

end ChainDecode.Carbon
