import ChainDecode.Proofs.Carbon.Containment
import ChainDecode.Proofs.Carbon.DynamicRoundTrip

/-! # Reading call arguments back

The arguments of a call are read from their bytes, and the calls inside them from their own. Levels
carry the induction: what stands inside a value stands at least one level down.
-/
namespace ChainDecode.Carbon.Wire

variable {α β : Type}

/-- The step takes exactly these bytes, yields this value and adds these warnings, whatever follows
and whatever was warned of before. -/
def ReadsArg (r : ArgRead α) (bytes : List UInt8) (a : α) (warnings : List Text) : Prop :=
  ∀ p rest before, r ⟨⟨p, bytes ++ rest⟩, before⟩ =
    .ok a ⟨⟨p + bytes.length, rest⟩, before ++ warnings⟩

namespace ReadsArg

theorem pure (a : α) : ReadsArg (pure a) [] a [] := by
  intro p rest before
  rw [List.append_nil]
  rfl

theorem bind {r : ArgRead α} {f : α → ArgRead β} {front back : List UInt8} {a : α} {b : β}
    {early late : List Text} (h : ReadsArg r front a early) (k : ReadsArg (f a) back b late) :
    ReadsArg (r >>= f) (front ++ back) b (early ++ late) := by
  intro p rest before
  rw [List.append_assoc, bind_ok (h p (back ++ rest) before), k, List.length_append, Nat.add_assoc,
    List.append_assoc]

theorem bind_pure {r : ArgRead α} {bytes : List UInt8} {a : α} {warnings : List Text} (f : α → β)
    (h : ReadsArg r bytes a warnings) :
    ReadsArg (r >>= fun a => Pure.pure (f a)) bytes (f a) warnings := by
  have whole := bind (f := fun a => Pure.pure (f a)) h (pure (f a))
  rwa [List.append_nil, List.append_nil] at whole

theorem lift {r : Read α} {bytes : List UInt8} {a : α} (h : Reads r bytes a) :
    ReadsArg (ArgRead.lift r) bytes a [] := by
  intro p rest before
  rw [lift_ok (h p rest), List.append_nil]

theorem warn (warnings : List Text) : ReadsArg (ArgRead.warn warnings) [] () warnings :=
  fun _ _ _ => rfl

theorem times {ι : Type} {r : ArgRead α} {items : List ι} {bytes : ι → List UInt8} {value : ι → α}
    {warnings : ι → List Text} (h : ∀ x, ReadsArg r (bytes x) (value x) (warnings x)) :
    ReadsArg (times r items.length) (items.flatMap bytes) (items.map value)
      (items.flatMap warnings) := by
  induction items with
  | nil => exact pure []
  | cons x items ih => exact bind (h x) (bind_pure (value x :: ·) ih)

end ReadsArg

def ArgFormat.ReadBy (f : ArgFormat) (r : ArgRead Value) : Prop :=
  ∀ x, ∃ v, ReadsArg r (f.part x).wire v (f.warnings x) ∧ v.toJson = (f.part x).shown

theorem read_quiet {f : Format} {r : Read Value} (h : f.ReadBy r) :
    (ArgFormat.quiet f).ReadBy (ArgRead.lift r) := by
  intro x
  obtain ⟨v, read, shown⟩ := h x
  exact ⟨v, .lift read, shown⟩

theorem read_listed {f : ArgFormat} {r : ArgRead Value} (h : f.ReadBy r) :
    f.listed.ReadBy (readArray r) := by
  intro c
  have ⟨value, values⟩ := Classical.axiomOfChoice h
  have count : ReadsArg (ArgRead.lift (readListCount .negativeArray)) (count c.items.length)
      c.items.length [] := .lift (reads_listCount c.short)
  have items : ReadsArg (times r c.items.length) _ (c.items.map value) _ :=
    .times fun x => (values x).1
  refine ⟨.list (c.items.map value), count.bind (items.bind_pure Value.list), ?_⟩
  have same : (fun x => (value x).toJson) = fun x => (f.part x).shown :=
    funext fun x => (values x).2
  rw [Value.toJson, itemsJson_map, same]
  rfl

def Missing (r : ArgRead Value) : Prop := ∀ p before, ∃ f : Fault,
  r ⟨⟨p, []⟩, before⟩ = .error f ⟨⟨p, []⟩, before⟩ ∧ f.isEndOfStream = true

def isCounted : ArgType → Bool
  | .dynamicStruct | .array _ => true
  | _ => false

/-- The types are read in the formats, and those with values that begin with a count are missed. -/
structure Follows (format : ArgType → ArgFormat) (read : ArgType → ArgRead Value) : Prop where
  reads : ∀ type, (format type).ReadBy (read type)
  missing : ∀ type, isCounted type = true → Nonempty (format type).Data → Missing (read type)

def Cuttable (args : List ArgDef) : Prop :=
  ∀ arg ∈ args, arg.isOptional = true → isCounted arg.type = true

variable {format : ArgType → ArgFormat} {read : ArgType → ArgRead Value}

theorem Given.warnings_next {arg : ArgDef} {args : List ArgDef} (x : (format arg.type).Data)
    (rest : Given format args) :
    (Given.next x rest).warnings = (format arg.type).warnings x ++ rest.warnings := by
  rw [warnings, inner, List.append_assoc]
  rfl

theorem given_decoded (follows : Follows format read) (method : String) {args : List ArgDef}
    (given : Given format args) (cuttable : Cuttable args) (p : Nat) (before : List Text) :
    ∃ arguments, decodeArgsFrom read method args ⟨⟨p, given.wire⟩, before⟩ =
        (arguments, before ++ given.warnings) ∧
      arguments.map (fun a => a.toValue.toJson) = given.shown := by
  induction given generalizing p before with
  | done further => exact ⟨[], rfl, rfl⟩
  | @next arg args x rest ih =>
    obtain ⟨v, first, shown⟩ := follows.reads arg.type x
    have others : Cuttable args := fun a member => cuttable a (List.mem_cons_of_mem _ member)
    obtain ⟨arguments, decoded, same⟩ := ih others
      (p + ((format arg.type).part x).wire.length) (before ++ (format arg.type).warnings x)
    refine ⟨⟨arg.name, arg.type.name, v⟩ :: arguments, ?_, ?_⟩
    · rw [decodeArgsFrom, Given.wire, first p rest.wire before]
      simp only [decoded]
      rw [Given.warnings_next, List.append_assoc]
    · rw [List.map_cons, same, Given.shown, ← shown]
      rfl
  | @cut arg args missing possible =>
    have counted := cuttable arg List.mem_cons_self missing
    obtain ⟨f, stop, ends⟩ := follows.missing arg.type counted possible p before
    refine ⟨[], ?_, rfl⟩
    -- Stopping took no byte and added no warning, so nothing is left to warn of.
    rw [decodeArgsFrom, Given.wire, stop]
    simp only [missing, ends, Bool.and_self, if_true]
    rfl

theorem known_decoded (follows : Follows format read) {signature : CallSignature}
    (cuttable : Cuttable signature.args) (given : Given format signature.args) :
    (decodeArgs read (some signature) given.wire).2 = given.warnings ∧
      Value.fieldsJson
        (argumentFields given.wire (decodeArgs read (some signature) given.wire).1) =
          given.members := by
  obtain ⟨arguments, decoded, same⟩ := given_decoded follows signature.name given cuttable 0 []
  have found : decodeArgs read (some signature) given.wire = (some arguments, given.warnings) := by
    rw [decodeArgs, Cursor.start, decoded]
    rfl
  have list : Value.itemsJson (arguments.map CallArgument.toValue) = given.shown := by
    rw [itemsJson_map, same]
  rw [found]
  refine ⟨rfl, ?_⟩
  simp only [argumentFields, Option.map, Option.toList, Value.fieldsJson, Value.toJson, list]
  rfl

theorem args_decoded (follows : Follows format read) {signature : Option CallSignature}
    (cuttable : ∀ s, signature = some s → Cuttable s.args) (args : Args format signature) :
    (decodeArgs read signature args.blob.bytes).2 = args.warnings ∧
      Value.fieldsJson
        (argumentFields args.blob.bytes (decodeArgs read signature args.blob.bytes).1) =
          args.members := by
  cases args with
  | known given short => exact known_decoded follows (cuttable _ rfl) given
  | unknown bytes => exact ⟨rfl, rfl⟩

theorem fieldsJson_append (front back : List (String × Value)) :
    Value.fieldsJson (front ++ back) = Value.fieldsJson front ++ Value.fieldsJson back := by
  induction front with
  | nil => rfl
  | cons field front ih => rw [List.cons_append, Value.fieldsJson, ih, Value.fieldsJson]; rfl

variable {signature : Option CallSignature}

def contentMembers : Carbon.CallContent → List (Text × Json)
  | .sections items => [("sections", .arr (items.map fun s => s.toValue.toJson))]
  | .plain args arguments => Value.fieldsJson (argumentFields args arguments)

theorem call_json (module method : Int) (signature : Option CallSignature)
    (content : Carbon.CallContent) :
    (Carbon.Call.mk module method (Catalog.moduleName? module) (signature.map (·.name))
        content).toValue.toJson =
      .obj (callMembers module method signature ++ contentMembers content) := by
  rw [Carbon.Call.toValue, Value.toJson, fieldsJson_append]
  refine congrArg Json.obj (congr (congrArg _ ?names) ?content)
  case names =>
    rw [fieldsJson_append, fieldsJson_append, callMembers]
    cases Catalog.moduleName? module <;> cases signature <;> rfl
  case content =>
    cases content with
    | sections items =>
      simp only [Value.fieldsJson, Value.toJson, itemsJson_map]
      rfl
    | plain args arguments => rfl

theorem decoded_json (c : RawCall) :
    (decodeCallWith read c).1.toValue.toJson =
      .obj (callMembers c.module c.method (Catalog.lookup c.module c.method) ++
        contentMembers (decodeCallWith read c).1.content) := by
  obtain ⟨module, method, args, sections⟩ := c
  rcases sections with _ | _ | ⟨first, rest⟩
  · exact call_json ..
  · exact call_json ..
  · exact call_json ..

theorem section_decoded (follows : Follows format read)
    (cuttable : ∀ s, signature = some s → Cuttable s.args) (s : ArgSection format signature) :
    (decodeSection read signature s.written.raw).2 = s.warnings ∧
      (decodeSection read signature s.written.raw).1.toValue.toJson = s.shown := by
  cases s with
  | bare offset negative =>
    have refused : ¬ 0 ≤ offset.toInt := by omega
    simp only [decodeSection, ArgSection.written, Section.raw, refused, if_false]
    exact ⟨rfl, rfl⟩
  | full offset args positive =>
    obtain ⟨warned, members⟩ := args_decoded follows cuttable args
    simp only [decodeSection, ArgSection.written, Section.raw, positive, if_true]
    refine ⟨warned, ?_⟩
    simp only [CallSection.toValue, Value.toJson, Value.fieldsJson, members]
    rfl

theorem sections_decoded (follows : Follows format read)
    (cuttable : ∀ s, signature = some s → Cuttable s.args)
    (items : List (ArgSection format signature)) :
    let raws := (items.map ArgSection.written).map Section.raw
    let decoded := raws.map (decodeSection read signature)
    decoded.flatMap (·.2) = items.flatMap ArgSection.warnings ∧
      (decoded.map (·.1)).map (fun s => s.toValue.toJson) = items.map ArgSection.shown := by
  have decoded := fun s => section_decoded follows cuttable s
  simp only [List.map_map, List.flatMap_map]
  constructor
  · exact congrArg (items.flatMap ·) (funext fun s => (decoded s).1)
  · exact List.map_congr_left fun s _ => (decoded s).2

theorem call_decoded (follows : Follows format read) (c : Embedded format)
    (cuttable : ∀ s, c.signature = some s → Cuttable s.args) :
    (decodeCallWith read c.written.raw).2 = c.content.warnings ∧
      (decodeCallWith read c.written.raw).1.toValue.toJson = c.part.shown := by
  obtain ⟨module, method, signature, rfl, content⟩ := c
  rw [decoded_json]
  cases content with
  | plain args =>
    obtain ⟨warned, members⟩ := args_decoded follows cuttable args
    exact ⟨warned, congrArg (fun content => Json.obj (callMembers .. ++ content)) members⟩
  | sections items least most =>
    obtain ⟨warned, shown⟩ := sections_decoded follows cuttable items
    cases items with
    | nil => cases least
    | cons first rest =>
      have members := congrArg (fun items => [(Text.ofString "sections", Json.arr items)]) shown
      exact ⟨warned, congrArg (fun content => Json.obj (callMembers .. ++ content)) members⟩

/-- In the catalog every optional argument begins with a count. -/
theorem catalog_cuttable {module method : Int} {signature : CallSignature}
    (h : Catalog.lookup module method = some signature) : Cuttable signature.args := by
  have all : ∀ s ∈ signatures, ∀ arg ∈ s.args, arg.isOptional = true →
      isCounted arg.type = true := by
    decide
  exact all signature (mem_signatures h)

theorem embedded_decoded (follows : Follows format read) (c : Embedded format) :
    ∃ v, ReadsArg (readEmbedded read c.written.raw) [] v c.content.warnings ∧
      v.toJson = c.part.shown := by
  have cuttable : ∀ s, c.signature = some s → Cuttable s.args := by
    intro s known
    exact catalog_cuttable (c.found.trans known)
  obtain ⟨warned, shown⟩ := call_decoded follows c cuttable
  refine ⟨_, ?_, shown⟩
  rw [← warned]
  exact (ReadsArg.warn (decodeCallWith read c.written.raw).2).bind_pure fun _ =>
    (decodeCallWith read c.written.raw).1.toValue

theorem allEmbedded_decoded (follows : Follows format read) (items : List (Embedded format)) :
    ∃ vs, ReadsArg (readAllEmbedded read (items.map fun c => c.written.raw)) [] vs
        (items.flatMap fun c => c.content.warnings) ∧
      Value.itemsJson vs = items.map fun c => c.part.shown := by
  induction items with
  | nil => exact ⟨[], .pure [], rfl⟩
  | cons c items ih =>
    obtain ⟨v, first, shown⟩ := embedded_decoded follows c
    obtain ⟨vs, rest, others⟩ := ih
    refine ⟨v :: vs, first.bind (rest.bind_pure (v :: ·)), ?_⟩
    rw [Value.itemsJson, shown, others]
    rfl

theorem read_calls (follows : Follows format read) :
    (embeddedFormat format).listed.ReadBy (do
      let raws ← ArgRead.lift RawCall.readMany
      return .list (← readAllEmbedded read raws)) := by
  intro c
  have raws : Reads RawCall.readMany (c.wire fun x => x.written.wire)
      (c.items.map fun x => x.written.raw) :=
    Reads.counted c.short (fun x _ => reads_call x.written) fun x _ => call_ne_nil x.written
  obtain ⟨vs, values, shown⟩ := allEmbedded_decoded follows c.items
  refine ⟨.list vs, ?_, by rw [Value.toJson, shown]; rfl⟩
  rw [← List.append_nil (Part.wire _)]
  exact (ReadsArg.lift raws).bind (values.bind_pure Value.list)

theorem missing_lift {f : Nat → Read Value} :
    Missing (ArgRead.lift (Stream.count >>= f)) := fun p _ => ⟨.streamShort 4 p 0, rfl, rfl⟩

theorem missing_array (item : ArgRead Value) : Missing (readArray item) :=
  fun p _ => ⟨.streamShort 4 p 0, rfl, rfl⟩

theorem read_organization {metadata : Format} {members : ArgFormat} {struct : Read Value}
    {list : ArgRead Value} (h : metadata.ReadBy struct) (k : members.ReadBy list) :
    (organizationFormat metadata members).ReadBy (do
      let name ← ArgRead.lift Layout.smallText.read
      let owner ← ArgRead.lift Layout.key.read
      let metadata ← ArgRead.lift struct
      let members ← list
      pure (.record
        [("info", .record [("name", name), ("owner", owner), ("metadata", metadata)]),
          ("member_imports", members)])) := by
  intro o
  obtain ⟨name, readName, shownName⟩ := shows_text o.name
  obtain ⟨owner, readOwner, shownOwner⟩ := shows_key o.owner
  obtain ⟨struct, readStruct, shownStruct⟩ := h o.metadata
  obtain ⟨list, readList, shownList⟩ := k o.members
  have wire : ((organizationFormat metadata members).part o).wire = o.name.wire ++
      (o.owner.bytes ++ ((metadata.part o.metadata).wire ++ (members.part o.members).wire)) := by
    simp [organizationFormat, Part.record, Part.text, Part.fixed]
  refine ⟨.record [("info", .record [("name", name), ("owner", owner), ("metadata", struct)]),
    ("member_imports", list)], ?_, ?_⟩
  · rw [wire]
    exact (ReadsArg.lift readName).bind ((ReadsArg.lift readOwner).bind
      ((ReadsArg.lift readStruct).bind (readList.bind_pure fun members => Value.record _)))
  · simp only [Value.toJson, Value.fieldsJson, shownName, shownOwner, shownStruct, shownList]
    rfl

theorem read_series {imports : ArgFormat} {list : ArgRead Value} (h : imports.ReadBy list) :
    (seriesFormat imports).ReadBy (do
      let token ← ArgRead.lift Layout.u64.read
      let info ← ArgRead.lift Layout.seriesInfo.read
      let imports ← list
      pure (.record [("token_id", token), ("info", info), ("imports", imports)])) := by
  intro s
  obtain ⟨token, readToken, shownToken⟩ := shows_u64 s.token
  obtain ⟨info, readInfo, shownInfo⟩ := read_seriesInfo s.info
  obtain ⟨list, readList, shownList⟩ := h s.imports
  have wire : ((seriesFormat imports).part s).wire =
      u64 s.token ++ (s.info.part.wire ++ (imports.part s.imports).wire) := by
    simp [seriesFormat, Part.record, Part.u64]
  refine ⟨.record [("token_id", token), ("info", info), ("imports", list)], ?_, ?_⟩
  · rw [wire]
    exact (ReadsArg.lift readToken).bind ((ReadsArg.lift readInfo).bind
      (readList.bind_pure fun imports => Value.record _))
  · simp only [Value.toJson, Value.fieldsJson, shownToken, shownInfo, shownList]
    rfl

theorem readArg_list {levels : Nat} {item : ArgType} (other : item ≠ .plain .bytes) :
    readArg (levels + 1) (.array item) = readArray (readArg levels item) := by
  rw [readArg]
  exact other

theorem argFormat_list {levels : Nat} {item : ArgType} (other : item ≠ .plain .bytes) :
    argFormat (levels + 1) (.array item) = (argFormat levels item).listed := by
  rw [argFormat]
  exact other

theorem argFormat_follows (levels : Nat) : Follows (argFormat levels) (readArg levels) := by
  induction levels with
  | zero => exact ⟨fun _ x => x.elim, fun _ _ ⟨x⟩ => x.elim⟩
  | succ levels ih =>
    constructor
    · intro type
      cases type with
      | plain p => exact read_quiet (read_plain p)
      | dynamicStruct => exact read_quiet (read_struct levels)
      | dynamicVariable => exact read_quiet (read_variable levels)
      | organizationImport => exact read_organization (read_struct levels) (ih.reads _)
      | seriesImport => exact read_series (ih.reads _)
      | calls => exact read_calls ih
      | array item =>
        by_cases bytes : item = .plain .bytes
        · subst bytes
          exact read_quiet fun c => read_counted c shows_bytes fun _ => List.cons_ne_nil _ _
        · rw [readArg_list bytes, argFormat_list bytes]
          exact read_listed (ih.reads item)
      | unknown name => exact fun x => x.elim
    · intro type counted possible
      cases type with
      | dynamicStruct =>
        -- A struct that no level is left for would stop before its count, but has no values.
        cases levels with
        | zero => exact possible.elim Empty.elim
        | succ levels =>
          change Missing (ArgRead.lift (readStruct (levels + 1)))
          rw [readStruct]
          exact missing_lift
      | array item =>
        by_cases bytes : item = .plain .bytes
        · subst bytes
          change Missing (ArgRead.lift (Layout.counted .bytes).read)
          rw [Layout.read]
          exact missing_lift
        · rw [readArg_list bytes]
          exact missing_array _
      | _ => cases counted

/-- A type that begins with a count has an empty value, unless it stands at the last level. -/
theorem counted_possible (levels : Nat) {type : ArgType} (counted : isCounted type = true) :
    Nonempty (argFormat (levels + 2) type).Data := by
  have none : ∀ α : Type, Nonempty (Counted α) := fun α =>
    ⟨⟨[], Nat.zero_lt_succ _⟩⟩
  cases type with
  | dynamicStruct => exact none _
  | array item =>
    by_cases bytes : item = .plain .bytes
    · subst bytes
      exact none _
    · rw [argFormat_list bytes]
      exact none _
  | _ => cases counted

/-- Arguments that are written in the catalog's types are decoded to themselves, at any depth and
whatever number of optional ones is missing. There is no warning but those about embedded calls and
one about bytes behind the last argument. Below the depth that is allowed any optional argument may
be the first that is missing. -/
theorem arguments_decode_to_themselves (depth module method : Int) (signature : CallSignature)
    (known : Catalog.lookup module method = some signature) :
    (∀ given : Given (argFormat (levelsFrom depth)) signature.args,
      (decodeCall depth ⟨module, method, given.wire, none⟩).1.toValue.toJson =
          .obj (callMembers module method (some signature) ++ given.members) ∧
        (decodeCall depth ⟨module, method, given.wire, none⟩).2 =
          given.inner ++ if given.further = 0 then []
            else [.ofString s!"Call args left {given.further} trailing bytes"]) ∧
      (depth < maxDepth → ∀ arg ∈ signature.args, arg.isOptional = true →
        Nonempty (argFormat (levelsFrom depth) arg.type).Data) := by
  constructor
  · intro given
    have follows := argFormat_follows (levelsFrom depth)
    obtain ⟨warned, members⟩ := known_decoded follows (catalog_cuttable known) given
    rw [← known] at warned members ⊢
    refine ⟨(decoded_json _).trans ?_, warned⟩
    exact congrArg (fun content => Json.obj (callMembers .. ++ content)) members
  · intro shallow arg member missing
    obtain ⟨levels, same⟩ : ∃ levels, levelsFrom depth = levels + 2 := by
      refine ⟨levelsFrom depth - 2, ?_⟩
      unfold levelsFrom maxDepth at *
      omega
    rw [same]
    exact counted_possible levels (catalog_cuttable known arg member missing)

/-- A name with one byte behind it. -/
def lookedUp : Args (argFormat 128) (Catalog.lookup 0 9) :=
  .known (.next (⟨"ab", by decide +kernel⟩ : ShortText) (.done [0xff])) (by decide +kernel)

/-- A struct with one field, a list of one small number. -/
def minusOne : Args (argFormat 128) (Catalog.lookup 0 5) :=
  .known
    (.next
      (⟨[(⟨"x", by decide +kernel⟩, .many .int8 (⟨[(-1 : Int8)], by decide⟩ : Counted Int8) nofun)],
          by decide⟩ : Counted (ShortText × Typed (structFormat 125)))
      (.done []))
    (by decide +kernel)

/-- Three calls, one in a section beside a register and one that the catalog does not have. -/
def embedded : Counted (Embedded (argFormat 128)) where
  items :=
    [⟨0, 9, _, rfl, .sections [.full 0 lookedUp (by decide), .bare (-1) (by decide)] (by decide)
        (by decide)⟩,
      ⟨0, 5, _, rfl, .plain minusOne⟩,
      ⟨3, 0, none, rfl, .plain (.unknown ⟨[1, 2], by decide⟩)⟩]
  short := by decide

def resolution : Given (argFormat (levelsFrom 0)) Catalog.governance[2].args :=
  .next (7 : UInt64) (.next embedded (.done []))

/-- A genesis with one node that ends before its first optional argument. -/
def genesis : Given (argFormat (levelsFrom 0)) Catalog.governance[0].args :=
  .next (⟨1, 0, 0, 0, 0xffff, 3600, 1000⟩ : ChainConfig)
    (.next (⟨1, 32, 8, 0, 4096, 10, 1, 2, 3, 4, 5, 6, 7, 8, 9, 10, 11, 12, 13⟩ : GasConfig)
      (.next (⟨[(⟨⟨List.replicate 32 7, rfl⟩, 1⟩ : NodeInfo)], by decide⟩ : Counted NodeInfo)
        (.cut rfl (counted_possible 127 rfl))))

theorem governance_decoded :
    (Catalog.lookup 0 0 = some Catalog.governance[0] ∧ genesis.wire.length = 16 + 113 + 4 + 33 ∧
      genesis.shown.length = 3 ∧
      (decodeCall 0 ⟨0, 0, genesis.wire, none⟩).1.toValue.toJson =
        .obj (callMembers 0 0 (some Catalog.governance[0]) ++ genesis.members) ∧
      (decodeCall 0 ⟨0, 0, genesis.wire, none⟩).2 = []) ∧
    Catalog.lookup 0 2 = some Catalog.governance[2] ∧
      resolution.wire = [7, 0, 0, 0, 0, 0, 0, 0, 3, 0, 0, 0] ++
        ([0, 0, 0, 0, 9, 0, 0, 0, 0xfe, 0xff, 0xff, 0xff] ++
          ([0, 0, 0, 0, 4, 0, 0, 0, 2, 0x61, 0x62, 0xff] ++ [0xff, 0xff, 0xff, 0xff])) ++
        ([0, 0, 0, 0, 5, 0, 0, 0, 12, 0, 0, 0] ++ [1, 0, 0, 0, 1, 0x78, 0x81, 1, 0, 0, 0, 0xff]) ++
        [3, 0, 0, 0, 0, 0, 0, 0, 2, 0, 0, 0, 1, 2] ∧
      (decodeCall 0 ⟨0, 2, resolution.wire, none⟩).1.toValue.toJson =
        .obj [("module_id", .int 0), ("method_id", .int 2), ("module_name", .str "Governance"),
          ("method_name", .str "SpecialResolution"), ("args_hex", hex resolution.wire),
          ("args", .arr
            [.obj [("name", .str "id"), ("type", .str "u64"), ("value", decimal 7)],
              .obj [("name", .str "calls"), ("type", .str "txmsg_call_multi"), ("value", .arr
                [.obj [("module_id", .int 0), ("method_id", .int 9),
                    ("module_name", .str "Governance"), ("method_name", .str "LookupAddress"),
                    ("sections", .arr
                      [.obj [("register_offset", .int 0), ("args_hex", hex lookedUp.blob.bytes),
                          ("args", .arr [.obj [("name", .str "name"), ("type", .str "smallstring"),
                            ("value", .str "ab")]])],
                        .obj [("register_offset", .int (-1))]])],
                  .obj [("module_id", .int 0), ("method_id", .int 5),
                    ("module_name", .str "Governance"), ("method_name", .str "SetMetadata"),
                    ("args_hex", hex minusOne.blob.bytes),
                    ("args", .arr [.obj [("name", .str "metadata"),
                      ("type", .str "vm_dynamic_struct"), ("value", .arr
                        [.obj [("name", .str "x"), ("type", .str "Int8[]"),
                          ("value", .arr [.int (-1)])]])]])],
                  .obj [("module_id", .int 3), ("method_id", .int 0),
                    ("module_name", .str "Organization"), ("args_hex", hex [1, 2])]])]])] ∧
      (decodeCall 0 ⟨0, 2, resolution.wire, none⟩).2 =
        [.ofString "Call args left 1 trailing bytes"] := by
  obtain ⟨shownGenesis, quiet⟩ :=
    (arguments_decode_to_themselves 0 0 0 Catalog.governance[0] rfl).1 genesis
  obtain ⟨shown, warned⟩ :=
    (arguments_decode_to_themselves 0 0 2 Catalog.governance[2] rfl).1 resolution
  exact ⟨⟨rfl, by decide +kernel, rfl, shownGenesis, quiet⟩, rfl, by decide +kernel,
    shown.trans rfl, warned⟩

end ChainDecode.Carbon.Wire
