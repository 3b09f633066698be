import ChainDecode.Json.Access
import ChainDecode.Proofs.Carbon.AddressSources
import ChainDecode.Proofs.Carbon.Nesting
import ChainDecode.Proofs.Carbon.RoundTrip

/-! # The calls that a call shows

The JSON form of a call shows its arguments, in one piece or section by section. Those of one type
are calls themselves, and each of these is again a decoded call, with one level less to go.
-/
namespace ChainDecode.Carbon

theorem get?_record (fields : List (String × Value)) (key : String) :
    (Value.record fields).toJson.get? key = (fields.lookup key).map Value.toJson := by
  show (Value.fieldsJson fields).lookup (Text.ofString key) = _
  induction fields with
  | nil => rfl
  | cons f rest ih =>
    obtain ⟨name, v⟩ := f
    rw [Value.fieldsJson, List.lookup_cons, List.lookup_cons, ih]
    by_cases same : key = name
    · subst same
      simp
    · have other : (Text.ofString key == Text.ofString name) = false := by
        rw [beq_eq_false_iff_ne, ne_eq, Text.ofString_inj]
        exact same
      rw [other, beq_false_of_ne same]

def itemsOf (v : Json) (key : Text) : List Json := ((v.get? key).bind Json.items?).getD []

theorem list_toJson {ι : Type} (value : ι → Value) (items : List ι) :
    (Value.list (items.map value)).toJson = .arr (items.map fun x => (value x).toJson) := by
  rw [Value.toJson, Wire.itemsJson_map]

def Value.items : Value → List Value
  | .list items => items
  | _ => []

theorem items_toJson (v : Value) : v.toJson.items?.getD [] = v.items.map Value.toJson := by
  cases v with
  | list items =>
    have each := Wire.itemsJson_map id items
    rwa [List.map_id] at each
  | _ => rfl

theorem itemsOf_eq {v : Json} {key : Text} {found : Option Value}
    (h : v.get? key = found.map Value.toJson) :
    itemsOf v key = (found.elim [] Value.items).map Value.toJson := by
  rw [itemsOf, h]
  cases found with
  | none => rfl
  | some v => exact items_toJson v

def callsIn (argument : Json) : List Json :=
  match argument.get? "type" with
  | some (.str type) => if type = "txmsg_call_multi" then itemsOf argument "value" else []
  | _ => []

def embeddedCalls (call : Json) : List Json :=
  (call :: itemsOf call "sections").flatMap fun holder => (itemsOf holder "args").flatMap callsIn

/-- The other is a call that the call shows in its arguments. -/
def HoldsCall (outer inner : Json) : Prop := inner ∈ embeddedCalls outer

theorem callsIn_argument (a : CallArgument) :
    callsIn a.toValue.toJson =
      if a.type = "txmsg_call_multi" then a.value.items.map Value.toJson else [] := by
  have type : a.toValue.toJson.get? "type" = some (.str a.type) := get?_record _ _
  have value : itemsOf a.toValue.toJson "value" = a.value.items.map Value.toJson :=
    itemsOf_eq (get?_record _ _)
  rw [callsIn, type, value]

def CallSection.arguments (s : CallSection) : List CallArgument :=
  s.content.elim [] fun content => content.2.getD []

/-- The arguments that stand in no section. -/
def CallContent.own : CallContent → List CallArgument
  | .sections _ => []
  | .plain _ arguments => arguments.getD []

def CallContent.parts : CallContent → List CallSection
  | .sections items => items
  | .plain .. => []

def Call.arguments (c : Call) : List CallArgument :=
  c.content.own ++ c.content.parts.flatMap CallSection.arguments

/-- What a call shows behind its names. -/
def CallContent.fields : CallContent → List (String × Value)
  | .sections items => [("sections", .list (items.map CallSection.toValue))]
  | .plain args arguments => argumentFields args arguments

theorem get?_call (c : Call) (key : String)
    (h : key ∉ ["module_id", "method_id", "module_name", "method_name"]) :
    c.toValue.toJson.get? key = (c.content.fields.lookup key).map Value.toJson := by
  simp only [List.mem_cons, List.not_mem_nil, or_false, not_or] at h
  obtain ⟨moduleId, methodId, moduleName, methodName⟩ := h
  obtain ⟨module, method, named, called, content⟩ := c
  rw [Call.toValue, get?_record]
  cases named <;> cases called <;> cases content <;>
    simp [List.lookup_cons, CallContent.fields, beq_false_of_ne, moduleId, methodId, moduleName,
      methodName]

theorem argumentFields_items (args : List UInt8) (arguments : Option (List CallArgument)) :
    ((argumentFields args arguments).lookup "args").elim [] Value.items =
      (arguments.getD []).map CallArgument.toValue := by
  cases arguments <;> rfl

theorem itemsOf_args (c : Call) :
    itemsOf c.toValue.toJson "args" = c.content.own.map fun a => a.toValue.toJson := by
  rw [itemsOf_eq (get?_call c "args" (by decide))]
  cases c.content with
  | sections items => rfl
  | plain args arguments =>
    rw [CallContent.fields, argumentFields_items, List.map_map]
    rfl

theorem itemsOf_sections (c : Call) :
    itemsOf c.toValue.toJson "sections" = c.content.parts.map fun s => s.toValue.toJson := by
  rw [itemsOf_eq (get?_call c "sections" (by decide))]
  cases c.content with
  | sections items => exact List.map_map
  | plain args arguments => cases arguments <;> rfl

theorem itemsOf_section (s : CallSection) :
    itemsOf s.toValue.toJson "args" = s.arguments.map fun a => a.toValue.toJson := by
  obtain ⟨offset, content⟩ := s
  rw [CallSection.toValue, itemsOf_eq (get?_record _ _), CallSection.arguments]
  cases content with
  | none => rfl
  | some content =>
    obtain ⟨args, arguments⟩ := content
    change (((argumentFields args arguments).lookup "args").elim [] Value.items).map _ = _
    rw [argumentFields_items, List.map_map]
    rfl

theorem embeddedCalls_eq (c : Call) :
    embeddedCalls c.toValue.toJson = c.arguments.flatMap fun a => callsIn a.toValue.toJson := by
  have parts (s : CallSection) : (itemsOf s.toValue.toJson "args").flatMap callsIn =
      s.arguments.flatMap fun a => callsIn a.toValue.toJson := by
    rw [itemsOf_section, List.flatMap_map]
  rw [embeddedCalls, List.flatMap_cons, itemsOf_args, itemsOf_sections, List.flatMap_map,
    List.flatMap_map, Call.arguments, List.flatMap_append, List.flatMap_assoc]
  simp only [parts]

section Decoded

variable {read : ArgType → ArgRead Value}

def ReadBy (read : ArgType → ArgRead Value) (a : CallArgument) : Prop :=
  ∃ type : ArgType, type.strangers = [] ∧ a.type = type.name ∧ ∃ s t, read type s = .ok a.value t

theorem arguments_readBy {method : String} {args : List ArgDef}
    (known : ∀ arg ∈ args, arg.type.strangers = []) (s : ArgState) :
    ∀ a ∈ (decodeArgsFrom read method args s).1, ReadBy read a := by
  induction args generalizing s with
  | nil => exact List.forall_mem_nil _
  | cons arg rest ih =>
    rw [decodeArgsFrom]
    cases result : read arg.type s with
    | ok v after =>
      have others := ih (fun a member => known a (List.mem_cons_of_mem arg member)) after
      exact List.forall_mem_cons.mpr
        ⟨⟨arg.type, known arg List.mem_cons_self, rfl, s, after, result⟩, others⟩
    | error f after =>
      dsimp only
      split <;> exact List.forall_mem_nil _

theorem decodeArgs_readBy {module method : Int} (args : List UInt8) :
    ∀ a ∈ ((decodeArgs read (Catalog.lookup module method) args).1.getD []), ReadBy read a := by
  cases found : Catalog.lookup module method with
  | none => exact List.forall_mem_nil _
  | some signature =>
    exact arguments_readBy (signatures_known signature (mem_signatures found)) _

theorem decodedCall_readBy (raw : RawCall) :
    ∀ a ∈ (decodeCallWith read raw).1.arguments, ReadBy read a := by
  obtain ⟨module, method, args, sections⟩ := raw
  intro a member
  rcases sections with _ | _ | ⟨first, rest⟩
  · exact decodeArgs_readBy args a (List.mem_append.mp member |>.resolve_right List.not_mem_nil)
  · exact decodeArgs_readBy args a (List.mem_append.mp member |>.resolve_right List.not_mem_nil)
  · obtain ⟨s, decoded, inside⟩ := List.mem_flatMap.mp member
    obtain ⟨_, part, rfl⟩ := List.mem_map.mp decoded
    obtain ⟨raw, _, rfl⟩ := List.mem_map.mp part
    unfold decodeSection at inside
    split at inside
    · exact decodeArgs_readBy raw.args a inside
    · cases inside

end Decoded

theorem readArg_embedded (levels : Nat) {s : ArgState} {raws : List RawCall} {after : Cursor}
    (found : RawCall.readMany s.cursor = .ok raws after) :
    readArg (levels + 1) .calls s =
      .ok (.list (raws.map fun raw => (decodeCallWith (readArg levels) raw).1.toValue))
        ⟨after, s.warnings ++ raws.flatMap fun raw => (decodeCallWith (readArg levels) raw).2⟩ := by
  rw [readArg, bind_ok (lift_ok found), bind_ok (readAllEmbedded_all _ raws _)]
  rfl

theorem readArg_calls_items {levels : Nat} {s t : ArgState} {v : Value}
    (read : readArg levels .calls s = .ok v t) :
    ∃ (fewer : Nat) (raws : List RawCall), levels = fewer + 1 ∧
      v.items = raws.map fun raw => (decodeCallWith (readArg fewer) raw).1.toValue := by
  cases levels with
  | zero => cases read
  | succ fewer =>
    obtain ⟨raws, _, lifted, -⟩ := of_bind_ok read
    rw [readArg_embedded fewer (of_lift_ok lifted).1] at read
    cases read
    exact ⟨fewer, raws, rfl, rfl⟩

theorem embedded_decoded {levels : Nat} {raw : RawCall} {inner : Json}
    (h : HoldsCall (decodeCallWith (readArg levels) raw).1.toValue.toJson inner) :
    ∃ fewer raw', levels = fewer + 1 ∧
      inner = (decodeCallWith (readArg fewer) raw').1.toValue.toJson := by
  rw [HoldsCall, embeddedCalls_eq] at h
  obtain ⟨a, member, inside⟩ := List.mem_flatMap.mp h
  obtain ⟨type, known, same, s, t, read⟩ := decodedCall_readBy raw a member
  rw [callsIn_argument] at inside
  split at inside
  · rename_i named
    have calls : type = .calls := by
      have none : ArgType.calls.strangers = [] := rfl
      rw [← ArgType.ofName_name known, ← same, named]
      exact ArgType.ofName_name none
    subst calls
    obtain ⟨fewer, raws, down, items⟩ := readArg_calls_items read
    rw [items, List.map_map] at inside
    obtain ⟨raw', _, rfl⟩ := List.mem_map.mp inside
    exact ⟨fewer, raw', down, rfl⟩
  · cases inside

end ChainDecode.Carbon
