import ChainDecode.Carbon.AddressView
import ChainDecode.Proofs.Json.Path

/-! # Places of addresses

The inventory of address places as a tree. It is followed down a value together with the value
itself, because an argument's type decides what its value holds. Rewriting the texts at the places
is one function of the tree, and what it leaves alone can be said for every tree at once.
-/
namespace ChainDecode.Carbon.AddressView

inductive Places where
  | nowhere
  | here
  | members (named : List (Text × Places))
  | items (each : Places)
  -- In the arguments of a call, which may hold calls again.
  | call
  -- In the value of an argument, where the type beside it says.
  | argument

def typedPlaces : ArgType → Places
  | .plain .bytes32 => .here
  | .plain .tokenInfo | .plain .seriesInfo => .members [("owner", .here)]
  | .plain .stakeImport | .plain .mintFungible => .members [("to", .here)]
  | .plain .nameImport | .plain .memberImport => .members [("address", .here)]
  | .plain .nftImport => .members [("originator", .here), ("owner", .here)]
  | .organizationImport =>
    .members [("member_imports", .items (.members [("address", .here)])),
      ("info", .members [("owner", .here)])]
  | .seriesImport =>
    .members [("imports", .items (.members [("originator", .here), ("owner", .here)])),
      ("info", .members [("owner", .here)])]
  | .calls => .items .call
  | .array item => .items (typedPlaces item)
  | _ => .nowhere

def callPlaces : List (Text × Places) :=
  [("args", .items .argument), ("sections", .items (.members [("args", .items .argument)]))]

def messagePlaces : Places :=
  .members [("to", .here), ("from", .here),
    ("transfer_f", .items (.members [("to", .here), ("from", .here)])),
    ("transfer_n", .items (.members [("to", .here), ("from", .here)])),
    ("mint_f", .items (.members [("to", .here)])), ("burn_f", .items (.members [("from", .here)])),
    ("mint_n", .items (.members [("to", .here)])), ("burn_n", .items (.members [("from", .here)]))]

/-- The addresses in a transaction. -/
def transactionPlaces : Places :=
  .members [("gas_from", .here), ("witnesses", .items (.members [("address", .here)])),
    ("msg", messagePlaces), ("call", .call), ("calls", .items .call)]

namespace Places

def isHere : Places → Bool
  | here => true
  | _ => false

/-- The places in every item of a list. -/
def item : Places → Places
  | items each => each
  | _ => nowhere

def named (list : List (Text × Places)) (name : Text) : Places := (list.lookup name).getD nowhere

theorem named_cons (name : Text) (places : Places) (rest : List (Text × Places)) (wanted : Text) :
    named ((name, places) :: rest) wanted =
      if wanted = name then places else named rest wanted := by
  by_cases same : wanted = name
  · rw [named, List.lookup_cons, if_pos same, beq_iff_eq.mpr same]
    rfl
  · rw [named, List.lookup_cons, if_neg same, beq_eq_false_iff_ne.mpr same]
    rfl

theorem named_nil (wanted : Text) : named [] wanted = nowhere := rfl

def member : Places → List (Text × Json) → Text → Places
  | members list, _, name => named list name
  | call, _, name => named callPlaces name
  | argument, record, name =>
    match argumentType record with
    | some type => named [("value", typedPlaces type)] name
    | none => nowhere
  | _, _, _ => nowhere

theorem argument_member {record : List (Text × Json)} {type : ArgType}
    (known : argumentType record = some type) (name : Text) :
    argument.member record name = named [("value", typedPlaces type)] name := by
  simp only [member, known]

theorem argument_unknown {record : List (Text × Json)} (unknown : argumentType record = none)
    (name : Text) : argument.member record name = nowhere := by
  simp only [member, unknown]

def under (places : Places) : Json → List (Places × Json)
  | .arr list => list.map fun v => (places.item, v)
  | .obj record => record.map fun m => (places.member record m.1, m.2)
  | _ => []

def along (places : Places) : Json → Json.Path → Places
  | _, [] => places
  | v, place :: path =>
    match (places.under v)[place]? with
    | some (inner, u) => inner.along u path
    | none => nowhere

mutual

def lines (name : String) : Places → List String
  | here => [name]
  | members list => memberLines name list
  | items each => each.lines (name ++ "[]")
  | _ => []

def memberLines (name : String) : List (Text × Places) → List String
  | [] => []
  | (member, places) :: rest =>
    places.lines (name ++ "." ++ (member.string?.getD "")) ++ memberLines name rest

end

end Places

theorem transaction_lines : transactionPlaces.lines "carbon" = inventory.take 12 := by
  decide +kernel

/-- The path leads to a place of the inventory. -/
def InInventory (record : Json) (path : Json.Path) : Prop :=
  (transactionPlaces.along record path).isHere = true

instance (record : Json) (path : Json.Path) : Decidable (InInventory record path) :=
  inferInstanceAs (Decidable (_ = true))

def onText (f : Text → Text) : Json → Json
  | .str s => .str (f s)
  | v => v

namespace Places

/-- Rewrites the texts at the places and nothing else. -/
def rewrite (f : Text → Text) (places : Places) : Json → Json
  | .arr list => .arr (list.map (places.item.rewrite f))
  | .obj record => .obj (record.map fun m => (m.1, (places.member record m.1).rewrite f m.2))
  | v => if places.isHere then onText f v else v
termination_by v => sizeOf v
decreasing_by
  · rename_i inside
    exact Json.item_smaller inside
  · rename_i inside
    exact Json.member_smaller inside

variable {f g : Text → Text} {places : Places}

theorem rewrite_leaf {v : Json} (h : v.isLeaf = true) :
    places.rewrite f v = if places.isHere then onText f v else v := by
  cases v with
  | arr list => cases h
  | obj record => cases h
  | _ => rw [rewrite] <;> nofun

theorem item_nowhere : nowhere.item = nowhere := rfl

theorem member_nowhere (record : List (Text × Json)) (name : Text) :
    nowhere.member record name = nowhere := rfl

theorem rewrite_nowhere (v : Json) : nowhere.rewrite f v = v := by
  induction v using Json.induct with
  | step v ih =>
    cases v with
    | arr list =>
      have same : list.map (nowhere.rewrite f) = list.map id := List.map_congr_left ih
      rw [rewrite, item_nowhere, same, List.map_id]
    | obj record =>
      have same : (record.map fun m => (m.1, nowhere.rewrite f m.2)) = record.map id := by
        refine List.map_congr_left fun m inside => ?_
        rw [ih m.2 (List.mem_map_of_mem inside)]
        rfl
      rw [rewrite]
      simp only [member_nowhere, same, List.map_id]
    | _ => rw [rewrite_leaf rfl, if_neg (by simp [isHere])]

theorem lookup_map {α β : Type} (h : Text → α → β) (list : List (Text × α)) (name : Text) :
    (list.map fun m => (m.1, h m.1 m.2)).lookup name = (list.lookup name).map (h name) := by
  induction list with
  | nil => rfl
  | cons m rest ih =>
    obtain ⟨first, v⟩ := m
    by_cases same : name = first
    · simp [same]
    · have other : (name == first) = false := beq_eq_false_iff_ne.mpr same
      simp only [List.map_cons, List.lookup_cons, other, ih]

theorem argumentType_rewrite (record : List (Text × Json)) :
    argumentType (record.map fun m => (m.1, (argument.member record m.1).rewrite f m.2)) =
      argumentType record := by
  have type : argument.member record "type" = nowhere := by
    cases found : argumentType record with
    | none => simp only [member, found]
    | some type =>
      simp only [member, found]
      rfl
  have field : ∀ name, Json.field? (record.map fun m =>
      (m.1, (argument.member record m.1).rewrite f m.2)) name =
        (Json.field? record name).map ((argument.member record name).rewrite f) :=
    lookup_map (fun name v => (argument.member record name).rewrite f v) record
  unfold argumentType
  rw [field, field, type]
  cases Json.field? record "type" with
  | none => rfl
  | some v =>
    rw [Option.map_some, rewrite_nowhere]
    cases Json.field? record "value" with
    | none => rfl
    | some u => cases v <;> rfl

theorem member_rewrite (record : List (Text × Json)) (name : Text) :
    places.member (record.map fun m => (m.1, (places.member record m.1).rewrite f m.2)) name =
      places.member record name := by
  cases places with
  | argument =>
    rw [member, argumentType_rewrite]
    rfl
  | _ => rfl

theorem under_rewrite (v : Json) :
    places.under (places.rewrite f v) =
      (places.under v).map fun c => (c.1, c.1.rewrite f c.2) := by
  cases v with
  | arr list => simp [rewrite, under]
  | obj record =>
    rw [rewrite, under, under, List.map_map, List.map_map]
    refine List.map_congr_left fun m _ => ?_
    simp only [Function.comp, member_rewrite]
  | _ =>
    rw [rewrite_leaf rfl]
    split <;> rfl

variable (places) in
theorem children_under (v : Json) : (places.under v).map (·.2) = v.children := by
  cases v with
  | arr list => simp [under, Json.children, Function.comp_def]
  | obj record => simp [under, Json.children, Function.comp_def]
  | _ => rfl

theorem at?_rewrite (v : Json) (path : Json.Path) :
    (places.rewrite f v).at? path = (v.at? path).map ((places.along v path).rewrite f) := by
  induction path generalizing places v with
  | nil => rfl
  | cons place path ih =>
    rw [Json.at?_cons, Json.at?_cons, ← children_under places v,
      ← children_under places (places.rewrite f v), under_rewrite, along]
    simp only [List.getElem?_map]
    cases (places.under v)[place]? with
    | none => rfl
    | some c => exact ih c.2

theorem along_rewrite (v : Json) (path : Json.Path) :
    places.along (places.rewrite f v) path = places.along v path := by
  induction path generalizing places v with
  | nil => rfl
  | cons place path ih =>
    rw [along, along, under_rewrite, List.getElem?_map]
    cases (places.under v)[place]? with
    | none => rfl
    | some c => exact ih c.2

theorem at?_rewrite_leaf {v leaf : Json} {path : Json.Path} (found : v.at? path = some leaf)
    (h : leaf.isLeaf = true) :
    (places.rewrite f v).at? path =
      some (if (places.along v path).isHere then onText f leaf else leaf) := by
  rw [at?_rewrite, found, Option.map_some, rewrite_leaf h]

theorem onText_onText (v : Json) : onText f (onText g v) = onText (f ∘ g) v := by
  cases v <;> rfl

theorem onText_leaf {v : Json} (h : v.isLeaf = true) : (onText f v).isLeaf = true := by
  cases v with
  | str s => rfl
  | _ => exact h

theorem rewrite_rewrite (v : Json) :
    places.rewrite f (places.rewrite g v) = places.rewrite (f ∘ g) v := by
  induction v using Json.induct generalizing places with
  | step v ih =>
    cases v with
    | arr list =>
      rw [rewrite, rewrite, rewrite, List.map_map]
      exact congrArg Json.arr (List.map_congr_left fun u inside => ih u inside)
    | obj record =>
      rw [rewrite, rewrite, rewrite, List.map_map]
      -- The second rewriting looks for its places in the record that the first one left.
      refine congrArg Json.obj (List.map_congr_left fun m inside => ?_)
      simp only [Function.comp_apply, member_rewrite, ih m.2 (List.mem_map_of_mem inside)]
    | _ =>
      rw [rewrite_leaf (f := g) rfl, rewrite_leaf (f := f ∘ g) rfl]
      split
      · rename_i here
        rw [rewrite_leaf (onText_leaf rfl), if_pos here, onText_onText]
      · rename_i other
        rw [rewrite_leaf rfl, if_neg other]

theorem rewrite_congr {v : Json} (h : ∀ path s, v.at? path = some (.str s) →
    (places.along v path).isHere = true → f s = g s) : places.rewrite f v = places.rewrite g v := by
  induction v using Json.induct generalizing places with
  | step v ih =>
    have below : ∀ c ∈ places.under v, c.1.rewrite f c.2 = c.1.rewrite g c.2 := by
      intro c inside
      -- A path below goes on from the place of what stands here.
      obtain ⟨place, found⟩ := List.mem_iff_getElem?.mp inside
      have child : v.children[place]? = some c.2 := by
        rw [← children_under places, List.getElem?_map, found]
        rfl
      refine ih c.2 (List.mem_of_getElem? child) fun path s reached here => ?_
      refine h (place :: path) s ?_ ?_
      · rw [Json.at?_cons, child]
        exact reached
      · rw [along, found]
        exact here
    cases v with
    | arr list =>
      rw [rewrite, rewrite]
      refine congrArg Json.arr (List.map_congr_left fun u inside => ?_)
      exact below (places.item, u) (List.mem_map_of_mem inside)
    | obj record =>
      rw [rewrite, rewrite]
      refine congrArg Json.obj (List.map_congr_left fun m inside => ?_)
      exact congrArg _ (below (places.member record m.1, m.2) (List.mem_map_of_mem inside))
    | str s =>
      rw [rewrite_leaf rfl, rewrite_leaf rfl]
      split
      · rename_i here
        rw [onText, onText, h [] s rfl here]
      · rfl
    | _ =>
      rw [rewrite_leaf rfl, rewrite_leaf rfl]
      rfl

theorem rewrite_id (v : Json) : places.rewrite id v = v := by
  induction v using Json.induct generalizing places with
  | step v ih =>
    cases v with
    | arr list =>
      have same : list.map (places.item.rewrite id) = list.map id :=
        List.map_congr_left fun u inside => ih u inside
      rw [rewrite, same, List.map_id]
    | obj record =>
      have same : (record.map fun m => (m.1, (places.member record m.1).rewrite id m.2)) =
          record.map id := by
        refine List.map_congr_left fun m inside => ?_
        rw [ih m.2 (List.mem_map_of_mem inside)]
        rfl
      rw [rewrite, same, List.map_id]
    | _ =>
      rw [rewrite_leaf rfl]
      split <;> rfl

theorem outline_rewrite (v : Json) : (places.rewrite f v).outline = v.outline := by
  induction v using Json.induct generalizing places with
  | step v ih =>
    cases v with
    | arr list =>
      rw [rewrite, Json.outline, Json.outline, List.map_map]
      exact congrArg Json.arr (List.map_congr_left fun u inside => ih u inside)
    | obj record =>
      rw [rewrite, Json.outline, Json.outline, List.map_map]
      refine congrArg Json.obj (List.map_congr_left fun m inside => ?_)
      exact congrArg (Prod.mk m.1) (ih m.2 (List.mem_map_of_mem inside))
    | _ =>
      rw [rewrite_leaf rfl]
      split <;> simp [onText, Json.outline]

end Places

end ChainDecode.Carbon.AddressView
