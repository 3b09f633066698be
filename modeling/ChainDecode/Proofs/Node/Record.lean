import ChainDecode.Node.Record
import ChainDecode.Proofs.Number.Numeral
import ChainDecode.Proofs.Reading

/-! # Records that are refused

Texts are taken from members of any type. Numbers and signatures are not: a member of a type that
has none stops the reading with a cause that does not lie in a value, and it is told here exactly
when it is met. Other causes lie in values and are reported.
-/
namespace ChainDecode.Node

variable {α β : Type} {members : List (Text × Json)} {key : Text} {v : Json} {f : Fault}

def Shows (members : List (Text × Json)) (key : Text) (v : Json) : Prop :=
  (Json.field? members key).bind Json.present? = some v

/-- A value from which no integer is taken, whatever it holds, and the cause. -/
inductive NoInteger : Json → Fault → Prop
  | array (items : List Json) : NoInteger (.arr items) .wrongShape
  | object (members : List (Text × Json)) : NoInteger (.obj members) .wrongShape
  | infinite {x : Number.Binary64} {negative : Bool} (form : x.form = .infinite negative) :
      NoInteger (.real x) .infinite

def Single (v : Json) : Prop := (∃ n, v = .int n) ∨ (∃ x, v = .real x) ∨ ∃ b, v = .bool b

def HasText (members : List (Text × Json)) (key : Text) : Prop :=
  ∃ text, textMember members key = .ok text

def HasInteger (members : List (Text × Json)) (key : Text) : Prop :=
  ∃ n, integerMember members key = .ok n

def HasLimit (members : List (Text × Json)) : Prop :=
  ∃ limit, gasLimitOf (Json.field? members "gasLimit") = .ok limit

structure Opens (members : List (Text × Json)) : Prop where
  hash : HasText members "hash"
  chain : HasText members "chainAddress"
  script : HasText members "script"
  payload : HasText members "payload"

/-- An object is no record, and the cause does not lie in a value: the first member that is refused
has a type with no number, or with no elements where signatures are. -/
inductive Refuses (members : List (Text × Json)) : Fault → Prop
  | expiration {v : Json} {f : Fault} (opens : Opens members)
      (shown : Shows members "expiration" v) (none : NoInteger v f) : Refuses members f
  | carbonType {v : Json} {f : Fault} (opens : Opens members)
      (expiration : HasInteger members "expiration") (limit : HasLimit members)
      (shown : Shows members "carbonTxType" v) (none : NoInteger v f) : Refuses members f
  | signatures {v : Json} (opens : Opens members) (expiration : HasInteger members "expiration")
      (limit : HasLimit members) (carbonType : HasInteger members "carbonTxType")
      (data : HasText members "carbonTxData") (shown : Shows members "signatures" v)
      (single : Single v) : Refuses members .wrongShape

def Loses (x : Except Fault α) (f : Fault) : Prop := x = .error f ∧ ¬ f.isValue = true

theorem loses_bind {x : Except Fault α} {k : α → Except Fault β} :
    Loses (x >>= k) f ↔ Loses x f ∨ ∃ a, x = .ok a ∧ Loses (k a) f := by
  unfold Loses
  rw [except_bind_error, or_and_right]
  simp only [← exists_and_right, and_assoc]

theorem loses_bind_value {x : Except Fault α} {k : α → Except Fault β}
    (value : ∀ g, x = .error g → g.isValue = true) :
    Loses (x >>= k) f ↔ ∃ a, x = .ok a ∧ Loses (k a) f := by
  rw [loses_bind, or_iff_right]
  rintro ⟨stop, outside⟩
  exact outside (value f stop)

theorem not_loses_ok (a : α) : ¬ Loses (.ok a) f := by
  rintro ⟨stop, _⟩
  cases stop

theorem shown_value {g : Fault} (h : v.shown = .error g) : g.isValue = true := by
  unfold Json.shown at h
  split at h
  · cases h
    rfl
  · cases h

theorem textMember_value (members : List (Text × Json)) (key : Text) (g : Fault)
    (h : textMember members key = .error g) : g.isValue = true := by
  unfold textMember at h
  split at h
  · cases h
  · exact shown_value h

theorem gasLimit_value (limit : Option Json) (g : Fault) (h : gasLimitOf limit = .error g) :
    g.isValue = true := by
  unfold gasLimitOf at h
  split at h
  · cases h
  · cases h
  · split at h
    · cases h
    · exact shown_value (except_map_error.mp h)

theorem present_not_null {w : Json} (h : w.present? = some v) : v ≠ .null := by
  unfold Json.present? at h
  split at h
  · cases h
  · rename_i inked
    cases h
    rintro rfl
    exact inked rfl

theorem shows_not_null (h : Shows members key v) : v ≠ .null := by
  obtain ⟨w, -, present⟩ := Option.bind_eq_some_iff.mp h
  exact present_not_null present

theorem integerOf_error (present : v ≠ .null) :
    integerOf v = .error f ∧ ¬ f.isValue = true ↔ NoInteger v f := by
  constructor
  · rintro ⟨stop, outside⟩
    cases v with
    | null => exact absurd rfl present
    | bool b => cases stop
    | int n => cases stop
    | str s =>
      have value := Number.ofNumeral_cause stop
      simp [Fault.isValue, value] at outside
    | arr items =>
      cases stop
      exact .array items
    | obj members =>
      cases stop
      exact .object members
    | real x =>
      simp only [integerOf] at stop
      split at stop
      · cases stop
        exact absurd rfl outside
      · rename_i form
        cases stop
        exact .infinite form
      · cases stop
  · rintro (items | members | form)
    · exact ⟨rfl, by decide⟩
    · exact ⟨rfl, by decide⟩
    · rw [integerOf, form]
      exact ⟨rfl, by decide⟩

theorem integerMember_loses :
    Loses (integerMember members key) f ↔ ∃ v, Shows members key v ∧ NoInteger v f := by
  unfold Loses integerMember Shows
  cases shown : (Json.field? members key).bind Json.present? with
  | none => simp
  | some v =>
    dsimp only
    rw [integerOf_error (shows_not_null shown)]
    simp

theorem elements_error (present : v ≠ .null) :
    v.elements = .error f ↔ f = .wrongShape ∧ Single v := by
  cases v <;> simp [Json.elements, Single, eq_comm] at present ⊢

theorem elementsMember_loses :
    Loses (elementsMember members key) f ↔
      f = .wrongShape ∧ ∃ v, Shows members key v ∧ Single v := by
  have shape : ¬ Fault.isValue .wrongShape = true := by decide
  unfold Loses elementsMember Shows
  cases shown : (Json.field? members key).bind Json.present? with
  | none => simp
  | some v =>
    dsimp only
    rw [elements_error (shows_not_null shown)]
    constructor
    · rintro ⟨⟨rfl, single⟩, _⟩
      exact ⟨rfl, v, rfl, single⟩
    · rintro ⟨rfl, _, ⟨⟩, single⟩
      exact ⟨⟨rfl, single⟩, shape⟩

/-- Reading an object as a record stops with a cause in a value, or where a member is of a type that
is refused. -/
theorem ofJson_refuses : Loses (Record.ofJson (.obj members)) f ↔ Refuses members f := by
  have text := textMember_value members
  unfold Record.ofJson
  simp only [loses_bind_value (text _), loses_bind_value (gasLimit_value _), loses_bind,
    integerMember_loses, elementsMember_loses]
  constructor
  · rintro ⟨_, hash, _, chain, _, script, _, payload, stop⟩
    have opens : Opens members := ⟨⟨_, hash⟩, ⟨_, chain⟩, ⟨_, script⟩, ⟨_, payload⟩⟩
    rcases stop with ⟨v, shown, none⟩ | ⟨_, expiration, _, limit, stop⟩
    · exact .expiration opens shown none
    rcases stop with ⟨v, shown, none⟩ | ⟨_, carbonType, _, data, stop⟩
    · exact .carbonType opens ⟨_, expiration⟩ ⟨_, limit⟩ shown none
    rcases stop with ⟨rfl, v, shown, single⟩ | ⟨_, _, done⟩
    · exact .signatures opens ⟨_, expiration⟩ ⟨_, limit⟩ ⟨_, carbonType⟩ ⟨_, data⟩ shown single
    · exact absurd done (not_loses_ok _)
  · rintro (⟨⟨⟨_, hash⟩, ⟨_, chain⟩, ⟨_, script⟩, ⟨_, payload⟩⟩, shown, none⟩ |
      ⟨⟨⟨_, hash⟩, ⟨_, chain⟩, ⟨_, script⟩, ⟨_, payload⟩⟩, ⟨_, expiration⟩, ⟨_, limit⟩,
        shown, none⟩ |
      ⟨⟨⟨_, hash⟩, ⟨_, chain⟩, ⟨_, script⟩, ⟨_, payload⟩⟩, ⟨_, expiration⟩, ⟨_, limit⟩,
        ⟨_, carbonType⟩, ⟨_, data⟩, shown, single⟩)
    · exact ⟨_, hash, _, chain, _, script, _, payload, Or.inl ⟨_, shown, none⟩⟩
    · exact ⟨_, hash, _, chain, _, script, _, payload,
        Or.inr ⟨_, expiration, _, limit, Or.inl ⟨_, shown, none⟩⟩⟩
    · exact ⟨_, hash, _, chain, _, script, _, payload, Or.inr ⟨_, expiration, _, limit,
        Or.inr ⟨_, carbonType, _, data, Or.inl ⟨rfl, _, shown, single⟩⟩⟩⟩

theorem refuses_kind (h : Refuses members f) : f.kind ≠ .node := by
  cases h with
  | expiration _ _ none => cases none <;> decide
  | carbonType _ _ _ _ none => cases none <;> decide
  | signatures => decide

end ChainDecode.Node
