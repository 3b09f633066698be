import Mathlib.Data.List.Induction
import Mathlib.Data.List.Nodup
import ChainDecode.Proofs.Abi.Appending

/-! # Entries that say the same again

A text of entries makes a table in which every key has each of its signatures once, in the order in
which they came first. An entry that is repeated later changes nothing, so only signatures that
differ make a call ambiguous.
-/
namespace ChainDecode.Abi

section Values

variable {α : Type}

/-- A list with values inserted behind a place where they stand already. -/
inductive Repeats (l : List α) : List α → Prop where
  | none : Repeats l l
  | again {front back : List α} {a : α} :
      Repeats l (front ++ back) → a ∈ front → Repeats l (front ++ a :: back)

theorem two_le_length_iff {l : List α} (h : l.Nodup) :
    2 ≤ l.length ↔ ∃ a ∈ l, ∃ b ∈ l, a ≠ b := by
  match l with
  | [] => simp
  | [a] => simp
  | a :: b :: rest =>
    have apart : a ≠ b := fun same => (List.nodup_cons.mp h).1 (same ▸ List.mem_cons_self)
    constructor
    · intro _
      exact ⟨a, List.mem_cons_self, b, List.mem_cons_of_mem _ List.mem_cons_self, apart⟩
    · intro _
      simp

variable [DecidableEq α]

theorem eraseDups_concat (l : List α) (a : α) :
    (l ++ [a]).eraseDups = if a ∈ l then l.eraseDups else l.eraseDups ++ [a] := by
  rw [List.eraseDups_append]
  by_cases known : a ∈ l
  · simp [List.removeAll, known]
  · simp [List.removeAll, known, List.eraseDups_cons]

theorem nodup_eraseDups (l : List α) : l.eraseDups.Nodup := by
  induction l using List.reverseRecOn with
  | nil => exact List.nodup_nil
  | append_singleton l a ih =>
    rw [eraseDups_concat]
    by_cases known : a ∈ l
    · rwa [if_pos known]
    · rw [if_neg known, ← List.concat_eq_append, List.nodup_concat, List.mem_eraseDups]
      exact ⟨known, ih⟩

end Values

/-- A signature with texts for names and types, and for the result if it is known. -/
structure PlainSignature where
  params : List (Text × Text)
  result : Option Text
  deriving DecidableEq, Repr

structure PlainEntry where
  key : Text
  signature : PlainSignature
  deriving DecidableEq, Repr

namespace PlainSignature

def arity (s : PlainSignature) : Nat := s.params.length

def signature (s : PlainSignature) : Signature :=
  ⟨s.params.map fun p => ⟨.str p.1, .str p.2⟩, s.result.elim .null .str⟩

theorem arity_signature (s : PlainSignature) : s.signature.arity = s.arity := by
  simp [signature, Signature.arity, arity]

theorem sameParams_iff (ps qs : List (Text × Text)) :
    sameParams (ps.map fun p => ⟨.str p.1, .str p.2⟩) (qs.map fun q => ⟨.str q.1, .str q.2⟩) =
      true ↔ ps = qs := by
  induction ps generalizing qs with
  | nil => cases qs <;> simp [sameParams]
  | cons p ps ih =>
    cases qs with
    | nil => simp [sameParams]
    | cons q qs => simp [sameParams, Param.same, Json.same, ih, Prod.ext_iff]

theorem same_iff (s t : PlainSignature) : s.signature.same t.signature = true ↔ s = t := by
  obtain ⟨params, result⟩ := s
  obtain ⟨others, other⟩ := t
  have results : (result.elim Json.null .str).same (other.elim Json.null .str) = true ↔
      result = other := by
    cases result <;> cases other <;> simp [Json.same, Json.sameNumber, Json.whole?]
  simp only [signature, Signature.same, Bool.and_eq_true, sameParams_iff, results,
    PlainSignature.mk.injEq]

end PlainSignature

namespace PlainEntry

def entry (e : PlainEntry) : Entry := ⟨e.key, e.signature.signature⟩

def pair? : Json → Option (Text × Text)
  | .arr [.str name, .str type] => some (name, type)
  | _ => none

def result? (record : Json) : Option (Option Text) :=
  match record.get? "returnType" with
  | none | some .null => some none
  | some (.str result) => some (some result)
  | some _ => none

def ofRecord? (record : Json) : Option PlainEntry := do
  let key ← (← record.get? "key").text?
  let params ← (← (← record.get? "params").items?).mapM pair?
  return ⟨key, params, ← result? record⟩

/-- The entries of a text, if it is a list of well-formed records. -/
def ofText? (text : Text) : Option (List PlainEntry) :=
  match Json.read text with
  | .ok (.arr records) => records.mapM ofRecord?
  | _ => none

end PlainEntry

theorem mapM_ok_of_some {α β γ : Type} {f : α → Option β} {g : α → Except Fault γ} {h : β → γ}
    (each : ∀ a b, f a = some b → g a = .ok (h b)) {items : List α} {parts : List β}
    (all : items.mapM f = some parts) : items.mapM g = .ok (parts.map h) := by
  induction items generalizing parts with
  | nil =>
    cases all
    rfl
  | cons a items ih =>
    rw [List.mapM_cons] at all
    obtain ⟨b, first, all⟩ := Option.bind_eq_some_iff.mp all
    obtain ⟨rest, others, all⟩ := Option.bind_eq_some_iff.mp all
    cases all
    rw [List.mapM_cons, each a b first, ih others]
    rfl

theorem required_of_get? {record v : Json} {key : Text} (h : record.get? key = some v) :
    record.required key = .ok v := by
  cases record with
  | obj members =>
    rw [Json.get?] at h
    simp [Json.required, h]
  | _ => cases h

theorem eq_str {v : Json} {t : Text} (h : v.text? = some t) : v = .str t := by
  cases v with
  | str s =>
    cases h
    rfl
  | _ => cases h

theorem eq_arr {v : Json} {items : List Json} (h : v.items? = some items) : v = .arr items := by
  cases v with
  | arr values =>
    cases h
    rfl
  | _ => cases h

theorem pairOf_of_pair? {v : Json} {p : Text × Text} (h : PlainEntry.pair? v = some p) :
    pairOf v = .ok ⟨.str p.1, .str p.2⟩ := by
  unfold PlainEntry.pair? at h
  split at h
  · cases h
    rfl
  · cases h

theorem result_of_result? {record : Json} {result : Option Text}
    (h : PlainEntry.result? record = some result) :
    (record.get? "returnType").getD .null = result.elim .null .str := by
  unfold PlainEntry.result? at h
  split at h
  · rename_i absent
    cases h
    rw [absent]
    rfl
  · rename_i null
    cases h
    rw [null]
    rfl
  · rename_i text given
    cases h
    rw [given]
    rfl
  · cases h

theorem entryOf_of_ofRecord? {record : Json} {e : PlainEntry}
    (h : PlainEntry.ofRecord? record = some e) : entryOf record = .ok e.entry := by
  unfold PlainEntry.ofRecord? at h
  obtain ⟨key, hasKey, h⟩ := Option.bind_eq_some_iff.mp h
  obtain ⟨keyText, isText, h⟩ := Option.bind_eq_some_iff.mp h
  obtain ⟨params, hasParams, h⟩ := Option.bind_eq_some_iff.mp h
  obtain ⟨items, areItems, h⟩ := Option.bind_eq_some_iff.mp h
  obtain ⟨pairs, arePairs, h⟩ := Option.bind_eq_some_iff.mp h
  obtain ⟨result, hasResult, h⟩ := Option.bind_eq_some_iff.mp h
  cases h
  have made : items.mapM pairOf = .ok (pairs.map fun p => ⟨.str p.1, .str p.2⟩) :=
    mapM_ok_of_some (fun _ _ => pairOf_of_pair?) arePairs
  rw [entryOf, required_of_get? hasKey, required_of_get? hasParams, eq_str isText,
    eq_arr areItems, result_of_result? hasResult]
  simp only [Json.elements, bind, Except.bind, made]
  rfl

theorem ofText_of_ofText? {text : Text} {entries : List PlainEntry}
    (h : PlainEntry.ofText? text = some entries) :
    Table.ofText text = .ok (.ofEntries (entries.map PlainEntry.entry)) := by
  unfold PlainEntry.ofText? at h
  split at h
  · rename_i records read
    simp only [Table.ofText, read, Json.elements]
    change (do return Table.ofEntries (← records.mapM entryOf)) = _
    rw [mapM_ok_of_some (fun _ _ => entryOf_of_ofRecord?) h]
    rfl
  · cases h

def plainListed (entries : List PlainEntry) (key : Text) : List PlainSignature :=
  (entries.filter fun e => e.key = key).map (·.signature)

theorem plainListed_concat (entries : List PlainEntry) (e : PlainEntry) (key : Text) :
    plainListed (entries ++ [e]) key =
      plainListed entries key ++ if e.key = key then [e.signature] else [] := by
  by_cases same : e.key = key
  · simp [plainListed, same]
  · simp [plainListed, same]

theorem text_beq (key other : Text) : ((key : Key) == (other : Key)) = decide (key = other) := by
  change Json.same (.str key) (.str other) = _
  rw [Json.same]

theorem signatures_learn (t : Table) (e : Entry) (key : Key) :
    (t.learn e).signatures key =
      if e.key == key && !(t.signatures e.key).any e.signature.same then
        t.signatures key ++ [e.signature]
      else t.signatures key := by
  change (if (t.signatures e.key).any e.signature.same then t
    else t.set e.key (t.signatures e.key ++ [e.signature])).signatures key = _
  cases (t.signatures e.key).any e.signature.same with
  | true => simp
  | false =>
    rw [if_neg Bool.false_ne_true, Table.signatures_set]
    by_cases same : (e.key == key) = true
    · simp [same, Table.signatures_congr same]
    · simp [same]

theorem any_same (known : List PlainSignature) (s : PlainSignature) :
    (known.eraseDups.map PlainSignature.signature).any s.signature.same = decide (s ∈ known) := by
  rw [Bool.eq_iff_iff, List.any_map, List.any_eq_true, decide_eq_true_eq]
  constructor
  · rintro ⟨t, member, same⟩
    rw [(PlainSignature.same_iff s t).mp same]
    exact List.mem_eraseDups.mp member
  · intro member
    exact ⟨s, List.mem_eraseDups.mpr member, (PlainSignature.same_iff s s).mpr rfl⟩

/-- Under every key the table has what entries give it, each signature at its first place. -/
def HasFirsts (t : Table) (entries : List PlainEntry) : Prop :=
  ∀ key : Text, t.signatures key =
    (plainListed entries key).eraseDups.map PlainSignature.signature

theorem HasFirsts.learn {t : Table} {entries : List PlainEntry} (h : HasFirsts t entries)
    (e : PlainEntry) : HasFirsts (t.learn e.entry) (entries ++ [e]) := by
  intro key
  have known := any_same (plainListed entries e.key) e.signature
  rw [← h] at known
  have same := text_beq e.key key
  rw [signatures_learn, plainListed_concat, h]
  simp only [PlainEntry.entry, known, same]
  by_cases here : e.key = key
  · subst here
    by_cases listed : e.signature ∈ plainListed entries e.key
    · simp [eraseDups_concat, listed]
    · simp [eraseDups_concat, listed]
  · simp [here]

theorem ofEntries_append (entries more : List Entry) :
    Table.ofEntries (entries ++ more) = more.foldl Table.learn (.ofEntries entries) :=
  List.foldl_append ..

theorem hasFirsts_ofEntries (entries : List PlainEntry) :
    HasFirsts (.ofEntries (entries.map PlainEntry.entry)) entries := by
  induction entries using List.reverseRecOn with
  | nil => exact fun _ => rfl
  | append_singleton entries e ih =>
    rw [List.map_append, ofEntries_append]
    exact ih.learn e

theorem learn_known {entries : List PlainEntry} {e : PlainEntry} (member : e ∈ entries) :
    (Table.ofEntries (entries.map PlainEntry.entry)).learn e.entry =
      .ofEntries (entries.map PlainEntry.entry) := by
  have listed : e.signature ∈ plainListed entries e.key :=
    List.mem_map.mpr ⟨e, List.mem_filter.mpr ⟨member, by simp⟩, rfl⟩
  have known := any_same (plainListed entries e.key) e.signature
  rw [← hasFirsts_ofEntries, decide_eq_true listed] at known
  exact if_pos known

theorem ofEntries_repeats {entries more : List PlainEntry} (h : Repeats entries more) :
    Table.ofEntries (more.map PlainEntry.entry) = .ofEntries (entries.map PlainEntry.entry) := by
  induction h with
  | none => rfl
  | again _ member ih =>
    rw [List.map_append, List.map_cons, ofEntries_append, List.foldl_cons, learn_known member,
      ← ofEntries_append, ← List.map_append, ih]

/-- What a table holds that entries were put into. -/
structure Holds (t : Table) (entries : List PlainEntry) : Prop where
  signatures : HasFirsts t entries
  ambiguous : ∀ (key : Text) arity, resolve (some t) key arity = .ambiguous ↔
    ∃ e ∈ entries, ∃ f ∈ entries, (e.key = key ∧ e.signature.arity = arity) ∧
      (f.key = key ∧ f.signature.arity = arity) ∧ e.signature ≠ f.signature

theorem holds_ofEntries (entries : List PlainEntry) :
    Holds (.ofEntries (entries.map PlainEntry.entry)) entries := by
  refine ⟨hasFirsts_ofEntries entries, fun key arity => ?_⟩
  have fits : fitting ((Table.ofEntries (entries.map PlainEntry.entry)).signatures key) arity =
      ((plainListed entries key).eraseDups.filter fun s => s.arity = arity).map
        PlainSignature.signature := by
    rw [hasFirsts_ofEntries, fitting, List.filter_map]
    congr 2
    funext s
    simp [PlainSignature.arity_signature]
  have nodup := (nodup_eraseDups (plainListed entries key)).filter fun s => s.arity = arity
  rw [Table.resolve_eq]
  change Resolution.ofMatches (fitting _ arity) = _ ↔ _
  rw [(resolves_ofMatches _).ambiguous, fits, List.length_map, two_le_length_iff nodup]
  simp only [List.mem_filter, List.mem_eraseDups, plainListed, List.mem_map, decide_eq_true_eq]
  constructor
  · rintro ⟨_, ⟨⟨e, ⟨member, here⟩, rfl⟩, size⟩, _, ⟨⟨f, ⟨member', here'⟩, rfl⟩, size'⟩, apart⟩
    exact ⟨e, member, f, member', ⟨here, size⟩, ⟨here', size'⟩, apart⟩
  · rintro ⟨e, member, f, member', ⟨here, size⟩, ⟨here', size'⟩, apart⟩
    exact ⟨_, ⟨⟨e, ⟨member, here⟩, rfl⟩, size⟩, _, ⟨⟨f, ⟨member', here'⟩, rfl⟩, size'⟩, apart⟩

/-- A list of well-formed records makes a table in which repetitions count once. Repeating records
later makes the same table. -/
theorem repetition_counts_once {text : Text} {entries : List PlainEntry}
    (plain : PlainEntry.ofText? text = some entries) :
    ∃ t, Table.ofText text = .ok t ∧ Holds t entries ∧
      ∀ later more, PlainEntry.ofText? later = some more → Repeats entries more →
        Table.ofText later = .ok t := by
  refine ⟨_, ofText_of_ofText? plain, holds_ofEntries entries, fun later more given repeats => ?_⟩
  rw [ofText_of_ofText? given, ofEntries_repeats repeats]

def payEntry (parameter : String) : PlainEntry :=
  ⟨"gas.Pay", [(parameter, "String")], none⟩

/-- A text of entries that name the parameter of `gas.Pay`. -/
def payText (parameters : List String) : Text :=
  "[" ++ Text.joined "," (parameters.map fun parameter =>
    "\x7b\"key\":\"gas.Pay\",\"params\":[[\"" ++ parameter ++ "\",\"String\"]]\x7d") ++ "]"

theorem repeated_pay_counts_once :
    PlainEntry.ofText? (payText ["to"]) = some [payEntry "to"] ∧
      PlainEntry.ofText? (payText ["to", "to"]) = some [payEntry "to", payEntry "to"] ∧
      ∃ t, Table.ofText (payText ["to"]) = .ok t ∧ Table.ofText (payText ["to", "to"]) = .ok t ∧
        resolve (some t) "gas.Pay" 1 ≠ .ambiguous := by
  have once : PlainEntry.ofText? (payText ["to"]) = some [payEntry "to"] := by decide +kernel
  have twice : PlainEntry.ofText? (payText ["to", "to"]) = some [payEntry "to", payEntry "to"] := by
    decide +kernel
  have again : Repeats [payEntry "to"] ([payEntry "to"] ++ [payEntry "to"]) :=
    .again .none List.mem_cons_self
  obtain ⟨t, made, holds, same⟩ := repetition_counts_once once
  refine ⟨once, twice, t, made, same _ _ twice again, ?_⟩
  rw [Ne, holds.ambiguous]
  rintro ⟨e, one, f, other, -, -, apart⟩
  rw [List.mem_singleton.mp one, List.mem_singleton.mp other] at apart
  exact apart rfl

end ChainDecode.Abi
