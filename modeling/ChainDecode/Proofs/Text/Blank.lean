import ChainDecode.Text.Blank

/-! # Blanks at the ends

Taking blanks off a text leaves none at its ends, and a text without any is left alone.
-/
namespace ChainDecode.Text

structure Bare (ls : List Letter) : Prop where
  front : ∀ l ∈ ls.head?, l.is isBlank = false
  back : ∀ l ∈ ls.getLast?, l.is isBlank = false

theorem bare_strip (t : Text) : Bare t.strip.letters := by
  have kept : ∀ (ls : List Letter) (l : Letter), l ∈ (ls.dropWhile (·.is isBlank)).head? →
      l.is isBlank = false := by
    intro ls l first
    have other := List.head?_dropWhile_not (·.is isBlank) ls
    rwa [first] at other
  refine ⟨fun l first => ?_, fun l last => ?_⟩
  · -- What is left of the letters after the end is taken off starts as they do.
    have front : t.strip.letters <+: stripFront t.letters := by
      have back := List.dropWhile_suffix (l := (stripFront t.letters).reverse) (·.is isBlank)
      simpa [strip, stripBack] using List.reverse_prefix.mpr back
    obtain ⟨rest, whole⟩ := front
    refine kept t.letters l ?_
    rw [← stripFront, ← whole, List.head?_append, first]
    rfl
  · rw [strip, stripBack, List.getLast?_reverse] at last
    exact kept _ l last

theorem Bare.strip {t : Text} (h : Bare t.letters) : t.strip = t := by
  have kept : ∀ ls : List Letter, (∀ l ∈ ls.head?, l.is isBlank = false) →
      ls.dropWhile (·.is isBlank) = ls := by
    intro ls inked
    cases ls with
    | nil => rfl
    | cons l rest => rw [List.dropWhile_cons_of_neg (by simp [inked l rfl])]
  have front : stripFront t.letters = t.letters := kept _ h.front
  have back : stripBack t.letters = t.letters := by
    rw [stripBack, kept _ (by simpa using h.back), List.reverse_reverse]
  rw [Text.strip, front, back]

theorem strip_inked {t : Text} (h : ∀ l ∈ t.letters, l.is isBlank = false) : t.strip = t :=
  Bare.strip ⟨fun l first => h l (List.mem_of_head? first),
    fun l last => h l (List.mem_of_getLast? last)⟩

theorem inked_strip (t : Text) : inked t.strip = inked t := by
  have kept : ∀ ls : List Letter,
      (ls.dropWhile (·.is isBlank)).filter (!·.is isBlank) = ls.filter (!·.is isBlank) := by
    intro ls
    induction ls with
    | nil => rfl
    | cons l ls ih =>
      by_cases blank : l.is isBlank = true
      · simp [blank, ih]
      · simp [blank]
  rw [inked, strip, stripBack, stripFront, List.filter_reverse, kept, ← List.filter_reverse,
    List.reverse_reverse, kept, inked]

def Around (outer inner : Text) : Prop :=
  ∃ front back : List Letter, outer.letters = front ++ inner.letters ++ back ∧
    ∀ l ∈ front ++ back, l.is isBlank = true

theorem Around.strip {outer inner : Text} (h : Around outer inner) (bare : Bare inner.letters)
    (some : inner.letters ≠ []) : outer.strip = inner := by
  have dropped : ∀ {blanks ls : List Letter}, (∀ l ∈ blanks, l.is isBlank = true) → ls ≠ [] →
      (∀ l ∈ ls.head?, l.is isBlank = false) →
        (blanks ++ ls).dropWhile (·.is isBlank) = ls := by
    intro blanks ls blank filled inked
    rw [List.dropWhile_append_of_pos blank]
    cases ls with
    | nil => exact absurd rfl filled
    | cons l ls => exact List.dropWhile_cons_of_neg (by simp [inked l rfl])
  obtain ⟨front, back, letters, blank⟩ := h
  obtain ⟨ahead, behind⟩ := List.forall_mem_append.mp blank
  have first : stripFront outer.letters = inner.letters ++ back := by
    rw [letters, List.append_assoc]
    refine dropped ahead (by simp [some]) fun l head => bare.front l ?_
    rwa [List.head?_append, Option.or_of_isSome (by simpa using some)] at head
  have last : stripBack (inner.letters ++ back) = inner.letters := by
    rw [stripBack, List.reverse_append, dropped (fun l member => behind l (by simpa using member))
      (by simpa using some) (by simpa using bare.back), List.reverse_reverse]
  rw [Text.strip, first, last]

end ChainDecode.Text
