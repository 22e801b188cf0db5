import Mathlib.Data.List.Infix

/-!
# Anchored patterns

The fragment of regular expressions that route tables are written in: a pattern
starts at the beginning of the text (`^`), is a sequence of literals, choices
between literals and one-or-more repetitions of a character class, and may end
with `$`.  As in PCRE and in Python's `re`, `$` also matches before a final
newline.
-/

namespace Pattern

inductive Piece where
  | lit (text : List Char)              -- exactly these characters
  | alt (texts : List (List Char))      -- one of these, `(a|b|c)`
  | plus (cls : Char → Bool)            -- one or more of a class, `[...]+`

def atEnd : List Char → Bool
  | [] => true
  | [c] => c == '\n'
  | _ => false

/-- Match the pieces in order and let `stop` judge what is left. -/
def matchPieces (stop : List Char → Bool) : List Piece → List Char → Bool
  | [], rest => stop rest
  | .lit text :: pieces, l =>
      text.isPrefixOf l && matchPieces stop pieces (l.drop text.length)
  | .alt texts :: pieces, l =>
      texts.any fun text =>
        text.isPrefixOf l && matchPieces stop pieces (l.drop text.length)
  | .plus cls :: pieces, l =>
      (List.range l.length).any fun n =>
        (l.take (n + 1)).all cls && matchPieces stop pieces (l.drop (n + 1))

/-- `^pieces` or, with `toEnd`, `^pieces$`. -/
structure Regex where
  pieces : List Piece
  toEnd : Bool

def Regex.test (r : Regex) (l : List Char) : Bool :=
  matchPieces (if r.toEnd then atEnd else fun _ => true) r.pieces l

def Regex.head (r : Regex) : List Char :=
  match r.pieces with
  | .lit text :: _ => text
  | _ => []

theorem Regex.head_prefix {r : Regex} {l : List Char} (h : r.test l = true) : r.head <+: l := by
  obtain ⟨pieces, toEnd⟩ := r
  rcases pieces with _ | ⟨⟨text⟩ | ⟨texts⟩ | ⟨cls⟩, pieces⟩
  · exact List.nil_prefix
  · simp only [Regex.test, matchPieces, Bool.and_eq_true] at h
    exact List.isPrefixOf_iff_prefix.mp h.1
  · exact List.nil_prefix
  · exact List.nil_prefix

/-- Two texts that start the same list start one another. -/
theorem comparable_of_prefix {a b l : List Char} (ha : a <+: l) (hb : b <+: l) :
    a.isPrefixOf b || b.isPrefixOf a := by
  rcases List.prefix_or_prefix_of_prefix ha hb with h | h
  · simp [List.isPrefixOf_iff_prefix.mpr h]
  · simp [List.isPrefixOf_iff_prefix.mpr h]

/-- A pattern whose literal disagrees with how the text starts does not match it. -/
theorem Regex.test_eq_false_of_prefix {r : Regex} {text l : List Char} (hl : text <+: l)
    (hne : (r.head.isPrefixOf text || text.isPrefixOf r.head) = false) :
    r.test l = false := by
  by_contra h
  have hcomp := comparable_of_prefix (r.head_prefix (by simpa using h)) hl
  rw [hne] at hcomp
  cases hcomp

/-- A text that matches has the characters of every literal of the pattern. -/
theorem mem_of_matchPieces {stop : List Char → Bool} {pieces : List Piece} {text l : List Char}
    (h : matchPieces stop pieces l = true) (hmem : Piece.lit text ∈ pieces) {c : Char}
    (hc : c ∈ text) : c ∈ l := by
  induction pieces generalizing l with
  | nil => cases hmem
  | cons piece pieces ih =>
    cases piece with
    | lit first =>
      simp only [matchPieces, Bool.and_eq_true] at h
      rcases List.mem_cons.mp hmem with heq | hrest
      · cases heq
        exact (List.isPrefixOf_iff_prefix.mp h.1).subset hc
      · exact List.mem_of_mem_drop (ih h.2 hrest)
    | alt texts =>
      simp only [matchPieces, List.any_eq_true, Bool.and_eq_true] at h
      obtain ⟨choice, -, -, htail⟩ := h
      have hrest : Piece.lit text ∈ pieces := by simpa using hmem
      exact List.mem_of_mem_drop (ih htail hrest)
    | plus cls =>
      simp only [matchPieces, List.any_eq_true, Bool.and_eq_true] at h
      obtain ⟨n, -, -, htail⟩ := h
      have hrest : Piece.lit text ∈ pieces := by simpa using hmem
      exact List.mem_of_mem_drop (ih htail hrest)

theorem eq_newline_of_atEnd {rest : List Char} (h : atEnd rest = true) {c : Char} (hc : c ∈ rest) :
    c = '\n' := by
  rcases rest with _ | ⟨first, _ | ⟨second, rest⟩⟩
  · cases hc
  · rw [List.mem_singleton.mp hc]
    exact eq_of_beq h
  · cases h

/-- After the text of `^text$` there is at most a final newline. -/
theorem drop_mem_newline_of_test {text l : List Char} (h : Regex.test ⟨[.lit text], true⟩ l = true)
    {c : Char} (hc : c ∈ l.drop text.length) : c = '\n' := by
  simp only [Regex.test, matchPieces, Bool.and_eq_true, if_true] at h
  exact eq_newline_of_atEnd h.2 hc

/-- What `^text[...]+$` matches: the text, at least one character of the class, and the
    end. -/
theorem exists_word_of_test {text l : List Char} {cls : Char → Bool}
    (h : Regex.test ⟨[.lit text, .plus cls], true⟩ l = true) :
    ∃ c word rest, l = text ++ (c :: word ++ rest) ∧ (∀ d ∈ c :: word, cls d = true) ∧
      atEnd rest = true := by
  simp only [Regex.test, matchPieces, Bool.and_eq_true, List.any_eq_true, List.mem_range,
    if_true] at h
  obtain ⟨hstart, n, hn, hword, hend⟩ := h
  obtain ⟨tail, rfl⟩ := List.isPrefixOf_iff_prefix.mp hstart
  rw [List.drop_left] at hn hword hend
  rcases tail with _ | ⟨c, tail⟩
  · exact absurd hn (Nat.not_lt_zero n)
  · refine ⟨c, tail.take n, tail.drop n, ?_, List.all_eq_true.mp hword, hend⟩
    rw [List.cons_append, List.take_append_drop]

/-- What `^text(...|...)$` matches: the text, one of the choices, and the end. -/
theorem exists_choice_of_test {text l : List Char} {texts : List (List Char)}
    (h : Regex.test ⟨[.lit text, .alt texts], true⟩ l = true) :
    ∃ choice ∈ texts, ∃ rest, l = text ++ (choice ++ rest) ∧ atEnd rest = true := by
  simp only [Regex.test, matchPieces, Bool.and_eq_true, List.any_eq_true, if_true] at h
  obtain ⟨hstart, choice, hmem, hchoice, hend⟩ := h
  obtain ⟨tail, rfl⟩ := List.isPrefixOf_iff_prefix.mp hstart
  rw [List.drop_left] at hchoice hend
  obtain ⟨rest, rfl⟩ := List.isPrefixOf_iff_prefix.mp hchoice
  rw [List.drop_left] at hend
  exact ⟨choice, hmem, rest, rfl, hend⟩

theorem eq_nil_or_newline_of_atEnd {rest : List Char} (h : atEnd rest = true) :
    rest = [] ∨ rest = ['\n'] := by
  rcases rest with _ | ⟨c, _ | ⟨d, rest⟩⟩
  · exact Or.inl rfl
  · exact Or.inr (congrArg (fun c => [c]) (eq_of_beq h))
  · cases h

/-- A larger class matches more. -/
theorem test_plus_mono {text l : List Char} {cls cls' : Char → Bool}
    (hcls : ∀ c, cls c = true → cls' c = true)
    (h : Regex.test ⟨[.lit text, .plus cls], true⟩ l = true) :
    Regex.test ⟨[.lit text, .plus cls'], true⟩ l = true := by
  simp only [Regex.test, matchPieces, Bool.and_eq_true, List.any_eq_true, List.all_eq_true] at h ⊢
  obtain ⟨hstart, n, hn, hword, hend⟩ := h
  exact ⟨hstart, n, hn, fun c hc => hcls c (hword c hc), hend⟩

end Pattern
